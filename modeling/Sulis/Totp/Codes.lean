-- SUMMARY: Base32, time steps, the code of a time step, the search for a matching one, and the enrollment URI.
import Sulis.Totp.Types

/-!
# Codes

HMAC is a parameter: nothing is assumed about it but that a sum has at least the 20
bytes of SHA-1. `matchCode` tries the time steps of the window from the oldest on.
-/

namespace Sulis.Totp

/-- What the package takes from Go's libraries. -/
class Digest where
  /-- `hmac.New(algorithm.hash(), key)` applied to a message. -/
  hmac : Algorithm → (key message : Bytes) → { sum : Bytes // 20 ≤ sum.length }
  /-- `unicode.ToUpper` -/
  toUpperRune : Char → Char

/-! ## Base32 -/

def base32Alphabet : List Char := "ABCDEFGHIJKLMNOPQRSTUVWXYZ234567".toList

/-- The character of the low five bits. -/
def base32Char (n : Nat) : Char := base32Alphabet.getD (n % 32) 'A'

def base32Chars : List Nat → List Char
  | a :: b :: c :: d :: e :: rest =>
    [a / 8, a * 4 + b / 64, b / 2, b * 16 + c / 16, c * 2 + d / 128, d / 4, d * 8 + e / 32, e].map
      base32Char ++ base32Chars rest
  | [a, b, c, d] =>
    [a / 8, a * 4 + b / 64, b / 2, b * 16 + c / 16, c * 2 + d / 128, d / 4, d * 8].map base32Char
  | [a, b, c] => [a / 8, a * 4 + b / 64, b / 2, b * 16 + c / 16, c * 2].map base32Char
  | [a, b] => [a / 8, a * 4 + b / 64, b / 2, b * 16].map base32Char
  | [a] => [a / 8, a * 4].map base32Char
  | [] => []

/-- `base32.StdEncoding.WithPadding(base32.NoPadding).EncodeToString` -/
def base32EncodeToString (bs : Bytes) : String := String.ofList (base32Chars (bs.map UInt8.toNat))

/-- Eight characters are five bytes. Of an incomplete group the decoder keeps the whole
    bytes if its length is that of an encoding, and nothing otherwise. -/
def base32Bytes : List Nat → List Nat
  | a :: b :: c :: d :: e :: f :: g :: h :: rest =>
    [a * 8 + b / 4, b * 64 + c * 2 + d / 16, d * 16 + e / 2, e * 128 + f * 4 + g / 8, g * 32 + h] ++
      base32Bytes rest
  | [a, b, c, d, e, f, g] =>
    [a * 8 + b / 4, b * 64 + c * 2 + d / 16, d * 16 + e / 2, e * 128 + f * 4 + g / 8]
  | [a, b, c, d, e] => [a * 8 + b / 4, b * 64 + c * 2 + d / 16, d * 16 + e / 2]
  | [a, b, c, d] => [a * 8 + b / 4, b * 64 + c * 2 + d / 16]
  | [a, b] => [a * 8 + b / 4]
  | _ => []

/-- `DecodeString` of the same encoding: line breaks are skipped, and any other character
    outside the alphabet is an error. -/
def base32DecodeString (s : String) : Option Bytes :=
  let chars := s.toList.filter (fun c => c ≠ '\r' ∧ c ≠ '\n')
  (chars.mapM (fun c => base32Alphabet.idxOf? c)).map
    (fun values => (base32Bytes values).map UInt8.ofNat)

/-! ## Time steps and codes -/

/-- `t.Unix()` -/
def unix (t : Time) : Int := t / second

/-- `counterAt`: the time step, undefined before the epoch. -/
def counterAt (t : Time) (period : Nat) : Option Nat :=
  if unix t < 0 then none else some ((unix t).toNat / period)

/-- `binary.BigEndian.PutUint64` -/
def putUint64 (n : Nat) : Bytes :=
  (List.range 8).map (fun i => UInt8.ofNat (n / 256 ^ (7 - i) % 256))

/-- `binary.BigEndian.Uint32` of the four bytes from `offset` on. -/
def uint32At (bs : Bytes) (offset : Nat) : Nat :=
  ((List.range 4).map (fun i => (bs.getD (offset + i) 0).toNat)).foldl (fun n b => n * 256 + b) 0

/-- `fmt.Sprintf("%0<digits>d", n)` -/
def sprintfPadded (digits n : Nat) : String :=
  String.ofList ((Nat.toDigits 10 n).leftpad digits '0')

section

variable [Digest]

/-- The code of a sum: dynamic truncation, and as many decimal digits as configured. The
    slice is within the sum, whose last byte gives an offset below 16. -/
def truncate (digits : Nat) (sum : { sum : Bytes // 20 ≤ sum.length }) : String :=
  let offset := (sum.1.getD (sum.1.length - 1) 0).toNat % 16
  let binCode := uint32At sum.1 offset % 2 ^ 31
  sprintfPadded digits (binCode % 10 ^ digits)

/-- `strings.ToUpper` -/
def toUpper (s : String) : String := String.ofList (s.toList.map Digest.toUpperRune)

/-- `generateCode`. Its two errors, a secret that does not decode and a time before the
    epoch, are `none`: whoever calls it passes on to the next time step. -/
def generateCode (secret : String) (t : Time) (cfg : Config) : Option String := do
  let secretBytes ← base32DecodeString (toUpper secret)
  let counter ← counterAt t cfg.period
  return truncate cfg.digits (Digest.hmac cfg.algorithm secretBytes (putUint64 counter))

/-- `subtle`: compare all bytes, whatever the first difference is. -/
def subtle (a b : String) : Bool :=
  if a.utf8ByteSize ≠ b.utf8ByteSize then false
  else ((a.toUTF8.data.toList.zipWith (· ^^^ ·) b.toUTF8.data.toList).foldl (· ||| ·) 0) = 0

/-- The loop of `matchCode`, over the time steps that are left. -/
def matchCodeLoop (secret code : String) (t : Time) (cfg : Config) : List Int → Option Nat
  | [] => none
  | i :: rest =>
    let shifted := t + i * cfg.period * second
    match generateCode secret shifted cfg with
    | none => matchCodeLoop secret code t cfg rest
    | some expected =>
      if subtle code expected then
        match counterAt shifted cfg.period with
        | none => matchCodeLoop secret code t cfg rest
        | some counter => some counter
      else matchCodeLoop secret code t cfg rest

/-- `matchCode`: the time step whose code this is, if there is one in the window. -/
def matchCode (cfg : Config) (secret code : String) (t : Time) : Option Nat :=
  matchCodeLoop secret code t cfg
    ((List.range (2 * cfg.skew + 1)).map (fun i => (i : Int) - cfg.skew))

end

/-! ## The enrollment URI -/

/-- The characters `net/url` never escapes. -/
def unreserved (b : UInt8) : Bool :=
  let c := Char.ofNat b.toNat
  ('a' ≤ c ∧ c ≤ 'z') ∨ ('A' ≤ c ∧ c ≤ 'Z') ∨ ('0' ≤ c ∧ c ≤ '9') ∨ c ∈ ['-', '_', '.', '~']

def upperHex (n : Nat) : Char := "0123456789ABCDEF".toList.getD (n % 16) '0'

def percentEncode (b : UInt8) : List Char := ['%', upperHex (b.toNat / 16), upperHex b.toNat]

/-- `url.PathEscape`: some of the reserved characters have no meaning within a segment. -/
def pathEscape (s : String) : String :=
  String.ofList (s.toUTF8.data.toList.flatMap (fun b =>
    if unreserved b ∨ Char.ofNat b.toNat ∈ ['$', '&', '+', ':', '=', '@'] then [Char.ofNat b.toNat]
    else percentEncode b))

/-- `url.QueryEscape` -/
def queryEscape (s : String) : String :=
  String.ofList (s.toUTF8.data.toList.flatMap (fun b =>
    if Char.ofNat b.toNat = ' ' then ['+']
    else if unreserved b then [Char.ofNat b.toNat]
    else percentEncode b))

/-- `buildOTPAuthURI`: `Values.Encode` sorts the parameters by name. -/
def buildOTPAuthURI (issuer account secret : String) (cfg : Config) : String :=
  let values := [("algorithm", cfg.algorithm.string), ("digits", toString cfg.digits),
    ("issuer", issuer), ("period", toString cfg.period), ("secret", secret)]
  let query := String.intercalate "&" (values.map (fun v => queryEscape v.1 ++ "=" ++ queryEscape v.2))
  "otpauth://totp/" ++ pathEscape issuer ++ ":" ++ pathEscape account ++ "?" ++ query

end Sulis.Totp
