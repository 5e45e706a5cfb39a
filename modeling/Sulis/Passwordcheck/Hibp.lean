-- SUMMARY: The breach check over the range API: the scanner over a capped body, the rows, and what becomes of them.
import Sulis.Model.Types

/-!
# Checking a password against the range API

`passwordcheck/hibp.go`. The body of an answer is read through a reader that stops after a
mebibyte without saying so, and cut into lines by a scanner that refuses long ones.
-/

namespace Sulis.Passwordcheck

/-- The sentinels of the package and of `bufio`, and what `fmt.Errorf` builds. -/
inductive Err
  | compromised
  | malformedResponse
  /-- `bufio.ErrTooLong` -/
  | tooLong
  /-- An error with a text of its own. -/
  | other (text : String)
  /-- `fmt.Errorf("<text>: %w", err)` -/
  | wrap (text : String) (err : Err)
  /-- `fmt.Errorf("%w: <text>: %w", err, cause)` -/
  | wrapBoth (err : Err) (text : String) (cause : Err)
  deriving DecidableEq, Repr

/-- `errors.Is(err, ErrCompromised)` -/
def Err.isCompromised : Err → Bool
  | .compromised => true
  | .wrap _ err => err.isCompromised
  | .wrapBoth err _ cause => err.isCompromised || cause.isCompromised
  | _ => false

/-- What the package takes from Go's libraries. -/
class Strings where
  /-- `strings.TrimSpace` -/
  trimSpace : Bytes → Bytes
  /-- `strings.EqualFold` -/
  equalFold : Bytes → Bytes → Bool
  /-- `strings.ToLower` -/
  toLower : Bytes → Bytes
  /-- `sha1.Sum` -/
  sha1 : Bytes → { sum : Bytes // sum.length = 20 }

/-- A letter of ASCII in lower case. -/
def lowerASCII (b : UInt8) : UInt8 := if 65 ≤ b ∧ b ≤ 90 then b + 32 else b

def blankASCII (b : UInt8) : Bool := b = 32 ∨ (9 ≤ b ∧ b ≤ 13)

/-- The libraries on ASCII text, and a hash of zeros. -/
@[reducible] def ascii : Strings where
  trimSpace text := ((text.dropWhile blankASCII).reverse.dropWhile blankASCII).reverse
  equalFold a b := a.map lowerASCII == b.map lowerASCII
  toLower text := text.map lowerASCII
  sha1 _ := ⟨List.replicate 20 0, List.length_replicate⟩

/-! ## Numbers -/

/-- The value of decimal digits, if they are all digits and there is one. -/
def decimal (digits : Bytes) : Option Nat :=
  if digits = [] then none
  else digits.foldl (fun acc b => acc.bind fun n =>
    if 48 ≤ b.toNat ∧ b.toNat ≤ 57 then some (n * 10 + (b.toNat - 48)) else none) (some 0)

/-- The integer a text denotes, with or without a sign. -/
def integer (text : Bytes) : Option Int :=
  match text with
  | [] => none
  | sign :: digits =>
    if sign = 43 then (decimal digits).map Int.ofNat
    else if sign = 45 then (decimal digits).map fun n => -(n : Int)
    else (decimal text).map Int.ofNat

/-- `strconv.ParseInt(text, 10, 64)` -/
def parseInt (text : Bytes) : Except Err Int :=
  match integer text with
  | none => .error (.other "strconv.ParseInt: invalid syntax")
  | some n =>
    if -(2 : Int) ^ 63 ≤ n ∧ n < 2 ^ 63 then .ok n
    else .error (.other "strconv.ParseInt: value out of range")

/-! ## Lines -/

/-- The pieces between line feeds. The last one has none after it. -/
def pieces : Bytes → List Bytes
  | [] => [[]]
  | b :: rest =>
    match pieces rest with
    | [] => [[b]]
    | piece :: others => if b = 10 then [] :: piece :: others else (b :: piece) :: others

/-- A carriage return before the line feed goes. -/
def dropCR (piece : Bytes) : Bytes := if piece.getLast? = some 13 then piece.dropLast else piece

/-- `bufio.MaxScanTokenSize` -/
def maxScanTokenSize : Nat := 64 * 1024

/-- `maxHIBPResponse` -/
def maxHIBPResponse : Nat := 2 ^ 20

/-- What `bufio.Scanner` makes of the pieces: the lines up to the first that does not fit into its
    buffer with its line feed, and whether there was such a line. The last piece has no line feed.
    If it fills the buffer, it fits only if the reader reports the end together with it. -/
def scan (endWithData : Bool) : List Bytes → List Bytes × Bool
  | [] => ([], false)
  | [last] =>
    if last = [] then ([], false)
    else if last.length < maxScanTokenSize ∨ last.length = maxScanTokenSize ∧ endWithData = true then
      ([dropCR last], false)
    else ([], true)
  | piece :: rest =>
    if maxScanTokenSize ≤ piece.length then ([], true)
    else (dropCR piece :: (scan endWithData rest).1, (scan endWithData rest).2)

/-- `strings.Cut(text, ":")` -/
def cutColon : Bytes → Option (Bytes × Bytes)
  | [] => none
  | b :: rest => if b = 58 then some ([], rest) else (cutColon rest).map fun p => (b :: p.1, p.2)

/-! ## The check -/

section

variable [Strings]


/-- One turn of the loop in `lookup`: a verdict, or on to the next line. -/
def readRow (suffix line : Bytes) : Option (Except Err Bool) :=
  match cutColon (Strings.trimSpace line) with
  | none => none
  | some (rowSuffix, count) =>
    if ¬ Strings.equalFold rowSuffix suffix then none
    else
      match parseInt (Strings.trimSpace count) with
      | .error err => some (.error (.wrapBoth .malformedResponse "row for matching suffix" err))
      | .ok n => if n ≤ 0 then none else some (.ok true)

/-- The loop, and what the scanner has to say after it. -/
def scanRows (suffix : Bytes) (tooLong : Bool) : List Bytes → Except Err Bool
  | [] => if tooLong then .error (.wrap "passwordcheck: reading range response" .tooLong) else .ok false
  | line :: rest =>
    match readRow suffix line with
    | some r => r
    | none => scanRows suffix tooLong rest

/-- What comes of a request. -/
inductive Exchange
  /-- `http.NewRequestWithContext` fails. -/
  | unbuildable (err : Err)
  /-- `client.Do` fails. -/
  | failed (err : Err)
  /-- A body that is delivered in full, with the last read reporting the end or not. -/
  | answered (status : Nat) (statusText : String) (body : Bytes) (endWithData : Bool)

/-- `lookup`, with the answer of the service to the range that is asked for. -/
def lookup (suffix : Bytes) : Exchange → Except Err Bool
  | .unbuildable err => .error (.wrap "passwordcheck: building range request" err)
  | .failed err => .error (.wrap "passwordcheck: range lookup" err)
  | .answered status statusText body endWithData =>
    if status ≠ 200 then
      .error (.other ("passwordcheck: range lookup: unexpected status " ++ statusText))
    else
      -- Where `io.LimitReader` cuts a body, it reports the end with a read of its own.
      let scanned := scan (endWithData && decide (body.length ≤ maxHIBPResponse))
        (pieces (body.take maxHIBPResponse))
      scanRows suffix scanned.2 scanned.1

/-- An upper-case hexadecimal digit. -/
def upperHexDigit (n : Nat) : UInt8 := UInt8.ofNat (if n < 10 then 48 + n else 55 + n)

/-- `strings.ToUpper(hex.EncodeToString(sum))` -/
def upperHex (sum : Bytes) : Bytes :=
  sum.flatMap fun b => [upperHexDigit (b.toNat / 16), upperHexDigit (b.toNat % 16)]

structure HIBP where
  failClosed : Bool := false

/-- `Check`, with the service as a function of the five digits that are sent to it. -/
def HIBP.check (h : HIBP) (service : Bytes → Exchange) (password : Bytes) : Except Err Unit :=
  if password = [] then .ok ()
  else
    let full := upperHex (Strings.sha1 password).1
    match lookup (full.drop 5) (service (full.take 5)) with
    | .error err => if h.failClosed then .error err else .ok ()
    | .ok found => if found then .error .compromised else .ok ()

end

end Sulis.Passwordcheck
