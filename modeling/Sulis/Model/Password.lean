-- SUMMARY: Password hashing: the encoded Argon2id form, its decoder, verification and the rehash test.
import Sulis.Model.Platform

/-!
# Password hashes

`password.go`. A stored hash is the text
`$argon2id$v=19$m=<memory>,t=<iterations>,p=<parallelism>$<salt>$<key>`, with
salt and key in unpadded base64.
-/

namespace Sulis

/-! ## `base64.RawStdEncoding` -/

def base64Char (n : Nat) : Char :=
  if n < 26 then Char.ofNat (65 + n)
  else if n < 52 then Char.ofNat (71 + n)
  else if n < 62 then Char.ofNat (n - 4)
  else if n = 62 then '+'
  else '/'

def base64Value (c : Char) : Option Nat :=
  if 'A' ≤ c ∧ c ≤ 'Z' then some (c.toNat - 65)
  else if 'a' ≤ c ∧ c ≤ 'z' then some (c.toNat - 71)
  else if '0' ≤ c ∧ c ≤ '9' then some (c.toNat + 4)
  else if c = '+' then some 62
  else if c = '/' then some 63
  else none

def base64Encode : Bytes → List Char
  | [] => []
  | [a] => [base64Char (a.toNat / 4), base64Char (a.toNat % 4 * 16)]
  | [a, b] =>
    [base64Char (a.toNat / 4), base64Char (a.toNat % 4 * 16 + b.toNat / 16),
      base64Char (b.toNat % 16 * 4)]
  | a :: b :: c :: rest =>
    base64Char (a.toNat / 4) :: base64Char (a.toNat % 4 * 16 + b.toNat / 16) ::
      base64Char (b.toNat % 16 * 4 + c.toNat / 64) :: base64Char (c.toNat % 64) ::
        base64Encode rest

/-- Four values make three bytes; two or three left over make one or two. The
    spare bits of an incomplete group are not looked at. -/
def base64Quanta : List Nat → Option Bytes
  | [] => some []
  | [_] => none
  | [a, b] => some [UInt8.ofNat (a * 4 + b / 16)]
  | [a, b, c] => some [UInt8.ofNat (a * 4 + b / 16), UInt8.ofNat (b % 16 * 16 + c / 4)]
  | a :: b :: c :: d :: rest => do
    let tail ← base64Quanta rest
    return UInt8.ofNat (a * 4 + b / 16) :: UInt8.ofNat (b % 16 * 16 + c / 4) ::
      UInt8.ofNat (c % 4 * 64 + d) :: tail

/-- The decoder skips line breaks. -/
def base64Decode (cs : List Char) : Option Bytes :=
  ((cs.filter (fun c => c ≠ '\n' ∧ c ≠ '\r')).mapM base64Value).bind base64Quanta

/-! ## `fmt.Sscanf` with `%d` -/

/-- Spaces before a number are skipped, but a line break is an error. -/
def skipSpace : List Char → Option (List Char)
  | [] => some []
  | c :: rest =>
    if c = '\n' then none
    else if isSpace c then skipSpace rest
    else some (c :: rest)

def decimalValue (digits : List Char) : Nat :=
  digits.foldl (fun n c => 10 * n + (c.toNat - 48)) 0

/-- `%d` into an unsigned integer of the given width. -/
def scanUint (bits : Nat) (cs : List Char) : Option (Nat × List Char) := do
  let cs ← skipSpace cs
  let digits := cs.takeWhile Char.isDigit
  let n := decimalValue digits
  if digits = [] ∨ 2 ^ bits ≤ n then none
  else some (n, cs.drop digits.length)

/-- `%d` into an `int`. -/
def scanInt (cs : List Char) : Option (Int × List Char) := do
  let cs ← skipSpace cs
  let (negative, cs) :=
    match cs with
    | '-' :: rest => (true, rest)
    | '+' :: rest => (false, rest)
    | _ => (false, cs)
  let digits := cs.takeWhile Char.isDigit
  let n : Int := if negative then -(decimalValue digits : Int) else decimalValue digits
  if digits = [] ∨ n < -2 ^ 63 ∨ 2 ^ 63 ≤ n then none
  else some (n, cs.drop digits.length)

/-- A literal part of the format. -/
def scanLit (lit : String) (cs : List Char) : Option (List Char) :=
  if lit.toList.isPrefixOf cs then some (cs.drop lit.length) else none

/-- `fmt.Sscanf(s, "v=%d", &version)` -/
def scanVersion (cs : List Char) : Option Int := do
  let cs ← scanLit "v=" cs
  let (version, _) ← scanInt cs
  return version

/-- `fmt.Sscanf(s, "m=%d,t=%d,p=%d", &Memory, &Iterations, &Parallelism)` -/
def scanParams (cs : List Char) : Option (UInt32 × UInt32 × UInt8) := do
  let cs ← scanLit "m=" cs
  let (m, cs) ← scanUint 32 cs
  let cs ← scanLit ",t=" cs
  let (t, cs) ← scanUint 32 cs
  let cs ← scanLit ",p=" cs
  let (p, _) ← scanUint 8 cs
  return (UInt32.ofNat m, UInt32.ofNat t, UInt8.ofNat p)

/-! ## Hashing and verifying -/

/-- `argon2.Version` -/
def argon2Version : Nat := 19

/-- `decodeHash`: parameters, salt and key of an encoded hash. -/
def decodeHash (encoded : String) : Except Err (Argon2Params × Bytes × Bytes) :=
  match encoded.toList.splitOn '$' with
  | [_, algorithm, version, params, salt, hash] =>
    if algorithm ≠ "argon2id".toList then
      .error (.other ("sulis: unsupported algorithm " ++ (String.ofList algorithm).quote))
    else
      match scanVersion version with
      | none => .error (.wrap "sulis: parsing version" (.other "input does not match format"))
      | some v =>
        if v ≠ argon2Version then
          .error (.other ("sulis: unsupported argon2 version " ++ toString v))
        else
          match scanParams params with
          | none => .error (.wrap "sulis: parsing params" (.other "input does not match format"))
          | some (memory, iterations, parallelism) =>
            match base64Decode salt with
            | none => .error (.wrap "sulis: decoding salt" (.other "illegal base64 data"))
            | some salt =>
              match base64Decode hash with
              | none => .error (.wrap "sulis: decoding hash" (.other "illegal base64 data"))
              | some hash =>
                if parallelism = 0 ∨ (iterations = 0 ∨ 1024 < iterations) ∨
                    (memory < 8 * parallelism.toUInt32 ∨ 4194304 < memory) ∨
                    (salt.length < 8 ∨ 64 < salt.length) ∨
                    (hash.length < 16 ∨ 128 < hash.length) then
                  .error (.other "sulis: hash parameters out of bounds")
                else
                  .ok
                    (⟨memory, iterations, parallelism, UInt32.ofNat salt.length,
                      UInt32.ofNat hash.length⟩, salt, hash)
  | _ => .error (.other "sulis: invalid hash format")

variable [Platform]

/-- `normalizePassword` -/
def normalizePassword (password : Bytes) : Bytes := Platform.nfkc password

/-- `applyPepper`: key the candidate with the pepper, if there is one. -/
def applyPepper (candidate pepper : Bytes) : Bytes :=
  if pepper = [] then candidate else Platform.hmacSHA256 pepper candidate

/-- `hashPassword`, with the salt it draws as an argument. -/
def hashPassword (password : Bytes) (params : Argon2Params) (pepper salt : Bytes) : String :=
  let hash := Platform.idKey (applyPepper (normalizePassword password) pepper) salt
    params.iterations params.memory params.parallelism params.keyLength
  "$argon2id$v=" ++ toString argon2Version ++
    "$m=" ++ toString params.memory.toNat ++
    ",t=" ++ toString params.iterations.toNat ++
    ",p=" ++ toString params.parallelism.toNat ++
    "$" ++ String.ofList (base64Encode salt) ++
    "$" ++ String.ofList (base64Encode hash)

/-- `verifyPassword`: whether the password matches, and whether only in the form
    it had before normalization was introduced. -/
def verifyPassword (password : Bytes) (encoded : String) (pepper : Bytes) :
    Except Err (Bool × Bool) :=
  match decodeHash encoded with
  | .error err => .error err
  | .ok (params, salt, hash) =>
    let compare (candidate : Bytes) : Bool :=
      hash == Platform.idKey (applyPepper candidate pepper) salt
        params.iterations params.memory params.parallelism params.keyLength
    let normalized := normalizePassword password
    if compare normalized then .ok (true, false)
    else if normalized = password then .ok (false, false)
    else if compare password then .ok (true, true)
    else .ok (false, false)

omit [Platform] in
/-- `needsRehash`: the stored hash is weaker than the parameters wanted now. -/
def needsRehash (encoded : String) (want : Argon2Params) : Bool :=
  match decodeHash encoded with
  | .error _ => false
  | .ok (got, _, _) =>
    got.memory < want.memory || got.iterations < want.iterations ||
      got.parallelism < want.parallelism

/-- A hash is never the empty text that marks a passwordless user. -/
theorem hashPassword_ne_empty (password : Bytes) (params : Argon2Params) (pepper salt : Bytes) :
    hashPassword password params pepper salt ≠ "" := by
  have step : ∀ {s t : String}, s ≠ "" → s ++ t ≠ "" :=
    fun hs h => hs (String.append_eq_empty_iff.mp h).1
  unfold hashPassword
  iterate 11 refine step ?_
  decide

end Sulis
