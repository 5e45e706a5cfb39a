-- SUMMARY: What the package takes from Go's libraries, hexadecimal tokens, and the canonical form of an address.
import Sulis.Model.Types

/-!
# The platform

Cryptographic primitives and Unicode tables are parameters of the model: nothing
is assumed about them here. A result that needs one of them to behave, such as a
collision-free SHA-256, says so in its hypotheses.
-/

namespace Sulis

class Platform where
  /-- `hex.EncodeToString(sha256.Sum256(raw))` -/
  sha256Hex : String → String
  /-- The address `mail.ParseAddress` reads off its input, if it accepts it. -/
  parseAddress : String → Option String
  /-- `unicode.ToLower` -/
  toLowerRune : Char → Char
  /-- `norm.NFKC.String` -/
  nfkc : Bytes → Bytes
  /-- `hmac.New(sha256.New, key)` applied to a message. -/
  hmacSHA256 : (key message : Bytes) → Bytes
  /-- `argon2.IDKey` -/
  idKey : (password salt : Bytes) → (time memory : UInt32) → (threads : UInt8) →
    (keyLen : UInt32) → Bytes

/-! ## Hexadecimal -/

/-- A nibble as a lower-case hexadecimal digit. -/
def hexDigit (n : Nat) : Char :=
  if n < 10 then Char.ofNat (48 + n) else Char.ofNat (87 + n)

def hexByte (b : UInt8) : List Char := [hexDigit (b.toNat / 16), hexDigit (b.toNat % 16)]

/-- `hex.EncodeToString` -/
def hexEncodeToString (bs : Bytes) : String := String.ofList (bs.flatMap hexByte)

private theorem hexDigit_inj : ∀ m < 16, ∀ n < 16, hexDigit m = hexDigit n → m = n := by
  decide

theorem hexByte_inj {a b : UInt8} (h : hexByte a = hexByte b) : a = b := by
  simp only [hexByte, List.cons.injEq, and_true] at h
  have ha : a.toNat < 256 := a.toNat_lt
  have hb : b.toNat < 256 := b.toNat_lt
  have h₁ := hexDigit_inj _ (by omega) _ (by omega) h.1
  have h₂ := hexDigit_inj _ (by omega) _ (by omega) h.2
  exact UInt8.toNat_inj.mp (by omega)

private theorem flatMap_hexByte_inj (as bs : Bytes)
    (h : as.flatMap hexByte = bs.flatMap hexByte) : as = bs := by
  induction as generalizing bs with
  | nil =>
    cases bs with
    | nil => rfl
    | cons b bs => simp [hexByte] at h
  | cons a as ih =>
    cases bs with
    | nil => simp [hexByte] at h
    | cons b bs =>
      simp only [List.flatMap_cons] at h
      obtain ⟨hab, hrest⟩ := List.append_inj h (by simp [hexByte])
      rw [hexByte_inj hab, ih bs hrest]

/-- Different random draws are different tokens. -/
theorem hexEncodeToString_inj {as bs : Bytes} (h : hexEncodeToString as = hexEncodeToString bs) :
    as = bs :=
  flatMap_hexByte_inj as bs (String.ofList_injective h)

theorem length_hexEncodeToString (bs : Bytes) : (hexEncodeToString bs).length = 2 * bs.length := by
  rw [hexEncodeToString, String.length_ofList]
  induction bs with
  | nil => rfl
  | cons b bs ih =>
    simp only [List.flatMap_cons, List.length_append, ih, hexByte, List.length_cons,
      List.length_nil]
    omega

/-- `UUID.String` -/
def uuidString (id : UUID) : String :=
  let digits := (List.range 32).map (fun i => hexDigit (id.toNat / 16 ^ (31 - i) % 16))
  String.ofList (digits.take 8 ++ '-' :: (digits.drop 8).take 4 ++ '-' :: (digits.drop 12).take 4 ++
    '-' :: (digits.drop 16).take 4 ++ '-' :: digits.drop 20)

/-! ## Addresses -/

/-- `unicode.IsSpace` -/
def isSpace (c : Char) : Bool :=
  c.val ∈ ([0x09, 0x0A, 0x0B, 0x0C, 0x0D, 0x20, 0x85, 0xA0, 0x1680, 0x2028, 0x2029, 0x202F,
    0x205F, 0x3000] : List UInt32) || (0x2000 ≤ c.val && c.val ≤ 0x200A)

/-- `strings.TrimSpace` -/
def trimSpace (s : String) : String :=
  String.ofList ((s.toList.dropWhile isSpace).reverse.dropWhile isSpace).reverse

variable [Platform]

/-- `hashToken`: the stored form of a raw token. -/
def hashToken (raw : String) : String := Platform.sha256Hex raw

/-- `hashSessionToken`: the stored form of a raw session token. -/
def hashSessionToken (raw : String) : String := Platform.sha256Hex raw

/-- `strings.ToLower` -/
def toLower (s : String) : String := String.ofList (s.toList.map Platform.toLowerRune)

/-- `normalizeEmail`: trim, validate as a single bare address, lower-case. -/
def normalizeEmail (email : String) : Except Err String :=
  let email := trimSpace email
  if email = "" ∨ 254 < email.utf8ByteSize then .error .invalidEmail
  else
    match Platform.parseAddress email with
    | none => .error .invalidEmail
    | some address =>
      if address ≠ email then .error .invalidEmail
      else .ok (toLower email)

/-- The checks an address passes. -/
theorem normalizeEmail_eq_ok_iff {email address : String} :
    normalizeEmail email = .ok address ↔
      trimSpace email ≠ "" ∧ (trimSpace email).utf8ByteSize ≤ 254 ∧
        Platform.parseAddress (trimSpace email) = some (trimSpace email) ∧
          address = toLower (trimSpace email) := by
  simp only [normalizeEmail]
  constructor
  · intro h
    split at h
    · cases h
    · rename_i hsize
      split at h
      · cases h
      · rename_i parsed hparse
        split at h
        · cases h
        · rename_i hsame
          obtain ⟨hne, hle⟩ := not_or.mp hsize
          rw [not_not.mp hsame] at hparse
          exact ⟨hne, Nat.not_lt.mp hle, hparse, (Except.ok.inj h).symm⟩
  · rintro ⟨hne, hsize, hparse, rfl⟩
    rw [if_neg (not_or.mpr ⟨hne, Nat.not_lt.mpr hsize⟩), hparse]
    simp

theorem normalizeEmail_eq_ok {email address : String} (h : normalizeEmail email = .ok address) :
    trimSpace email ≠ "" ∧ address = toLower (trimSpace email) :=
  have hall := normalizeEmail_eq_ok_iff.mp h
  ⟨hall.1, hall.2.2.2⟩

end Sulis
