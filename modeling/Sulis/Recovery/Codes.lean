-- SUMMARY: Recovery codes: how they are displayed, how what a user types is read, and that neither loses a code.
import Sulis.Model.Platform
import Sulis.Totp.Codes

/-!
# Recovery codes

The codes of `recovery/recovery.go`. A Go string is the runes that `range` yields of it.
-/

namespace Sulis.Recovery

open Totp (base32Char base32Chars base32Alphabet base32EncodeToString)

/-- What the package takes from Go's libraries. -/
class Unicode where
  /-- `unicode.ToUpper` beyond ASCII. -/
  toUpperBeyond : Char → Char
  /-- `hex.EncodeToString(sha256.Sum256(text))` -/
  sha256Hex : String → String

/-! ## Codes -/

/-- `codeBytes` -/
def codeBytes : Nat := 10

/-- Blocks of four. -/
def groups : List Char → List (List Char)
  | a :: b :: c :: d :: rest => [a, b, c, d] :: groups rest
  | [] => []
  | rest => [rest]

/-- `formatCode` -/
def formatCode (s : String) : String := String.ofList (['-'].intercalate (groups s.toList))

/-- `generateCode`, for the bytes that were drawn. `strings.ToLower` gets ASCII. -/
def generateCode (b : Bytes) : String :=
  formatCode (String.ofList ((base32EncodeToString b).toList.map Char.toLower))

/-- A dash or white space. -/
def ignored (c : Char) : Bool := c = '-' || isSpace c

/-! ## Base32 -/

private theorem base32_case : ∀ c ∈ base32Alphabet,
    ignored c.toLower = false ∧ c.toLower.toNat < 128 ∧ c.toLower.toUpper = c := by
  have hall : base32Alphabet.all fun c =>
      ignored c.toLower = false ∧ c.toLower.toNat < 128 ∧ c.toLower.toUpper = c := by decide
  exact fun c hc => of_decide_eq_true (List.all_eq_true.mp hall c hc)

theorem base32Char_mem (n : Nat) : base32Char n ∈ base32Alphabet := by
  have htable : ∀ n < 32, base32Alphabet.getD n 'A' ∈ base32Alphabet := by decide
  exact htable _ (Nat.mod_lt n (by decide))

theorem base32Chars_mem (ns : List Nat) : ∀ c ∈ base32Chars ns, c ∈ base32Alphabet := by
  fun_induction base32Chars ns with
  | case1 a b c d e rest ih =>
    intro x hx
    rcases List.mem_append.mp hx with hx | hx
    · obtain ⟨n, -, rfl⟩ := List.mem_map.mp hx
      exact base32Char_mem n
    · exact ih x hx
  | case2 | case3 | case4 | case5 =>
    intro x hx
    obtain ⟨n, -, rfl⟩ := List.mem_map.mp hx
    exact base32Char_mem n
  | case6 => simp

private theorem idxOf_base32Char (n : Nat) : base32Alphabet.idxOf (base32Char n) = n % 32 := by
  have htable : ∀ n < 32, base32Alphabet.idxOf (base32Alphabet.getD n 'A') = n := by decide
  exact htable _ (Nat.mod_lt n (by decide))

theorem base32Char_inj {m n : Nat} (h : base32Char m = base32Char n) : m % 32 = n % 32 := by
  rw [← idxOf_base32Char, ← idxOf_base32Char, h]

-- Each character has bits of one or two bytes: its own value is settled by the one before, and it
-- settles the high bits of the next.

private theorem first_byte {a a' b b' : Nat} (ha : a < 256) (ha' : a' < 256) (hb : b < 256)
    (hb' : b' < 256) (h₁ : a / 8 % 32 = a' / 8 % 32)
    (h₂ : (a * 4 + b / 64) % 32 = (a' * 4 + b' / 64) % 32) : a = a' ∧ b / 64 = b' / 64 := by
  omega

private theorem second_byte {b b' c c' : Nat} (hb : b < 256) (hb' : b' < 256) (hc : c < 256)
    (hc' : c' < 256) (hhigh : b / 64 = b' / 64) (h₃ : b / 2 % 32 = b' / 2 % 32)
    (h₄ : (b * 16 + c / 16) % 32 = (b' * 16 + c' / 16) % 32) : b = b' ∧ c / 16 = c' / 16 := by
  omega

private theorem third_byte {c c' d d' : Nat} (hd : d < 256) (hd' : d' < 256)
    (hhigh : c / 16 = c' / 16) (h₅ : (c * 2 + d / 128) % 32 = (c' * 2 + d' / 128) % 32) :
    c = c' ∧ d / 128 = d' / 128 := by
  omega

private theorem fourth_byte {d d' e e' : Nat} (hd : d < 256) (hd' : d' < 256) (he : e < 256)
    (he' : e' < 256) (hhigh : d / 128 = d' / 128) (h₆ : d / 4 % 32 = d' / 4 % 32)
    (h₇ : (d * 8 + e / 32) % 32 = (d' * 8 + e' / 32) % 32) : d = d' ∧ e / 32 = e' / 32 := by
  omega

/-- The first eight characters determine the first five bytes. -/
theorem base32Chars_inj_block {a b c d e a' b' c' d' e' : UInt8} {rest rest' : List Nat}
    (h : base32Chars (a.toNat :: b.toNat :: c.toNat :: d.toNat :: e.toNat :: rest) =
      base32Chars (a'.toNat :: b'.toNat :: c'.toNat :: d'.toNat :: e'.toNat :: rest')) :
    (a = a' ∧ b = b' ∧ c = c' ∧ d = d' ∧ e = e') ∧ base32Chars rest = base32Chars rest' := by
  simp only [base32Chars, List.map_cons, List.map_nil, List.cons_append, List.nil_append,
    List.cons.injEq] at h
  obtain ⟨h₁, h₂, h₃, h₄, h₅, h₆, h₇, h₈, hrest⟩ := h
  obtain ⟨ha, hb⟩ := first_byte a.toNat_lt a'.toNat_lt b.toNat_lt b'.toNat_lt (base32Char_inj h₁)
    (base32Char_inj h₂)
  obtain ⟨hb, hc⟩ := second_byte b.toNat_lt b'.toNat_lt c.toNat_lt c'.toNat_lt hb (base32Char_inj h₃)
    (base32Char_inj h₄)
  obtain ⟨hc, hd⟩ := third_byte d.toNat_lt d'.toNat_lt hc (base32Char_inj h₅)
  obtain ⟨hd, he⟩ := fourth_byte d.toNat_lt d'.toNat_lt e.toNat_lt e'.toNat_lt hd (base32Char_inj h₆)
    (base32Char_inj h₇)
  have he' : e.toNat = e'.toNat := by
    have hlow := base32Char_inj h₈
    omega
  simp only [← UInt8.toNat_inj]
  exact ⟨⟨ha, hb, hc, hd, he'⟩, hrest⟩

/-- The text of whole blocks determines the bytes. -/
theorem base32EncodeToString_inj {k : Nat} {bs bs' : Bytes} (hbs : bs.length = 5 * k)
    (hbs' : bs'.length = 5 * k) (h : base32EncodeToString bs = base32EncodeToString bs') : bs = bs' := by
  replace h := String.ofList_injective h
  induction k generalizing bs bs' with
  | zero => rw [List.eq_nil_of_length_eq_zero hbs, List.eq_nil_of_length_eq_zero hbs']
  | succ k ih =>
    match bs, bs' with
    | a :: b :: c :: d :: e :: rest, a' :: b' :: c' :: d' :: e' :: rest' =>
      simp only [List.length_cons] at hbs hbs'
      obtain ⟨⟨rfl, rfl, rfl, rfl, rfl⟩, hrest⟩ := base32Chars_inj_block h
      rw [ih (by omega) (by omega) hrest]
    | [], _ | [_], _ | [_, _], _ | [_, _, _], _ | [_, _, _, _], _ =>
      simp only [List.length_cons, List.length_nil] at hbs
      omega
    | _ :: _ :: _ :: _ :: _ :: _, [] | _ :: _ :: _ :: _ :: _ :: _, [_]
    | _ :: _ :: _ :: _ :: _ :: _, [_, _] | _ :: _ :: _ :: _ :: _ :: _, [_, _, _]
    | _ :: _ :: _ :: _ :: _ :: _, [_, _, _, _] =>
      simp only [List.length_cons, List.length_nil] at hbs'
      omega

theorem flatten_groups (text : List Char) : (groups text).flatten = text := by
  fun_induction groups text with
  | case1 a b c d rest ih => simp [ih]
  | case2 => rfl
  | case3 rest => simp

/-! ## Hashes -/

section

variable [Unicode]

/-- `unicode.ToUpper` -/
def toUpper (c : Char) : Char := if c.toNat < 128 then c.toUpper else Unicode.toUpperBeyond c

/-- `canonical` -/
def canonical (code : String) : String :=
  String.ofList ((code.toList.filter fun c => !ignored c).map toUpper)

/-- `hashCode` -/
def hashCode (code : String) : String := Unicode.sha256Hex (canonical code)

/-- What is left of a text. -/
def letters (text : List Char) : List Char := (text.filter fun c => !ignored c).map toUpper

theorem canonical_toList (code : String) : (canonical code).toList = letters code.toList :=
  String.toList_ofList

theorem letters_append (a b : List Char) : letters (a ++ b) = letters a ++ letters b := by
  rw [letters, List.filter_append, List.map_append, letters, letters]

theorem letters_cons_ignored {c : Char} (hc : ignored c = true) (text : List Char) :
    letters (c :: text) = letters text := by
  rw [letters, List.filter_cons_of_neg (by simp [hc]), letters]

theorem letters_cons {c : Char} (hc : ignored c = false) (text : List Char) :
    letters (c :: text) = toUpper c :: letters text := by
  rw [letters, List.filter_cons_of_pos (by simp [hc]), List.map_cons, letters]

theorem letters_intercalate (gs : List (List Char)) :
    letters (['-'].intercalate gs) = letters gs.flatten := by
  have hdash : ∀ text, letters ('-' :: text) = letters text := letters_cons_ignored rfl
  induction gs with
  | nil => rfl
  | cons g gs ih =>
    cases gs with
    | nil => simp [List.intercalate]
    | cons g' gs =>
      have hcons : ['-'].intercalate (g :: g' :: gs) = g ++ '-' :: ['-'].intercalate (g' :: gs) := rfl
      rw [hcons, letters_append, hdash, ih, ← letters_append]
      rfl

theorem letters_toLower {text : List Char} (h : ∀ c ∈ text, c ∈ base32Alphabet) :
    letters (text.map Char.toLower) = text := by
  induction text with
  | nil => rfl
  | cons c text ih =>
    obtain ⟨hkept, hascii, hback⟩ := base32_case c (h c List.mem_cons_self)
    have hupper : toUpper c.toLower = c := by rw [toUpper, if_pos hascii, hback]
    rw [List.map_cons, letters_cons hkept, hupper, ih (fun c hc => h c (.tail _ hc))]

/-- Reading a displayed code gives the base32 text it was made from. -/
theorem canonical_generateCode (b : Bytes) : canonical (generateCode b) = base32EncodeToString b := by
  refine String.toList_inj.mp ?_
  have hchars : ∀ c ∈ (base32EncodeToString b).toList, c ∈ base32Alphabet := by
    rw [base32EncodeToString, String.toList_ofList]
    exact base32Chars_mem _
  rw [canonical_toList, generateCode, formatCode, String.toList_ofList, letters_intercalate,
    flatten_groups, String.toList_ofList, letters_toLower hchars]

/-- With a collision-free hash, two values have two hashes. -/
theorem hashCode_inj (hinj : Function.Injective Unicode.sha256Hex) {b b' : Bytes}
    (hb : b.length = codeBytes) (hb' : b'.length = codeBytes)
    (h : hashCode (generateCode b) = hashCode (generateCode b')) : b = b' := by
  have hsame := hinj h
  rw [canonical_generateCode, canonical_generateCode] at hsame
  exact base32EncodeToString_inj (k := 2) hb hb' hsame

end

end Sulis.Recovery
