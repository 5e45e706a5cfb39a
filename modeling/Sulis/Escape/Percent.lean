-- SUMMARY: Percent-decoding of text, escapes that it undoes byte by byte, and cutting text at separators.
import Mathlib.Data.List.Basic

/-!
# Percent-decoding

An escape writes every byte of a text as characters. If decoding takes those of each byte off the
front and leaves one byte for them, it does so for all of them.
-/

namespace Escape

/-! ## UTF-8 -/

/-- The bytes of a text. -/
def utf8 (s : String) : List UInt8 := s.toUTF8.data.toList

theorem utf8_eq (s : String) : utf8 s = s.toList.flatMap String.utf8EncodeChar := by
  rw [utf8]
  conv_lhs => rw [← String.ofList_toList (s := s)]
  rw [String.toUTF8, String.toByteArray_ofList, List.utf8Encode]
  simp

/-- A byte below 128 stands for the character with its number and for no part of another one. -/
theorem mem_utf8EncodeChar {c : Char} {n : Nat} (hn : n < 128) :
    UInt8.ofNat n ∈ String.utf8EncodeChar c ↔ c.toNat = n := by
  unfold String.utf8EncodeChar
  simp only [Char.toNat]
  split_ifs
  all_goals
    simp only [List.mem_cons, List.not_mem_nil, or_false, ← UInt8.toNat_inj, UInt8.toNat_ofNat']
    omega

theorem mem_utf8 {s : String} {n : Nat} (hn : n < 128) :
    UInt8.ofNat n ∈ utf8 s ↔ ∃ c ∈ s.toList, c.toNat = n := by
  rw [utf8_eq, List.mem_flatMap]
  exact exists_congr fun c => and_congr_right fun _ => mem_utf8EncodeChar hn

/-! ## Decoding -/

/-- The value of a hexadecimal digit. -/
def hexValue (c : Char) : Option Nat :=
  if '0' ≤ c ∧ c ≤ '9' then some (c.toNat - 48)
  else if 'A' ≤ c ∧ c ≤ 'F' then some (c.toNat - 55)
  else if 'a' ≤ c ∧ c ≤ 'f' then some (c.toNat - 87)
  else none

/-- A percent sign and two digits are the byte they name. Everything else stands for itself. -/
def percentDecode : List Char → Option (List UInt8)
  | [] => some []
  | c :: rest =>
    if c = '%' then
      match rest with
      | a :: b :: rest =>
        match hexValue a, hexValue b with
        | some x, some y => (percentDecode rest).map (UInt8.ofNat (x * 16 + y) :: ·)
        | _, _ => none
      | _ => none
    else (percentDecode rest).map (String.utf8EncodeChar c ++ ·)

theorem percentDecode_escape {a b : Char} {x y : Nat} (ha : hexValue a = some x)
    (hb : hexValue b = some y) (rest : List Char) :
    percentDecode ('%' :: a :: b :: rest) =
      (percentDecode rest).map (UInt8.ofNat (x * 16 + y) :: ·) := by
  rw [percentDecode, if_pos rfl]
  simp only [ha, hb]

theorem percentDecode_ascii {c : Char} (hc : c ≠ '%') (hascii : c.toNat < 128) (rest : List Char) :
    percentDecode (c :: rest) = (percentDecode rest).map (UInt8.ofNat c.toNat :: ·) := by
  have hle : c.val.toNat ≤ 127 := Nat.lt_succ_iff.mp hascii
  have hbytes : String.utf8EncodeChar c = [UInt8.ofNat c.toNat] := by
    rw [String.utf8EncodeChar]
    exact if_pos hle
  rw [percentDecode.eq_def]
  simp only [if_neg hc, hbytes]
  rfl

/-- The escape of a byte is decoded as this byte. -/
def DecodesTo (chars : List Char) (b : UInt8) : Prop :=
  ∀ rest, percentDecode (chars ++ rest) = (percentDecode rest).map (b :: ·)

theorem percentDecode_flatMap {escape : UInt8 → List Char} {g : UInt8 → UInt8}
    (h : ∀ b, DecodesTo (escape b) (g b)) (bs : List UInt8) :
    percentDecode (bs.flatMap escape) = some (bs.map g) := by
  induction bs with
  | nil => rfl
  | cons b bs ih => rw [List.flatMap_cons, h b, ih, Option.map_some, List.map_cons]

/-! ## Cutting -/

/-- The text before and after the first occurrence of a character. -/
def cut (sep : Char) : List Char → Option (List Char × List Char)
  | [] => none
  | c :: rest => if c = sep then some ([], rest) else (cut sep rest).map fun p => (c :: p.1, p.2)

theorem cut_append {sep : Char} {before : List Char} (h : sep ∉ before) (after : List Char) :
    cut sep (before ++ sep :: after) = some (before, after) := by
  induction before with
  | nil => exact if_pos rfl
  | cons c before ih =>
    have hc : c ≠ sep := fun heq => h (heq ▸ List.mem_cons_self)
    have hbefore : sep ∉ before := fun hmem => h (.tail c hmem)
    rw [List.cons_append, cut, if_neg hc, ih hbefore]
    rfl

theorem dropPrefix?_append (start rest : List Char) : (start ++ rest).dropPrefix? start = some rest :=
  List.dropPrefix?_eq_some_iff.mpr ⟨start, rfl, beq_self_eq_true start⟩

end Escape
