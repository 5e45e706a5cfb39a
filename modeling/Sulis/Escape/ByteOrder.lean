-- SUMMARY: UTF-8 keeps the order of texts: comparing bytes is comparing characters.
import Sulis.Escape.Percent

/-!
# Byte order

A comparison of the bytes of two texts decides at the first character in which they
differ, and as the numbers of these characters do.
-/

namespace Escape

variable {c d : Char} {n m : Nat} {x y : List UInt8}

/-- The bytes of a character with the number `n`, whose leading byte says how many there are. -/
inductive Encoded (n : Nat) : List UInt8 → Prop
  | one (h : n < 128) : Encoded n [UInt8.ofNat n]
  | two (h : 128 ≤ n) (h' : n < 2048) :
    Encoded n [UInt8.ofNat (192 + n / 64), UInt8.ofNat (128 + n % 64)]
  | three (h : 2048 ≤ n) (h' : n < 65536) :
    Encoded n [UInt8.ofNat (224 + n / 64 / 64), UInt8.ofNat (128 + n / 64 % 64),
      UInt8.ofNat (128 + n % 64)]
  | four (h : 65536 ≤ n) (h' : n < 1114112) :
    Encoded n [UInt8.ofNat (240 + n / 64 / 64 / 64), UInt8.ofNat (128 + n / 64 / 64 % 64),
      UInt8.ofNat (128 + n / 64 % 64), UInt8.ofNat (128 + n % 64)]

theorem toNat_lt (c : Char) : c.toNat < 1114112 := by
  rcases c.valid with hlow | ⟨_, hhigh⟩
  · exact Nat.lt_trans hlow (by decide)
  · exact hhigh

theorem encoded_utf8EncodeChar (c : Char) : Encoded c.toNat (String.utf8EncodeChar c) := by
  have hmax := toNat_lt c
  unfold String.utf8EncodeChar
  simp only [Char.toNat] at hmax ⊢
  generalize c.val.toNat = n at hmax ⊢
  split_ifs with h₁ h₂ h₃
  · exact .one (by omega)
  · have hlead : n / 64 % 32 + 192 = 192 + n / 64 := by omega
    rw [hlead, Nat.add_comm (n % 64)]
    exact .two (by omega) (by omega)
  · have hlead : n / 4096 % 16 + 224 = 224 + n / 64 / 64 := by omega
    rw [hlead, Nat.add_comm (n / 64 % 64), Nat.add_comm (n % 64)]
    exact .three (by omega) (by omega)
  · have hlead : n / 262144 % 8 + 240 = 240 + n / 64 / 64 / 64 := by omega
    have hnext : n / 4096 % 64 + 128 = 128 + n / 64 / 64 % 64 := by omega
    rw [hlead, hnext, Nat.add_comm (n / 64 % 64), Nat.add_comm (n % 64)]
    exact .four (by omega) hmax

theorem cons_ofNat_lt_iff (hn : n < 256) (hm : m < 256) :
    UInt8.ofNat n :: x < UInt8.ofNat m :: y ↔ n < m ∨ n = m ∧ x < y := by
  rw [List.cons_lt_cons_iff, UInt8.lt_iff_toNat_lt, ← UInt8.toNat_inj,
    UInt8.toNat_ofNat', UInt8.toNat_ofNat', Nat.mod_eq_of_lt hn, Nat.mod_eq_of_lt hm]

/-- The upper digits decide before the last one. -/
theorem lt_iff_sixBits : n < m ↔ n / 64 < m / 64 ∨ n / 64 = m / 64 ∧ n % 64 < m % 64 := by omega

/-- Of two different numbers, the bytes of the smaller one come first, whatever follows. -/
theorem Encoded.append_lt {l l' : List UInt8} (hl : Encoded n l) (hl' : Encoded m l') (h : n < m) :
    l ++ x < l' ++ y := by
  have hdigits : n / 64 / 64 / 64 < m / 64 / 64 / 64 ∨ n / 64 / 64 / 64 = m / 64 / 64 / 64 ∧
      (n / 64 / 64 % 64 < m / 64 / 64 % 64 ∨ n / 64 / 64 % 64 = m / 64 / 64 % 64 ∧
        (n / 64 % 64 < m / 64 % 64 ∨ n / 64 % 64 = m / 64 % 64 ∧ n % 64 < m % 64)) := by
    rw [lt_iff_sixBits, lt_iff_sixBits (n := n / 64), lt_iff_sixBits (n := n / 64 / 64)] at h
    omega
  -- With as many bytes, the digits decide; otherwise the leading bytes do.
  cases hl <;> cases hl' <;>
    simp (disch := omega) only [List.cons_append, List.nil_append, cons_ofNat_lt_iff] <;> omega

theorem utf8EncodeChar_append_lt (h : c < d) :
    String.utf8EncodeChar c ++ x < String.utf8EncodeChar d ++ y :=
  (encoded_utf8EncodeChar c).append_lt (encoded_utf8EncodeChar d) h

theorem Encoded.nil_lt_append {l : List UInt8} (h : Encoded n l) : [] < l ++ x := by
  cases h <;> exact List.nil_lt_cons _ _

theorem flatMap_lt_of_lt {s t : List Char} (h : s < t) :
    s.flatMap String.utf8EncodeChar < t.flatMap String.utf8EncodeChar := by
  induction s generalizing t with
  | nil =>
    cases t with
    | nil => cases h
    | cons d t => exact (encoded_utf8EncodeChar d).nil_lt_append
  | cons c s ih =>
    cases t with
    | nil => cases h
    | cons d t =>
      rw [List.flatMap_cons, List.flatMap_cons]
      rcases List.cons_lt_cons_iff.mp h with hlt | ⟨rfl, hrest⟩
      · exact utf8EncodeChar_append_lt hlt
      · exact List.append_left_lt (ih hrest)

/-- Comparing the bytes of two texts is comparing the texts. -/
theorem utf8_lt_iff {s t : String} : utf8 s < utf8 t ↔ s < t := by
  rw [utf8_eq, utf8_eq, String.lt_iff]
  refine ⟨fun h => ?_, flatMap_lt_of_lt⟩
  by_contra hnot
  rcases List.le_iff_lt_or_eq.mp (List.not_lt.mp hnot) with hlt | heq
  · exact List.lt_asymm h (flatMap_lt_of_lt hlt)
  · rw [heq] at h
    exact List.lt_irrefl _ h

end Escape
