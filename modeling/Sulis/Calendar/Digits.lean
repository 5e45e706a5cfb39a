-- SUMMARY: Decimal numbers of a fixed width, and the order of their texts.
import Mathlib.Data.List.Basic
import Mathlib.Order.Lex
import Mathlib.Tactic.Ring

/-!
# Numbers of a fixed width

A number filled up with zeros on the left. Of two such texts of one width, the one that
comes first is that of the smaller number.
-/

namespace Calendar

variable {w n m : Nat} {l l' x y : List Char}

/-! ## The value of a text -/

def value (digits : List Char) : Nat := Nat.ofDigitChars 10 digits 0

def AllDigits (l : List Char) : Prop := ∀ c ∈ l, c.isDigit

theorem digit_bounds {c : Char} (h : c.isDigit) : 48 ≤ c.toNat ∧ c.toNat ≤ 57 :=
  Char.isDigit_iff_toNat.mp h

theorem ofDigitChars_init (l : List Char) (init : Nat) :
    Nat.ofDigitChars 10 l init = init * 10 ^ l.length + value l := by
  induction l generalizing init with
  | nil => simp [value, Nat.ofDigitChars]
  | cons c l ih =>
    have hstep : ∀ k, Nat.ofDigitChars 10 (c :: l) k =
        Nat.ofDigitChars 10 l (10 * k + (c.toNat - '0'.toNat)) := fun _ => rfl
    rw [value, hstep, hstep, ih, ih, List.length_cons]
    ring

theorem value_cons (c : Char) (l : List Char) :
    value (c :: l) = (c.toNat - '0'.toNat) * 10 ^ l.length + value l := by
  have hstep : value (c :: l) = Nat.ofDigitChars 10 l (10 * 0 + (c.toNat - '0'.toNat)) := rfl
  rw [hstep, ofDigitChars_init]
  simp

theorem value_lt (h : AllDigits l) : value l < 10 ^ l.length := by
  induction l with
  | nil => simp [value, Nat.ofDigitChars]
  | cons c l ih =>
    have hrest := ih fun d hd => h d (List.mem_cons_of_mem c hd)
    obtain ⟨-, hhigh⟩ := digit_bounds (h c List.mem_cons_self)
    have hdigit : c.toNat - '0'.toNat ≤ 9 := by
      have : '0'.toNat = 48 := rfl
      omega
    rw [value_cons, List.length_cons, pow_succ]
    calc (c.toNat - '0'.toNat) * 10 ^ l.length + value l
        < 9 * 10 ^ l.length + 10 ^ l.length :=
          Nat.add_lt_add_of_le_of_lt (Nat.mul_le_mul_right _ hdigit) hrest
      _ = 10 ^ l.length * 10 := by ring

/-- Texts of one length are ordered as their values are. -/
theorem lt_iff_value_lt (hlen : l.length = l'.length) (hl : AllDigits l) (hl' : AllDigits l') :
    l < l' ↔ value l < value l' := by
  induction l generalizing l' with
  | nil =>
    obtain rfl := List.eq_nil_of_length_eq_zero hlen.symm
    simp
  | cons c l ih =>
    cases l' with
    | nil => cases hlen
    | cons c' l' =>
      have hlen : l.length = l'.length := Nat.succ.inj hlen
      have hrest := fun d hd => hl d (List.mem_cons_of_mem c hd)
      have hrest' := fun d hd => hl' d (List.mem_cons_of_mem c' hd)
      have hbound := value_lt hrest
      have hbound' := value_lt hrest'
      obtain ⟨hlow, -⟩ := digit_bounds (hl c List.mem_cons_self)
      obtain ⟨hlow', -⟩ := digit_bounds (hl' c' List.mem_cons_self)
      have hzero : '0'.toNat = 48 := rfl
      have hchar : c < c' ↔ c.toNat < c'.toNat := Iff.rfl
      have hsame : c = c' ↔ c.toNat = c'.toNat := Char.toNat_inj.symm
      rw [List.cons_lt_cons_iff, ih hlen hrest hrest', value_cons, value_cons, hlen, hchar, hsame,
        hzero]
      rw [hlen] at hbound
      obtain ⟨d, hd⟩ := Nat.exists_eq_add_of_le hlow
      obtain ⟨d', hd'⟩ := Nat.exists_eq_add_of_le hlow'
      rw [hd, hd', Nat.add_sub_cancel_left, Nat.add_sub_cancel_left]
      -- the first digit decides, as what comes after it stays below one unit of it
      rcases Nat.lt_trichotomy d d' with hlt | rfl | hgt
      · refine iff_of_true (Or.inl (by omega)) ?_
        calc d * 10 ^ l'.length + value l < d * 10 ^ l'.length + 10 ^ l'.length := by omega
          _ = (d + 1) * 10 ^ l'.length := by ring
          _ ≤ d' * 10 ^ l'.length := Nat.mul_le_mul_right _ hlt
          _ ≤ d' * 10 ^ l'.length + value l' := Nat.le_add_right _ _
      · simp
      · refine iff_of_false (by omega) (not_lt.mpr ?_)
        calc d' * 10 ^ l'.length + value l' ≤ d' * 10 ^ l'.length + 10 ^ l'.length := by omega
          _ = (d' + 1) * 10 ^ l'.length := by ring
          _ ≤ d * 10 ^ l'.length := Nat.mul_le_mul_right _ hgt
          _ ≤ d * 10 ^ l'.length + value l := Nat.le_add_right _ _

/-! ## Filled up with zeros -/

/-- A number in decimal with at least so many digits. -/
def pad (w n : Nat) : List Char := (Nat.toDigits 10 n).leftpad w '0'

theorem allDigits_pad (w n : Nat) : AllDigits (pad w n) := by
  intro c hc
  rcases List.mem_append.mp hc with hc | hc
  · rw [(List.mem_replicate.mp hc).2]
    rfl
  · exact Nat.isDigit_of_mem_toDigits (by decide) (by decide) hc

theorem length_pad (hw : 0 < w) (h : n < 10 ^ w) : (pad w n).length = w := by
  have hle := (Nat.length_toDigits_le_iff (by decide) hw).mpr h
  rw [pad, List.leftpad, List.length_append, List.length_replicate]
  omega

/-- A number that is too large has more digits. -/
theorem lt_length_pad (hw : 0 < w) (h : 10 ^ w ≤ n) : w < (pad w n).length := by
  have hlt : w < (Nat.toDigits 10 n).length :=
    not_le.mp (mt (Nat.length_toDigits_le_iff (by decide) hw).mp (not_lt.mpr h))
  rw [pad, List.leftpad, List.length_append, List.length_replicate]
  omega

@[simp] theorem value_pad (w n : Nat) : value (pad w n) = n := by
  have hzeros : ∀ k, value (List.replicate k '0' ++ Nat.toDigits 10 n) = value (Nat.toDigits 10 n) := by
    intro k
    induction k with
    | zero => rfl
    | succ k ih => rw [List.replicate_succ, List.cons_append, value_cons, ih]; simp
  rw [pad, List.leftpad, hzeros]
  exact Nat.ofDigitChars_toDigits (by decide) (by decide)

theorem pad_lt_pad (hw : 0 < w) (hn : n < 10 ^ w) (hm : m < 10 ^ w) : pad w n < pad w m ↔ n < m := by
  rw [lt_iff_value_lt (by rw [length_pad hw hn, length_pad hw hm]) (allDigits_pad w n)
    (allDigits_pad w m), value_pad, value_pad]

theorem pad_inj (h : pad w n = pad w m) : n = m := by
  rw [← value_pad w n, h, value_pad]

/-! ## One text after the other -/

theorem append_lt_append_iff (hlen : l.length = l'.length) :
    l ++ x < l' ++ y ↔ l < l' ∨ l = l' ∧ x < y := by
  induction l generalizing l' with
  | nil =>
    obtain rfl := List.eq_nil_of_length_eq_zero hlen.symm
    simp
  | cons c l ih =>
    cases l' with
    | nil => cases hlen
    | cons c' l' =>
      rw [List.cons_append, List.cons_append, List.cons_lt_cons_iff, List.cons_lt_cons_iff,
        ih (Nat.succ.inj hlen), List.cons.injEq]
      tauto

/-- Numbers of one width that come first decide, and otherwise what comes after. -/
theorem pad_append_lt_iff (hw : 0 < w) (hn : n < 10 ^ w) (hm : m < 10 ^ w) :
    pad w n ++ x < pad w m ++ y ↔ n < m ∨ n = m ∧ x < y := by
  rw [append_lt_append_iff (by rw [length_pad hw hn, length_pad hw hm]), pad_lt_pad hw hn hm]
  constructor
  · rintro (hlt | ⟨heq, hlt⟩)
    · exact Or.inl hlt
    · exact Or.inr ⟨pad_inj heq, hlt⟩
  · rintro (hlt | ⟨rfl, hlt⟩)
    · exact Or.inl hlt
    · exact Or.inr ⟨rfl, hlt⟩

end Calendar
