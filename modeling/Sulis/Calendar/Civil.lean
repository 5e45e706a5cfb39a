-- SUMMARY: Days counted from a fixed one, and the dates of the proleptic Gregorian calendar.
import Mathlib.Algebra.GroupWithZero.Nat
import Mathlib.Algebra.Order.Group.Int
import Mathlib.Data.List.Basic

/-!
# Dates

A day is the number of days since the first day of the year 0, and a date is a year,
a month and a day of the month. Each determines the other, and they are ordered alike.
-/

namespace Calendar

/-! ## Years -/

def isLeap (year : Int) : Bool := year % 4 = 0 ∧ (year % 100 ≠ 0 ∨ year % 400 = 0)

/-- The first day of a year. -/
def yearStart (year : Int) : Int :=
  365 * year + (year + 3) / 4 - (year + 99) / 100 + (year + 399) / 400

def yearLength (year : Int) : Nat := if isLeap year then 366 else 365

theorem yearStart_succ (year : Int) : yearStart (year + 1) = yearStart year + yearLength year := by
  unfold yearStart yearLength isLeap
  split
  · rename_i hleap
    simp only [decide_eq_true_eq] at hleap
    omega
  · rename_i hleap
    simp only [decide_eq_true_eq] at hleap
    omega

theorem yearStart_mono {a b : Int} (h : a < b) : yearStart (a + 1) ≤ yearStart b := by
  unfold yearStart
  omega

/-- The year of a day: four hundred years have 146097 days, which gives it up to one. -/
def yearOf (day : Int) : Int :=
  let year := day * 400 / 146097
  if day < yearStart year then year - 1
  else if yearStart (year + 1) ≤ day then year + 1
  else year

theorem yearOf_spec (day : Int) : yearStart (yearOf day) ≤ day ∧ day < yearStart (yearOf day + 1) := by
  have hlow : yearStart (day * 400 / 146097 - 1) ≤ day := by
    unfold yearStart
    omega
  have hhigh : day < yearStart (day * 400 / 146097 + 1 + 1) := by
    unfold yearStart
    omega
  unfold yearOf
  simp only
  split
  · rename_i hbefore
    refine ⟨hlow, ?_⟩
    rwa [sub_add_cancel]
  · rename_i hbefore
    split
    · rename_i hafter
      exact ⟨hafter, hhigh⟩
    · rename_i hafter
      exact ⟨not_lt.mp hbefore, not_le.mp hafter⟩

/-! ## Places in a row of lengths -/

/-- Which of the lengths a position falls into, and how far into it. -/
def locate : List Nat → Nat → Nat × Nat
  | [], n => (0, n)
  | len :: rest, n =>
    if n < len then (0, n)
    else ((locate rest (n - len)).1 + 1, (locate rest (n - len)).2)

/-- The position of a place. -/
def position (lens : List Nat) (place : Nat × Nat) : Nat := (lens.take place.1).sum + place.2

/-- A place that is there. -/
def Within (lens : List Nat) (place : Nat × Nat) : Prop := ∀ len, lens[place.1]? = some len → place.2 < len

theorem position_locate (lens : List Nat) (n : Nat) : position lens (locate lens n) = n := by
  induction lens generalizing n with
  | nil => simp [position, locate]
  | cons len rest ih =>
    have ih := ih (n - len)
    unfold position at ih ⊢
    unfold locate
    split
    · simp
    · rename_i hle
      simp only [List.take_succ_cons, List.sum_cons]
      omega

theorem within_locate (lens : List Nat) (n : Nat) : Within lens (locate lens n) := by
  induction lens generalizing n with
  | nil => intro len hlen; cases hlen
  | cons len rest ih =>
    unfold locate
    split
    · rename_i hlt
      intro len' hlen'
      cases hlen'
      exact hlt
    · intro len' hlen'
      exact ih (n - len) len' hlen'

theorem locate_lt {lens : List Nat} {n : Nat} (h : n < lens.sum) : (locate lens n).1 < lens.length := by
  induction lens generalizing n with
  | nil => cases h
  | cons len rest ih =>
    unfold locate
    split
    · simp
    · rename_i hle
      rw [List.sum_cons] at h
      have hlt : n - len < rest.sum := by omega
      have := ih hlt
      simpa using this

/-- Later places have later positions. -/
theorem locate_lt_iff (lens : List Nat) {n n' : Nat} :
    n < n' ↔ (locate lens n).1 < (locate lens n').1 ∨
      (locate lens n).1 = (locate lens n').1 ∧ (locate lens n).2 < (locate lens n').2 := by
  induction lens generalizing n n' with
  | nil => simp [locate]
  | cons len rest ih =>
    have ih := @ih (n - len) (n' - len)
    unfold locate
    split
    · split
      · simp
      · simp only [Nat.zero_lt_succ, true_or, iff_true]
        omega
    · split
      · simp only [Nat.not_lt_zero, Nat.succ_ne_zero, false_and, or_self, iff_false]
        omega
      · simp only [Nat.add_lt_add_iff_right, Nat.add_right_cancel_iff]
        rw [← ih]
        omega

/-! ## Dates -/

/-- The month counts from 1, and so does the day. -/
structure Date where
  year : Int
  month : Nat
  day : Nat
  deriving DecidableEq, Repr

def monthLengths (year : Int) : List Nat :=
  [31, if isLeap year then 29 else 28, 31, 30, 31, 30, 31, 31, 30, 31, 30, 31]

def daysIn (year : Int) (month : Nat) : Nat := ((monthLengths year)[month - 1]?).getD 0

def Date.Valid (d : Date) : Prop :=
  1 ≤ d.month ∧ d.month ≤ 12 ∧ 1 ≤ d.day ∧ d.day ≤ daysIn d.year d.month

instance (d : Date) : Decidable d.Valid := inferInstanceAs (Decidable (_ ∧ _ ∧ _ ∧ _))

/-- The date of a day. -/
def dateOf (day : Int) : Date :=
  let place := locate (monthLengths (yearOf day)) (day - yearStart (yearOf day)).toNat
  ⟨yearOf day, place.1 + 1, place.2 + 1⟩

/-- The day of a date. -/
def dayOf (d : Date) : Int :=
  yearStart d.year + position (monthLengths d.year) (d.month - 1, d.day - 1)

theorem length_monthLengths (year : Int) : (monthLengths year).length = 12 := rfl

theorem sum_monthLengths (year : Int) : (monthLengths year).sum = yearLength year := by
  unfold monthLengths yearLength
  split <;> rfl

theorem dayInYear_lt (day : Int) :
    (day - yearStart (yearOf day)).toNat < (monthLengths (yearOf day)).sum := by
  obtain ⟨hlow, hhigh⟩ := yearOf_spec day
  rw [yearStart_succ] at hhigh
  rw [sum_monthLengths]
  omega

theorem daysIn_eq {year : Int} {i len : Nat} (h : (monthLengths year)[i]? = some len) :
    daysIn year (i + 1) = len := by
  rw [daysIn, Nat.add_sub_cancel, h]
  rfl

theorem daysIn_le (year : Int) (month : Nat) : daysIn year month ≤ 31 := by
  have hall : ∀ len ∈ monthLengths year, len ≤ 31 := by
    unfold monthLengths
    split <;> decide
  unfold daysIn
  cases hlen : (monthLengths year)[month - 1]? with
  | none => exact Nat.zero_le 31
  | some len => exact hall len (List.mem_of_getElem? hlen)

theorem valid_dateOf (day : Int) : (dateOf day).Valid := by
  have hlt := locate_lt (dayInYear_lt day)
  rw [length_monthLengths] at hlt
  refine ⟨Nat.succ_pos _, hlt, Nat.succ_pos _, ?_⟩
  obtain ⟨len, hlen⟩ : ∃ len, (monthLengths (yearOf day))[(locate (monthLengths (yearOf day))
      (day - yearStart (yearOf day)).toNat).1]? = some len :=
    ⟨_, List.getElem?_eq_getElem (by rw [length_monthLengths]; exact hlt)⟩
  change _ + 1 ≤ daysIn (yearOf day) (_ + 1)
  rw [daysIn_eq hlen]
  exact within_locate _ _ len hlen

@[simp] theorem dayOf_dateOf (day : Int) : dayOf (dateOf day) = day := by
  obtain ⟨hlow, -⟩ := yearOf_spec day
  simp only [dayOf, dateOf, Nat.add_sub_cancel]
  rw [position_locate]
  omega

theorem eq_iff_dateOf (a b : Int) :
    a = b ↔ (dateOf a).year = (dateOf b).year ∧ (dateOf a).month = (dateOf b).month ∧
      (dateOf a).day = (dateOf b).day := by
  constructor
  · rintro rfl
    exact ⟨rfl, rfl, rfl⟩
  · rintro ⟨hyear, hmonth, hday⟩
    rw [← dayOf_dateOf a, ← dayOf_dateOf b]
    unfold dayOf
    rw [hyear, hmonth, hday]

/-- Dates are ordered as the days are. -/
theorem lt_iff_dateOf (a b : Int) :
    a < b ↔ (dateOf a).year < (dateOf b).year ∨ (dateOf a).year = (dateOf b).year ∧
      ((dateOf a).month < (dateOf b).month ∨ (dateOf a).month = (dateOf b).month ∧
        (dateOf a).day < (dateOf b).day) := by
  obtain ⟨hlow, hhigh⟩ := yearOf_spec a
  obtain ⟨hlow', hhigh'⟩ := yearOf_spec b
  rcases lt_trichotomy (yearOf a) (yearOf b) with hlt | heq | hgt
  · have hstart := yearStart_mono hlt
    have hab : a < b := by omega
    exact iff_of_true hab (Or.inl hlt)
  · have hsame : a < b ↔ (a - yearStart (yearOf a)).toNat < (b - yearStart (yearOf a)).toNat := by
      rw [← heq] at hlow'
      omega
    rw [hsame, locate_lt_iff (monthLengths (yearOf a))]
    simp [dateOf, heq]
  · have hstart := yearStart_mono hgt
    have hab : ¬ a < b := by omega
    refine iff_of_false hab ?_
    rintro (hlt | ⟨heq, -⟩)
    · exact absurd hlt (not_lt.mpr hgt.le)
    · exact absurd heq hgt.ne'

end Calendar
