-- SUMMARY: The text of a timestamp in the SQL stores: it is read back exactly, and sorts as the instants do.
import Mathlib.Data.Option.Basic
import Sulis.Calendar.Civil
import Sulis.Calendar.Digits
import Sulis.Model.Types

/-!
# Timestamps as text

Both SQL stores keep instants as text, in the layout `2006-01-02T15:04:05.000000000Z`
(`formatTime` and `parseTime` of `postgres.go` and `sqlite.go`). The text of a year
beyond the four digits of the layout is not read back at all.
-/

namespace Sulis.Sql

open Calendar

/-! ## Writing -/

/-- The nanoseconds of a day. -/
def nanosPerDay : Nat := 86400000000000

/-- The first of January 1970, counted from the first day of the year 0. -/
def epochDay : Int := 719528

def dayOfTime (t : Time) : Int := t / nanosPerDay + epochDay

/-- What is left of an instant after its day. -/
def nanosOfTime (t : Time) : Nat := (t % nanosPerDay).toNat

/-- `t.UTC().Year()` -/
def yearOfTime (t : Time) : Int := (dateOf (dayOfTime t)).year

/-- The `appendInt` of package `time`. -/
def appendInt (n : Int) (width : Nat) : List Char :=
  if n < 0 then '-' :: pad width n.natAbs else pad width n.natAbs

/-- The layout after the year. -/
def afterYear (date : Date) (nanos : Nat) : List Char :=
  '-' :: (pad 2 date.month ++ '-' :: (pad 2 date.day ++ 'T' ::
    (pad 2 (nanos / 3600000000000) ++ ':' :: (pad 2 (nanos / 60000000000 % 60) ++ ':' ::
      (pad 2 (nanos / 1000000000 % 60) ++ '.' :: (pad 9 (nanos % 1000000000) ++ ['Z']))))))

def formatTime (t : Time) : String :=
  let date := dateOf (dayOfTime t)
  String.ofList (appendInt date.year 4 ++ afterYear date (nanosOfTime t))

/-! ## Reading -/

/-- The `atoi` of package `time`. -/
def atoi (s : List Char) : Option Int :=
  let digits := if s.head? = some '-' ∨ s.head? = some '+' then s.tail else s
  if digits.all Char.isDigit then
    some (if s.head? = some '-' then -(value digits : Int) else value digits)
  else none

/-- A year of four characters, the first of which is a digit. -/
def longYear (s : List Char) : Option (Int × List Char) :=
  if 4 ≤ s.length ∧ (s.head?.any Char.isDigit) then (atoi (s.take 4)).map (·, s.drop 4) else none

/-- One or two digits; two, if the width is fixed. -/
def getnum (fixed : Bool) : List Char → Option (Nat × List Char)
  | [] => none
  | [a] => if a.isDigit ∧ ¬ fixed then some (value [a], []) else none
  | a :: b :: rest =>
    if ¬ a.isDigit then none
    else if b.isDigit then some (value [a, b], rest)
    else if fixed then none
    else some (value [a], b :: rest)

/-- A number of a range. -/
def numIn (fixed : Bool) (low high : Nat) (s : List Char) : Option (Nat × List Char) :=
  (getnum fixed s).filter fun (n, _) => low ≤ n ∧ n ≤ high

/-- `parseNanoseconds` on ten characters. -/
def fracSecond : List Char → Option (Int × List Char)
  | [] => none
  | c :: rest =>
    if 9 ≤ rest.length ∧ (c = '.' ∨ c = ',') then
      ((atoi (rest.take 9)).filter (fun n => decide (0 ≤ n))).map (·, rest.drop 9)
    else none

/-- A character of the layout that stands for itself. -/
def skip (c : Char) : List Char → Option (List Char)
  | [] => none
  | d :: rest => if d = c then some rest else none

/-- The instant of a date and what comes after it. -/
def instant (date : Date) (hour minute second : Nat) (nanos : Int) : Time :=
  (((dayOf date - epochDay) * 24 + hour) * 60 + minute) * 60000000000 + second * 1000000000 + nanos

/-- `time.Parse` with the layout; `none` is an error. -/
def parseTime (text : String) : Option Time := do
  let (year, s) ← longYear text.toList
  let (month, s) ← (skip '-' s).bind (numIn true 1 12)
  let (day, s) ← (skip '-' s).bind (getnum true)
  let (hour, s) ← (skip 'T' s).bind (numIn false 0 23)
  let (minute, s) ← (skip ':' s).bind (numIn true 0 59)
  let (second, s) ← (skip ':' s).bind (numIn true 0 59)
  let (nanos, s) ← fracSecond s
  let s ← skip 'Z' s
  if s = [] ∧ Date.Valid ⟨year, month, day⟩ then
    some (instant ⟨year, month, day⟩ hour minute second nanos)
  else none

/-! ## Round trip -/

variable {n w : Nat} {rest : List Char} {t u : Time}

theorem atoi_of_allDigits {s : List Char} (h : AllDigits s) : atoi s = some (value s : Int) := by
  have hsign : ∀ c, c.isDigit = false → s.head? ≠ some c := by
    intro c hc hhead
    have hdigit := h c (List.mem_of_mem_head? hhead)
    rw [hc] at hdigit
    cases hdigit
  have hall : s.all Char.isDigit := List.all_eq_true.mpr h
  simp [atoi, hsign '-' (by decide), hsign '+' (by decide), hall]

/-- What a number of a fixed width consists of. -/
theorem pad_two (h : n < 100) :
    ∃ a b, pad 2 n = [a, b] ∧ a.isDigit ∧ b.isDigit ∧ value [a, b] = n := by
  obtain ⟨a, b, hab⟩ := List.length_eq_two.mp (length_pad (w := 2) (by decide) h)
  have hdigits := allDigits_pad 2 n
  have hvalue := value_pad 2 n
  rw [hab] at hdigits hvalue
  exact ⟨a, b, hab, hdigits a (by simp), hdigits b (by simp), hvalue⟩

theorem getnum_pad (fixed : Bool) (h : n < 100) : getnum fixed (pad 2 n ++ rest) = some (n, rest) := by
  obtain ⟨a, b, hab, ha, hb, hvalue⟩ := pad_two h
  rw [hab]
  simp [getnum, ha, hb, hvalue]

theorem numIn_pad (fixed : Bool) {low high : Nat} (hlow : low ≤ n) (hhigh : n ≤ high) (h : n < 100) :
    numIn fixed low high (pad 2 n ++ rest) = some (n, rest) := by
  simp [numIn, getnum_pad fixed h, hlow, hhigh]

theorem longYear_pad (h : n < 10000) : longYear (pad 4 n ++ rest) = some ((n : Int), rest) := by
  have hlen : (pad 4 n).length = 4 := length_pad (by decide) h
  have hdigits := allDigits_pad 4 n
  have hhead : (pad 4 n ++ rest).head?.any Char.isDigit := by
    cases hpad : pad 4 n with
    | nil => rw [hpad] at hlen; cases hlen
    | cons c cs =>
      rw [hpad] at hdigits
      simp [hdigits c List.mem_cons_self]
  rw [longYear, if_pos ⟨by rw [List.length_append]; omega, hhead⟩, List.take_left' hlen,
    List.drop_left' hlen, atoi_of_allDigits hdigits, value_pad]
  rfl

theorem fracSecond_pad (h : n < 1000000000) :
    fracSecond ('.' :: (pad 9 n ++ rest)) = some ((n : Int), rest) := by
  have hlen : (pad 9 n).length = 9 := length_pad (by decide) h
  rw [fracSecond, if_pos ⟨by rw [List.length_append]; omega, Or.inl rfl⟩, List.take_left' hlen,
    List.drop_left' hlen, atoi_of_allDigits (allDigits_pad 9 n), value_pad]
  simp

theorem skip_self (c : Char) (rest : List Char) : skip c (c :: rest) = some rest := by simp [skip]

theorem nanosOfTime_lt (t : Time) : nanosOfTime t < nanosPerDay := by
  unfold nanosOfTime nanosPerDay
  omega

theorem instant_formatted (t : Time) :
    instant (dateOf (dayOfTime t)) (nanosOfTime t / 3600000000000)
      (nanosOfTime t / 60000000000 % 60) (nanosOfTime t / 1000000000 % 60)
      ((nanosOfTime t % 1000000000 : Nat) : Int) = t := by
  have hsplit : t = t / nanosPerDay * nanosPerDay + nanosOfTime t := by
    have hnonneg : 0 ≤ t % nanosPerDay := Int.emod_nonneg t (by decide)
    rw [nanosOfTime, Int.toNat_of_nonneg hnonneg]
    exact (Int.ediv_mul_add_emod t _).symm
  rw [instant, dayOf_dateOf, dayOfTime]
  revert hsplit
  unfold nanosPerDay
  generalize nanosOfTime t = nanos
  generalize t / ((86400000000000 : Nat) : Int) = day
  intro hsplit
  rw [hsplit]
  push_cast
  change @Eq Int _ _
  omega

theorem toList_formatTime (t : Time) :
    (formatTime t).toList = appendInt (yearOfTime t) 4 ++ afterYear (dateOf (dayOfTime t)) (nanosOfTime t) :=
  String.toList_ofList

theorem appendInt_of_nonneg {n : Int} (h : 0 ≤ n) : appendInt n w = pad w n.natAbs := by
  rw [appendInt, if_neg (not_lt.mpr h)]

/-- An instant whose year has at most four digits. -/
def InRange (t : Time) : Prop := 0 ≤ yearOfTime t ∧ yearOfTime t ≤ 9999

theorem parseTime_formatTime (h : InRange t) : parseTime (formatTime t) = some t := by
  obtain ⟨hlow, hhigh⟩ := h
  have hyear : longYear (formatTime t).toList =
      some (yearOfTime t, afterYear (dateOf (dayOfTime t)) (nanosOfTime t)) := by
    rw [toList_formatTime, appendInt_of_nonneg hlow, longYear_pad (by omega),
      Int.natAbs_of_nonneg hlow]
  obtain ⟨hmonth, hmonth', hday, hday'⟩ := valid_dateOf (dayOfTime t)
  have hlast := daysIn_le (dateOf (dayOfTime t)).year (dateOf (dayOfTime t)).month
  have hnanos := nanosOfTime_lt t
  unfold nanosPerDay at hnanos
  simp (disch := omega) only [parseTime, hyear, afterYear, Option.bind_eq_bind, Option.bind_some,
    skip_self, numIn_pad, getnum_pad, fracSecond_pad]
  rw [if_pos ⟨trivial, valid_dateOf (dayOfTime t)⟩]
  exact congrArg some (instant_formatted t)

theorem skip_of_digit {c d : Char} (hd : d.isDigit) (hc : c.isDigit = false) : skip c (d :: rest) = none := by
  rw [skip, if_neg]
  rintro rfl
  rw [hc] at hd
  cases hd

theorem longYear_eq_some {s : List Char} {year : Int} (h : longYear s = some (year, rest)) :
    rest = s.drop 4 := by
  unfold longYear at h
  split at h
  · obtain ⟨_, _, heq⟩ := Option.map_eq_some_iff.mp h
    exact (Prod.mk.inj heq).2.symm
  · cases h

example : (formatTime 1763337600123456789).toList = "2025-11-17T00:00:00.123456789Z".toList := by
  decide +kernel

/-- The text of a year with a sign or with more than four digits is an error. -/
theorem parseTime_formatTime_of_not_inRange (h : ¬ InRange t) : parseTime (formatTime t) = none := by
  by_cases hneg : yearOfTime t < 0
  · have hyear : longYear (formatTime t).toList = none := by
      rw [toList_formatTime, appendInt, if_pos hneg]
      simp [longYear]
    rw [parseTime, hyear]
    rfl
  · have hlarge : 10 ^ 4 ≤ (yearOfTime t).natAbs := by
      unfold InRange at h
      omega
    -- the first four digits are read, and then a digit comes where a dash should
    have hlen := lt_length_pad (w := 4) (by decide) hlarge
    have hdigits := allDigits_pad 4 (yearOfTime t).natAbs
    rw [parseTime, toList_formatTime, appendInt_of_nonneg (not_lt.mp hneg)]
    generalize pad 4 (yearOfTime t).natAbs = digits at hlen hdigits ⊢
    cases hyear : longYear (digits ++ afterYear (dateOf (dayOfTime t)) (nanosOfTime t)) with
    | none => rfl
    | some read =>
      obtain ⟨year, rest⟩ := read
      obtain rfl := longYear_eq_some hyear
      obtain ⟨d, ds, hdrop⟩ := List.exists_cons_of_length_pos
        (show 0 < (digits.drop 4).length by rw [List.length_drop]; omega)
      have hd : d.isDigit := hdigits d (List.mem_of_mem_drop (hdrop ▸ List.mem_cons_self))
      rw [List.drop_append_of_le_length hlen.le, hdrop]
      simp [skip_of_digit hd (by decide : '-'.isDigit = false)]

theorem parseTime_formatTime_eq_some {t' : Time} (h : parseTime (formatTime t) = some t') :
    InRange t ∧ t' = t := by
  by_cases hrange : InRange t
  · rw [parseTime_formatTime hrange] at h
    exact ⟨hrange, (Option.some.inj h).symm⟩
  · rw [parseTime_formatTime_of_not_inRange hrange] at h
    cases h

/-! ## Order -/

theorem afterYear_lt_iff {d d' : Date} {n n' : Nat} (hd : d.Valid) (hd' : d'.Valid)
    (hn : n < nanosPerDay) (hn' : n' < nanosPerDay) :
    afterYear d n < afterYear d' n' ↔ d.month < d'.month ∨ d.month = d'.month ∧
      (d.day < d'.day ∨ d.day = d'.day ∧ n < n') := by
  obtain ⟨-, hmonth, -, hday⟩ := hd
  obtain ⟨-, hmonth', -, hday'⟩ := hd'
  have hlast := daysIn_le d.year d.month
  have hlast' := daysIn_le d'.year d'.month
  unfold nanosPerDay at hn hn'
  simp (disch := omega) only [afterYear, List.cons_lt_cons_iff, pad_append_lt_iff, Char.lt_irrefl,
    false_or, true_and, List.lt_irrefl, and_false, or_false]
  omega

theorem lt_iff_dayOfTime (t u : Time) :
    t < u ↔ dayOfTime t < dayOfTime u ∨ dayOfTime t = dayOfTime u ∧ nanosOfTime t < nanosOfTime u := by
  unfold dayOfTime nanosOfTime nanosPerDay
  change @LT.lt Int _ _ _ ↔ _
  omega

/-- Timestamps sort as their texts do. -/
theorem formatTime_lt_iff (ht : InRange t) (hu : InRange u) : formatTime t < formatTime u ↔ t < u := by
  obtain ⟨htlow, hthigh⟩ := ht
  obtain ⟨hulow, huhigh⟩ := hu
  rw [String.lt_iff, toList_formatTime, toList_formatTime, appendInt_of_nonneg htlow,
    appendInt_of_nonneg hulow, pad_append_lt_iff (by decide) (by omega) (by omega),
    afterYear_lt_iff (valid_dateOf _) (valid_dateOf _) (nanosOfTime_lt t) (nanosOfTime_lt u),
    lt_iff_dayOfTime, lt_iff_dateOf (dayOfTime t), eq_iff_dateOf (dayOfTime t)]
  unfold yearOfTime at *
  generalize dateOf (dayOfTime t) = d at *
  generalize dateOf (dayOfTime u) = d' at *
  omega

/-! ## Time zones -/

/-- A `time.Time`: an instant, and how many seconds its location is ahead of UTC then. -/
structure ZonedTime where
  instant : Time
  offset : Int

namespace ZonedTime

/-- `t.UTC()` -/
def utc (t : ZonedTime) : ZonedTime := { t with offset := 0 }

/-- What a clock in UTC shows when that of the location shows the same. -/
def wallClock (t : ZonedTime) : Time := t.instant + t.offset * 1000000000

/-- `t.Format(timeLayout)`, which has no place for the zone. -/
def format (t : ZonedTime) : String := Sql.formatTime t.wallClock

def formatTime (t : ZonedTime) : String := t.utc.format

/-- Without a zone in the layout, the result is in UTC. -/
def parseTime (text : String) : Option ZonedTime := (Sql.parseTime text).map (⟨·, 0⟩)

/-- The text does not depend on the zone. -/
theorem formatTime_eq (t : ZonedTime) : t.formatTime = Sql.formatTime t.instant := by
  unfold formatTime format wallClock utc
  rw [Int.zero_mul, Int.add_zero]

theorem parseTime_formatTime {t : ZonedTime} (h : InRange t.instant) :
    parseTime t.formatTime = some t.utc := by
  rw [formatTime_eq, parseTime, Sql.parseTime_formatTime h]
  rfl

end ZonedTime

end Sulis.Sql
