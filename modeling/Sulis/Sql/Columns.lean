-- SUMMARY: Go values as the columns of a SQL row hold them: counters, instants and optional instants.
import Sulis.Sql.Timestamp

/-!
# Columns

The conversions the SQL stores make on the way to a row and back. A nil pointer is a
`NULL`, here `none`.
-/

namespace Sulis.Sql

/-! ## Counters -/

/-- `int64(n)` of a `uint64` -/
def int64 (n : Nat) : Int := (BitVec.ofNat 64 n).toInt

/-- `uint64(n)` of an `int64` -/
def uint64 (n : Int) : Nat := (BitVec.ofInt 64 n).toNat

theorem int64_of_lt {n : Nat} (h : n < 2 ^ 63) : int64 n = n := by
  rw [int64, BitVec.toInt_eq_toNat_of_lt, BitVec.toNat_ofNat, Nat.mod_eq_of_lt (by omega)]
  rw [BitVec.toNat_ofNat]
  omega

theorem uint64_of_lt {n : Nat} (h : n < 2 ^ 63) : uint64 n = n := by
  unfold uint64
  rw [BitVec.toNat_ofInt]
  omega

/-! ## Optional instants -/

def nullableTime : Option Time → Option String
  | none => none
  | some t => some (formatTime t)

/-- `none` is a text that is no timestamp. -/
def scanNullableTime : Option String → Option (Option Time)
  | none => some none
  | some text => (parseTime text).map some

theorem scanNullableTime_nullableTime {o : Option Time} (h : ∀ t, o = some t → InRange t) :
    scanNullableTime (nullableTime o) = some o := by
  cases o with
  | none => rfl
  | some t => rw [nullableTime, scanNullableTime, parseTime_formatTime (h t rfl), Option.map_some]

end Sulis.Sql
