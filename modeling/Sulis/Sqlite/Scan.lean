-- SUMMARY: What the SQLite stores share: how a call fails, how a row is read, and what it is to do as the in-memory store does.
import Sulis.Relational.Relation
import Sulis.Sql.Columns

/-!
# The SQLite stores

`store/sql/sqlite`. Every call is one statement or one transaction on a relation, and
they run one after the other: the pool has a single connection. A failed transaction is
rolled back, so a call returns its result and the relation it leaves.

Driver errors other than a violated constraint are not modelled.
-/

namespace Sulis.Sqlite

open Sulis.Sql

variable {ε α ρ σ τ : Type}

/-- How a call fails: with a sentinel, or with an error whose text says what it was doing. -/
inductive Failure (ε : Type)
  | sentinel (err : ε)
  | storage (doing : String)
  deriving DecidableEq, Repr

abbrev Result (ε α : Type) : Type := Except (Failure ε) α

/-! ## Reading -/

/-- `parseTime`, with its error. -/
def readTime (text : String) : Result ε Time :=
  match parseTime text with
  | some t => .ok t
  | none => .error (.storage "parsing the stored timestamp")

def readNullableTime (text : Option String) : Result ε (Option Time) :=
  match scanNullableTime text with
  | some t => .ok t
  | none => .error (.storage "parsing the stored timestamp")

/-- `QueryRow` and `Scan`: the first row, and a sentinel if there is none. -/
def scanRow (missing : ε) (read : ρ → Result ε α) : List ρ → Result ε α
  | [] => .error (.sentinel missing)
  | row :: _ => read row

/-- The loop over the rows of a query. -/
def scanRows (read : ρ → Result ε α) : List ρ → Result ε (List α)
  | [] => .ok []
  | row :: rest => do
    let a ← read row
    let others ← scanRows read rest
    return a :: others

theorem readTime_formatTime {t : Time} (h : InRange t) : (readTime (formatTime t) : Result ε Time) = .ok t := by
  rw [readTime, parseTime_formatTime h]

theorem readNullableTime_nullableTime {o : Option Time} (h : ∀ t, o = some t → InRange t) :
    (readNullableTime (nullableTime o) : Result ε (Option Time)) = .ok o := by
  rw [readNullableTime, scanNullableTime_nullableTime h]

theorem scanRows_of_ok {read : ρ → Result ε α} {rows : List ρ} (h : ∀ row ∈ rows, ∃ a, read row = .ok a) :
    scanRows read rows = .ok (rows.filterMap fun row => (read row).toOption) := by
  induction rows with
  | nil => rfl
  | cons row rest ih =>
    obtain ⟨a, ha⟩ := h row List.mem_cons_self
    have hrest := ih fun row' hrow' => h row' (List.mem_cons_of_mem row hrow')
    simp only [scanRows, ha, hrest, List.filterMap_cons, Except.toOption]
    rfl

/-- Rows that can all be read give what they encode, in their own order. -/
theorem scanRows_perm {read : ρ → Result ε α} {enc : α → ρ} {rows : List ρ} {as : List α}
    (hrows : rows.Perm (as.map enc)) (hread : ∀ a ∈ as, read (enc a) = .ok a) :
    ∃ found, scanRows read rows = .ok found ∧ found.Perm as := by
  refine ⟨_, scanRows_of_ok fun row hrow => ?_, ?_⟩
  · obtain ⟨a, ha, rfl⟩ := List.mem_map.mp (hrows.mem_iff.mp hrow)
    exact ⟨a, hread a ha⟩
  · refine (hrows.filterMap _).trans (List.Perm.of_eq ?_)
    rw [List.filterMap_map]
    refine (List.filterMap_congr fun a ha => ?_).trans List.filterMap_some
    rw [Function.comp_apply, hread a ha]
    rfl

/-! ## Doing as the in-memory store does -/

/-- The same result, where only sentinels are errors. -/
def asSentinel : Except ε α → Result ε α
  | .ok a => .ok a
  | .error err => .error (.sentinel err)

/-- The same result, and states that are related again. -/
def Agree (R : σ → τ → Prop) (memory : Except ε α × σ) (sqlite : Result ε α × τ) : Prop :=
  sqlite.1 = asSentinel memory.1 ∧ R memory.2 sqlite.2

end Sulis.Sqlite
