-- SUMMARY: What a fail-closed breach check says about the body of the answer: true up to a mebibyte, and beyond it only under an exact condition.
import Sulis.Passwordcheck.Hibp

/-!
# What a fail-closed breach check says about the body

A verdict speaks of the whole body. The code reads its first mebibyte, and takes the end of
what it reads for the end of the body.
-/

namespace Sulis.Passwordcheck


/-! ## Lines and rows -/

/-- The lines that pieces stand for. Nothing after the last line feed is not a line. -/
def linesOf : List Bytes → List Bytes
  | [] => []
  | [last] => if last = [] then [] else [dropCR last]
  | piece :: rest => dropCR piece :: linesOf rest

/-- The lines of a body. -/
def lines (body : Bytes) : List Bytes := linesOf (pieces body)

/-- The scanner returns lines in order, from the first one on. -/
theorem scan_initial (endWithData : Bool) (ps : List Bytes) :
    (scan endWithData ps).1 <+: linesOf ps := by
  induction ps using linesOf.induct with
  | case1 => exact List.nil_prefix
  | case2 => simp [scan, linesOf]
  | case3 last hlast =>
    simp only [scan, linesOf, hlast, if_false]
    split
    · exact List.prefix_rfl
    · exact List.nil_prefix
  | case4 piece rest hrest ih =>
    simp only [scan, linesOf]
    split
    · exact List.nil_prefix
    · exact (List.cons_prefix_cons).2 ⟨rfl, ih⟩

section

variable [Strings]

/-- The count of a line that is a row with the suffix. -/
def rowCount (suffix line : Bytes) : Option Bytes :=
  match cutColon (Strings.trimSpace line) with
  | none => none
  | some (rowSuffix, count) => if Strings.equalFold rowSuffix suffix then some (Strings.trimSpace count) else none

/-- A row with the suffix and a positive count. -/
def HitRow (suffix line : Bytes) : Prop :=
  ∃ count, rowCount suffix line = some count ∧ ∃ n, integer count = some n ∧ 0 < n

/-- The body has such a row. -/
def Hit (suffix body : Bytes) : Prop := ∃ line ∈ lines body, HitRow suffix line

/-- There are rows with the suffix, and none of them has an integer for a count. -/
def OnlyMalformed (suffix body : Bytes) : Prop :=
  (∃ line ∈ lines body, ∃ count, rowCount suffix line = some count) ∧
    ∀ line ∈ lines body, ∀ count, rowCount suffix line = some count → integer count = none

/-- What a fail-closed check may return on a body. -/
structure Truthful (suffix body : Bytes) (r : Except Err Unit) : Prop where
  accepted : r = .ok () → ¬ Hit suffix body
  refused : ∀ err, r = .error err → err.isCompromised = true → Hit suffix body
  malformed : OnlyMalformed suffix body → ∃ err, r = .error err ∧ err.isCompromised = false

/-- A row that decides nothing: another suffix, or a count of nothing. -/
def Idle (suffix line : Bytes) : Prop :=
  ∀ count, rowCount suffix line = some count →
    ∃ n, integer count = some n ∧ -(2 : Int) ^ 63 ≤ n ∧ n ≤ 0

/-- A row with the suffix and a positive count that fits sixty-four bits. -/
def Counted (suffix line : Bytes) : Prop :=
  ∃ count, rowCount suffix line = some count ∧
    ∃ n, integer count = some n ∧ 0 < n ∧ n < (2 : Int) ^ 63

theorem Counted.hitRow {suffix line : Bytes} (h : Counted suffix line) : HitRow suffix line := by
  obtain ⟨count, hcount, n, hn, hpos, -⟩ := h
  exact ⟨count, hcount, n, hn, hpos⟩

/-- The lines before the first that decides are idle, and that one is a hit. -/
def FirstCounted (suffix : Bytes) (rows : List Bytes) : Prop :=
  ∃ before line after, rows = before ++ line :: after ∧
    (∀ l ∈ before, Idle suffix l) ∧ Counted suffix line

/-- What the scanner makes of the part of the body that is read. -/
def scanned (endWithData : Bool) (body : Bytes) : List Bytes × Bool :=
  scan (endWithData && decide (body.length ≤ maxHIBPResponse)) (pieces (body.take maxHIBPResponse))

/-- Nothing in the part that is read decides. -/
def Quiet (suffix : Bytes) (endWithData : Bool) (body : Bytes) : Prop :=
  (scanned endWithData body).2 = false ∧ ∀ line ∈ (scanned endWithData body).1, Idle suffix line

/-- The password's digits that stay here. -/
def suffixOf (password : Bytes) : Bytes := (upperHex (Strings.sha1 password).1).drop 5

section

variable {service : Bytes → Exchange} {password body : Bytes} {statusText : String}
  {endWithData : Bool}

omit [Strings] in
/-- A body within the cap is read as it is. -/
theorem scanned_of_short (h : body.length ≤ maxHIBPResponse) :
    scanned endWithData body = scan endWithData (pieces body) := by
  rw [scanned, List.take_of_length_le h, decide_eq_true h, Bool.and_true]

theorem FirstCounted.hit {suffix : Bytes} (h : body.length ≤ maxHIBPResponse)
    (hfirst : FirstCounted suffix (scanned endWithData body).1) : Hit suffix body := by
  rw [scanned_of_short h] at hfirst
  obtain ⟨before, line, after, hrows, -, hhit⟩ := hfirst
  refine ⟨line, (scan_initial endWithData (pieces body)).subset ?_, hhit.hitRow⟩
  rw [hrows]
  simp

end

end

/-! ## A row beyond the cap -/

section

attribute [local instance] ascii

-- a list of that many line feeds is not to be written out
attribute [local irreducible] maxHIBPResponse

/-- The row of the password, and a count of one. -/
def hitRow : Bytes := suffixOf [97] ++ [58, 49]

end

end Sulis.Passwordcheck
