-- SUMMARY: The in-memory store of recovery codes.
import Mathlib.Data.Finset.Card
import Sulis.Model.Types
import Sulis.Store.Table

/-!
# The in-memory recovery-code store

`memstore/recovery.go`: a set of hashes for each user. Every method holds the mutex from
its first line to its last.
-/

namespace Sulis.Recovery

open Store

/-- The sentinel of `recovery/store.go`. -/
inductive Err
  | codeNotFound
  deriving DecidableEq, Repr

/-- Sets of code hashes by user. -/
abbrev RecoveryStore : Type := Table (Prod.fst : UUID × Finset String → UUID)

namespace RecoveryStore

/-- What the map has for a user; a user it has nothing for has the empty set. -/
def codes (s : RecoveryStore) (userID : UUID) : Finset String :=
  match s.get? userID with
  | some (_, set) => set
  | none => ∅

def replaceCodes (s : RecoveryStore) (userID : UUID) (hashes : List String) :
    Except Err Unit × RecoveryStore :=
  (.ok (), s.put (userID, hashes.toFinset))

/-- Returns how many codes are left. -/
def consumeCode (s : RecoveryStore) (userID : UUID) (hash : String) :
    Except Err Nat × RecoveryStore :=
  match s.get? userID with
  | none => (.error .codeNotFound, s)
  | some (_, set) =>
    if hash ∉ set then (.error .codeNotFound, s)
    else (.ok (set.erase hash).card, s.put (userID, set.erase hash))

def countCodes (s : RecoveryStore) (userID : UUID) : Except Err Nat :=
  .ok (s.codes userID).card

def deleteCodes (s : RecoveryStore) (userID : UUID) : Except Err Unit × RecoveryStore :=
  (.ok (), s.erase userID)

/-! ## What each method does to the codes -/

variable {s : RecoveryStore} {userID other : UUID} {hash : String} {set : Finset String}

theorem codes_put :
    RecoveryStore.codes (s.put (userID, set)) other =
      if userID = other then set else s.codes other := by
  rw [codes, Table.get?_put]
  by_cases heq : userID = other
  · rw [if_pos heq, if_pos heq]
  · rw [if_neg heq, if_neg heq, codes]

theorem codes_erase :
    (RecoveryStore.deleteCodes s userID).2.codes other = if userID = other then ∅ else s.codes other := by
  have hget : (s.erase userID).get? other = if userID = other then none else s.get? other := by
    by_cases heq : userID = other
    · subst heq
      rw [if_pos rfl, Table.get?_erase_self]
    · rw [if_neg heq, Table.get?_erase_of_ne heq]
  rw [deleteCodes, codes, hget]
  by_cases heq : userID = other
  · rw [if_pos heq, if_pos heq]
  · rw [if_neg heq, if_neg heq, codes]

theorem consumeCode_eq (s : RecoveryStore) (userID : UUID) (hash : String) :
    s.consumeCode userID hash =
      if hash ∈ s.codes userID then
        (.ok ((s.codes userID).erase hash).card, s.put (userID, (s.codes userID).erase hash))
      else (.error .codeNotFound, s) := by
  unfold consumeCode codes
  cases s.get? userID with
  | none => simp
  | some entry =>
    by_cases hmem : hash ∈ entry.2
    · simp [hmem]
    · simp [hmem]

end RecoveryStore

end Sulis.Recovery
