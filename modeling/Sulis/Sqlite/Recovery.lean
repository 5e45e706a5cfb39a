-- SUMMARY: The SQLite store of recovery codes, and that it does as the in-memory one.
import Sulis.Recovery.Memstore
import Sulis.Sqlite.Scan

/-!
# The SQLite recovery-code store

`recovery.go` over the table `recovery_codes`: a row for each code, with the user and the
hash as its primary key. The in-memory store keeps a set for each user instead.
-/

namespace Sulis.Sqlite

open Relational Store Sulis.Sql Sulis.Recovery

structure CodeRow where
  userID : UUID
  codeHash : String
  createdAt : String
  deriving DecidableEq, Repr

def CodeRow.conflict (a b : CodeRow) : Bool := a.userID = b.userID ∧ a.codeHash = b.codeHash

abbrev CodeTable : Type := Relation CodeRow.conflict

namespace CodeTable

/-- `WHERE user_id = ?` -/
def ownedBy (userID : UUID) (row : CodeRow) : Bool := row.userID = userID

/-- `WHERE user_id = ? AND code_hash = ?` -/
def isCode (userID : UUID) (hash : String) (row : CodeRow) : Bool :=
  row.userID = userID ∧ row.codeHash = hash

/-- The loop of `ReplaceCodes`: one `INSERT` for each hash. -/
def insertAll (userID : UUID) (now : String) : List String → CodeTable → Option CodeTable
  | [], t => some t
  | hash :: rest, t =>
    match t.insert ⟨userID, hash, now⟩ with
    | some t' => insertAll userID now rest t'
    | none => none

def replaceCodes (t : CodeTable) (userID : UUID) (hashes : List String) (now : Time) :
    Result Recovery.Err Unit × CodeTable :=
  match insertAll userID (formatTime now) hashes (t.delete (ownedBy userID)) with
  | some t' => (.ok (), t')
  | none => (.error (.storage "storing a recovery code"), t)

def consumeCode (t : CodeTable) (userID : UUID) (hash : String) : Result Recovery.Err Nat × CodeTable :=
  let t' := t.delete (isCode userID hash)
  if (t.select (isCode userID hash)).length = 0 then (.error (.sentinel .codeNotFound), t)
  else (.ok (t'.select (ownedBy userID)).length, t')

def countCodes (t : CodeTable) (userID : UUID) : Result Recovery.Err Nat :=
  .ok (t.select (ownedBy userID)).length

def deleteCodes (t : CodeTable) (userID : UUID) : Result Recovery.Err Unit × CodeTable :=
  (.ok (), t.delete (ownedBy userID))

/-! ## The codes of a user -/

/-- The hashes in the rows of a user. -/
def held (t : CodeTable) (userID : UUID) : List String :=
  (t.select (ownedBy userID)).map CodeRow.codeHash

variable {t t' : CodeTable} {userID other : UUID} {hash hash' : String} {hashes : List String}

theorem mem_held :
    hash ∈ t.held userID ↔ ∃ row ∈ t.rows, row.userID = userID ∧ row.codeHash = hash := by
  simp [held, Relation.select, ownedBy, and_assoc]

theorem nodup_held (t : CodeTable) (userID : UUID) : (t.held userID).Nodup := by
  refine List.pairwise_map.mpr ?_
  refine ((t.distinct.filter _).imp_of_mem fun {a b} ha hb hapart hsame => ?_)
  have huser : a.userID = userID := of_decide_eq_true (List.mem_filter.mp ha).2
  have huser' : b.userID = userID := of_decide_eq_true (List.mem_filter.mp hb).2
  rw [CodeRow.conflict, decide_eq_false_iff_not] at hapart
  exact hapart ⟨huser.trans huser'.symm, hsame⟩

theorem mem_held_clear :
    hash ∈ CodeTable.held (t.delete (ownedBy userID)) other ↔ userID ≠ other ∧ hash ∈ t.held other := by
  simp only [mem_held, Relation.delete, List.mem_filter, ownedBy, Bool.not_eq_true', decide_eq_false_iff_not]
  constructor
  · rintro ⟨row, ⟨hrow, hne⟩, rfl, hhash⟩
    exact ⟨Ne.symm hne, row, hrow, rfl, hhash⟩
  · rintro ⟨hne, row, hrow, rfl, hhash⟩
    exact ⟨row, ⟨hrow, Ne.symm hne⟩, rfl, hhash⟩

theorem mem_held_remove :
    hash' ∈ CodeTable.held (t.delete (isCode userID hash)) other ↔
      ¬ (other = userID ∧ hash' = hash) ∧ hash' ∈ t.held other := by
  simp only [mem_held, Relation.delete, List.mem_filter, isCode, Bool.not_eq_true', decide_eq_false_iff_not]
  constructor
  · rintro ⟨row, ⟨hrow, hne⟩, rfl, rfl⟩
    exact ⟨hne, row, hrow, rfl, rfl⟩
  · rintro ⟨hne, row, hrow, rfl, rfl⟩
    exact ⟨row, ⟨hrow, hne⟩, rfl, rfl⟩

/-- Codes the user does not have are stored, each once. -/
theorem insertAll_of_nodup (hnodup : hashes.Nodup) (hnew : ∀ hash ∈ hashes, hash ∉ t.held userID)
    (now : String) :
    ∃ t', insertAll userID now hashes t = some t' ∧
      ∀ other hash, hash ∈ t'.held other ↔ (other = userID ∧ hash ∈ hashes) ∨ hash ∈ t.held other := by
  induction hashes generalizing t with
  | nil => exact ⟨t, rfl, fun other hash => by simp⟩
  | cons code rest ih =>
    obtain ⟨hcode, hrest⟩ := List.nodup_cons.mp hnodup
    have hfree : ∀ row ∈ t.rows, CodeRow.conflict ⟨userID, code, now⟩ row = false := by
      intro row hrow
      rw [CodeRow.conflict, decide_eq_false_iff_not]
      rintro ⟨huser, hhash⟩
      exact hnew code List.mem_cons_self (mem_held.mpr ⟨row, hrow, huser.symm, hhash.symm⟩)
    have hinsert : t.insert ⟨userID, code, now⟩ =
        some ⟨_ :: t.rows, List.pairwise_cons.mpr ⟨hfree, t.distinct⟩⟩ := dif_pos hfree
    have hheld : ∀ other hash,
        hash ∈ CodeTable.held ⟨⟨userID, code, now⟩ :: t.rows,
          List.pairwise_cons.mpr ⟨hfree, t.distinct⟩⟩ other ↔
          (other = userID ∧ hash = code) ∨ hash ∈ t.held other := by
      intro other hash
      simp only [mem_held, List.mem_cons, exists_eq_or_imp]
      exact or_congr (and_congr eq_comm eq_comm) Iff.rfl
    obtain ⟨t', ht', hmem⟩ := ih hrest fun hash hhash hthere => by
      rcases (hheld userID hash).mp hthere with ⟨-, rfl⟩ | hthere
      · exact hcode hhash
      · exact hnew hash (List.mem_cons_of_mem _ hhash) hthere
    refine ⟨t', by rw [insertAll, hinsert]; exact ht', fun other hash => ?_⟩
    rw [hmem, hheld, List.mem_cons, ← or_assoc, ← and_or_left, or_comm (a := hash ∈ rest)]

end CodeTable

/-! ## Doing as the in-memory store does -/

/-- Every user has the rows of the set the in-memory store keeps. -/
def SameCodes (s : RecoveryStore) (t : CodeTable) : Prop :=
  ∀ userID hash, hash ∈ t.held userID ↔ hash ∈ s.codes userID

namespace SameCodes

variable {s : RecoveryStore} {t : CodeTable} {userID : UUID} {hashes : List String}

theorem length (h : SameCodes s t) (userID : UUID) :
    (t.select (CodeTable.ownedBy userID)).length = (s.codes userID).card := by
  have hset : (t.held userID).toFinset = s.codes userID :=
    Finset.ext fun hash => List.mem_toFinset.trans (h userID hash)
  rw [← hset, List.toFinset_card_of_nodup (t.nodup_held userID), CodeTable.held, List.length_map]

theorem replaceCodes (h : SameCodes s t) (hnodup : hashes.Nodup) (userID : UUID) (now : Time) :
    Agree SameCodes (s.replaceCodes userID hashes) (t.replaceCodes userID hashes now) := by
  have hcleared : ∀ hash ∈ hashes, hash ∉ CodeTable.held (t.delete (CodeTable.ownedBy userID)) userID :=
    fun hash _ hthere => (CodeTable.mem_held_clear.mp hthere).1 rfl
  obtain ⟨t', ht', hmem⟩ := CodeTable.insertAll_of_nodup hnodup hcleared (formatTime now)
  unfold CodeTable.replaceCodes
  rw [ht']
  refine ⟨rfl, fun other hash => ?_⟩
  rw [hmem, CodeTable.mem_held_clear, h other hash, RecoveryStore.replaceCodes, RecoveryStore.codes_put]
  by_cases heq : userID = other
  · simp [heq]
  · simp [heq, Ne.symm heq]

theorem countCodes (h : SameCodes s t) (userID : UUID) :
    t.countCodes userID = asSentinel (s.countCodes userID) := by
  rw [CodeTable.countCodes, RecoveryStore.countCodes, h.length]
  rfl

theorem deleteCodes (h : SameCodes s t) (userID : UUID) :
    Agree SameCodes (s.deleteCodes userID) (t.deleteCodes userID) := by
  refine ⟨rfl, fun other hash => ?_⟩
  rw [CodeTable.deleteCodes, CodeTable.mem_held_clear, h other hash, RecoveryStore.codes_erase]
  by_cases heq : userID = other
  · simp [heq]
  · simp [heq]

theorem consumeCode (h : SameCodes s t) (userID : UUID) (hash : String) :
    Agree SameCodes (s.consumeCode userID hash) (t.consumeCode userID hash) := by
  have hrows : (t.select (CodeTable.isCode userID hash)).length = 0 ↔ hash ∉ s.codes userID := by
    rw [← h userID hash, CodeTable.mem_held, List.length_eq_zero_iff, Relation.select,
      List.filter_eq_nil_iff]
    simp [CodeTable.isCode]
  rw [RecoveryStore.consumeCode_eq]
  unfold CodeTable.consumeCode
  by_cases hmem : hash ∈ s.codes userID
  · have hleft : SameCodes (s.put (userID, (s.codes userID).erase hash))
        (t.delete (CodeTable.isCode userID hash)) := by
      intro other hash'
      rw [CodeTable.mem_held_remove, h other hash', RecoveryStore.codes_put]
      by_cases heq : userID = other
      · subst heq
        simp [Finset.mem_erase]
      · simp [heq, Ne.symm heq]
    rw [if_pos hmem, if_neg (mt hrows.mp (not_not.mpr hmem)), hleft.length, RecoveryStore.codes_put,
      if_pos rfl]
    exact ⟨rfl, hleft⟩
  · rw [if_neg hmem, if_pos (hrows.mpr hmem)]
    exact ⟨rfl, h⟩

end SameCodes

end Sulis.Sqlite
