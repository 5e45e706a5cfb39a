-- SUMMARY: Concurrent calls to the PostgreSQL TOTP store look like calls to the in-memory one, one at a time.
import Sulis.Postgres.TotpAlone

/-!
# The PostgreSQL TOTP store refines the in-memory one

Each call that writes keeps to the two rows of its user and holds the user's lock, so it
is enough to know what its statements do with nothing in between.
-/

namespace Sulis.Postgres.Totp

open ReadCommitted Sulis.Totp Sulis.Sql Store

/-! ## The rows that a call keeps to -/

def Row.userID : Row → UUID
  | .active userID _ _ _ _ | .pending userID _ _ _ => userID

/-- The rows that a call may touch. -/
def owned (userID : UUID) (row : Row) : Bool := row.userID = userID

/-- The tables hold what the in-memory store does. -/
def Stored (heap : Heap Row) (store : TOTPStore) : Prop :=
  ∀ userID, UserRows heap userID (slots store userID)

section

variable {userID : UUID} {row : Row} {cred : Credential} {heap heap' : Heap Row} {s : Slots}

theorem owned_of_isActive (h : isActive userID row) : owned userID row := by
  cases row with
  | active => exact h
  | pending => cases h

theorem owned_of_isPending (h : isPending userID row) : owned userID row := by
  cases row with
  | active => cases h
  | pending => exact h

theorem owned_overwrite (row' : Row) (h : owned userID row) : owned userID (overwrite row row') := by
  cases row <;> cases row' <;> exact h

theorem owned_of_sameSlot {new : Row} (h : sameSlot new row) (hnew : owned userID new) :
    owned userID row := by
  have huser : row.userID = new.userID := by
    cases new <;> cases row <;> simp_all [sameSlot, Row.userID]
  rw [owned, huser]
  exact hnew

theorem UserRows.congr (h : UserRows heap userID s)
    (hsame : ∀ id r, owned userID r → ((id, r) ∈ heap' ↔ (id, r) ∈ heap)) : UserRows heap' userID s where
  active := h.active.congr fun id r hr => hsame id r (owned_of_isActive hr)
  pending := h.pending.congr fun id r hr => hsame id r (owned_of_isPending hr)
  activeOwn := h.activeOwn
  pendingOwn := h.pendingOwn

theorem UserRows.within : UserRows (heap.within (owned userID)) userID s ↔ UserRows heap userID s := by
  constructor
  · exact fun h => h.congr fun id r hr => by simp [hr]
  · exact fun h => h.congr fun id r hr => by simp [hr]

theorem upsert_within {new : List Row → Option Row} {next : List Row → Step}
    (hlocal : ∀ rows, new rows = new (rows.filter (owned userID)))
    (hnew : ∀ rows row, new rows = some row → owned userID row)
    (hnext : ∀ rows, (next rows).Within (owned userID)) : (upsert new next).Within (owned userID) := by
  refine ⟨⟨hlocal, fun rows row hrow => ⟨hnew rows row hrow, fun r hr => ?_⟩⟩, hnext⟩
  have hr' := owned_of_sameSlot hr (hnew rows row hrow)
  exact ⟨hr', owned_overwrite row hr'⟩

theorem enrollLocked_within : (enrollLocked cred).Within (owned cred.userID) := by
  refine upsert_within (fun rows => ?_) (fun rows row hrow => ?_) fun _ => trivial
  · have hany : (rows.filter (owned cred.userID)).any (isActive cred.userID) =
        rows.any (isActive cred.userID) := by
      rw [List.any_filter]
      refine congrArg rows.any (funext fun r => ?_)
      cases hr : isActive cred.userID r with
      | false => simp
      | true => simp [owned_of_isActive hr]
    rw [hany]
  · split at hrow
    · cases hrow
    · cases hrow
      exact owned_of_isPending (isPending_pendingRow rfl)

theorem replaceLocked_within : (replaceLocked cred).Within (owned cred.userID) := by
  refine upsert_within (fun _ => rfl) (fun rows row hrow => ?_) fun _ => trivial
  cases hrow
  exact owned_of_isPending (isPending_pendingRow rfl)

theorem promote_within {counter : Nat} (rows : List Row) :
    (promote userID counter rows).Within (owned userID) := by
  unfold promote
  split
  · split
    · trivial
    · refine ⟨fun _ => owned_of_isActive, fun rows => ?_⟩
      refine upsert_within (fun _ => rfl) (fun rows row hrow => ?_) fun _ => trivial
      cases hrow
      simp [owned, Row.userID]
  · trivial

theorem confirmLocked_within {pendingID : UUID} {counter : Nat} :
    (confirmLocked userID pendingID counter).Within (owned userID) := by
  refine ⟨⟨fun _ => rfl, fun _ r hr => ?_, by rintro r r' - ⟨⟩⟩, promote_within⟩
  cases r with
  | active => cases hr
  | pending user => exact decide_eq_true (of_decide_eq_true hr).1

theorem saveLocked_within : (saveLocked cred).Within (owned cred.userID) := by
  refine ⟨⟨fun _ => rfl, fun _ r hr => owned_of_isActive (isActive_of_isBelow hr), ?_⟩, fun rows => ?_⟩
  · rintro r r' hr ⟨⟩
    cases r <;> exact hr
  · unfold afterUpdate
    split
    · refine ⟨fun _ => owned_of_isActive, fun rows => ?_⟩
      unfold refusedSaveError
      split <;> trivial
    · trivial

theorem deleteLocked_within : (deleteLocked userID).Within (owned userID) := by
  refine ⟨⟨fun _ => rfl, fun _ _ => owned_of_isActive, by rintro r r' - ⟨⟩⟩, fun _ => ?_⟩
  exact ⟨⟨fun _ => rfl, fun _ _ => owned_of_isPending, by rintro r r' - ⟨⟩⟩, fun _ => trivial⟩

theorem scanCredential_ends (rows : List Row) : (scanCredential rows).Ends := by
  unfold scanCredential
  split
  · split <;> trivial
  · split <;> trivial
  · trivial

end

/-! ## Calls side by side -/

/-- What a call does under the lock is what it does to the slots of its user. -/
theorem locked_alone {call : Call} {next : List Row → Step} {view heap' : Heap Row} {s : Slots}
    {out : Out} (hfits : Fits call)
    (hbody : client.body call = .exec (.lock (userLock .totp call.userID)) next)
    (h : UserRows view call.userID s) (halone : Alone view view (.ready (next [])) out heap') :
    ∃ s', execute s call = (out, s') ∧ UserRows heap' call.userID s' := by
  cases call with
  | enrollPending cred => cases hbody; exact enrollPending_alone h hfits halone
  | replacePending cred => cases hbody; exact replacePending_alone h hfits halone
  | confirmEnrollment => cases hbody; exact confirmEnrollment_alone h hfits halone
  | saveTOTP cred => cases hbody; exact saveTOTP_alone h hfits halone
  | deleteTOTP => cases hbody; exact deleteTOTP_alone h halone
  | getActiveTOTP | getPendingTOTP => cases hbody

theorem shape (call : Call) :
    Shape (owned call.userID) (userLock .totp call.userID) (client.body call) := by
  cases call with
  | enrollPending cred => exact .write enrollLocked_within
  | replacePending cred => exact .write replaceLocked_within
  | confirmEnrollment => exact .write confirmLocked_within
  | saveTOTP cred => exact .write saveLocked_within
  | deleteTOTP => exact .write deleteLocked_within
  | getActiveTOTP | getPendingTOTP => exact .read scanCredential_ends

theorem implements : Implements client Fits (fun call => owned call.userID)
    (fun call => userLock .totp call.userID) onMemstore Stored where
  shape := shape
  shared := by
    intro a b r ha hb
    have heq : a.userID = b.userID := (of_decide_eq_true ha).symm.trans (of_decide_eq_true hb)
    rw [heq]
  write := by
    intro call next heap heap' store out hfits hbody hstored halone houtside
    obtain ⟨s', hexec, hrows⟩ :=
      locked_alone hfits hbody (UserRows.within.mpr (hstored call.userID)) halone
    have hown := onMemstore_own store call
    rw [hexec] at hown
    obtain ⟨hout, hslots⟩ := Prod.mk.inj hown
    refine ⟨(onMemstore store call).2, by rw [← hout], fun userID => ?_⟩
    by_cases heq : call.userID = userID
    · subst heq
      rw [hslots]
      exact UserRows.within.mp hrows
    · rw [onMemstore_other store call heq]
      refine (hstored userID).congr fun id r hr => houtside id r ?_
      exact fun hr' => heq ((of_decide_eq_true hr').symm.trans (of_decide_eq_true hr))
  read := by
    intro call p next heap store out _ hbody hstored hgives
    cases call with
    | getActiveTOTP userID =>
      cases hbody
      have hrows := hstored userID
      rw [hrows.active.filter_visible] at hgives
      obtain rfl := scanCredential_activeRow (fun cred hcred => (hrows.activeOwn cred hcred).2) hgives
      exact congrArg (·, store) (congrArg Prod.fst (onMemstore_own store (.getActiveTOTP userID)))
    | getPendingTOTP userID =>
      cases hbody
      have hrows := hstored userID
      rw [hrows.pending.filter_visible] at hgives
      obtain rfl := scanCredential_pendingRow (fun cred hcred => (hrows.pendingOwn cred hcred).2) hgives
      exact congrArg (·, store) (congrArg Prod.fst (onMemstore_own store (.getPendingTOTP userID)))
    | _ => cases hbody
  pure := by
    intro call p next hbody store
    cases call with
    | getActiveTOTP | getPendingTOTP => rfl
    | _ => cases hbody

/-- Whatever the statements of the calls are interleaved to, the calls return what the
    in-memory store returns for one after the other, in an order that fits real time, and
    the tables hold what it holds then. A pending enrollment has no counter of its own, so
    it has to come with none. -/
theorem totp_calls_linearizable {heap₀ : Heap Row} {fresh₀ : Nat} {store₀ : TOTPStore}
    {trace : List (Moment Row LockKey Call Out)} {c : ReadCommitted.Config Row LockKey Call Out}
    (hfresh : ∀ t ∈ heap₀, t.1 < fresh₀) (hstored : Stored heap₀ store₀)
    (hrun : ReadCommitted.Run client (Issues Fits) (.start heap₀ fresh₀) trace c) :
    Linearizable onMemstore Stored store₀ trace c :=
  implements.linearizable hfresh hstored hrun

theorem stored_empty : Stored .empty {} := by
  intro userID
  constructor
  case active => exact fun t ht => absurd ht (Table.not_mem_empty t)
  case pending => exact fun t ht => absurd ht (Table.not_mem_empty t)
  case activeOwn => rintro cred ⟨⟩
  case pendingOwn => rintro cred ⟨⟩

/-- A user's first enrollment. -/
def firstEnrollment : Credential :=
  { id := 7#128, userID := 1#128, secret := "GEZDGNBVGY3TQOJQ", createdAt := 1763337600123456789 }

/-- An enrollment by the same user, that comes too late. -/
def lateEnrollment : Credential := { firstEnrollment with id := 8#128 }

set_option synthInstance.maxSize 256 in
/-- A confirmation, a lookup that reads behind its back, and an enrollment that has to wait
    for it. -/
theorem totp_calls_linearizable_confirmed : ∃ trace c,
    ReadCommitted.Run client (Issues Fits) (.start .empty 0) trace c ∧
    c.returned 1 = some (.confirmEnrollment 1#128 7#128 5, some (.found (.ok
      { firstEnrollment with verified := true, lastUsedCounter := 5 }))) ∧
    c.returned 2 = some (.getPendingTOTP 1#128, some (.found (.ok firstEnrollment))) ∧
    c.returned 3 = some (.enrollPending lateEnrollment, some (.done (.error .totpAlreadyEnrolled))) ∧
    Linearizable onMemstore Stored {} trace c := by
  obtain ⟨trace, c, hrun, hconfirmed, hread, hrefused⟩ : ∃ trace c,
      ReadCommitted.Run client (Issues Fits) (.start .empty 0) trace c ∧
      c.returned 1 = some (.confirmEnrollment 1#128 7#128 5, some (.found (.ok
        { firstEnrollment with verified := true, lastUsedCounter := 5 }))) ∧
      c.returned 2 = some (.getPendingTOTP 1#128, some (.found (.ok firstEnrollment))) ∧
      c.returned 3 = some (.enrollPending lateEnrollment, some (.done (.error .totpAlreadyEnrolled))) :=
    Run.computed
      [.invoke (.enrollPending firstEnrollment), .move 0, .move 0, .move 0, .move 0, .move 0,
        .invoke (.confirmEnrollment 1#128 7#128 5), .move 1, .move 1, .move 1, .take 1 0,
        .invoke (.getPendingTOTP 1#128), .move 2, .move 2,
        .invoke (.enrollPending lateEnrollment), .move 3,
        .move 1, .move 1, .move 1, .move 1, .move 1,
        .move 3, .move 3, .move 3, .move 2]
      (by decide +kernel)
  have hlin := totp_calls_linearizable (by simp) stored_empty hrun
  exact ⟨trace, c, hrun, hconfirmed, hread, hrefused, hlin⟩

/-! ## A counter that gets lost -/

/-- Every counter is below the sign bit of its column. -/
def Bounded : Call → Prop
  | .enrollPending cred | .replacePending cred | .saveTOTP cred => cred.lastUsedCounter < 2 ^ 63
  | .confirmEnrollment _ _ counter => counter < 2 ^ 63
  | .deleteTOTP _ | .getActiveTOTP _ | .getPendingTOTP _ => True

instance : DecidablePred Bounded
  | .enrollPending cred | .replacePending cred | .saveTOTP cred =>
    inferInstanceAs (Decidable (cred.lastUsedCounter < 2 ^ 63))
  | .confirmEnrollment _ _ counter => inferInstanceAs (Decidable (counter < 2 ^ 63))
  | .deleteTOTP _ | .getActiveTOTP _ | .getPendingTOTP _ => .isTrue trivial

/-- An enrollment with a counter of its own. -/
def countedEnrollment : Credential := { firstEnrollment with lastUsedCounter := 1 }

set_option synthInstance.maxSize 256 in
/-- The in-memory store returns the counter of a pending enrollment, and the table has no
    column for it. -/
theorem pending_counter_dropped : ∃ trace c,
    ReadCommitted.Run client (Issues Bounded) (.start .empty 0) trace c ∧
    ¬ ∃ log store, Serial onMemstore {} log store ∧ Records log c := by
  obtain ⟨trace, c, hrun, hlen, hfst, hsnd⟩ : ∃ trace c,
      ReadCommitted.Run client (Issues Bounded) (.start .empty 0) trace c ∧ c.sessions.length = 2 ∧
      c.returned 0 = some (.enrollPending countedEnrollment, some (.done (.ok ()))) ∧
      c.returned 1 = some (.getPendingTOTP 1#128, some (.found (.ok firstEnrollment))) :=
    Run.computed
      [.invoke (.enrollPending countedEnrollment), .move 0, .move 0, .move 0, .move 0, .move 0,
        .invoke (.getPendingTOTP 1#128), .move 1, .move 1, .move 1]
      (by decide +kernel)
  refine ⟨trace, c, hrun, ?_⟩
  rintro ⟨log, store, hserial, hrecords⟩
  rcases Records.eq_pair hrecords hlen hfst hsnd with rfl | rfl
  · exact absurd hserial.2.1 (by decide)
  · exact absurd hserial.1 (by decide)

end Sulis.Postgres.Totp
