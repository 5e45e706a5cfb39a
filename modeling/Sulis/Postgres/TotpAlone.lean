-- SUMMARY: What each call to the PostgreSQL TOTP store does to the rows of its user when nothing comes in between.
import Sulis.Postgres.Totp
import Sulis.ReadCommitted.Linearize

/-!
# The TOTP calls one at a time

The in-memory store keeps two slots for each user, and the tables one row for each of
them. The statements that a call runs under its lock do to the rows what the in-memory
store does to the slots.
-/

namespace Sulis.Postgres.Totp

open ReadCommitted Sulis.Totp Sulis.Sql Store

/-! ## The in-memory store, user by user -/

/-- The same call on the in-memory store. -/
def onMemstore (store : TOTPStore) : Call → Out × TOTPStore
  | .enrollPending cred => (.done (store.enrollPending cred).1, (store.enrollPending cred).2)
  | .replacePending cred => (.done (store.replacePending cred).1, (store.replacePending cred).2)
  | .confirmEnrollment userID pendingID counter =>
    (.found (store.confirmEnrollment userID pendingID counter).1,
      (store.confirmEnrollment userID pendingID counter).2)
  | .saveTOTP cred => (.done (store.saveTOTP cred).1, (store.saveTOTP cred).2)
  | .deleteTOTP userID => (.done (store.deleteTOTP userID).1, (store.deleteTOTP userID).2)
  | .getActiveTOTP userID => (.found (store.getActiveTOTP userID), store)
  | .getPendingTOTP userID => (.found (store.getPendingTOTP userID), store)

/-- The active and the pending slot of a user. -/
abbrev Slots : Type := Option Credential × Option Credential

def slots (store : TOTPStore) (userID : UUID) : Slots :=
  (store.active.get? userID, store.pending.get? userID)

/-- What an enrollment is stored as. -/
def unverified (cred : Credential) : Credential := { cred with verified := false }

/-- What a confirmed enrollment becomes. -/
def promoted (userID : UUID) (active : Option Credential) (counter : Nat) (pending : Credential) :
    Credential :=
  { id := pending.id
    userID := userID
    secret := pending.secret
    verified := true
    lastUsedCounter := TOTPStore.carriedCounter active counter
    createdAt := pending.createdAt }

def lookup : Option Credential → Out
  | some cred => .found (.ok cred)
  | none => .found (.error .totpNotEnrolled)

/-- What a call does to the slots of its user. -/
def execute (s : Slots) : Call → Out × Slots
  | .enrollPending cred =>
    match s.1 with
    | some _ => (.done (.error .totpAlreadyEnrolled), s)
    | none => (.done (.ok ()), none, some (unverified cred))
  | .replacePending cred => (.done (.ok ()), s.1, some (unverified cred))
  | .confirmEnrollment userID pendingID counter =>
    match s.2 with
    | none => (.found (.error .totpNotEnrolled), s)
    | some pending =>
      if pending.id ≠ pendingID then (.found (.error .totpNotEnrolled), s)
      else
        (.found (.ok (promoted userID s.1 counter pending)),
          some (promoted userID s.1 counter pending), none)
  | .saveTOTP cred =>
    match s.1 with
    | none => (.done (.error .totpNotEnrolled), s)
    | some existing =>
      if existing.id ≠ cred.id then (.done (.error .totpNotEnrolled), s)
      else if cred.lastUsedCounter ≤ existing.lastUsedCounter then (.done (.error .totpReplayed), s)
      else (.done (.ok ()), some { existing with lastUsedCounter := cred.lastUsedCounter }, s.2)
  | .deleteTOTP _ => (.done (.ok ()), none, none)
  | .getActiveTOTP _ => (lookup s.1, s)
  | .getPendingTOTP _ => (lookup s.2, s)

section

variable {store : TOTPStore} {userID other : UUID} {cred : Credential}

theorem get?_put_self (slot : Slot) (h : cred.userID = userID) : (slot.put cred).get? userID = some cred := by
  rw [Table.get?_put, if_pos h]

theorem slots_setPending : slots (store.setPending cred) cred.userID =
    (store.active.get? cred.userID, some (unverified cred)) := by
  rw [slots, TOTPStore.setPending, get?_put_self _ rfl]
  rfl

theorem slots_setPending_of_ne (h : cred.userID ≠ other) :
    slots (store.setPending cred) other = slots store other := by
  have hne : (unverified cred).userID ≠ other := h
  change (store.active.get? other, (store.pending.put (unverified cred)).get? other) = _
  rw [Table.get?_put_of_ne hne, slots]

end

theorem onMemstore_own (store : TOTPStore) (call : Call) :
    ((onMemstore store call).1, slots (onMemstore store call).2 call.userID) =
      execute (slots store call.userID) call := by
  cases call with
  | enrollPending cred =>
    simp only [onMemstore, TOTPStore.enrollPending, Call.userID]
    cases hactive : store.active.get? cred.userID with
    | none =>
      simp only [slots_setPending, hactive]
      simp [slots, execute, hactive]
    | some existing => simp [slots, execute, hactive]
  | replacePending cred =>
    simp only [onMemstore, TOTPStore.replacePending, Call.userID, slots_setPending]
    rfl
  | confirmEnrollment userID pendingID counter =>
    simp only [onMemstore, TOTPStore.confirmEnrollment, Call.userID]
    cases hpending : store.pending.get? userID with
    | none => simp [slots, execute, hpending]
    | some pending =>
      by_cases hid : pending.id = pendingID
      · simp [slots, execute, hpending, hid, promoted, get?_put_self, Table.get?_erase_self]
      · simp [slots, execute, hpending, hid]
  | saveTOTP cred =>
    simp only [onMemstore, TOTPStore.saveTOTP, Call.userID]
    cases hactive : store.active.get? cred.userID with
    | none => simp [slots, execute, hactive]
    | some existing =>
      have huser := (Table.get?_eq_some.mp hactive).2
      by_cases hid : existing.id = cred.id
      · by_cases hlate : cred.lastUsedCounter ≤ existing.lastUsedCounter
        · simp [slots, execute, hactive, hid, hlate]
        · simp [slots, execute, hactive, hid, hlate, get?_put_self, huser]
      · simp [slots, execute, hactive, hid]
  | deleteTOTP userID =>
    simp [onMemstore, TOTPStore.deleteTOTP, Call.userID, slots, execute, Table.get?_erase_self]
  | getActiveTOTP userID =>
    simp only [onMemstore, TOTPStore.getActiveTOTP, Call.userID, slots, execute]
    cases store.active.get? userID <;> rfl
  | getPendingTOTP userID =>
    simp only [onMemstore, TOTPStore.getPendingTOTP, Call.userID, slots, execute]
    cases store.pending.get? userID <;> rfl

/-- A call leaves the slots of other users alone. -/
theorem onMemstore_other (store : TOTPStore) (call : Call) {other : UUID} (h : call.userID ≠ other) :
    slots (onMemstore store call).2 other = slots store other := by
  cases call with
  | enrollPending cred =>
    rcases store.enrollPending_cases cred with heq | ⟨-, heq⟩
    · simp [onMemstore, heq]
    · simp [onMemstore, heq, slots_setPending_of_ne h]
  | replacePending cred => exact slots_setPending_of_ne h
  | confirmEnrollment userID pendingID counter =>
    rcases store.confirmEnrollment_cases userID pendingID counter with heq | ⟨p, -, huser, -, heq⟩
    · simp [onMemstore, heq]
    · have hne : (store.promote p counter).userID ≠ other := huser ▸ h
      have huserID : userID ≠ other := h
      simp [onMemstore, heq, slots, Table.get?_put_of_ne hne, Table.get?_erase_of_ne huserID]
  | saveTOTP cred =>
    rcases store.saveTOTP_cases cred with ⟨err, heq⟩ | ⟨r, -, huser, -, -, heq⟩
    · simp [onMemstore, heq]
    · have hne : Credential.userID { r with lastUsedCounter := cred.lastUsedCounter } ≠ other :=
        huser ▸ h
      simp [onMemstore, heq, slots, Table.get?_put_of_ne hne]
  | deleteTOTP userID =>
    have huserID : userID ≠ other := h
    simp [onMemstore, TOTPStore.deleteTOTP, slots, Table.get?_erase_of_ne huserID]
  | getActiveTOTP | getPendingTOTP => rfl

/-! ## The rows of a user -/

/-- What a promotion stores of a credential. -/
def activeRow (cred : Credential) : Row :=
  .active cred.userID cred.id cred.secret (int64 cred.lastUsedCounter) (formatTime cred.createdAt)

/-- The rows of a user are those of the slots. -/
structure UserRows (heap : Heap Row) (userID : UUID) (s : Slots) : Prop where
  active : heap.Only (isActive userID) (s.1.map activeRow)
  pending : heap.Only (isPending userID) (s.2.map pendingRow)
  activeOwn : ∀ cred ∈ s.1, cred.userID = userID ∧ cred.verified = true ∧ cred.lastUsedCounter < 2 ^ 63
  pendingOwn : ∀ cred ∈ s.2, cred.userID = userID ∧ cred.verified = false ∧ cred.lastUsedCounter = 0

/-- The counters that the columns can hold. There is no column for that of an enrollment. -/
def Fits : Call → Prop
  | .enrollPending cred | .replacePending cred => cred.lastUsedCounter = 0
  | .confirmEnrollment _ _ counter => counter < 2 ^ 63
  | .saveTOTP cred => cred.lastUsedCounter < 2 ^ 63
  | .deleteTOTP _ | .getActiveTOTP _ | .getPendingTOTP _ => True

instance : DecidablePred Fits
  | .enrollPending cred | .replacePending cred => inferInstanceAs (Decidable (cred.lastUsedCounter = 0))
  | .confirmEnrollment _ _ counter => inferInstanceAs (Decidable (counter < 2 ^ 63))
  | .saveTOTP cred => inferInstanceAs (Decidable (cred.lastUsedCounter < 2 ^ 63))
  | .deleteTOTP _ | .getActiveTOTP _ | .getPendingTOTP _ => .isTrue trivial

section

variable {userID : UUID} {row : Row} {cred : Credential} {view heap' : Heap Row} {s : Slots} {out : Out}

theorem not_isActive_of_isPending (h : isPending userID row) : ¬ isActive userID row := by
  cases row with
  | active => cases h
  | pending => exact Bool.false_ne_true

theorem not_isPending_of_isActive (h : isActive userID row) : ¬ isPending userID row := by
  cases row with
  | active => exact Bool.false_ne_true
  | pending => cases h

theorem isPending_pendingRow (h : cred.userID = userID) : isPending userID (pendingRow cred) := by
  simp [isPending, pendingRow, h]

theorem isActive_activeRow (h : cred.userID = userID) : isActive userID (activeRow cred) := by
  simp [isActive, activeRow, h]

theorem sameSlot_pendingRow : sameSlot (pendingRow cred) row ↔ isPending cred.userID row := by
  cases row <;> simp [sameSlot, pendingRow, isPending]

theorem sameSlot_activeRow : sameSlot (activeRow cred) row ↔ isActive cred.userID row := by
  cases row <;> simp [sameSlot, activeRow, isActive]

theorem overwrite_pendingRow (h : isPending cred.userID row) : overwrite row (pendingRow cred) = pendingRow cred := by
  cases row with
  | active => cases h
  | pending user =>
    obtain rfl : user = cred.userID := by simpa [isPending] using h
    rfl

theorem overwrite_activeRow (h : isActive cred.userID row) : overwrite row (activeRow cred) = activeRow cred := by
  cases row with
  | active user =>
    obtain rfl : user = cred.userID := by simpa [isActive] using h
    rfl
  | pending => cases h

/-! ## Statements on the rows of a user -/

/-- A pending row is stored. -/
theorem UserRows.putPending {new : List Row → Option Row} {next : List Row → Step} {heap : Heap Row}
    (h : UserRows view cred.userID s) (hcounter : cred.lastUsedCounter = 0)
    (hnew : new view.visible = some (pendingRow cred))
    (halone : Alone heap view (.ready (upsert new next)) out heap') :
    ∃ view', UserRows view' cred.userID (s.1, some (unverified cred)) ∧
      Alone heap view' (.ready (next [pendingRow cred])) out heap' := by
  obtain ⟨id, hone, hold, halone⟩ := halone.of_upsert hnew (fun _ => sameSlot_pendingRow)
    (fun _ => overwrite_pendingRow) h.pending
  refine ⟨_, ?_, halone⟩
  constructor
  case active =>
    refine h.active.write_other (fun r hr => not_isActive_of_isPending (hold r hr)) ?_
    rintro r ⟨⟩
    exact not_isActive_of_isPending (isPending_pendingRow rfl)
  case pending =>
    refine Heap.Only.write_same hone ?_
    rintro r ⟨⟩
    exact isPending_pendingRow rfl
  case activeOwn => exact h.activeOwn
  case pendingOwn =>
    rintro cred' ⟨⟩
    exact ⟨rfl, rfl, hcounter⟩

/-- An active row is stored. -/
theorem UserRows.putActive {new : List Row → Option Row} {next : List Row → Step} {heap : Heap Row}
    (h : UserRows view cred.userID s) (hverified : cred.verified = true)
    (hcounter : cred.lastUsedCounter < 2 ^ 63) (hnew : new view.visible = some (activeRow cred))
    (halone : Alone heap view (.ready (upsert new next)) out heap') :
    ∃ view', UserRows view' cred.userID (some cred, s.2) ∧
      Alone heap view' (.ready (next [activeRow cred])) out heap' := by
  obtain ⟨id, hone, hold, halone⟩ := halone.of_upsert hnew (fun _ => sameSlot_activeRow)
    (fun _ => overwrite_activeRow) h.active
  refine ⟨_, ?_, halone⟩
  constructor
  case active =>
    refine Heap.Only.write_same hone ?_
    rintro r ⟨⟩
    exact isActive_activeRow rfl
  case pending =>
    refine h.pending.write_other (fun r hr => not_isPending_of_isActive (hold r hr)) ?_
    rintro r ⟨⟩
    exact not_isPending_of_isActive (isActive_activeRow rfl)
  case activeOwn =>
    rintro cred' ⟨⟩
    exact ⟨rfl, hverified, hcounter⟩
  case pendingOwn => exact h.pendingOwn

/-- The pending row is consumed. -/
theorem UserRows.dropPending {q : Row → Bool} {next : List Row → Step} {heap : Heap Row}
    {active : Option Credential} {pending : Credential} (h : UserRows view userID (active, some pending))
    (hq : ∀ r, q r → isPending userID r) (hhit : q (pendingRow pending))
    (halone : Alone heap view (.ready (.exec (.modify (fun _ => q) (fun _ => none)) next)) out heap') :
    ∃ view', UserRows view' userID (active, none) ∧
      Alone heap view' (.ready (next [pendingRow pending])) out heap' := by
  obtain ⟨id, hmem, hone, halone⟩ := halone.of_modify_some h.pending hq hhit
  refine ⟨_, ?_, halone⟩
  constructor
  case active =>
    refine h.active.write_other (fun r hr => ?_) (by rintro r ⟨⟩)
    obtain rfl := (Prod.mk.inj (Table.eq_of_mem hr hmem rfl)).2
    exact not_isActive_of_isPending (hq _ hhit)
  case pending => exact Heap.Only.write_same hone (by rintro r ⟨⟩)
  case activeOwn => exact h.activeOwn
  case pendingOwn => rintro cred ⟨⟩

/-- The active row is changed, or goes. -/
theorem UserRows.setActive {q : Row → Bool} {set : Row → Option Row} {next : List Row → Step}
    {heap : Heap Row} {existing : Credential} {pending : Option Credential}
    (h : UserRows view userID (some existing, pending)) (new : Option Credential) (hq : ∀ r, q r → isActive userID r)
    (hhit : q (activeRow existing)) (hset : set (activeRow existing) = new.map activeRow)
    (hown : ∀ cred ∈ new, cred.userID = userID ∧ cred.verified = true ∧ cred.lastUsedCounter < 2 ^ 63)
    (halone : Alone heap view (.ready (.exec (.modify (fun _ => q) set) next)) out heap') :
    ∃ view', UserRows view' userID (new, pending) ∧
      Alone heap view' (.ready (next [activeRow existing])) out heap' := by
  obtain ⟨id, hmem, hone, halone⟩ := halone.of_modify_some h.active hq hhit
  rw [hset] at halone
  have hactive : ∀ r, new.map activeRow = some r → isActive userID r := by
    intro r hr
    obtain ⟨cred, hcred, rfl⟩ := Option.map_eq_some_iff.mp hr
    exact isActive_activeRow (hown cred hcred).1
  refine ⟨_, ?_, halone⟩
  constructor
  case active => exact Heap.Only.write_same hone hactive
  case pending =>
    refine h.pending.write_other (fun r hr => ?_) fun r hr => not_isPending_of_isActive (hactive r hr)
    obtain rfl := (Prod.mk.inj (Table.eq_of_mem hr hmem rfl)).2
    exact not_isPending_of_isActive (hq _ hhit)
  case activeOwn => exact hown
  case pendingOwn => exact h.pendingOwn

end

/-! ## Calls alone -/

section

variable {userID : UUID} {cred : Credential} {view heap' : Heap Row} {s : Slots} {out : Out}

theorem any_isActive (h : UserRows view userID s) : view.visible.any (isActive userID) = s.1.isSome := by
  rw [Bool.eq_iff_iff, List.any_eq_true]
  constructor
  · rintro ⟨r, hr, hactive⟩
    obtain ⟨id, hmem⟩ := Heap.mem_visible.mp hr
    obtain ⟨cred, hcred, -⟩ := Option.map_eq_some_iff.mp (h.active.eq_of_mem hmem hactive)
    rw [hcred]
    rfl
  · intro hsome
    obtain ⟨cred, hcred⟩ := Option.isSome_iff_exists.mp hsome
    have honly := h.active
    rw [hcred] at honly
    obtain ⟨hactive, id, hmem, -⟩ := honly
    exact ⟨_, Heap.mem_visible.mpr ⟨id, hmem⟩, hactive⟩

theorem enrollPending_alone (h : UserRows view cred.userID s) (hfits : Fits (.enrollPending cred))
    (halone : Alone view view (.ready (enrollLocked cred)) out heap') :
    ∃ s', execute s (.enrollPending cred) = (out, s') ∧ UserRows heap' cred.userID s' := by
  obtain ⟨active, pending⟩ := s
  have hany := any_isActive h
  cases active with
  | some existing =>
    obtain ⟨rfl, rfl⟩ := (halone.of_insert_none (by rw [hany]; rfl)).of_commit
    exact ⟨_, rfl, h⟩
  | none =>
    obtain ⟨view', hrows, halone⟩ := h.putPending hfits (by rw [hany]; rfl) halone
    obtain ⟨rfl, rfl⟩ := halone.of_commit
    exact ⟨_, rfl, hrows⟩

theorem replacePending_alone (h : UserRows view cred.userID s) (hfits : Fits (.replacePending cred))
    (halone : Alone view view (.ready (replaceLocked cred)) out heap') :
    ∃ s', execute s (.replacePending cred) = (out, s') ∧ UserRows heap' cred.userID s' := by
  obtain ⟨active, pending⟩ := s
  obtain ⟨view', hrows, halone⟩ := h.putPending hfits rfl halone
  obtain ⟨rfl, rfl⟩ := halone.of_commit
  exact ⟨_, rfl, hrows⟩

theorem promotedCounter_eq {counter : Nat} (h : UserRows view userID s) :
    promotedCounter counter (view.visible.filter (isActive userID)) =
      TOTPStore.carriedCounter s.1 counter := by
  rw [h.active.filter_visible]
  cases hactive : s.1 with
  | none => rfl
  | some existing =>
    obtain ⟨-, -, hlt⟩ := h.activeOwn existing hactive
    simp only [Option.map_some, Option.toList_some, activeRow, promotedCounter,
      TOTPStore.carriedCounter, int64_of_lt hlt, uint64_of_lt hlt]
    have hiff : (0 < (existing.lastUsedCounter : Int) ∧ counter < existing.lastUsedCounter) ↔
        counter < existing.lastUsedCounter := by omega
    simp only [hiff]

theorem confirmEnrollment_alone {pendingID : UUID} {counter : Nat} (h : UserRows view userID s)
    (hfits : Fits (.confirmEnrollment userID pendingID counter))
    (halone : Alone view view (.ready (confirmLocked userID pendingID counter)) out heap') :
    ∃ s', execute s (.confirmEnrollment userID pendingID counter) = (out, s') ∧
      UserRows heap' userID s' := by
  obtain ⟨active, pending⟩ := s
  have hq : ∀ r, isEnrollment userID pendingID r → isPending userID r := by
    intro r hr
    cases r with
    | active => cases hr
    | pending user id => exact decide_eq_true (of_decide_eq_true hr).1
  cases pending with
  | none =>
    obtain ⟨rfl, rfl⟩ := (halone.of_modify_none h.pending hq (by rintro r ⟨⟩)).of_rollback
    exact ⟨_, rfl, h⟩
  | some pending =>
    obtain ⟨huser, -, -⟩ := h.pendingOwn pending rfl
    by_cases hid : pending.id = pendingID
    · obtain ⟨view', hrows, halone⟩ :=
        UserRows.dropPending h hq (by simp [isEnrollment, pendingRow, huser, hid]) halone
      simp only [promote, pendingRow] at halone
      split at halone
      · exact halone.not_abort.elim
      · rename_i time htime
        obtain ⟨-, rfl⟩ := parseTime_formatTime_eq_some htime
        have halone := halone.of_select
        rw [promotedCounter_eq hrows] at halone
        have hrows : UserRows view' (promoted userID active counter pending).userID (active, none) :=
          hrows
        have hlt : (promoted userID active counter pending).lastUsedCounter < 2 ^ 63 :=
          TOTPStore.carriedCounter_lt hfits fun cred hcred => (h.activeOwn cred hcred).2.2
        obtain ⟨view'', hrows', halone⟩ := hrows.putActive rfl hlt rfl halone
        obtain ⟨rfl, rfl⟩ := halone.of_commit
        exact ⟨_, by simp [execute, hid, promoted], hrows'⟩
    · have hmiss : ∀ r, some (pendingRow pending) = some r → ¬ isEnrollment userID pendingID r := by
        rintro r ⟨⟩
        simp [isEnrollment, pendingRow, hid]
      obtain ⟨rfl, rfl⟩ := (halone.of_modify_none h.pending hq hmiss).of_rollback
      exact ⟨_, by simp [execute, hid], h⟩

theorem isActive_of_isBelow {id : UUID} {counter : Int} {r : Row} (h : isBelow userID id counter r) :
    isActive userID r := by
  cases r with
  | active user => exact decide_eq_true (of_decide_eq_true h).1
  | pending => cases h

theorem saveTOTP_alone (h : UserRows view cred.userID s) (hfits : Fits (.saveTOTP cred))
    (halone : Alone view view (.ready (saveLocked cred)) out heap') :
    ∃ s', execute s (.saveTOTP cred) = (out, s') ∧ UserRows heap' cred.userID s' := by
  obtain ⟨active, pending⟩ := s
  have hlt : cred.lastUsedCounter < 2 ^ 63 := hfits
  rw [saveLocked, int64_of_lt hlt] at halone
  -- a refused save reads the row it did not change
  have hrefused : (∀ r, active.map activeRow = some r →
      ¬ isBelow cred.userID cred.id cred.lastUsedCounter r) →
      Alone view view (.ready (refusedSaveError cred (active.map activeRow).toList)) out heap' := by
    intro hmiss
    have halone := (halone.of_modify_none h.active (fun _ => isActive_of_isBelow) hmiss).of_select
    rwa [h.active.filter_visible] at halone
  cases active with
  | none =>
    obtain ⟨rfl, rfl⟩ := (hrefused (by rintro r ⟨⟩)).of_rollback
    exact ⟨_, rfl, h⟩
  | some existing =>
    obtain ⟨huser, hverified, hbound⟩ := h.activeOwn existing rfl
    have hbelow : isBelow cred.userID cred.id cred.lastUsedCounter (activeRow existing) ↔
        existing.id = cred.id ∧ existing.lastUsedCounter < cred.lastUsedCounter := by
      simp [isBelow, activeRow, int64_of_lt hbound, huser]
    by_cases hid : existing.id = cred.id
    · by_cases hlate : cred.lastUsedCounter ≤ existing.lastUsedCounter
      · obtain ⟨rfl, rfl⟩ := (hrefused (by rintro r ⟨⟩; rw [hbelow]; omega)).of_rollback
        exact ⟨_, by simp [execute, hid, hlate], h⟩
      · obtain ⟨view', hrows, halone⟩ :=
          UserRows.setActive h (some { existing with lastUsedCounter := cred.lastUsedCounter })
            (fun _ => isActive_of_isBelow) (hbelow.mpr ⟨hid, not_le.mp hlate⟩)
            (by simp [activeRow, setCounter, int64_of_lt hlt])
            (by rintro cred' ⟨⟩; exact ⟨huser, hverified, hlt⟩) halone
        obtain ⟨rfl, rfl⟩ := halone.of_commit
        exact ⟨_, by simp [execute, hid, hlate], hrows⟩
    · have halone := hrefused (by rintro r ⟨⟩; rw [hbelow]; exact fun hboth => hid hboth.1)
      simp only [Option.map_some, Option.toList_some, activeRow, refusedSaveError, if_neg hid] at halone
      obtain ⟨rfl, rfl⟩ := halone.of_rollback
      exact ⟨_, by simp [execute, hid], h⟩

theorem deleteTOTP_alone (h : UserRows view userID s)
    (halone : Alone view view (.ready (deleteLocked userID)) out heap') :
    ∃ s', execute s (.deleteTOTP userID) = (out, s') ∧ UserRows heap' userID s' := by
  obtain ⟨active, pending⟩ := s
  obtain ⟨view', hrows, halone⟩ : ∃ view', UserRows view' userID (none, pending) ∧
      Alone view view' (.ready
        (.exec (.modify (fun _ => isPending userID) (fun _ => none)) fun _ => .commit (.done (.ok ()))))
        out heap' := by
    cases active with
    | none => exact ⟨view, h, halone.of_modify_none h.active (fun _ => id) (by rintro r ⟨⟩)⟩
    | some existing =>
      exact UserRows.setActive h none (fun _ => id) (isActive_activeRow (h.activeOwn existing rfl).1) rfl
        (by rintro cred ⟨⟩) halone
  obtain ⟨view'', hrows, halone⟩ : ∃ view'', UserRows view'' userID (none, none) ∧
      Alone view view'' (.ready (.commit (.done (.ok ())))) out heap' := by
    cases pending with
    | none => exact ⟨view', hrows, halone.of_modify_none hrows.pending (fun _ => id) (by rintro r ⟨⟩)⟩
    | some pending =>
      exact UserRows.dropPending hrows (fun _ => id)
        (isPending_pendingRow (h.pendingOwn pending rfl).1) halone
  obtain ⟨rfl, rfl⟩ := halone.of_commit
  exact ⟨_, rfl, hrows⟩

/-- What a reading call returns is what is in the slot. -/
theorem scanCredential_activeRow {active : Option Credential}
    (hown : ∀ cred ∈ active, cred.verified = true ∧ cred.lastUsedCounter < 2 ^ 63)
    (hgives : (scanCredential (active.map activeRow).toList).Gives out) : out = lookup active := by
  cases active with
  | none =>
    rcases hgives with heq | heq <;> cases heq
    rfl
  | some cred =>
    obtain ⟨hverified, hlt⟩ := hown cred rfl
    simp only [Option.map_some, Option.toList_some, activeRow, scanCredential] at hgives
    split at hgives
    · rcases hgives with heq | heq <;> cases heq
    · rename_i time htime
      obtain ⟨-, rfl⟩ := parseTime_formatTime_eq_some htime
      rw [int64_of_lt hlt, uint64_of_lt hlt] at hgives
      rcases hgives with heq | heq <;> cases heq
      simp [lookup, ← hverified]

theorem scanCredential_pendingRow {pending : Option Credential}
    (hown : ∀ cred ∈ pending, cred.verified = false ∧ cred.lastUsedCounter = 0)
    (hgives : (scanCredential (pending.map pendingRow).toList).Gives out) : out = lookup pending := by
  cases pending with
  | none =>
    rcases hgives with heq | heq <;> cases heq
    rfl
  | some cred =>
    obtain ⟨hverified, hzero⟩ := hown cred rfl
    simp only [Option.map_some, Option.toList_some, pendingRow, scanCredential] at hgives
    split at hgives
    · rcases hgives with heq | heq <;> cases heq
    · rename_i time htime
      obtain ⟨-, rfl⟩ := parseTime_formatTime_eq_some htime
      rcases hgives with heq | heq <;> cases heq
      simp [lookup, ← hverified, ← hzero]

end

end Sulis.Postgres.Totp
