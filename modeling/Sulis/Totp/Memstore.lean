-- SUMMARY: The in-memory TOTP store, its two slots per user, and everything a call can do to them.
import Sulis.Store.Table
import Sulis.Totp.Types

/-!
# The in-memory TOTP store

`memstore/totp.go`: a table of active credentials and a table of pending
enrollments, both keyed by the user. Every method holds the mutex from its first
line to its last, so each of them is one step.
-/

namespace Sulis.Totp

open Store

/-- The map of one slot. -/
abbrev Slot : Type := Table Credential.userID

structure TOTPStore where
  active : Slot := .empty
  pending : Slot := .empty

namespace TOTPStore

def getActiveTOTP (s : TOTPStore) (userID : UUID) : Except Err Credential :=
  match s.active.get? userID with
  | some cred => .ok cred
  | none => .error .totpNotEnrolled

def getPendingTOTP (s : TOTPStore) (userID : UUID) : Except Err Credential :=
  match s.pending.get? userID with
  | some cred => .ok cred
  | none => .error .totpNotEnrolled

/-- `setPendingLocked` -/
def setPending (s : TOTPStore) (cred : Credential) : TOTPStore :=
  { s with pending := s.pending.put { cred with verified := false } }

/-- Refused while the user has an active credential. -/
def enrollPending (s : TOTPStore) (cred : Credential) : Except Err Unit × TOTPStore :=
  match s.active.get? cred.userID with
  | some _ => (.error .totpAlreadyEnrolled, s)
  | none => (.ok (), s.setPending cred)

def replacePending (s : TOTPStore) (cred : Credential) : Except Err Unit × TOTPStore :=
  (.ok (), s.setPending cred)

/-- The counter a promoted credential starts from: that of the code, or that of the
    credential it replaces, whichever is higher. -/
def carriedCounter (active : Option Credential) (counter : Nat) : Nat :=
  match active with
  | some cred => if counter < cred.lastUsedCounter then cred.lastUsedCounter else counter
  | none => counter

/-- Promotes the pending enrollment, if it is still the one that is named. -/
def confirmEnrollment (s : TOTPStore) (userID pendingID : UUID) (counter : Nat) :
    Except Err Credential × TOTPStore :=
  match s.pending.get? userID with
  | none => (.error .totpNotEnrolled, s)
  | some pending =>
    if pending.id ≠ pendingID then (.error .totpNotEnrolled, s)
    else
      let promoted : Credential :=
        { id := pending.id
          userID := userID
          secret := pending.secret
          verified := true
          lastUsedCounter := carriedCounter (s.active.get? userID) counter
          createdAt := pending.createdAt }
      (.ok promoted, { active := s.active.put promoted, pending := s.pending.erase userID })

/-- Raises the counter of the active credential, if it is still the one that was read. -/
def saveTOTP (s : TOTPStore) (cred : Credential) : Except Err Unit × TOTPStore :=
  match s.active.get? cred.userID with
  | none => (.error .totpNotEnrolled, s)
  | some existing =>
    if existing.id ≠ cred.id then (.error .totpNotEnrolled, s)
    else if cred.lastUsedCounter ≤ existing.lastUsedCounter then (.error .totpReplayed, s)
    else
      (.ok (),
        { s with active := s.active.put { existing with lastUsedCounter := cred.lastUsedCounter } })

/-- Empties both slots of the user. -/
def deleteTOTP (s : TOTPStore) (userID : UUID) : Except Err Unit × TOTPStore :=
  (.ok (), { active := s.active.erase userID, pending := s.pending.erase userID })

/-! ## What each method can do -/

variable {s : TOTPStore} {userID id : UUID} {counter : Nat} {cred : Credential}

theorem getPendingTOTP_eq_ok :
    s.getPendingTOTP userID = .ok cred ↔ cred ∈ s.pending ∧ cred.userID = userID := by
  rw [← Table.get?_eq_some, getPendingTOTP]
  cases s.pending.get? userID <;> simp

theorem getActiveTOTP_eq_ok :
    s.getActiveTOTP userID = .ok cred ↔ cred ∈ s.active ∧ cred.userID = userID := by
  rw [← Table.get?_eq_some, getActiveTOTP]
  cases s.active.get? userID <;> simp

theorem enrollPending_cases (s : TOTPStore) (cred : Credential) :
    s.enrollPending cred = (.error .totpAlreadyEnrolled, s) ∨
      (∀ r ∈ s.active, r.userID ≠ cred.userID) ∧ s.enrollPending cred = (.ok (), s.setPending cred) := by
  unfold enrollPending
  split
  · exact Or.inl rfl
  · rename_i hnone
    exact Or.inr ⟨Table.get?_eq_none.mp hnone, rfl⟩

/-- The credential a promotion leaves active. -/
def promote (s : TOTPStore) (p : Credential) (counter : Nat) : Credential :=
  { p with verified := true, lastUsedCounter := carriedCounter (s.active.get? p.userID) counter }

theorem confirmEnrollment_cases (s : TOTPStore) (userID id : UUID) (counter : Nat) :
    s.confirmEnrollment userID id counter = (.error .totpNotEnrolled, s) ∨
      ∃ p ∈ s.pending, p.userID = userID ∧ p.id = id ∧
        s.confirmEnrollment userID id counter =
          (.ok (s.promote p counter),
            { active := s.active.put (s.promote p counter), pending := s.pending.erase userID }) := by
  unfold confirmEnrollment
  split
  · exact Or.inl rfl
  · rename_i p hp
    obtain ⟨hmem, rfl⟩ := Table.get?_eq_some.mp hp
    split
    · exact Or.inl rfl
    · rename_i hid
      exact Or.inr ⟨p, hmem, rfl, not_not.mp hid, rfl⟩

theorem saveTOTP_cases (s : TOTPStore) (cred : Credential) :
    (∃ err, s.saveTOTP cred = (.error err, s)) ∨
      ∃ r ∈ s.active, r.userID = cred.userID ∧ r.id = cred.id ∧
        r.lastUsedCounter < cred.lastUsedCounter ∧
        s.saveTOTP cred = (.ok (), { s with
          active := s.active.put { r with lastUsedCounter := cred.lastUsedCounter } }) := by
  unfold saveTOTP
  split
  · exact Or.inl ⟨_, rfl⟩
  · rename_i r hr
    obtain ⟨hmem, huser⟩ := Table.get?_eq_some.mp hr
    split
    · exact Or.inl ⟨_, rfl⟩
    · rename_i hid
      split
      · exact Or.inl ⟨_, rfl⟩
      · rename_i hlate
        exact Or.inr ⟨r, hmem, huser, not_not.mp hid, not_le.mp hlate, rfl⟩

theorem confirmEnrollment_of_mem {p : Credential} (hp : p ∈ s.pending) :
    s.confirmEnrollment p.userID p.id counter =
      (.ok (s.promote p counter),
        { active := s.active.put (s.promote p counter), pending := s.pending.erase p.userID }) := by
  simp only [confirmEnrollment, Table.get?_eq_some.mpr ⟨hp, rfl⟩, ne_eq, not_true_eq_false, if_false]
  rfl

theorem saveTOTP_of_mem {r : Credential} (hr : r ∈ s.active) (huser : r.userID = cred.userID)
    (hid : r.id = cred.id) (hlt : r.lastUsedCounter < cred.lastUsedCounter) :
    s.saveTOTP cred = (.ok (), { s with
      active := s.active.put { r with lastUsedCounter := cred.lastUsedCounter } }) := by
  simp [saveTOTP, Table.get?_eq_some.mpr ⟨hr, huser⟩, hid, Nat.not_le.mpr hlt]

theorem carriedCounter_lt {active : Option Credential} {counter bound : Nat}
    (hcounter : counter < bound) (hactive : ∀ cred ∈ active, cred.lastUsedCounter < bound) :
    carriedCounter active counter < bound := by
  cases active with
  | none => exact hcounter
  | some cred =>
    simp only [carriedCounter]
    split
    · exact hactive cred rfl
    · exact hcounter

theorem le_carriedCounter (active : Option Credential) (counter : Nat) :
    counter ≤ carriedCounter active counter := by
  unfold carriedCounter
  split
  · split <;> omega
  · exact le_refl counter

theorem le_promote {r p : Credential} (hr : r ∈ s.active) (huser : r.userID = p.userID) :
    r.lastUsedCounter ≤ (s.promote p counter).lastUsedCounter := by
  simp only [promote, carriedCounter, Table.get?_eq_some.mpr ⟨hr, huser⟩]
  split <;> omega

end TOTPStore

end Sulis.Totp
