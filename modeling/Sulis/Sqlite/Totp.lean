-- SUMMARY: The SQLite store of TOTP credentials, and that it does as the in-memory one.
import Sulis.Sqlite.Scan
import Sulis.Totp.Memstore

/-!
# The SQLite TOTP store

`totp.go` over the tables `totp_active` and `totp_pending`, each of which has the user as
its primary key. A pending row has no counter, and whether a credential is verified is
which table it is in.
-/

namespace Sulis.Sqlite

open Relational Store Sulis.Sql Sulis.Totp

/-! ## Rows -/

structure ActiveRow where
  userID : UUID
  id : UUID
  secret : String
  lastUsedCounter : Int
  createdAt : String
  deriving DecidableEq, Repr

structure PendingRow where
  userID : UUID
  id : UUID
  secret : String
  createdAt : String
  deriving DecidableEq, Repr

def ActiveRow.conflict (a b : ActiveRow) : Bool := a.userID = b.userID

def PendingRow.conflict (a b : PendingRow) : Bool := a.userID = b.userID

structure TOTPTables where
  active : Relation ActiveRow.conflict := .empty
  pending : Relation PendingRow.conflict := .empty

def readActive (row : ActiveRow) : Result Totp.Err Credential := do
  let createdAt ← readTime row.createdAt
  return {
    id := row.id
    userID := row.userID
    secret := row.secret
    verified := true
    lastUsedCounter := uint64 row.lastUsedCounter
    createdAt := createdAt }

def readPending (row : PendingRow) : Result Totp.Err Credential := do
  let createdAt ← readTime row.createdAt
  return {
    id := row.id
    userID := row.userID
    secret := row.secret
    verified := false
    lastUsedCounter := 0
    createdAt := createdAt }

def encodeActive (cred : Credential) : ActiveRow :=
  ⟨cred.userID, cred.id, cred.secret, int64 cred.lastUsedCounter, formatTime cred.createdAt⟩

def encodePending (cred : Credential) : PendingRow :=
  ⟨cred.userID, cred.id, cred.secret, formatTime cred.createdAt⟩

/-! ## Calls -/

namespace TOTPTables

/-- `WHERE user_id = ?`, of `totp_active` -/
def activeOf (userID : UUID) (row : ActiveRow) : Bool := row.userID = userID

/-- `WHERE user_id = ?`, of `totp_pending` -/
def pendingOf (userID : UUID) (row : PendingRow) : Bool := row.userID = userID

/-- `WHERE user_id = ? AND id = ?`, of `totp_pending` -/
def isEnrollment (userID id : UUID) (row : PendingRow) : Bool := row.userID = userID ∧ row.id = id

/-- `WHERE user_id = ? AND id = ? AND last_used_counter < ?` -/
def isBelow (userID id : UUID) (counter : Int) (row : ActiveRow) : Bool :=
  row.userID = userID ∧ row.id = id ∧ row.lastUsedCounter < counter

/-- `DO UPDATE SET …`: every column but the user's is the excluded row's. -/
def overwriteActive (old excluded : ActiveRow) : ActiveRow := { excluded with userID := old.userID }

def overwritePending (old excluded : PendingRow) : PendingRow := { excluded with userID := old.userID }

/-- `SET last_used_counter = ?` -/
def setCounter (counter : Int) (row : ActiveRow) : ActiveRow := { row with lastUsedCounter := counter }

def getActiveTOTP (t : TOTPTables) (userID : UUID) : Result Totp.Err Credential :=
  scanRow .totpNotEnrolled readActive (t.active.select (activeOf userID))

def getPendingTOTP (t : TOTPTables) (userID : UUID) : Result Totp.Err Credential :=
  scanRow .totpNotEnrolled readPending (t.pending.select (pendingOf userID))

/-- `INSERT … ON CONFLICT(user_id) DO UPDATE SET …`, into `totp_pending` -/
def storePending (t : TOTPTables) (cred : Credential) (doing : String) :
    Result Totp.Err Unit × TOTPTables :=
  match t.pending.upsert (encodePending cred) overwritePending with
  | some pending => (.ok (), { t with pending := pending })
  | none => (.error (.storage doing), t)

/-- With an active credential there is nothing to insert. -/
def enrollPending (t : TOTPTables) (cred : Credential) : Result Totp.Err Unit × TOTPTables :=
  match t.active.select (activeOf cred.userID) with
  | _ :: _ => (.error (.sentinel .totpAlreadyEnrolled), t)
  | [] => t.storePending cred "enrolling a pending TOTP credential"

def replacePending (t : TOTPTables) (cred : Credential) : Result Totp.Err Unit × TOTPTables :=
  t.storePending cred "replacing a pending TOTP enrollment"

/-- The counter that is promoted, by what `SELECT last_used_counter` finds. -/
def promotedCounter (counter : Nat) : List ActiveRow → Nat
  | [] => counter
  | row :: _ =>
    if 0 < row.lastUsedCounter ∧ counter < uint64 row.lastUsedCounter then uint64 row.lastUsedCounter
    else counter

/-- What comes after the `DELETE … RETURNING` that consumes the pending row. -/
def promote (t : TOTPTables) (userID pendingID : UUID) (counter : Nat) (row : PendingRow) :
    Result Totp.Err Credential × TOTPTables :=
  match readTime row.createdAt with
  | .error err => (.error err, t)
  | .ok createdAt =>
    let promoted : Credential :=
      { id := row.id
        userID := userID
        secret := row.secret
        verified := true
        lastUsedCounter := promotedCounter counter (t.active.select (activeOf userID))
        createdAt := createdAt }
    match t.active.upsert (encodeActive promoted) overwriteActive with
    | none => (.error (.storage "promoting a TOTP enrollment"), t)
    | some active =>
      (.ok promoted, { active := active, pending := t.pending.delete (isEnrollment userID pendingID) })

def confirmEnrollment (t : TOTPTables) (userID pendingID : UUID) (counter : Nat) :
    Result Totp.Err Credential × TOTPTables :=
  match t.pending.select (isEnrollment userID pendingID) with
  | [] => (.error (.sentinel .totpNotEnrolled), t)
  | row :: _ => t.promote userID pendingID counter row

/-- `refusedSaveError`, by what `SELECT id` finds. -/
def refusedSaveError (cred : Credential) : List ActiveRow → Totp.Err
  | [] => .totpNotEnrolled
  | row :: _ => if row.id = cred.id then .totpReplayed else .totpNotEnrolled

def saveTOTP (t : TOTPTables) (cred : Credential) : Result Totp.Err Unit × TOTPTables :=
  let counter := int64 cred.lastUsedCounter
  match t.active.update (isBelow cred.userID cred.id counter) (setCounter counter) with
  | none => (.error (.storage "saving a TOTP credential"), t)
  | some active =>
    if (t.active.select (isBelow cred.userID cred.id counter)).length = 0 then
      (.error (.sentinel (refusedSaveError cred (active.select (activeOf cred.userID)))), t)
    else (.ok (), { t with active := active })

def deleteTOTP (t : TOTPTables) (userID : UUID) : Result Totp.Err Unit × TOTPTables :=
  (.ok (), ⟨t.active.delete (activeOf userID), t.pending.delete (pendingOf userID)⟩)

end TOTPTables

/-! ## Credentials the columns can hold -/

structure ActiveFits (cred : Credential) : Prop where
  verified : cred.verified = true
  counter : cred.lastUsedCounter < 2 ^ 63
  createdAt : InRange cred.createdAt

structure PendingFits (cred : Credential) : Prop where
  unverified : cred.verified = false
  counter : cred.lastUsedCounter = 0
  createdAt : InRange cred.createdAt

theorem readActive_encodeActive {cred : Credential} (h : ActiveFits cred) :
    readActive (encodeActive cred) = .ok cred := by
  simp only [readActive, encodeActive, readTime_formatTime h.createdAt, int64_of_lt h.counter,
    uint64_of_lt h.counter, ← h.verified]
  rfl

theorem readPending_encodePending {cred : Credential} (h : PendingFits cred) :
    readPending (encodePending cred) = .ok cred := by
  simp only [readPending, encodePending, readTime_formatTime h.createdAt]
  rw [← h.unverified, ← h.counter]
  rfl

theorem ActiveRow.conflict_symm (a b : ActiveRow) : a.conflict b = b.conflict a := by
  simp only [conflict, eq_comm]

theorem PendingRow.conflict_symm (a b : PendingRow) : a.conflict b = b.conflict a := by
  simp only [conflict, eq_comm]

theorem conflict_encodeActive (a b : Credential) :
    (encodeActive a).conflict (encodeActive b) ↔ b.userID = a.userID :=
  decide_eq_true_iff.trans eq_comm

theorem conflict_encodePending (a b : Credential) :
    (encodePending a).conflict (encodePending b) ↔ b.userID = a.userID :=
  decide_eq_true_iff.trans eq_comm

theorem activeOf_encodeActive {userID : UUID} {cred : Credential} :
    TOTPTables.activeOf userID (encodeActive cred) ↔ cred.userID = userID :=
  decide_eq_true_iff

theorem pendingOf_encodePending {userID : UUID} {cred : Credential} :
    TOTPTables.pendingOf userID (encodePending cred) ↔ cred.userID = userID :=
  decide_eq_true_iff

theorem isEnrollment_encodePending {userID id : UUID} {cred : Credential} :
    TOTPTables.isEnrollment userID id (encodePending cred) ↔ cred.userID = userID ∧ cred.id = id :=
  decide_eq_true_iff

theorem isBelow_encodeActive {userID id : UUID} {counter : Nat} {cred : Credential}
    (hcred : cred.lastUsedCounter < 2 ^ 63) (hcounter : counter < 2 ^ 63) :
    TOTPTables.isBelow userID id (int64 counter) (encodeActive cred) ↔
      cred.userID = userID ∧ cred.id = id ∧ cred.lastUsedCounter < counter := by
  simp only [TOTPTables.isBelow, encodeActive, int64_of_lt hcred, int64_of_lt hcounter,
    decide_eq_true_eq, Nat.cast_lt]

/-! ## Doing as the in-memory store does -/

/-- Each table has the rows of its slot. -/
structure SameCredentials (s : TOTPStore) (t : TOTPTables) : Prop where
  active : Mirrors encodeActive ActiveFits s.active t.active
  pending : Mirrors encodePending PendingFits s.pending t.pending

namespace SameCredentials

variable {s : TOTPStore} {t : TOTPTables} {cred : Credential} {userID id : UUID} {counter : Nat}

theorem getActiveTOTP (h : SameCredentials s t) (userID : UUID) :
    t.getActiveTOTP userID = asSentinel (s.getActiveTOTP userID) := by
  unfold TOTPTables.getActiveTOTP TOTPStore.getActiveTOTP
  rw [h.active.encodes.select_get? fun _ _ => activeOf_encodeActive]
  cases hget : s.active.get? userID with
  | none => rfl
  | some cred => exact readActive_encodeActive (h.active.valid cred (Table.get?_eq_some.mp hget).1)

theorem getPendingTOTP (h : SameCredentials s t) (userID : UUID) :
    t.getPendingTOTP userID = asSentinel (s.getPendingTOTP userID) := by
  unfold TOTPTables.getPendingTOTP TOTPStore.getPendingTOTP
  rw [h.pending.encodes.select_get? fun _ _ => pendingOf_encodePending]
  cases hget : s.pending.get? userID with
  | none => rfl
  | some cred => exact readPending_encodePending (h.pending.valid cred (Table.get?_eq_some.mp hget).1)

theorem deleteTOTP (h : SameCredentials s t) (userID : UUID) :
    Agree SameCredentials (s.deleteTOTP userID) (t.deleteTOTP userID) :=
  ⟨rfl, h.active.erase fun _ _ => activeOf_encodeActive, h.pending.erase fun _ _ => pendingOf_encodePending⟩

/-! ### Enrollment -/

theorem storePending (h : SameCredentials s t) (hcounter : cred.lastUsedCounter = 0)
    (hcreated : InRange cred.createdAt) (doing : String) :
    Agree SameCredentials ((.ok () : Except Totp.Err Unit), s.setPending cred)
      (t.storePending cred doing) := by
  have hfits : PendingFits { cred with verified := false } := ⟨rfl, hcounter, hcreated⟩
  have hset : ∀ b : Credential, b.userID = cred.userID →
      TOTPTables.overwritePending (encodePending b) (encodePending { cred with verified := false }) =
        encodePending { cred with verified := false } :=
    fun b hkey => by simp only [TOTPTables.overwritePending, encodePending, hkey]
  obtain ⟨pending, hupsert, henc⟩ := h.pending.encodes.upsert (a := { cred with verified := false })
    conflict_encodePending PendingRow.conflict_symm hset
  unfold TOTPTables.storePending
  change Agree _ _ (match t.pending.upsert (encodePending { cred with verified := false })
    TOTPTables.overwritePending with | some _ => _ | none => _)
  rw [hupsert]
  exact ⟨rfl, h.active, h.pending.put henc hfits⟩

theorem enrollPending (h : SameCredentials s t) (hcounter : cred.lastUsedCounter = 0)
    (hcreated : InRange cred.createdAt) :
    Agree SameCredentials (s.enrollPending cred) (t.enrollPending cred) := by
  unfold TOTPTables.enrollPending TOTPStore.enrollPending
  rw [h.active.encodes.select_get? fun _ _ => activeOf_encodeActive]
  cases s.active.get? cred.userID with
  | none => exact h.storePending hcounter hcreated _
  | some existing => exact ⟨rfl, h⟩

theorem replacePending (h : SameCredentials s t) (hcounter : cred.lastUsedCounter = 0)
    (hcreated : InRange cred.createdAt) :
    Agree SameCredentials (s.replacePending cred) (t.replacePending cred) :=
  h.storePending hcounter hcreated _

/-! ### Promotion -/

theorem promotedCounter (h : SameCredentials s t) (userID : UUID) (counter : Nat) :
    TOTPTables.promotedCounter counter (t.active.select (TOTPTables.activeOf userID)) =
      TOTPStore.carriedCounter (s.active.get? userID) counter := by
  rw [h.active.encodes.select_get? fun _ _ => activeOf_encodeActive]
  cases hget : s.active.get? userID with
  | none => rfl
  | some cred =>
    have hlt := (h.active.valid cred (Table.get?_eq_some.mp hget).1).counter
    simp only [Option.toList_some, List.map_cons, List.map_nil, TOTPTables.promotedCounter,
      TOTPStore.carriedCounter, encodeActive, int64_of_lt hlt, uint64_of_lt hlt, Int.natCast_pos]
    refine if_congr ⟨And.right, fun hbelow => ⟨by omega, hbelow⟩⟩ rfl rfl

/-- The pending enrollment that is named is promoted. -/
theorem promote (h : SameCredentials s t) (hcred : cred ∈ s.pending) (hcounter : counter < 2 ^ 63) :
    Agree SameCredentials
      ((.ok (s.promote cred counter) : Except Totp.Err Credential),
        ⟨s.active.put (s.promote cred counter), s.pending.erase cred.userID⟩)
      (t.promote cred.userID cred.id counter (encodePending cred)) := by
  have hpending := h.pending.valid cred hcred
  have hfits : ActiveFits (s.promote cred counter) :=
    ⟨rfl, TOTPStore.carriedCounter_lt hcounter fun cred hget =>
      (h.active.valid cred (Table.get?_eq_some.mp hget).1).counter, hpending.createdAt⟩
  have hsame : ∀ b ∈ s.pending,
      TOTPTables.isEnrollment cred.userID cred.id (encodePending b) ↔ b.userID = cred.userID := by
    intro b hb
    rw [isEnrollment_encodePending]
    refine ⟨And.left, fun huser => ⟨huser, ?_⟩⟩
    rw [Table.eq_of_mem hb hcred huser]
  have hset : ∀ b : Credential, b.userID = (s.promote cred counter).userID →
      TOTPTables.overwriteActive (encodeActive b) (encodeActive (s.promote cred counter)) =
        encodeActive (s.promote cred counter) :=
    fun b hkey => by simp only [TOTPTables.overwriteActive, encodeActive, hkey]
  obtain ⟨active, hupsert, henc⟩ :=
    h.active.encodes.upsert conflict_encodeActive ActiveRow.conflict_symm hset
  unfold TOTPTables.promote
  simp only [encodePending, readTime_formatTime hpending.createdAt, h.promotedCounter]
  change Agree _ _ (match t.active.upsert (encodeActive (s.promote cred counter))
    TOTPTables.overwriteActive with | none => _ | some _ => _)
  rw [hupsert]
  exact ⟨rfl, h.active.put henc hfits, h.pending.erase hsame⟩

theorem confirmEnrollment (h : SameCredentials s t) (hcounter : counter < 2 ^ 63) (userID id : UUID) :
    Agree SameCredentials (s.confirmEnrollment userID id counter) (t.confirmEnrollment userID id counter) := by
  unfold TOTPTables.confirmEnrollment
  by_cases hnamed : ∃ cred ∈ s.pending, cred.userID = userID ∧ cred.id = id
  · obtain ⟨cred, hcred, rfl, rfl⟩ := hnamed
    have hselect := h.pending.encodes.select_eq_singleton hcred
      (isEnrollment_encodePending.mpr ⟨rfl, rfl⟩)
      fun b hb hb' => Table.eq_of_mem hb hcred (isEnrollment_encodePending.mp hb').1
    rw [hselect, TOTPStore.confirmEnrollment_of_mem hcred]
    exact h.promote hcred hcounter
  · have hselect := h.pending.encodes.select_eq_nil fun cred hcred =>
      mt isEnrollment_encodePending.mp fun hboth => hnamed ⟨cred, hcred, hboth⟩
    rw [hselect]
    rcases s.confirmEnrollment_cases userID id counter with herr | ⟨cred, hcred, huser, hid, -⟩
    · rw [herr]
      exact ⟨rfl, h⟩
    · exact absurd ⟨cred, hcred, huser, hid⟩ hnamed

/-! ### Saves -/

/-- A save that finds no counter to raise, and why. -/
theorem saveTOTP_refused (h : SameCredentials s t) (hcounter : cred.lastUsedCounter < 2 ^ 63)
    (hnone : ∀ r ∈ s.active, r.userID = cred.userID → r.id = cred.id →
      cred.lastUsedCounter ≤ r.lastUsedCounter) :
    Agree SameCredentials (s.saveTOTP cred) (t.saveTOTP cred) := by
  have hbelow : ∀ r ∈ s.active,
      ¬ TOTPTables.isBelow cred.userID cred.id (int64 cred.lastUsedCounter) (encodeActive r) := by
    intro r hr hfound
    obtain ⟨huser, hid, hlt⟩ := (isBelow_encodeActive (h.active.valid r hr).counter hcounter).mp hfound
    exact absurd (hnone r hr huser hid) (Nat.not_le.mpr hlt)
  unfold TOTPTables.saveTOTP TOTPStore.saveTOTP
  simp only [h.active.encodes.update_none hbelow, h.active.encodes.select_eq_nil hbelow,
    List.length_nil, if_true]
  rw [h.active.encodes.select_get? fun _ _ => activeOf_encodeActive]
  cases hget : s.active.get? cred.userID with
  | none => exact ⟨rfl, h⟩
  | some r =>
    obtain ⟨hr, huser⟩ := Table.get?_eq_some.mp hget
    by_cases hid : r.id = cred.id
    · simp only [hid, hnone r hr huser hid, ne_eq, not_true_eq_false, if_false, if_true]
      refine ⟨?_, h⟩
      simp [TOTPTables.refusedSaveError, encodeActive, hid, asSentinel]
    · simp only [hid, ne_eq, not_false_eq_true, if_true]
      refine ⟨?_, h⟩
      simp [TOTPTables.refusedSaveError, encodeActive, hid, asSentinel]

theorem saveTOTP (h : SameCredentials s t) (hcounter : cred.lastUsedCounter < 2 ^ 63) :
    Agree SameCredentials (s.saveTOTP cred) (t.saveTOTP cred) := by
  by_cases hraise : ∃ r ∈ s.active, r.userID = cred.userID ∧ r.id = cred.id ∧
      r.lastUsedCounter < cred.lastUsedCounter
  case neg =>
    refine h.saveTOTP_refused hcounter fun r hr huser hid => ?_
    exact Nat.not_lt.mp fun hlt => hraise ⟨r, hr, huser, hid, hlt⟩
  obtain ⟨r, hr, huser, hid, hlt⟩ := hraise
  have hvalid := h.active.valid r hr
  have hfits : ActiveFits { r with lastUsedCounter := cred.lastUsedCounter } :=
    ⟨hvalid.verified, hcounter, hvalid.createdAt⟩
  have hfound : ∀ b ∈ s.active,
      TOTPTables.isBelow cred.userID cred.id (int64 cred.lastUsedCounter) (encodeActive b) ↔ b = r := by
    intro b hb
    rw [isBelow_encodeActive (h.active.valid b hb).counter hcounter]
    constructor
    · rintro ⟨huser', -⟩
      exact Table.eq_of_mem hb hr (huser'.trans huser.symm)
    · rintro rfl
      exact ⟨huser, hid, hlt⟩
  have hselect := h.active.encodes.select_eq_singleton hr ((hfound r hr).mpr rfl)
    fun b hb hb' => (hfound b hb).mp hb'
  have hset : TOTPTables.setCounter (int64 cred.lastUsedCounter) (encodeActive r) =
      encodeActive { r with lastUsedCounter := cred.lastUsedCounter } := rfl
  have hindex : ∀ row, (encodeActive { r with lastUsedCounter := cred.lastUsedCounter }).conflict row =
      (encodeActive r).conflict row := fun _ => decide_eq_decide.mpr Iff.rfl
  obtain ⟨active, hupdate, henc⟩ :=
    h.active.encodes.restamp ActiveRow.conflict_symm hr hfound hset rfl hindex
  unfold TOTPTables.saveTOTP
  simp only [hupdate, hselect, List.length_singleton, one_ne_zero, if_false]
  rw [TOTPStore.saveTOTP_of_mem hr huser hid hlt]
  exact ⟨rfl, h.active.put henc hfits, h.pending⟩

end SameCredentials

end Sulis.Sqlite
