-- SUMMARY: The PostgreSQL store of TOTP credentials, as scripts of SQL statements.
import Sulis.Postgres.Locks
import Sulis.Sql.Columns
import Sulis.Totp.Memstore

/-!
# The PostgreSQL TOTP store

`store/sql/postgres/totp.go` over the tables `totp_active` and `totp_pending`, each of
which has the user as its primary key. Every call that writes takes the user's lock
first; the two that read are a single statement.
-/

namespace Sulis.Postgres.Totp

open ReadCommitted Sulis.Totp Sulis.Sql

/-- A row of `totp_active` or of `totp_pending`. A pending one has no counter. -/
inductive Row
  | active (userID id : UUID) (secret : String) (lastUsedCounter : Int) (createdAt : String)
  | pending (userID id : UUID) (secret createdAt : String)
  deriving DecidableEq, Repr

inductive Call
  | enrollPending (cred : Credential)
  | replacePending (cred : Credential)
  | confirmEnrollment (userID pendingID : UUID) (counter : Nat)
  | saveTOTP (cred : Credential)
  | deleteTOTP (userID : UUID)
  | getActiveTOTP (userID : UUID)
  | getPendingTOTP (userID : UUID)
  deriving DecidableEq, Repr

def Call.userID : Call → UUID
  | .enrollPending cred | .replacePending cred | .saveTOTP cred => cred.userID
  | .confirmEnrollment userID _ _ | .deleteTOTP userID | .getActiveTOTP userID
  | .getPendingTOTP userID => userID

/-- What a call returns when the storage does not fail. -/
inductive Out
  | done (res : Except Sulis.Totp.Err Unit)
  | found (res : Except Sulis.Totp.Err Credential)
  deriving DecidableEq

abbrev Step : Type := Script Row LockKey Out

/-! ## Rows -/

/-- The row of `totp_active` with `user_id = $1` -/
def isActive (userID : UUID) : Row → Bool
  | .active user _ _ _ _ => user = userID
  | .pending _ _ _ _ => false

/-- The row of `totp_pending` with `user_id = $1` -/
def isPending (userID : UUID) : Row → Bool
  | .pending user _ _ _ => user = userID
  | .active _ _ _ _ _ => false

/-- `user_id = $1 AND id = $2`, of `totp_pending` -/
def isEnrollment (userID id : UUID) : Row → Bool
  | .pending user id' _ _ => user = userID ∧ id' = id
  | .active _ _ _ _ _ => false

/-- `user_id = $1 AND id = $2 AND last_used_counter < $3`, of `totp_active` -/
def isBelow (userID id : UUID) (counter : Int) : Row → Bool
  | .active user id' _ last _ => user = userID ∧ id' = id ∧ last < counter
  | .pending _ _ _ _ => false

/-- `ON CONFLICT (user_id)` -/
def sameSlot : Row → Row → Bool
  | .active user _ _ _ _, .active user' _ _ _ _ => user' = user
  | .pending user _ _ _, .pending user' _ _ _ => user' = user
  | _, _ => false

/-- `DO UPDATE SET …`: every column but the user's comes from the excluded row. -/
def overwrite : Row → Row → Row
  | .active user _ _ _ _, .active _ id secret counter createdAt =>
    .active user id secret counter createdAt
  | .pending user _ _ _, .pending _ id secret createdAt => .pending user id secret createdAt
  | old, _ => old

/-- `SET last_used_counter = $3` -/
def setCounter (counter : Int) : Row → Row
  | .active user id secret _ createdAt => .active user id secret counter createdAt
  | row => row

/-- What the `INSERT` into `totp_pending` stores of a credential. -/
def pendingRow (cred : Credential) : Row :=
  .pending cred.userID cred.id cred.secret (formatTime cred.createdAt)

/-! ## Calls -/

/-- `INSERT … ON CONFLICT (user_id) DO UPDATE SET …` -/
def upsert (new : List Row → Option Row) (next : List Row → Step) : Step :=
  .exec (.insert new sameSlot overwrite) next

/-- `EnrollPending` under the lock. Nothing is inserted if there is an active credential. The
    commit comes before the look at the number of rows. -/
def enrollLocked (cred : Credential) : Step :=
  upsert (fun rows => if rows.any (isActive cred.userID) then none else some (pendingRow cred))
    fun rows => .commit (.done (if rows.isEmpty then .error .totpAlreadyEnrolled else .ok ()))

def enrollPending (cred : Credential) : Step := lockUser .totp cred.userID (enrollLocked cred)

def replaceLocked (cred : Credential) : Step :=
  upsert (fun _ => some (pendingRow cred)) fun _ => .commit (.done (.ok ()))

def replacePending (cred : Credential) : Step := lockUser .totp cred.userID (replaceLocked cred)

/-- The counter that is promoted, by what `SELECT last_used_counter` finds. -/
def promotedCounter (counter : Nat) : List Row → Nat
  | .active _ _ _ prior _ :: _ =>
    if 0 < prior ∧ counter < uint64 prior then uint64 prior else counter
  | _ => counter

/-- What comes after the `DELETE … RETURNING` that consumes the pending row. -/
def promote (userID : UUID) (counter : Nat) : List Row → Step
  | .pending _ id secret createdAt :: _ =>
    match parseTime createdAt with
    | none => .abort
    | some time =>
      .exec (.select (isActive userID)) fun rows =>
        let counter := promotedCounter counter rows
        upsert (fun _ => some (.active userID id secret (int64 counter) (formatTime time))) fun _ =>
          .commit (.found (.ok
            { id := id
              userID := userID
              secret := secret
              verified := true
              lastUsedCounter := counter
              createdAt := time }))
  | _ => .rollback (.found (.error .totpNotEnrolled))

def confirmLocked (userID pendingID : UUID) (counter : Nat) : Step :=
  .exec (.modify (fun _ => isEnrollment userID pendingID) (fun _ => none)) (promote userID counter)

def confirmEnrollment (userID pendingID : UUID) (counter : Nat) : Step :=
  lockUser .totp userID (confirmLocked userID pendingID counter)

/-- `refusedSaveError`, by what `SELECT id` finds. -/
def refusedSaveError (cred : Credential) : List Row → Step
  | .active _ id _ _ _ :: _ =>
    .rollback (.done (.error (if id = cred.id then .totpReplayed else .totpNotEnrolled)))
  | _ => .rollback (.done (.error .totpNotEnrolled))

/-- What comes after the `UPDATE`, by the rows it affected. -/
def afterUpdate (cred : Credential) (rows : List Row) : Step :=
  if rows.isEmpty then .exec (.select (isActive cred.userID)) (refusedSaveError cred)
  else .commit (.done (.ok ()))

def saveLocked (cred : Credential) : Step :=
  .exec (.modify (fun _ => isBelow cred.userID cred.id (int64 cred.lastUsedCounter))
      (fun row => some (setCounter (int64 cred.lastUsedCounter) row)))
    (afterUpdate cred)

def saveTOTP (cred : Credential) : Step := lockUser .totp cred.userID (saveLocked cred)

def deleteLocked (userID : UUID) : Step :=
  .exec (.modify (fun _ => isActive userID) (fun _ => none)) fun _ =>
    .exec (.modify (fun _ => isPending userID) (fun _ => none)) fun _ => .commit (.done (.ok ()))

def deleteTOTP (userID : UUID) : Step := lockUser .totp userID (deleteLocked userID)

/-- What the two reading calls make of the row they find. -/
def scanCredential : List Row → Step
  | .active userID id secret counter createdAt :: _ =>
    match parseTime createdAt with
    | none => .abort
    | some time => .commit (.found (.ok
        { id := id
          userID := userID
          secret := secret
          verified := true
          lastUsedCounter := uint64 counter
          createdAt := time }))
  | .pending userID id secret createdAt :: _ =>
    match parseTime createdAt with
    | none => .abort
    | some time => .commit (.found (.ok
        { id := id
          userID := userID
          secret := secret
          verified := false
          createdAt := time }))
  | [] => .commit (.found (.error .totpNotEnrolled))

def getActiveTOTP (userID : UUID) : Step := .exec (.select (isActive userID)) scanCredential

def getPendingTOTP (userID : UUID) : Step := .exec (.select (isPending userID)) scanCredential

def client : Client Row LockKey Call Out where
  conflict row other := sameSlot row other
  body
    | .enrollPending cred => enrollPending cred
    | .replacePending cred => replacePending cred
    | .confirmEnrollment userID pendingID counter => confirmEnrollment userID pendingID counter
    | .saveTOTP cred => saveTOTP cred
    | .deleteTOTP userID => deleteTOTP userID
    | .getActiveTOTP userID => getActiveTOTP userID
    | .getPendingTOTP userID => getPendingTOTP userID

end Sulis.Postgres.Totp
