-- SUMMARY: The PostgreSQL passkey store: saving a credential and the guarded deletion, as scripts of SQL statements.
import Sulis.Passkey.Types
import Sulis.Postgres.Locks

/-!
# The PostgreSQL passkey store

`SaveCredential` and `DeleteCredential` of `store/sql/postgres/passkey.go` over the table
`passkey_credentials`, which is unique on `id` and on `credential_id`. A row is the
credential itself: how its fields are spelled in columns matters to neither method.
-/

namespace Sulis.Postgres.Passkey

open ReadCommitted Sulis.Passkey

inductive Call
  | saveCredential (cred : Credential)
  | deleteCredential (userID id : UUID) (allowLast : Bool)
  deriving DecidableEq, Repr

/-- What a call returns when the storage does not fail. -/
abbrev Out : Type := Except Sulis.Passkey.Err Unit

abbrev Step : Type := Script Credential LockKey Out

/-- An upsert on the store's own ID. -/
def saveCredential (cred : Credential) : Step :=
  .exec (.insert (fun _ => some cred) (fun new old => old.id = new.id) (fun _ new => new))
    fun _ => .commit (.ok ())

/-- `id = $1 AND user_id = $2` -/
def names (userID id : UUID) (cred : Credential) : Bool := cred.id = id ∧ cred.userID = userID

/-- `SELECT COUNT(*) FROM passkey_credentials WHERE user_id = $2` -/
def countByUser (snapshot : List Credential) (userID : UUID) : Nat :=
  (snapshot.filter (fun cred => cred.userID = userID)).length

/-- The `WHERE` clause of the deletion. -/
def deletable (userID id : UUID) (allowLast : Bool) (snapshot : List Credential)
    (cred : Credential) : Bool :=
  names userID id cred && (allowLast || 1 < countByUser snapshot userID)

/-- What a deletion that affected no row returns, by whether the credential is there. -/
def refusal : List Credential → Step
  | [] => .rollback (.error .passkeyNotFound)
  | _ :: _ => .rollback (.error .lastCredential)

/-- What comes after the `DELETE`, by the rows it removed. -/
def afterDelete (userID id : UUID) : List Credential → Step
  | [] => .exec (.select (names userID id)) refusal
  | _ :: _ => .commit (.ok ())

def deleteCredential (userID id : UUID) (allowLast : Bool) : Step :=
  lockUser .passkey userID <|
    .exec (.modify (deletable userID id allowLast) (fun _ => none)) (afterDelete userID id)

/-- The two unique indexes. -/
def conflict (cred other : Credential) : Bool :=
  cred.id = other.id ∨ cred.credentialID = other.credentialID

def client : Client Credential LockKey Call Out where
  conflict := conflict
  body
    | .saveCredential cred => saveCredential cred
    | .deleteCredential userID id allowLast => deleteCredential userID id allowLast

end Sulis.Postgres.Passkey
