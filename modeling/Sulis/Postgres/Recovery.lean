-- SUMMARY: The PostgreSQL store of recovery codes, as scripts of SQL statements.
import Sulis.Postgres.Locks
import Sulis.Recovery.Memstore

/-!
# The PostgreSQL recovery-code store

`ReplaceCodes`, `ConsumeCode` and `DeleteCodes` of `store/sql/postgres/recovery.go` over
the table `recovery_codes`, whose primary key is the user and the hash. Its third
column, `created_at`, is written and never read.
-/

namespace Sulis.Postgres.Recovery

open ReadCommitted Sulis.Recovery

structure CodeRow where
  userID : UUID
  codeHash : String
  deriving DecidableEq, Repr

inductive Call
  | replaceCodes (userID : UUID) (hashes : List String)
  | consumeCode (userID : UUID) (hash : String)
  | deleteCodes (userID : UUID)
  deriving DecidableEq, Repr

/-- What a call returns when the storage does not fail. -/
inductive Out
  | replaced
  | consumed (remaining : Except Sulis.Recovery.Err Nat)
  | deleted
  deriving DecidableEq

abbrev Step : Type := Script CodeRow LockKey Out

/-- `user_id = $1` -/
def ownedBy (userID : UUID) (row : CodeRow) : Bool := row.userID = userID

/-- `user_id = $1 AND code_hash = $2` -/
def isCode (userID : UUID) (hash : String) (row : CodeRow) : Bool :=
  row.userID = userID ∧ row.codeHash = hash

/-- `DELETE FROM recovery_codes WHERE user_id = $1` -/
def clear (userID : UUID) (next : List CodeRow → Step) : Step :=
  .exec (.modify (fun _ => ownedBy userID) (fun _ => none)) next

/-- The loop of `ReplaceCodes`: one `INSERT` for each hash, then the commit. -/
def insertAll (userID : UUID) : List String → Step
  | [] => .commit .replaced
  | hash :: rest =>
    .exec (.insert (fun _ => some ⟨userID, hash⟩) (fun _ _ => false) (fun old _ => old))
      fun _ => insertAll userID rest

def replaceCodes (userID : UUID) (hashes : List String) : Step :=
  clear userID fun _ => insertAll userID hashes

/-- What comes after the `DELETE` of one code, by the rows it removed. -/
def afterDelete (userID : UUID) : List CodeRow → Step
  | [] => .rollback (.consumed (.error .codeNotFound))
  | _ :: _ =>
    .exec (.select (ownedBy userID)) fun rows => .commit (.consumed (.ok rows.length))

def consumeCode (userID : UUID) (hash : String) : Step :=
  lockUser .recovery userID <|
    .exec (.modify (fun _ => isCode userID hash) (fun _ => none)) (afterDelete userID)

def deleteCodes (userID : UUID) : Step := clear userID fun _ => .commit .deleted

def client : Client CodeRow LockKey Call Out where
  conflict row other := row = other
  body
    | .replaceCodes userID hashes => replaceCodes userID hashes
    | .consumeCode userID hash => consumeCode userID hash
    | .deleteCodes userID => deleteCodes userID

end Sulis.Postgres.Recovery
