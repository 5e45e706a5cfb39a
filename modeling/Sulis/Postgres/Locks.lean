-- SUMMARY: The advisory locks of the PostgreSQL stores.
import Sulis.Model.Platform
import Sulis.ReadCommitted.Session

/-!
# Advisory locks

`store/sql/postgres/postgres.go`: a lock is a class, one for each kind of store, and a
hash of the user's ID. Users whose IDs have the same hash share their locks.
-/

namespace Sulis.Postgres

open ReadCommitted

inductive AdvisoryClass
  | totp
  | passkey
  | recovery
  deriving DecidableEq, Repr

/-- What `pg_advisory_xact_lock` is called with. -/
abbrev LockKey : Type := BitVec 32 × BitVec 32

def AdvisoryClass.key : AdvisoryClass → BitVec 32
  | .totp => 0x53554C31#32
  | .passkey => 0x53554C32#32
  | .recovery => 0x53554C33#32

/-- `fnv.New32a`, written to once. -/
def fnv32a (bs : Bytes) : BitVec 32 :=
  bs.foldl (fun h b => (h ^^^ BitVec.ofNat 32 b.toNat) * 16777619#32) 2166136261#32

def advisoryKey (userID : String) : BitVec 32 :=
  fnv32a (userID.toList.flatMap String.utf8EncodeChar)

def userLock (cls : AdvisoryClass) (userID : UUID) : LockKey :=
  (cls.key, advisoryKey (uuidString userID))

/-- `lockUser` -/
def lockUser {ρ α : Type} (cls : AdvisoryClass) (userID : UUID) (next : Script ρ LockKey α) :
    Script ρ LockKey α :=
  .exec (.lock (userLock cls userID)) fun _ => next

end Sulis.Postgres
