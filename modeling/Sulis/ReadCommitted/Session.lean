-- SUMMARY: Scripts of SQL statements, and how any number of them runs side by side under READ COMMITTED.
import Sulis.ReadCommitted.Heap

/-!
# Transactions under READ COMMITTED

A call to a store is a script: a transaction of SQL statements, each of which may look
at the rows the earlier ones returned. A statement starts from a snapshot of the rows
committed by then, with the writes of its own transaction laid over them. A row that
another open transaction has written is waited for. An `UPDATE` or a `DELETE` then
looks at the newest version of a row it has selected, but never at a row that was not
in its snapshot. Advisory locks are held to the end of the transaction.

Waiting is a move that is not possible yet. What ends a call from outside (a deadlock,
a lost connection, a violated constraint) is the `fail` action.
-/

namespace ReadCommitted

open Store

variable {ρ κ γ α : Type}

/-! ## Scripts -/

inductive Stmt (ρ κ : Type)
  /-- `SELECT pg_advisory_xact_lock(k)` -/
  | lock (k : κ)
  /-- `SELECT … WHERE p` -/
  | select (p : ρ → Bool)
  /-- `UPDATE` or `DELETE … WHERE p RETURNING …`. The test may ask about the snapshot. -/
  | modify (p : List ρ → ρ → Bool) (set : ρ → Option ρ)
  /-- `INSERT … SELECT … ON CONFLICT (target) DO UPDATE SET …`. What is inserted, if
      anything, may depend on the snapshot. Without a target nothing is updated. -/
  | insert (new : List ρ → Option ρ) (target : ρ → ρ → Bool) (set : ρ → ρ → ρ)

/-- A call: statements, each with what comes after the rows it returns or affects. -/
inductive Script (ρ κ α : Type)
  | commit (out : α)
  | rollback (out : α)
  /-- Rolls back and reports an error of the storage. -/
  | abort
  | exec (stmt : Stmt ρ κ) (next : List ρ → Script ρ κ α)

/-- How far a call has come. -/
inductive Stage (ρ κ α : Type)
  | invoked
  | ready (script : Script ρ κ α)
  /-- Inside of an `UPDATE` or a `DELETE`, with the tuples it has still to look at. -/
  | scanning (p : ρ → Bool) (set : ρ → Option ρ) (todo : List Nat) (hit : List ρ)
      (next : List ρ → Script ρ κ α)
  /-- Inside of an `INSERT`, with the row to store. -/
  | placing (row : ρ) (target : ρ → Bool) (set : ρ → ρ) (next : List ρ → Script ρ κ α)
  /-- `none` is an error of the storage. -/
  | returned (out : Option α)

/-- A call is over. -/
def Stage.over : Stage ρ κ α → Bool
  | .returned _ => true
  | _ => false

/-- What a call that is over has returned. -/
def Stage.out? : Stage ρ κ α → Option (Option α)
  | .returned out => some out
  | _ => none

/-- A transaction has begun and has not ended. -/
def Stage.isOpen : Stage ρ κ α → Bool
  | .invoked => false
  | .returned _ => false
  | _ => true

/-! ## Sessions side by side -/

structure Session (ρ κ γ α : Type) where
  call : γ
  stage : Stage ρ κ α := .invoked
  /-- Newest first. -/
  writes : List (Write ρ) := []
  /-- Advisory locks. -/
  held : List κ := []

/-- The tuples that others have to wait for. -/
def Session.locked (s : Session ρ κ γ α) : List Nat := s.writes.map Prod.fst

structure Config (ρ κ γ α : Type) where
  /-- What has been committed. -/
  heap : Heap ρ
  /-- No tuple has this identity yet, nor one above it. -/
  fresh : Nat
  sessions : List (Session ρ κ γ α) := []

inductive Action (γ : Type)
  | invoke (call : γ)
  | move (i : Nat)
  /-- The scan of a session comes to a tuple. -/
  | take (i id : Nat)
  | fail (i : Nat)
  deriving DecidableEq, Repr

/-- The calls of an application, and the unique indexes of its tables: two rows
    conflict if there may not be both of them. -/
structure Client (ρ κ γ α : Type) where
  conflict : ρ → ρ → Bool
  body : γ → Script ρ κ α

namespace Config

variable (c : Config ρ κ γ α) (i : Nat) (s : Session ρ κ γ α)

/-- The configuration once a call has come in. -/
abbrev invoked (call : γ) : Config ρ κ γ α := { c with sessions := c.sessions ++ [{ call := call }] }

/-- What a statement of the session sees if it starts now. -/
def view : Heap ρ := c.heap.overlay s.writes

/-- The call of a session that is over, and what it has returned. -/
def returned : Option (γ × Option α) :=
  c.sessions[i]?.bind fun s => s.stage.out?.map (s.call, ·)

/-- A test on the other sessions. -/
def others (p : Session ρ κ γ α → Bool) : Bool :=
  (List.range c.sessions.length).all fun j =>
    j = i || match c.sessions[j]? with
      | some t => p t
      | none => true

/-- No other open transaction has written the tuple. -/
def rowFree (id : Nat) : Bool := c.others i fun t => id ∉ t.locked

/-- No other transaction holds the advisory lock. -/
def lockFree [DecidableEq κ] (k : κ) : Bool := c.others i fun t => k ∉ t.held

/-- No other open transaction has stored a row that conflicts with this one, nor written
    to a committed one that does. -/
def indexFree (conflict : ρ → ρ → Bool) (row : ρ) : Bool :=
  c.others i fun t => t.writes.all fun w =>
    !(w.2.any (conflict row)) && !((c.heap.row? w.1).any (conflict row))

def put (s' : Session ρ κ γ α) : Config ρ κ γ α := { c with sessions := c.sessions.set i s' }

/-- The session ends without a trace. -/
def close (out : Option α) : Config ρ κ γ α :=
  c.put i { s with stage := .returned out, writes := [], held := [] }

end Config

/-- Where an `INSERT` stores its row: over the one the conflict target names, or anew. -/
def landing (view : Heap ρ) (fresh : Nat) (row : ρ) (target : ρ → Bool) (set : ρ → ρ) : Nat × ρ :=
  match view.rows.find? (fun t => target t.2) with
  | some t => (t.1, set t.2)
  | none => (fresh, row)

namespace Client

variable [DecidableEq κ] (client : Client ρ κ γ α) (c : Config ρ κ γ α) (i : Nat)

/-- Begins the next statement. One that reads is over at once. -/
def statement (s : Session ρ κ γ α) (next : List ρ → Script ρ κ α) :
    Stmt ρ κ → Option (Config ρ κ γ α)
  | .lock k =>
    if c.lockFree i k then
      some (c.put i { s with stage := .ready (next []), held := k :: s.held })
    else none
  | .select p => some (c.put i { s with stage := .ready (next ((c.view s).visible.filter p)) })
  | .modify p set =>
    let test := p (c.view s).visible
    some (c.put i { s with stage := .scanning test set ((c.view s).matching test) [] next })
  | .insert new target set =>
    match new (c.view s).visible with
    | none => some (c.put i { s with stage := .ready (next []) })
    | some row => some (c.put i { s with stage := .placing row (target row) (fun r => set r row) next })

/-- Stores the row of an `INSERT`, once nothing is in its way. -/
def place (s : Session ρ κ γ α) (row : ρ) (target : ρ → Bool) (set : ρ → ρ)
    (next : List ρ → Script ρ κ α) : Option (Config ρ κ γ α) :=
  let (id, new) := landing (c.view s) c.fresh row target set
  if c.rowFree i id ∧ c.indexFree i client.conflict row ∧ c.indexFree i client.conflict new ∧
      ∀ t ∈ (c.view s).rows, t.1 = id ∨ ¬ client.conflict new t.2 then
    some { c.put i { s with stage := .ready (next [new]), writes := (id, some new) :: s.writes } with
      fresh := c.fresh + 1 }
  else none

def move (s : Session ρ κ γ α) : Option (Config ρ κ γ α) :=
  match s.stage with
  | .invoked => some (c.put i { s with stage := .ready (client.body s.call) })
  | .ready (.commit out) => some { c.close i s (some out) with heap := c.view s }
  | .ready (.rollback out) => some (c.close i s (some out))
  | .ready .abort => some (c.close i s none)
  | .ready (.exec stmt next) => statement c i s next stmt
  | .scanning _ _ [] hit next => some (c.put i { s with stage := .ready (next hit) })
  | .scanning _ _ (_ :: _) _ _ => none
  | .placing row target set next => client.place c i s row target set next
  | .returned _ => none

/-- The scan looks at a tuple of its snapshot: at the version there is now, if any. -/
def take (s : Session ρ κ γ α) (id : Nat) : Option (Config ρ κ γ α) :=
  match s.stage with
  | .scanning p set todo hit next =>
    if id ∈ todo ∧ c.rowFree i id then
      match (c.view s).row? id with
      | some r =>
        if p r then
          some (c.put i { s with
            stage := .scanning p set (todo.erase id) (hit ++ [r]) next
            writes := (id, set r) :: s.writes })
        else some (c.put i { s with stage := .scanning p set (todo.erase id) hit next })
      | none => some (c.put i { s with stage := .scanning p set (todo.erase id) hit next })
    else none
  | _ => none

/-- One step of the database; `none` if it is not possible now. -/
def step : Action γ → Option (Config ρ κ γ α)
  | .invoke call => some (c.invoked call)
  | .move i => c.sessions[i]?.bind (client.move c i)
  | .take i id => c.sessions[i]?.bind (take c i · id)
  | .fail i => c.sessions[i]?.bind fun s => if s.stage.over then none else some (c.close i s none)

end Client

end ReadCommitted
