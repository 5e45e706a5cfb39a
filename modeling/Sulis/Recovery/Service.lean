-- SUMMARY: The calls of package recovery to its store and environment, its operations, and the system they make up.
import Sulis.Interaction.Pool
import Sulis.Recovery.Codes
import Sulis.Recovery.Memstore

/-!
# The operations of package `recovery`

Each method of `Service` as the calls it makes. An operation belongs to a service, so
services with different configurations can share a store.
-/

namespace Sulis.Recovery

open Interaction

/-! ## Calls -/

/-- The sentinels of `recovery.go`, and what the store reports. -/
inductive ServiceErr
  | codeInvalid
  | codeRateLimited
  | store (err : Err)
  deriving DecidableEq, Repr

inductive EventKind
  | codeConsumed
  | codeRejected
  | codesExhausted
  | codeRateLimited
  deriving DecidableEq, Repr

structure Event where
  kind : EventKind
  userID : UUID
  remaining : Nat := 0
  at_ : Time := 0
  deriving DecidableEq, Repr

inductive Op
  | replaceCodes (userID : UUID) (hashes : List String)
  | consumeCode (userID : UUID) (hash : String)
  | countCodes (userID : UUID)
  | deleteCodes (userID : UUID)
  /-- `Limiter.Allow` -/
  | allow (key : String)
  /-- `EventSink.Emit` -/
  | emit (event : Event)
  /-- `time.Now` -/
  | now
  /-- `rand.Read` of so many bytes -/
  | randRead (n : Nat)
  deriving DecidableEq, Repr

@[reducible] def Op.Res : Op → Type
  | .replaceCodes _ _ => Except Err Unit
  | .consumeCode _ _ => Except Err Nat
  | .countCodes _ => Except Err Nat
  | .deleteCodes _ => Except Err Unit
  -- Whether the limiter lets the caller through: its error is not looked at.
  | .allow _ => Bool
  | .emit _ => Unit
  | .now => Time
  | .randRead _ => Bytes

abbrev iface : Sig := ⟨Op, Op.Res⟩

abbrev M (α : Type) : Type := ExceptT ServiceErr (Prog iface) α

abbrev Hist : Type := List (Interaction.Event iface)

structure World where
  store : RecoveryStore := .empty
  /-- Every random byte string drawn so far. -/
  draws : List Bytes := []

structure Choice where
  time : Time := 0
  bytes : Bytes := []
  allowed : Bool := true
  deriving Repr

namespace World

def withStore {α : Type} (w : World) (r : Except Err α × RecoveryStore) :
    Option (Except Err α × World) := some (r.1, { w with store := r.2 })

/-- Answer one call. Random strings are fresh: a choice that repeats one is not a choice the
    environment has. -/
def serve (w : World) : (op : Op) → Choice → Option (op.Res × World)
  | .replaceCodes userID hashes, _ => w.withStore (w.store.replaceCodes userID hashes)
  | .consumeCode userID hash, _ => w.withStore (w.store.consumeCode userID hash)
  | .countCodes userID, _ => some (w.store.countCodes userID, w)
  | .deleteCodes userID, _ => w.withStore (w.store.deleteCodes userID)
  | .allow _, ch => some (ch.allowed, w)
  | .emit _, _ => some ((), w)
  | .now, ch => some (ch.time, w)
  | .randRead n, ch =>
    if ch.bytes.length ≠ n ∨ ch.bytes ∈ w.draws then none
    else some (ch.bytes, { w with draws := ch.bytes :: w.draws })

end World

/-- What the store answers, as an answer of the service. -/
def reported {α : Type} : Except Err α → Except ServiceErr α
  | .ok a => .ok a
  | .error err => .error (.store err)

/-- A call whose answer may be an error. -/
def request {α : Type} (p : Prog iface (Except ServiceErr α)) : M α := ExceptT.mk p

/-- A call that always answers. -/
def query {α : Type} (p : Prog iface α) : M α := ExceptT.lift p

def replaceCodes (userID : UUID) (hashes : List String) : M Unit :=
  request (.call (.replaceCodes userID hashes) (fun r => .ret (reported r)))
def storeConsumeCode (userID : UUID) (hash : String) : M Nat :=
  request (.call (.consumeCode userID hash) (fun r => .ret (reported r)))
def countCodes (userID : UUID) : M Nat :=
  request (.call (.countCodes userID) (fun r => .ret (reported r)))
def deleteCodes (userID : UUID) : M Unit :=
  request (.call (.deleteCodes userID) (fun r => .ret (reported r)))
def limiterAllow (key : String) : M Bool := query (.call (.allow key) .ret)
def sinkEmit (event : Event) : M Unit := query (.call (.emit event) .ret)
def timeNow : M Time := query (.call .now .ret)
/-- `rand.Read` does not fail on the Go versions the module supports. -/
def randRead (n : Nat) : M Bytes := query (.call (.randRead n) .ret)

/-! ## Operations -/

/-- The `Config` of the package. Of the limiter and the sink only their presence is known here. -/
structure Config where
  count : Int := 10
  limiter : Bool := false
  eventSink : Bool := false

/-- `NewService`, once the options have been applied. -/
def newService (cfg : Config) : Except String Unit :=
  if cfg.count ≤ 0 then .error ("recovery: count must be positive, got " ++ toString cfg.count)
  else .ok ()

/-- A `Service`: a configuration that was accepted. -/
structure Service where
  cfg : Config
  accepted : newService cfg = .ok ()

namespace Service

variable (s : Service)

/-- `allow`: any refusal of the limiter becomes `ErrCodeRateLimited`. -/
def allow (key : String) : M Unit :=
  if s.cfg.limiter then do
    if ← limiterAllow key then return () else throw .codeRateLimited
  else pure ()

/-- `emit`: no caller sets the time of an event. -/
def emit (event : Event) : M Unit :=
  if s.cfg.eventSink then do
    let now ← timeNow
    sinkEmit { event with at_ := now }
  else pure ()

/-- The loop of `Generate`, for the codes that are left to draw. -/
def generateCodes : Nat → M (List String)
  | 0 => return []
  | n + 1 => do
    let b ← randRead codeBytes
    let codes ← generateCodes n
    return generateCode b :: codes

/-- `Disable` -/
def disable (userID : UUID) : M Unit := deleteCodes userID

/-- `Remaining` -/
def remaining (userID : UUID) : M Nat := countCodes userID

variable [Unicode]

/-- `Generate` -/
def generate (userID : UUID) : M (List String) := do
  let codes ← generateCodes s.cfg.count.toNat
  replaceCodes userID (codes.map hashCode)
  return codes

/-- `Consume` -/
def consume (userID : UUID) (code : String) : M Nat := do
  Prog.onError (s.allow ("recovery:" ++ uuidString userID))
    (fun _ => s.emit { kind := .codeRateLimited, userID := userID })
  match ← Prog.attempt (storeConsumeCode userID (hashCode code)) with
  | .error err =>
    if err = .store .codeNotFound then do
      s.emit { kind := .codeRejected, userID := userID }
      throw .codeInvalid
    else throw err
  | .ok remaining => do
    s.emit { kind := .codeConsumed, userID := userID, remaining := remaining }
    if remaining = 0 then s.emit { kind := .codesExhausted, userID := userID } else pure ()
    return remaining

end Service

/-! ## The system -/

inductive Request
  | generate (userID : UUID)
  | consume (userID : UUID) (code : String)
  | remaining (userID : UUID)
  | disable (userID : UUID)
  deriving DecidableEq, Repr

/-- An operation, and the service it is called on. -/
structure Call where
  service : Service
  request : Request

def Request.Ret : Request → Type
  | .generate _ => List String
  | .consume _ _ => Nat
  | .remaining _ => Nat
  | .disable _ => Unit

variable [Unicode]

def Call.program : (c : Call) → M c.request.Ret
  | ⟨s, .generate userID⟩ => s.generate userID
  | ⟨s, .consume userID code⟩ => s.consume userID code
  | ⟨_, .remaining userID⟩ => Service.remaining userID
  | ⟨_, .disable userID⟩ => Service.disable userID

/-- The package over the memory store. -/
abbrev system : System iface where
  World := World
  Choice := Choice
  serve := World.serve
  Call := Call
  Out := fun c => Except ServiceErr c.request.Ret
  body := fun c => c.program.run

abbrev Entry : Type := (system).Entry

abbrev Run : Type := (system).Config

/-- An empty store, and no operation running. -/
abbrev Run.empty : Run := System.Config.start (Y := system) {}

end Sulis.Recovery
