-- SUMMARY: The calls the package makes on its environment, and the world of memory stores that serves them.
import Sulis.Interaction.Pool
import Sulis.Model.Memstore
import Sulis.Model.Platform

/-!
# The environment of the package

Everything an operation does besides computing is a call: on a store, on the
second-factor checker, the limiter, the password checker or the event sink, on
the clock, or on the random source.

The world that serves the calls holds the three memory stores and remembers what
was drawn from the random source. How the environment uses its freedom at one
call is a `Choice`: the clock reading, the drawn value, the checker's answer, and
whether a store call fails. A failing call may or may not have taken effect.
-/

namespace Sulis

open Interaction

inductive Op
  | createUser (user : User)
  | getUserByID (id : UUID)
  | getUserByEmail (email : String)
  | updateUser (user : User)
  | createSession (session : Session)
  | getSessionByTokenHash (tokenHash : String)
  | listUserSessions (userID : UUID)
  | deleteSession (userID id : UUID)
  | deleteUserSessions (userID : UUID)
  | cleanExpired
  | updateAuthenticatedAt (id : UUID) (at_ : Time)
  | touchSession (id : UUID) (lastSeen : Time) (idleExpires : Option Time)
  | createToken (token : Token)
  | consumeToken (hash : String) (purpose : TokenPurpose)
  | deleteExpiredTokens
  | deleteUserTokens (userID : UUID) (purpose : TokenPurpose)
  | hasSecondFactor (userID : UUID)
  | allow (key : String)
  | check (password : Bytes)
  | emit (event : SecurityEvent)
  | now
  | newV7
  | randRead (n : Nat)
  /-- Not a call to the environment: leaves a mark in the trace where an account
      status check looks at its copy of a user. -/
  | status (user : User)
  deriving DecidableEq, Repr

@[reducible] def Op.Res : Op → Type
  | .createUser _ => Except Err Unit
  | .getUserByID _ => Except Err User
  | .getUserByEmail _ => Except Err User
  | .updateUser _ => Except Err Unit
  | .createSession _ => Except Err Unit
  | .getSessionByTokenHash _ => Except Err Session
  | .listUserSessions _ => Except Err (List Session)
  | .deleteSession _ _ => Except Err Unit
  | .deleteUserSessions _ => Except Err Unit
  | .cleanExpired => Except Err Unit
  | .updateAuthenticatedAt _ _ => Except Err Unit
  | .touchSession _ _ _ => Except Err Unit
  | .createToken _ => Except Err Unit
  | .consumeToken _ _ => Except Err Token
  | .deleteExpiredTokens => Except Err Unit
  | .deleteUserTokens _ _ => Except Err Unit
  | .hasSecondFactor _ => Except Err Bool
  | .allow _ => Except Err Unit
  | .check _ => Except Err Unit
  | .emit _ => Unit
  | .now => Time
  | .newV7 => UUID
  | .randRead _ => Bytes
  | .status _ => Unit

instance (op : Op) : DecidableEq op.Res := by
  cases op <;> exact inferInstance

/-- The interface between the package and its environment. -/
abbrev iface : Sig := ⟨Op, Op.Res⟩

/-- Programs of the package: they may fail with an `Err`. -/
abbrev M (α : Type) : Type := ExceptT Err (Prog iface) α

/-- The calls one operation has made, most recent first. -/
abbrev Hist : Type := List (Interaction.Event iface)

/-! ## Serving calls -/

structure World where
  users : UserStore := .empty
  sessions : SessionStore := .empty
  tokens : TokenStore := .empty
  /-- Every ID drawn so far. -/
  ids : List UUID := []
  /-- Every random byte string drawn so far. -/
  draws : List Bytes := []

/-- A store call that returns an error, having taken effect or not. -/
structure Fault where
  err : Err
  applied : Bool := false
  deriving DecidableEq, Repr

structure Choice where
  fault : Option Fault := none
  /-- The iteration order of a map. -/
  order : Nat := 0
  time : Time := 0
  uuid : UUID := .nil
  bytes : Bytes := []
  /-- What the second-factor checker answers. -/
  factor : Except Err Bool := .ok false
  /-- The error of a limiter or a password checker that refuses. -/
  refusal : Option Err := none
  deriving Repr

def Choice.verdict (ch : Choice) : Except Err Unit :=
  match ch.refusal with
  | none => .ok ()
  | some err => .error err

namespace World

def withUsers (w : World) (r : Except Err Unit × UserStore) : Except Err Unit × World :=
  (r.1, { w with users := r.2 })

def withSessions (w : World) (r : Except Err Unit × SessionStore) : Except Err Unit × World :=
  (r.1, { w with sessions := r.2 })

def withTokens {α : Type} (w : World) (r : Except Err α × TokenStore) : Except Err α × World :=
  (r.1, { w with tokens := r.2 })

/-- Serve a store call whose outcome would be `r` if it met no fault. -/
def store {α : Type} (w : World) (ch : Choice) (r : Except Err α × World) :
    Option (Except Err α × World) :=
  match ch.fault with
  | none => some r
  | some f => some (.error f.err, if f.applied then r.2 else w)

/-- Answer one call. IDs and random strings are fresh: a choice that repeats one
    is not a choice the environment has. -/
def serve (w : World) : (op : Op) → Choice → Option (op.Res × World)
  | .createUser u, ch => w.store ch (w.withUsers (w.users.createUser u))
  | .getUserByID id, ch => w.store ch (w.users.getUserByID id, w)
  | .getUserByEmail email, ch => w.store ch (w.users.getUserByEmail email ch.order, w)
  | .updateUser u, ch => w.store ch (w.withUsers (w.users.updateUser u))
  | .createSession s, ch => w.store ch (w.withSessions (w.sessions.createSession s))
  | .getSessionByTokenHash hash, ch =>
    w.store ch (w.sessions.getSessionByTokenHash hash ch.order, w)
  | .listUserSessions userID, ch => w.store ch (.ok (w.sessions.listUserSessions userID), w)
  | .deleteSession userID id, ch =>
    w.store ch (w.withSessions (w.sessions.deleteSession userID id))
  | .deleteUserSessions userID, ch =>
    w.store ch (w.withSessions (w.sessions.deleteUserSessions userID))
  | .cleanExpired, ch => w.store ch (w.withSessions (w.sessions.cleanExpired ch.time))
  | .updateAuthenticatedAt id at_, ch =>
    w.store ch (w.withSessions (w.sessions.updateAuthenticatedAt id at_))
  | .touchSession id lastSeen idleExpires, ch =>
    w.store ch (w.withSessions (w.sessions.touchSession id lastSeen idleExpires))
  | .createToken t, ch => w.store ch (w.withTokens (w.tokens.createToken t))
  | .consumeToken hash purpose, ch =>
    w.store ch (w.withTokens (w.tokens.consumeToken hash purpose ch.order))
  | .deleteExpiredTokens, ch => w.store ch (w.withTokens (w.tokens.deleteExpiredTokens ch.time))
  | .deleteUserTokens userID purpose, ch =>
    w.store ch (w.withTokens (w.tokens.deleteUserTokens userID purpose))
  | .hasSecondFactor _, ch => some (ch.factor, w)
  | .allow _, ch => some (ch.verdict, w)
  | .check _, ch => some (ch.verdict, w)
  | .emit _, _ => some ((), w)
  | .now, ch => some (ch.time, w)
  | .newV7, ch =>
    if ch.uuid = .nil ∨ ch.uuid ∈ w.ids then none
    else some (ch.uuid, { w with ids := ch.uuid :: w.ids })
  | .randRead n, ch =>
    if ch.bytes.length ≠ n ∨ ch.bytes ∈ w.draws then none
    else some (ch.bytes, { w with draws := ch.bytes :: w.draws })
  | .status _, _ => some ((), w)

end World

/-! ## Making calls -/

/-- A call whose answer may be an error. -/
def request {α : Type} (p : Prog iface (Except Err α)) : M α := ExceptT.mk p

/-- A call that always answers. -/
def query {α : Type} (p : Prog iface α) : M α := ExceptT.lift p

/-- A computation of Go code that may fail, without any call. -/
def liftExcept {α : Type} (r : Except Err α) : M α := ExceptT.mk (.ret r)

/-- An `if` without an `else`. -/
def onlyIf (c : Prop) [Decidable c] (act : M Unit) : M Unit := if c then act else pure ()

namespace Users

def createUser (user : User) : M Unit := request (.call (.createUser user) .ret)
def getUserByID (id : UUID) : M User := request (.call (.getUserByID id) .ret)
def getUserByEmail (email : String) : M User := request (.call (.getUserByEmail email) .ret)
def updateUser (user : User) : M Unit := request (.call (.updateUser user) .ret)

end Users

namespace Sessions

def createSession (session : Session) : M Unit := request (.call (.createSession session) .ret)
def getSessionByTokenHash (tokenHash : String) : M Session :=
  request (.call (.getSessionByTokenHash tokenHash) .ret)
def listUserSessions (userID : UUID) : M (List Session) :=
  request (.call (.listUserSessions userID) .ret)
def deleteSession (userID id : UUID) : M Unit := request (.call (.deleteSession userID id) .ret)
def deleteUserSessions (userID : UUID) : M Unit :=
  request (.call (.deleteUserSessions userID) .ret)
def cleanExpired : M Unit := request (.call .cleanExpired .ret)
def updateAuthenticatedAt (id : UUID) (at_ : Time) : M Unit :=
  request (.call (.updateAuthenticatedAt id at_) .ret)
def touchSession (id : UUID) (lastSeen : Time) (idleExpires : Option Time) : M Unit :=
  request (.call (.touchSession id lastSeen idleExpires) .ret)

end Sessions

namespace Tokens

def createToken (token : Token) : M Unit := request (.call (.createToken token) .ret)
def consumeToken (hash : String) (purpose : TokenPurpose) : M Token :=
  request (.call (.consumeToken hash purpose) .ret)
def deleteExpiredTokens : M Unit := request (.call .deleteExpiredTokens .ret)
def deleteUserTokens (userID : UUID) (purpose : TokenPurpose) : M Unit :=
  request (.call (.deleteUserTokens userID purpose) .ret)

end Tokens

/-- `SecondFactorChecker.HasSecondFactor` -/
def hasSecondFactor (userID : UUID) : M Bool := request (.call (.hasSecondFactor userID) .ret)

/-- `Limiter.Allow` -/
def limiterAllow (key : String) : M Unit := request (.call (.allow key) .ret)

/-- `PasswordChecker.Check` -/
def checkerCheck (password : Bytes) : M Unit := request (.call (.check password) .ret)

/-- `EventSink.Emit` -/
def sinkEmit (event : SecurityEvent) : M Unit := query (.call (.emit event) .ret)

/-- `time.Now()` -/
def timeNow : M Time := query (.call .now .ret)

/-- `uuid.NewV7()` -/
def newV7 : M UUID := query (.call .newV7 .ret)

/-- `rand.Read`, which does not fail on the Go versions the module supports. -/
def randRead (n : Nat) : M Bytes := query (.call (.randRead n) .ret)

def markStatus (user : User) : M Unit := query (.call (.status user) .ret)

end Sulis
