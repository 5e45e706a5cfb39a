-- SUMMARY: The calls of package totp to its store and environment, its operations, and the system they make up.
import Sulis.Interaction.Pool
import Sulis.Model.Platform
import Sulis.Totp.Codes
import Sulis.Totp.Memstore

/-!
# The operations of package `totp`

Each method of `Service` as the calls it makes. An operation belongs to a service, so
services with different configurations can share a store.
-/

namespace Sulis.Totp

open Interaction

/-! ## Calls -/

inductive Op
  | getActiveTOTP (userID : UUID)
  | getPendingTOTP (userID : UUID)
  | enrollPending (cred : Credential)
  | replacePending (cred : Credential)
  | confirmEnrollment (userID pendingID : UUID) (counter : Nat)
  | saveTOTP (cred : Credential)
  | deleteTOTP (userID : UUID)
  /-- `Limiter.Allow` -/
  | allow (key : String)
  /-- `time.Now` -/
  | now
  /-- `uuid.NewV7` -/
  | newV7
  /-- `rand.Read` of so many bytes -/
  | randRead (n : Nat)
  deriving DecidableEq, Repr

@[reducible] def Op.Res : Op → Type
  | .getActiveTOTP _ => Except Err Credential
  | .getPendingTOTP _ => Except Err Credential
  | .enrollPending _ => Except Err Unit
  | .replacePending _ => Except Err Unit
  | .confirmEnrollment _ _ _ => Except Err Credential
  | .saveTOTP _ => Except Err Unit
  | .deleteTOTP _ => Except Err Unit
  | .allow _ => Except Err Unit
  | .now => Time
  | .newV7 => UUID
  | .randRead _ => Bytes

instance (op : Op) : DecidableEq op.Res := by
  cases op <;> exact inferInstance

abbrev iface : Sig := ⟨Op, Op.Res⟩

abbrev M (α : Type) : Type := ExceptT Err (Prog iface) α

abbrev Hist : Type := List (Interaction.Event iface)

structure World where
  store : TOTPStore := {}
  /-- Every ID drawn so far. -/
  ids : List UUID := []

structure Choice where
  time : Time := 0
  uuid : UUID := .nil
  bytes : Bytes := []
  /-- The error of a limiter that refuses. -/
  refusal : Option Err := none
  deriving Repr

namespace World

def withStore {α : Type} (w : World) (r : Except Err α × TOTPStore) :
    Option (Except Err α × World) := some (r.1, { w with store := r.2 })

/-- Answer one call. The store does not fail on its own, and IDs are fresh. -/
def serve (w : World) : (op : Op) → Choice → Option (op.Res × World)
  | .getActiveTOTP userID, _ => some (w.store.getActiveTOTP userID, w)
  | .getPendingTOTP userID, _ => some (w.store.getPendingTOTP userID, w)
  | .enrollPending cred, _ => w.withStore (w.store.enrollPending cred)
  | .replacePending cred, _ => w.withStore (w.store.replacePending cred)
  | .confirmEnrollment userID pendingID counter, _ =>
    w.withStore (w.store.confirmEnrollment userID pendingID counter)
  | .saveTOTP cred, _ => w.withStore (w.store.saveTOTP cred)
  | .deleteTOTP userID, _ => w.withStore (w.store.deleteTOTP userID)
  | .allow _, ch =>
    match ch.refusal with
    | none => some (.ok (), w)
    | some err => some (.error err, w)
  | .now, ch => some (ch.time, w)
  | .newV7, ch =>
    if ch.uuid = .nil ∨ ch.uuid ∈ w.ids then none
    else some (ch.uuid, { w with ids := ch.uuid :: w.ids })
  | .randRead n, ch => if ch.bytes.length ≠ n then none else some (ch.bytes, w)

end World

/-- A call whose answer may be an error. -/
def request {α : Type} (p : Prog iface (Except Err α)) : M α := ExceptT.mk p

/-- A call that always answers. -/
def query {α : Type} (p : Prog iface α) : M α := ExceptT.lift p

/-- A computation of Go code that may fail, without any call. -/
def liftExcept {α : Type} (r : Except Err α) : M α := ExceptT.mk (.ret r)

def getActiveTOTP (userID : UUID) : M Credential := request (.call (.getActiveTOTP userID) .ret)
def getPendingTOTP (userID : UUID) : M Credential := request (.call (.getPendingTOTP userID) .ret)
def enrollPending (cred : Credential) : M Unit := request (.call (.enrollPending cred) .ret)
def replacePending (cred : Credential) : M Unit := request (.call (.replacePending cred) .ret)
def storeConfirmEnrollment (userID pendingID : UUID) (counter : Nat) : M Credential :=
  request (.call (.confirmEnrollment userID pendingID counter) .ret)
def saveTOTP (cred : Credential) : M Unit := request (.call (.saveTOTP cred) .ret)
def deleteTOTP (userID : UUID) : M Unit := request (.call (.deleteTOTP userID) .ret)
def limiterAllow (key : String) : M Unit := request (.call (.allow key) .ret)
def timeNow : M Time := query (.call .now .ret)
def newV7 : M UUID := query (.call .newV7 .ret)
/-- `rand.Read` does not fail on the Go versions the module supports. -/
def randRead (n : Nat) : M Bytes := query (.call (.randRead n) .ret)

/-! ## Operations -/

namespace Service

variable (s : Service)

/-- `allow`: any refusal of the limiter becomes `ErrTOTPRateLimited`. -/
def allow (key : String) : M Unit :=
  if s.cfg.limiter then do
    match ← Prog.attempt (limiterAllow key) with
    | .ok () => return ()
    | .error _ => throw .totpRateLimited
  else pure ()

def encryptSecret (secret : String) : M String :=
  match s.cfg.encryptor with
  | none => pure secret
  | some encryptor => do
    let nonce ← randRead encryptor.nonceSize
    match encryptor.encrypt nonce secret with
    | .ok ciphertext => return ciphertext
    | .error err => throw (.wrap "totp: encrypting secret" err)

def decryptSecret (stored : String) : Except Err String :=
  match s.cfg.encryptor with
  | none => .ok stored
  | some encryptor =>
    match encryptor.decrypt stored with
    | .ok plaintext => .ok plaintext
    | .error err => .error (.wrap "totp: decrypting secret" err)

/-- `enroll`, for `Enroll` and `ReplaceEnrollment`: they differ in whether an active
    credential stands in the way. -/
def enroll (userID : UUID) (accountName : String) (forceReplace : Bool) : M (String × String) := do
  let secretBytes ← randRead s.cfg.secretSize
  let secret := base32EncodeToString secretBytes
  let storedSecret ← s.encryptSecret secret
  let id ← newV7
  let createdAt ← timeNow
  let cred : Credential :=
    { id := id, userID := userID, secret := storedSecret, verified := false, createdAt := createdAt }
  if forceReplace then replacePending cred else enrollPending cred
  return (secret, buildOTPAuthURI s.cfg.issuer accountName secret s.cfg)

variable [Digest]

/-- `ConfirmEnrollment`: the code is matched against a copy of the pending enrollment,
    and the store then promotes the enrollment with that ID, if it is still there. -/
def confirmEnrollment (userID : UUID) (code : String) : M Unit := do
  s.allow ("totp:" ++ uuidString userID)
  match ← Prog.attempt (getPendingTOTP userID) with
  | .error _ => throw .totpNotEnrolled
  | .ok pending => do
    let plainSecret ← liftExcept (s.decryptSecret pending.secret)
    let now ← timeNow
    match matchCode s.cfg plainSecret code now with
    | none => throw .totpInvalid
    | some counter => do
      match ← Prog.attempt (storeConfirmEnrollment userID pending.id counter) with
      | .error _ => throw .totpNotEnrolled
      | .ok _ => return ()

/-- The rest of `Validate` once there is a credential to check against. -/
def checkCode (cred : Credential) (code : String) : M Unit := do
  let plainSecret ← liftExcept (s.decryptSecret cred.secret)
  let now ← timeNow
  match matchCode s.cfg plainSecret code now with
  | none => throw .totpInvalid
  | some counter =>
    if counter ≤ cred.lastUsedCounter then throw .totpReplayed
    else saveTOTP { cred with lastUsedCounter := counter }

/-- `Validate` -/
def validate (userID : UUID) (code : String) : M Unit := do
  s.allow ("totp:" ++ uuidString userID)
  match ← Prog.attempt (getActiveTOTP userID) with
  | .error _ => do
    match ← Prog.attempt (getPendingTOTP userID) with
    | .ok _ => throw .totpNotVerified
    | .error _ => throw .totpNotEnrolled
  | .ok cred => s.checkCode cred code

omit [Digest] in
/-- `Unenroll` -/
def unenroll (userID : UUID) : M Unit := deleteTOTP userID

end Service

/-! ## The system -/

inductive Request
  | enroll (userID : UUID) (accountName : String)
  | replaceEnrollment (userID : UUID) (accountName : String)
  | confirmEnrollment (userID : UUID) (code : String)
  | validate (userID : UUID) (code : String)
  | unenroll (userID : UUID)
  deriving DecidableEq, Repr

/-- An operation, and the service it is called on. -/
structure Call where
  service : Service
  request : Request

def Request.Ret : Request → Type
  | .enroll .. | .replaceEnrollment .. => String × String
  | .confirmEnrollment .. | .validate .. | .unenroll _ => Unit

def Call.program [Digest] : (c : Call) → M c.request.Ret
  | ⟨s, .enroll userID accountName⟩ => s.enroll userID accountName false
  | ⟨s, .replaceEnrollment userID accountName⟩ => s.enroll userID accountName true
  | ⟨s, .confirmEnrollment userID code⟩ => s.confirmEnrollment userID code
  | ⟨s, .validate userID code⟩ => s.validate userID code
  | ⟨_, .unenroll userID⟩ => Service.unenroll userID

/-- The package over the memory store. -/
abbrev system [Digest] : System iface where
  World := World
  Choice := Choice
  serve := World.serve
  Call := Call
  Out := fun c => Except Err c.request.Ret
  body := fun c => c.program.run

abbrev Entry [Digest] : Type := (system).Entry

abbrev Run [Digest] : Type := (system).Config

/-- An empty store, and no operation running. -/
abbrev Run.empty [Digest] : Run := System.Config.start (Y := system) {}

end Sulis.Totp
