-- SUMMARY: The calls of package passkey to its stores and environment, its ceremonies, and the system they make up.
import Sulis.Interaction.Pool
import Sulis.Passkey.Memstore
import Sulis.Passkey.WebAuthn

/-!
# The operations of package `passkey`

Each method of `Service` as the calls it makes, together with the two methods of the
store that applications call themselves. An operation belongs to a service, so services
with different configurations can share the stores.
-/

namespace Sulis.Passkey

open Interaction

/-! ## Calls -/

inductive Op
  | saveCredential (cred : Credential)
  | getCredentialsByUserID (userID : UUID)
  | getCredentialByID (credentialID : Bytes)
  | updateCredentialAfterLogin (credentialID : Bytes) (signCount : Nat) (backupState : Bool)
      (lastUsedAt : Time)
  | deleteCredential (userID id : UUID) (allowLast : Bool)
  | deleteCredentialsByUserID (userID : UUID)
  | renameCredential (userID id : UUID) (name : String)
  | saveChallenge (key : String) (sessionData : Bytes)
  | consumeChallenge (key : String)
  /-- `EventSink.Emit` -/
  | emit (event : Event)
  /-- `time.Now` -/
  | now
  /-- `uuid.NewV7` -/
  | newV7
  /-- The random bytes of a challenge -/
  | createChallenge
  deriving DecidableEq, Repr

@[reducible] def Op.Res : Op → Type
  | .saveCredential _ => Except Err Unit
  | .getCredentialsByUserID _ => Except Err (List Credential)
  | .getCredentialByID _ => Except Err Credential
  | .updateCredentialAfterLogin .. => Except Err Unit
  | .deleteCredential .. => Except Err Unit
  | .deleteCredentialsByUserID _ => Except Err Unit
  | .renameCredential .. => Except Err Unit
  | .saveChallenge .. => Except Err Unit
  | .consumeChallenge _ => Except Err Bytes
  | .emit _ => Unit
  | .now => Time
  | .newV7 => UUID
  | .createChallenge => Bytes

abbrev iface : Sig := ⟨Op, Op.Res⟩

abbrev M (α : Type) : Type := ExceptT Err (Prog iface) α

abbrev Hist : Type := List (Interaction.Event iface)

structure World where
  store : PasskeyStore := .empty
  challenges : ChallengeStore := .empty
  /-- Every ID drawn so far. -/
  ids : List UUID := []

structure Choice where
  time : Time := 0
  uuid : UUID := .nil
  bytes : Bytes := []
  /-- The order in which a map is iterated. -/
  order : Nat := 0
  deriving Repr

namespace World

def withStore {α : Type} (w : World) (r : Except Err α × PasskeyStore) :
    Option (Except Err α × World) := some (r.1, { w with store := r.2 })

def withChallenges {α : Type} (w : World) (r : Except Err α × ChallengeStore) :
    Option (Except Err α × World) := some (r.1, { w with challenges := r.2 })

/-- Answer one call. The stores do not fail on their own, and IDs are fresh. -/
def serve (w : World) : (op : Op) → Choice → Option (op.Res × World)
  | .saveCredential cred, _ => w.withStore (w.store.saveCredential cred)
  | .getCredentialsByUserID userID, ch => some (w.store.getCredentialsByUserID userID ch.order, w)
  | .getCredentialByID credentialID, ch => some (w.store.getCredentialByID credentialID ch.order, w)
  | .updateCredentialAfterLogin credentialID signCount backupState lastUsedAt, ch =>
    w.withStore
      (w.store.updateCredentialAfterLogin credentialID signCount backupState lastUsedAt ch.order)
  | .deleteCredential userID id allowLast, _ =>
    w.withStore (w.store.deleteCredential userID id allowLast)
  | .deleteCredentialsByUserID userID, _ => w.withStore (w.store.deleteCredentialsByUserID userID)
  | .renameCredential userID id name, _ => w.withStore (w.store.renameCredential userID id name)
  | .saveChallenge key sessionData, _ => w.withChallenges (w.challenges.saveChallenge key sessionData)
  | .consumeChallenge key, _ => w.withChallenges (w.challenges.consumeChallenge key)
  | .emit _, _ => some ((), w)
  | .now, ch => some (ch.time, w)
  | .newV7, ch =>
    if ch.uuid = .nil ∨ ch.uuid ∈ w.ids then none
    else some (ch.uuid, { w with ids := ch.uuid :: w.ids })
  | .createChallenge, ch => some (ch.bytes, w)

end World

/-- A call whose answer may be an error. -/
def request {α : Type} (p : Prog iface (Except Err α)) : M α := ExceptT.mk p

/-- A call that always answers. -/
def query {α : Type} (p : Prog iface α) : M α := ExceptT.lift p

/-- A computation of Go code that may fail, without any call. -/
def liftExcept {α : Type} (r : Except Err α) : M α := ExceptT.mk (.ret r)

def saveCredential (cred : Credential) : M Unit := request (.call (.saveCredential cred) .ret)
def getCredentialsByUserID (userID : UUID) : M (List Credential) :=
  request (.call (.getCredentialsByUserID userID) .ret)
def getCredentialByID (credentialID : Bytes) : M Credential :=
  request (.call (.getCredentialByID credentialID) .ret)
def updateCredentialAfterLogin (credentialID : Bytes) (signCount : Nat) (backupState : Bool)
    (lastUsedAt : Time) : M Unit :=
  request (.call (.updateCredentialAfterLogin credentialID signCount backupState lastUsedAt) .ret)
def storeDeleteCredential (userID id : UUID) (allowLast : Bool) : M Unit :=
  request (.call (.deleteCredential userID id allowLast) .ret)
def deleteCredentialsByUserID (userID : UUID) : M Unit :=
  request (.call (.deleteCredentialsByUserID userID) .ret)
def renameCredential (userID id : UUID) (name : String) : M Unit :=
  request (.call (.renameCredential userID id name) .ret)
def saveChallenge (key : String) (sessionData : Bytes) : M Unit :=
  request (.call (.saveChallenge key sessionData) .ret)
def consumeChallenge (key : String) : M Bytes := request (.call (.consumeChallenge key) .ret)
def sinkEmit (event : Event) : M Unit := query (.call (.emit event) .ret)
def timeNow : M Time := query (.call .now .ret)
def newV7 : M UUID := query (.call .newV7 .ret)
def createChallenge : M Bytes := query (.call .createChallenge .ret)

/-! ## Operations -/

variable [WebAuthn]

namespace Service

variable (s : Service)

/-- `emit`: nothing happens without a sink. -/
def emit (e : Event) : M Unit :=
  if s.cfg.eventSink then do
    let now ← timeNow
    sinkEmit { e with at_ := some now }
  else pure ()

/-- Report an event on the way out. -/
def reject {α : Type} (e : Event) (err : Err) : M α := do
  s.emit e
  throw err

/-- A login that go-webauthn does not let through. -/
def rejectLogin {α : Type} (userID : UUID) (err : Err) : M α :=
  s.reject { kind := .loginRejected, userID := userID, diagnostic := err.diagnosticCategory }
    (.both .challengeFailed err)

def checkUser (user : User) : M Unit :=
  if user.id = .nil then throw .invalidUser else pure ()

def checkCeremonyBodySize (body : Bytes) : M Unit :=
  if s.cfg.maxCeremonyBody < body.length then
    throw (.detail .ceremonyBodyTooLarge (toString body.length ++ " bytes exceeds the " ++
      toString s.cfg.maxCeremonyBody ++ " byte limit"))
  else pure ()

/-- The credentials of a user, for a ceremony. -/
def loadCredentials (userID : UUID) : M (List Credential) :=
  Prog.recover (getCredentialsByUserID userID)
    (fun err => s.reject { kind := .storeFailed, userID := userID, operation := "get_credentials" } err)

/-- Keep the session data of a ceremony until it is finished. -/
def keepSession (userID : UUID) (key : String) (session : WebAuthn.SessionData) : M Unit := do
  let data ← Prog.recover (liftExcept (WebAuthn.marshal session))
    (fun err => throw (.wrap "passkey: marshaling session" err))
  Prog.recover (saveChallenge key data)
    (fun err => s.reject { kind := .storeFailed, userID := userID, operation := "save_challenge" } err)

/-- Take the session data of a ceremony, which can be done once. -/
def takeSession (userID : UUID) (expired rejected : EventKind) (key : String) :
    M WebAuthn.SessionData := do
  let data ← Prog.recover (consumeChallenge key)
    (fun _ => s.reject { kind := expired, userID := userID, diagnostic := "challenge_expired" }
      .challengeExpired)
  Prog.recover (liftExcept (WebAuthn.unmarshal data))
    (fun err => s.reject { kind := rejected, userID := userID, diagnostic := "session_data" }
      (.wrap "passkey: unmarshaling session" err))

/-- `BeginRegistration` -/
def beginRegistration (user : User) : M WebAuthn.CredentialCreation := do
  checkUser user
  let creds ← s.loadCredentials user.id
  let exclude := credentialDescriptors (toWebAuthnCreds creds)
  let challenge ← createChallenge
  let (creation, session) ←
    Prog.recover (liftExcept (WebAuthn.beginRegistration s.wa (webauthnUser user creds) exclude challenge))
      (fun err => throw (.wrap "passkey: begin registration" err))
  s.keepSession user.id (challengeKey "register" (uuidString user.id)) session
  return creation

/-- The credential a registration stores. -/
def newCredential (user : User) (parsed : ParsedCreation) (waCredential : WaCredential) (id : UUID)
    (createdAt : Time) : Credential where
  id := id
  userID := user.id
  credentialID := waCredential.id
  publicKey := waCredential.publicKey
  attestationType := waCredential.attestationType
  aaguid := waCredential.aaguid
  signCount := waCredential.signCount
  discoverable := credPropsResidentKey parsed.credProps
  transports := waCredential.transport
  backupEligible := waCredential.backupEligible
  backupState := waCredential.backupState
  createdAt := createdAt

/-- A registration that go-webauthn does not let through. -/
def rejectRegistration {α : Type} (userID : UUID) (text : String) (err : Err) : M α :=
  s.reject { kind := .registrationRejected, userID := userID, diagnostic := err.diagnosticCategory }
    (.wrap text err)

/-- `FinishRegistrationResponse` -/
def finishRegistrationResponse (user : User) (body : Bytes) : M Credential := do
  checkUser user
  s.checkCeremonyBodySize body
  let session ← s.takeSession user.id .registrationChallengeExpired .registrationRejected
    (challengeKey "register" (uuidString user.id))
  let parsed ← Prog.recover (liftExcept (WebAuthn.parseCredentialCreationResponseBytes body))
    (s.rejectRegistration user.id "passkey: parsing registration response")
  let now ← timeNow
  let waCredential ←
    Prog.recover (liftExcept (WebAuthn.createCredential s.wa (webauthnUser user []) session parsed now))
      (s.rejectRegistration user.id "passkey: finish registration")
  let id ← newV7
  let createdAt ← timeNow
  let cred := newCredential user parsed waCredential id createdAt
  Prog.recover (saveCredential cred)
    (fun err => s.reject { kind := .storeFailed, userID := user.id, operation := "save_credential" } err)
  s.emit { kind := .registrationSucceeded, userID := user.id }
  return cred

/-- `BeginLogin` -/
def beginLogin (user : User) : M (WebAuthn.CredentialAssertion × UUID) := do
  checkUser user
  let creds ← s.loadCredentials user.id
  match creds with
  | [] => throw .passkeyNotFound
  | creds => do
    let challenge ← createChallenge
    let (assertion, session) ←
      Prog.recover (liftExcept
          (WebAuthn.beginLogin s.wa (webauthnUser user creds) s.cfg.userVerification challenge))
        (fun err => throw (.wrap "passkey: begin login" err))
    let ceremonyID ← newV7
    s.keepSession user.id (challengeKey "login" (uuidString ceremonyID)) session
    return (assertion, ceremonyID)

/-- `finishLoginCredential`: what was verified is written back, and read again, under its
    raw credential ID. -/
def finishLoginCredential (userID : UUID) (waCred : WaCredential) : M Credential :=
  if waCred.cloneWarning then
    s.reject { kind := .cloneWarning, userID := userID, diagnostic := "clone_warning" } .cloneWarning
  else do
    let now ← timeNow
    Prog.recover (updateCredentialAfterLogin waCred.id waCred.signCount waCred.backupState now)
      (fun err => s.reject
        { kind := .storeFailed, userID := userID, operation := "update_credential_after_login" } err)
    let cred ← Prog.recover (getCredentialByID waCred.id)
      (fun err => s.reject { kind := .storeFailed, userID := userID, operation := "get_credential" } err)
    s.emit { kind := .loginSucceeded, userID := userID }
    return cred

/-- `FinishLoginResponse` -/
def finishLoginResponse (user : User) (ceremonyID : UUID) (body : Bytes) : M Credential := do
  checkUser user
  s.checkCeremonyBodySize body
  let creds ← s.loadCredentials user.id
  let session ← s.takeSession user.id .loginChallengeExpired .loginRejected
    (challengeKey "login" (uuidString ceremonyID))
  let parsed ← Prog.recover (liftExcept (WebAuthn.parseCredentialRequestResponseBytes body))
    (s.rejectLogin user.id)
  let now ← timeNow
  let waCredential ←
    Prog.recover (liftExcept (WebAuthn.validateLogin s.wa (webauthnUser user creds) session parsed now))
      (s.rejectLogin user.id)
  s.finishLoginCredential user.id waCredential

/-- `BeginDiscoverableLogin` -/
def beginDiscoverableLogin : M (WebAuthn.CredentialAssertion × UUID) := do
  let challenge ← createChallenge
  let (assertion, session) ←
    Prog.recover (liftExcept
        (WebAuthn.beginDiscoverableLogin s.wa s.cfg.userVerification challenge))
      (fun err => throw (.wrap "passkey: begin discoverable login" err))
  let ceremonyID ← newV7
  s.keepSession .nil (challengeKey "discover" (uuidString ceremonyID)) session
  return (assertion, ceremonyID)

/-- The `handler` of `FinishDiscoverableLoginResponse`. -/
def resolveUser (rawID userHandle : Bytes) : M Credential := do
  let cred ← Prog.recover (getCredentialByID rawID)
    (fun _ => s.reject { kind := .storeFailed, operation := "get_credential" } .passkeyNotFound)
  if uuidBytes cred.userID ≠ userHandle then throw .userHandleMismatch else return cred

/-- `FinishDiscoverableLoginResponse` -/
def finishDiscoverableLoginResponse (ceremonyID : UUID) (body : Bytes) : M Credential := do
  s.checkCeremonyBodySize body
  let session ← s.takeSession .nil .loginChallengeExpired .loginRejected
    (challengeKey "discover" (uuidString ceremonyID))
  let parsed ← Prog.recover (liftExcept (WebAuthn.parseCredentialRequestResponseBytes body))
    (s.rejectLogin .nil)
  Prog.recover (liftExcept (WebAuthn.checkDiscoverable session parsed)) (s.rejectLogin .nil)
  let cred ← Prog.recover (s.resolveUser parsed.rawID parsed.userHandle)
    (fun err => s.rejectLogin .nil (WebAuthn.lookupFailed err))
  let now ← timeNow
  let waCred ←
    Prog.recover (liftExcept (WebAuthn.validateDiscoverableLogin s.wa
        (webauthnUser { id := cred.userID } [cred]) session parsed now))
      (s.rejectLogin cred.userID)
  s.finishLoginCredential cred.userID waCred

/-- `DeleteCredential` -/
def deleteCredential (userID id : UUID) (allowLast : Bool) : M Unit := do
  Prog.recover (storeDeleteCredential userID id allowLast) (fun err =>
    if err.is .passkeyNotFound ∨ err.is .lastCredential then
      s.reject
        { kind := .credentialDeletionRejected, userID := userID, diagnostic := err.deletionDiagnostic }
        err
    else
      s.reject { kind := .storeFailed, userID := userID, operation := "delete_credential" } err)
  s.emit { kind := .credentialDeleted, userID := userID }

end Service

/-! ## The system -/

inductive Request
  | beginRegistration (user : User)
  | finishRegistrationResponse (user : User) (body : Bytes)
  | beginLogin (user : User)
  | finishLoginResponse (user : User) (ceremonyID : UUID) (body : Bytes)
  | beginDiscoverableLogin
  | finishDiscoverableLoginResponse (ceremonyID : UUID) (body : Bytes)
  | deleteCredential (userID id : UUID) (allowLast : Bool)
  /-- `Store.DeleteCredentialsByUserID` -/
  | deleteCredentialsByUserID (userID : UUID)
  /-- `Store.RenameCredential` -/
  | renameCredential (userID id : UUID) (name : String)
  deriving DecidableEq, Repr

/-- An operation, and the service it is called on. -/
structure Call where
  service : Service
  request : Request

def Request.Ret : Request → Type
  | .beginRegistration _ => WebAuthn.CredentialCreation
  | .beginLogin _ | .beginDiscoverableLogin => WebAuthn.CredentialAssertion × UUID
  | .finishRegistrationResponse .. => Credential
  | .finishLoginResponse .. | .finishDiscoverableLoginResponse .. => Credential
  | .deleteCredential .. | .deleteCredentialsByUserID _ | .renameCredential .. => Unit

def Call.program : (c : Call) → M c.request.Ret
  | ⟨s, .beginRegistration user⟩ => s.beginRegistration user
  | ⟨s, .finishRegistrationResponse user body⟩ => s.finishRegistrationResponse user body
  | ⟨s, .beginLogin user⟩ => s.beginLogin user
  | ⟨s, .finishLoginResponse user ceremonyID body⟩ => s.finishLoginResponse user ceremonyID body
  | ⟨s, .beginDiscoverableLogin⟩ => s.beginDiscoverableLogin
  | ⟨s, .finishDiscoverableLoginResponse ceremonyID body⟩ =>
    s.finishDiscoverableLoginResponse ceremonyID body
  | ⟨s, .deleteCredential userID id allowLast⟩ => s.deleteCredential userID id allowLast
  | ⟨_, .deleteCredentialsByUserID userID⟩ => deleteCredentialsByUserID userID
  | ⟨_, .renameCredential userID id name⟩ => renameCredential userID id name

/-- The package over the memory stores. -/
abbrev system : System iface where
  World := World
  Choice := Choice
  serve := World.serve
  Call := Call
  Out := fun c => Except Err c.request.Ret
  body := fun c => c.program.run

abbrev Entry : Type := (system).Entry

abbrev Run : Type := (system).Config

/-- Empty stores, and no operation running. -/
abbrev Run.empty : Run := System.Config.start (Y := system) {}

end Sulis.Passkey
