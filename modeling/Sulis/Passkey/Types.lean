-- SUMMARY: The data model of package passkey: errors, credentials, events and the configuration.
import Sulis.Model.Types

/-!
# Data model of package `passkey`

The records and sentinels of `passkey/passkey.go`, `passkey/store.go` and
`passkey/events.go`, with the sentinel of `memstore/passkey.go`. A nil pointer to a
time is `none`.
-/

namespace Sulis.Passkey

/-! ## Errors -/

/-- The sentinels of the package and of its memory store, the errors of go-webauthn,
    and what `fmt.Errorf` builds. -/
inductive Err
  | passkeyNotFound
  | challengeFailed
  | challengeExpired
  | cloneWarning
  | invalidUser
  | ceremonyBodyTooLarge
  | lastCredential
  /-- `errUserHandleMismatch` -/
  | userHandleMismatch
  /-- `memstore.ErrChallengeNotFound` -/
  | challengeNotFound
  /-- A `*protocol.Error`, with its `Type`. -/
  | protocol (type details : String)
  /-- An error with a text of its own. -/
  | other (text : String)
  /-- `fmt.Errorf("<text> %q", value)` -/
  | quoted (text value : String)
  /-- `fmt.Errorf("<text>: %w", err)` -/
  | wrap (text : String) (err : Err)
  /-- `fmt.Errorf("%w: <text>", err)` -/
  | detail (err : Err) (text : String)
  /-- `fmt.Errorf("%w: %w", err, cause)` -/
  | both (err cause : Err)
  deriving DecidableEq, Repr

namespace Err

/-- The errors that `errors.Is` and `errors.As` look at, in their order. -/
def chain : Err → List Err
  | .wrap text err => .wrap text err :: err.chain
  | .detail err text => .detail err text :: err.chain
  | .both err cause => .both err cause :: (err.chain ++ cause.chain)
  | err => [err]

/-- `errors.Is` -/
def is (err target : Err) : Bool := target ∈ err.chain

/-- The `Type` of a `*protocol.Error`. -/
def protocolType? : Err → Option String
  | .protocol type _ => some type
  | _ => none

/-- `diagnosticCategory` -/
def diagnosticCategory (err : Err) : String :=
  match err.chain.findSome? protocolType? with
  | some type => if type ≠ "" then type else "unknown"
  | none => "unknown"

/-- `deletionDiagnostic` -/
def deletionDiagnostic (err : Err) : String :=
  if err.is .passkeyNotFound then "not_found"
  else if err.is .lastCredential then "last_credential"
  else "unknown"

end Err

/-! ## Records -/

structure Credential where
  id : UUID
  userID : UUID
  /-- The raw credential ID, chosen by the authenticator. -/
  credentialID : Bytes
  publicKey : Bytes
  attestationType : String
  aaguid : Bytes
  signCount : Nat
  name : String := ""
  transports : List String
  backupEligible : Bool
  backupState : Bool
  lastUsedAt : Option Time := none
  discoverable : Bool
  createdAt : Time
  deriving DecidableEq, Repr

/-- Whom a ceremony is about, as the application says. -/
structure User where
  id : UUID
  name : String := ""
  displayName : String := ""
  deriving DecidableEq, Repr

inductive EventKind
  | registrationSucceeded
  | registrationRejected
  | registrationChallengeExpired
  | loginSucceeded
  | loginRejected
  | loginChallengeExpired
  | cloneWarning
  | credentialDeleted
  | credentialDeletionRejected
  | storeFailed
  deriving DecidableEq, Repr

structure Event where
  kind : EventKind
  userID : UUID := .nil
  operation : String := ""
  diagnostic : String := ""
  /-- `none` until the event is emitted. -/
  at_ : Option Time := none
  deriving DecidableEq, Repr

/-! ## Configuration -/

/-- A requirement on user verification or on resident keys. Go has strings here, so there
    are values besides the three that mean something. -/
inductive Requirement
  | required
  | preferred
  | discouraged
  | unknown (text : String)
  deriving DecidableEq, Repr

/-- `WebAuthnConfig` and the options of `NewService`. -/
structure Config where
  rpDisplayName : String
  rpID : String
  rpOrigins : List String
  userVerification : Requirement := .required
  residentKey : Requirement := .required
  maxCeremonyBody : Int := 64 * 1024
  /-- Whether there is a sink. -/
  eventSink : Bool := false

/-- What `webauthn.New` is given. -/
structure RelyingParty where
  rpDisplayName : String
  rpID : String
  rpOrigins : List String
  userVerification : Requirement
  residentKey : Requirement
  requireResidentKey : Bool

def Config.relyingParty (cfg : Config) : RelyingParty where
  rpDisplayName := cfg.rpDisplayName
  rpID := cfg.rpID
  rpOrigins := cfg.rpOrigins
  userVerification := cfg.userVerification
  residentKey := cfg.residentKey
  requireResidentKey := cfg.residentKey = .required

end Sulis.Passkey
