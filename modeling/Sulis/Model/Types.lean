-- SUMMARY: The data model of the root package: errors, users, sessions, tokens, events and the configuration.
import Mathlib.Data.BitVec

/-!
# Data model

The records and sentinels of the root package (`user.go`, `session.go`,
`token.go`, `errors.go`, `events.go`, `issue.go`, `config.go`). A nil pointer to
a time is `none`; a Go map that may be nil is an `Option`.
-/

namespace Sulis

/-- A `uuid.UUID`. -/
abbrev UUID : Type := BitVec 128

/-- `uuid.Nil()`. -/
def UUID.nil : UUID := 0#128

instance (id : UUID) (l : List UUID) : Decidable (id ∈ l) := List.instDecidableMemOfLawfulBEq id l

/-- An instant, in nanoseconds. -/
abbrev Time : Type := Int

/-- A `time.Duration`, in nanoseconds. -/
abbrev Duration : Type := Int

abbrev Bytes : Type := List UInt8

instance (b : Bytes) (l : List Bytes) : Decidable (b ∈ l) := List.instDecidableMemOfLawfulBEq b l

/-! ## Errors -/

/-- The sentinels of `errors.go`, the two unexported ones, and what
    `fmt.Errorf` builds from them. -/
inductive Err
  | userNotFound
  | userAlreadyExists
  | concurrentUpdate
  | invalidCredentials
  | notAuthenticated
  | sessionNotFound
  | sessionExpired
  | reauthRequired
  | tokenInvalid
  | tokenNotFound
  | tokenExpired
  | tokenAlreadyUsed
  | passwordTooShort
  | passwordTooLong
  | passwordCompromised
  | invalidEmail
  | emailNotVerified
  | rateLimited
  | accountDisabled
  | accountLocked
  /-- `errAlreadyVerified` -/
  | alreadyVerified
  /-- `errRehashPasswordChanged` -/
  | rehashPasswordChanged
  /-- An error with a text of its own: a store failure, a malformed hash. -/
  | other (text : String)
  /-- `fmt.Errorf("<text>: %w", err)` -/
  | wrap (text : String) (err : Err)
  deriving DecidableEq, Repr

/-- `errors.Is(err, target)`. -/
def Err.is : Err → Err → Bool
  | .wrap text err, target => (Err.wrap text err == target) || err.is target
  | err, target => err == target

/-! ## Users -/

structure User where
  id : UUID
  email : String
  /-- Empty for a passwordless user. -/
  passwordHash : String := ""
  createdAt : Time
  updatedAt : Time
  emailVerifiedAt : Option Time := none
  pendingEmail : String := ""
  disabledAt : Option Time := none
  disabledReason : String := ""
  lockedUntil : Option Time := none
  failedLoginAttempts : Int := 0
  /-- An unbounded `Nat` for the `uint64` of the source: the counter of the model does not
      wrap. For that to show, one row would have to be written 2^64 times while a single
      call is in flight. -/
  version : Nat := 0
  deriving DecidableEq, Repr

/-! ## Sessions -/

/-- The credential that authenticated a session. The type is open: callers of
    `IssueSessionUnchecked` choose the text. -/
structure AuthMethod where
  name : String
  deriving DecidableEq, Repr

namespace AuthMethod

def password : AuthMethod := ⟨"password"⟩
def magicLink : AuthMethod := ⟨"magic_link"⟩
def passkey : AuthMethod := ⟨"passkey"⟩
def twoFactor : AuthMethod := ⟨"two_factor"⟩
def recoveryCode : AuthMethod := ⟨"recovery_code"⟩

end AuthMethod

structure RequestInfo where
  ip : String := ""
  userAgent : String := ""
  deriving DecidableEq, Repr

structure Session where
  id : UUID
  userID : UUID
  tokenHash : String
  expiresAt : Time
  createdAt : Time
  authenticatedAt : Time
  method : AuthMethod
  lastSeenAt : Time
  idleExpiresAt : Option Time := none
  ip : String := ""
  userAgent : String := ""
  metadata : Option (List (String × String)) := none
  deriving DecidableEq, Repr

/-- Proof that a user has completed authentication. -/
structure Authentication where
  userID : UUID
  method : AuthMethod
  at_ : Time
  deriving DecidableEq, Repr

/-- The outcome of a successful first factor. -/
structure LoginResult where
  user : User
  session : Option Session := none
  sessionToken : String := ""
  needsSecondFactor : Bool := false
  pendingToken : String := ""
  deriving DecidableEq, Repr

/-! ## Tokens -/

inductive TokenPurpose
  | passwordReset
  | magicLink
  | twoFactor
  | emailVerification
  | emailChange
  deriving DecidableEq, Repr

structure Token where
  id : UUID
  userID : UUID
  tokenHash : String
  purpose : TokenPurpose
  expiresAt : Time
  createdAt : Time
  used : Bool := false
  email : String := ""
  nonceHash : String := ""
  deriving DecidableEq, Repr

/-! ## Security events -/

inductive EventKind
  | accountRegistered
  | loginSucceeded
  | loginFailed
  | passwordChanged
  | passwordSet
  | passwordResetRequested
  | passwordReset
  | passwordRehashed
  | passwordRehashFailed
  | passwordLegacyFormMatched
  | secondFactorDemanded
  | secondFactorCompleted
  | secondFactorFailed
  | sessionIssued
  | sessionRevoked
  | sessionRefreshed
  | sessionExpired
  | sessionIdleExpired
  | emailChangeStaged
  | emailChangeConfirmed
  | emailVerified
  | magicLinkCreated
  | magicLinkRedeemed
  | magicLinkRejected
  | rateLimitTripped
  | accountDisabled
  | accountEnabled
  | accountLocked
  | accountLockoutCleared
  | reauthSucceeded
  | reauthFailed
  deriving DecidableEq, Repr

inductive MetadataKey
  | reason
  | method
  | scope
  | dimension
  deriving DecidableEq, Repr

structure SecurityEvent where
  kind : EventKind
  userID : UUID := .nil
  sessionID : UUID := .nil
  requestInfo : RequestInfo := {}
  at_ : Time := 0
  metadata : List (MetadataKey × String) := []
  deriving DecidableEq, Repr

namespace Reason

def userNotFound : String := "user_not_found"
def noPassword : String := "no_password"
def wrongPassword : String := "wrong_password"
def accountDisabled : String := "account_disabled"
def accountLocked : String := "account_locked"
def emailNotVerified : String := "email_not_verified"
def factorCheckFailed : String := "factor_check_failed"
def tokenInvalid : String := "token_invalid"
def tokenExpired : String := "token_expired"
def tokenAlreadyUsed : String := "token_already_used"
def userMismatch : String := "user_mismatch"
def bindingMismatch : String := "binding_mismatch"
def storeFailed : String := "store_failed"
def passwordChanged : String := "password_changed"
def idleTimeout : String := "idle_timeout"
def absoluteExpiry : String := "absolute_expiry"

end Reason

/-- `ScopeSingleSession` -/
def scopeSingleSession : String := "single"

/-- `ScopeAllSessions` -/
def scopeAllSessions : String := "all"

/-- `DimensionAccount` -/
def dimensionAccount : String := "account"

/-- `DimensionIP` -/
def dimensionIP : String := "ip"

/-- `gateReason`: why a status or verification gate refused. -/
def gateReason (err : Err) : String :=
  if err.is .accountDisabled then Reason.accountDisabled
  else if err.is .accountLocked then Reason.accountLocked
  else if err.is .emailNotVerified then Reason.emailNotVerified
  else ""

/-- `tokenReason`: why a token was refused. -/
def tokenReason (err : Err) : String :=
  if err.is .tokenExpired then Reason.tokenExpired
  else if err.is .tokenAlreadyUsed then Reason.tokenAlreadyUsed
  else Reason.tokenInvalid

/-! ## Configuration -/

structure Argon2Params where
  memory : UInt32
  iterations : UInt32
  parallelism : UInt8
  saltLength : UInt32
  keyLength : UInt32
  deriving DecidableEq, Repr

/-- `Config`, with an interface field reduced to whether it is set: what a
    limiter, a checker or a sink answers is the environment's part. -/
structure Config where
  sessionDuration : Duration
  tokenDuration : Duration
  magicLinkDuration : Duration
  twoFactorTokenDuration : Duration
  emailVerificationTokenDuration : Duration
  sessionTokenBytes : Nat
  resetTokenBytes : Nat
  revokeSessionsOnPasswordChange : Bool
  requireVerifiedEmail : Bool
  magicLinkBinding : Bool
  minPasswordLength : Int
  maxPasswordLength : Int
  argon2 : Argon2Params
  limiter : Bool
  passwordChecker : Bool
  pepper : Bytes := []
  failureLockoutThreshold : Int := 0
  failureLockoutBaseBackoff : Duration := 0
  failureLockoutMaxBackoff : Duration := 0
  idleTimeout : Duration := 0
  eventSink : Bool := false
  deriving DecidableEq, Repr

def second : Duration := 1000000000
def minute : Duration := 60 * second
def hour : Duration := 60 * minute

def defaultConfig : Config where
  sessionDuration := 24 * hour
  tokenDuration := 1 * hour
  magicLinkDuration := 15 * minute
  twoFactorTokenDuration := 5 * minute
  emailVerificationTokenDuration := 24 * hour
  sessionTokenBytes := 32
  resetTokenBytes := 32
  revokeSessionsOnPasswordChange := true
  requireVerifiedEmail := true
  magicLinkBinding := true
  minPasswordLength := 12
  maxPasswordLength := 1024
  argon2 := ⟨64 * 1024, 3, 2, 16, 32⟩
  limiter := true
  passwordChecker := true

end Sulis
