-- SUMMARY: The data model of package totp: errors, credentials, the configuration, and which configurations are accepted.
import Sulis.Model.Types

/-!
# Data model of package `totp`

The records and sentinels of `totp/store.go`, `totp/totp.go` and the interface in
`totp/encrypt.go`. A `Service` carries the proof that `NewService` let its
configuration through.
-/

namespace Sulis.Totp

/-- The sentinels of `totp.go`, and what `fmt.Errorf` builds. -/
inductive Err
  | totpInvalid
  | totpNotEnrolled
  | totpNotVerified
  | totpReplayed
  | totpRateLimited
  | totpAlreadyEnrolled
  /-- An error with a text of its own. -/
  | other (text : String)
  /-- `fmt.Errorf("<text>: %w", err)` -/
  | wrap (text : String) (err : Err)
  deriving DecidableEq, Repr

structure Credential where
  id : UUID
  userID : UUID
  /-- What the store sees of the shared secret: a ciphertext, if there is an encryptor. -/
  secret : String
  verified : Bool := false
  lastUsedCounter : Nat := 0
  createdAt : Time
  deriving DecidableEq, Repr

inductive Algorithm
  | sha1
  | sha256
  | sha512
  deriving DecidableEq, Repr

def Algorithm.string : Algorithm → String
  | .sha256 => "SHA256"
  | .sha512 => "SHA512"
  | .sha1 => "SHA1"

/-- An `Encryptor`. What it draws for itself while encrypting comes in from outside. -/
structure Encryptor where
  nonceSize : Nat
  encrypt : (nonce : Bytes) → (plaintext : String) → Except Err String
  decrypt : (ciphertext : String) → Except Err String

/-- The `Config` of the package. Whether there is a limiter is all that is asked of it
    here; its verdicts are the environment's. -/
structure Config where
  issuer : String
  algorithm : Algorithm := .sha1
  digits : Nat := 6
  /-- In seconds. -/
  period : Nat := 30
  skew : Nat := 1
  secretSize : Nat := 20
  limiter : Bool := false
  encryptor : Option Encryptor := none
  noEncryption : Bool := false
  noRateLimiting : Bool := false

/-- `NewService`, once the options have been applied: the first check that fails. -/
def newService (cfg : Config) : Except Err Unit :=
  if cfg.encryptor.isNone ∧ ¬ cfg.noEncryption then
    .error (.other "totp: pass WithEncryptor to encrypt stored secrets, or WithoutSecretEncryption to store them as plaintext deliberately")
  else if cfg.encryptor.isSome ∧ cfg.noEncryption then
    .error (.other "totp: WithEncryptor and WithoutSecretEncryption are contradictory")
  else if ¬ cfg.limiter ∧ ¬ cfg.noRateLimiting then
    .error (.other "totp: pass WithLimiter to rate-limit code checks, or WithoutRateLimiting to run without one deliberately")
  else if cfg.limiter ∧ cfg.noRateLimiting then
    .error (.other "totp: WithLimiter and WithoutRateLimiting are contradictory")
  else if cfg.issuer = "" ∨ ':' ∈ cfg.issuer.toList then
    .error (.other "totp: issuer must be non-empty and contain no ':'")
  else if cfg.digits < 6 ∨ 8 < cfg.digits then
    .error (.other ("totp: digits must be 6-8, got " ++ toString cfg.digits))
  else if cfg.period < 15 ∨ 300 < cfg.period then
    .error (.other ("totp: period must be 15-300 seconds, got " ++ toString cfg.period))
  else if 4 < cfg.skew then
    .error (.other ("totp: skew must be at most 4, got " ++ toString cfg.skew))
  else if cfg.secretSize < 16 then
    .error (.other ("totp: secret size must be at least 16 bytes, got " ++ toString cfg.secretSize))
  else .ok ()

/-- A `Service`: a configuration that was accepted. -/
structure Service where
  cfg : Config
  accepted : newService cfg = .ok ()

end Sulis.Totp
