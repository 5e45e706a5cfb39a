-- SUMMARY: The abstract writes of the package to a user row, as data, with what each of them can change.
import Sulis.Model.Accounts

/-!
# Mutations of a user row

Every write to an existing user goes through `updateUserWithRetry` with one of a
handful of closures. A `Mutation` is such a closure as data: `apply` checks its
guard against a row and gives the row it would write. That the programs write
nothing else is shown together with the programs.
-/

namespace Sulis

/-- What a new password needs of the row it is written to. -/
inductive PasswordGuard
  | oldPassword (password : Bytes)
  | passwordless
  | unguarded
  deriving DecidableEq, Repr

inductive Mutation
  | setPassword (guard : PasswordGuard) (hash : String) (now : Time)
  | rehash (verifiedHash newHash : String) (now : Time)
  | stampEmailVerified (now : Time)
  | stageEmail (email : String) (now : Time)
  /-- Carries the address of the token. -/
  | confirmEmailChange (email : String) (now : Time)
  | disable (reason : String) (now : Time)
  | enable (now : Time)
  | recordFailedLogin (now : Time)
  | clearFailedLogins (now : Time)
  deriving DecidableEq, Repr

/-- A copy of a user as `stampEmailVerified` leaves it. -/
def User.stamped (u : User) (now : Time) : User :=
  { u with emailVerifiedAt := some now, updatedAt := now }

/-- A copy of a user as `recordFailedLogin` leaves it. -/
def User.failedOnce (cfg : Config) (u : User) (now : Time) : User :=
  let attempts := u.failedLoginAttempts + 1
  if cfg.failureLockoutThreshold ≤ attempts then
    { u with
      failedLoginAttempts := attempts
      lockedUntil := some (now + Service.lockoutBackoff cfg.failureLockoutBaseBackoff
        cfg.failureLockoutMaxBackoff (attempts - cfg.failureLockoutThreshold))
      updatedAt := now }
  else { u with failedLoginAttempts := attempts, updatedAt := now }

variable [Platform] (cfg : Config)

def PasswordGuard.check : PasswordGuard → User → Except Err Unit
  | .oldPassword password, u => Service.verifyOld cfg password u
  | .passwordless, u => Service.requirePasswordless u
  | .unguarded, _ => .ok ()

/-- The row a mutation writes in place of `u`, if its guard passes. -/
def Mutation.apply : Mutation → User → Except Err User
  | .setPassword guard hash now, u =>
    (guard.check cfg u).map (fun _ =>
      { u with passwordHash := hash, updatedAt := now, failedLoginAttempts := 0
               lockedUntil := none })
  | .rehash verifiedHash newHash now, u =>
    if u.passwordHash ≠ verifiedHash then .error .rehashPasswordChanged
    else .ok { u with passwordHash := newHash, updatedAt := now }
  | .stampEmailVerified now, u =>
    if u.emailVerifiedAt ≠ none then .error .alreadyVerified else .ok (u.stamped now)
  | .stageEmail email now, u => .ok { u with pendingEmail := email, updatedAt := now }
  | .confirmEmailChange email now, u =>
    if email ≠ u.pendingEmail then .error .tokenInvalid
    else
      .ok { u with email := u.pendingEmail, pendingEmail := "", emailVerifiedAt := some now
                   updatedAt := now }
  | .disable reason now, u =>
    .ok { u with disabledAt := some now, disabledReason := reason, updatedAt := now }
  | .enable now, u => .ok { u with disabledAt := none, disabledReason := "", updatedAt := now }
  | .recordFailedLogin now, u => .ok (u.failedOnce cfg now)
  | .clearFailedLogins now, u =>
    .ok { u with failedLoginAttempts := 0, lockedUntil := none, updatedAt := now }

namespace Mutation

variable {cfg} {m : Mutation} {u u' : User}

/-! ## What a mutation leaves alone -/

theorem apply_setPassword {guard : PasswordGuard} {hash : String} {now : Time} :
    (setPassword guard hash now).apply cfg u = .ok u' ↔
      guard.check cfg u = .ok () ∧
        u' = { u with passwordHash := hash, updatedAt := now, failedLoginAttempts := 0
                      lockedUntil := none } := by
  simp only [apply]
  cases guard.check cfg u with
  | error err => simp [Except.map]
  | ok x => simp [Except.map, eq_comm]

theorem apply_rehash {verifiedHash newHash : String} {now : Time} :
    (rehash verifiedHash newHash now).apply cfg u = .ok u' ↔
      u.passwordHash = verifiedHash ∧ u' = { u with passwordHash := newHash, updatedAt := now } := by
  simp only [apply]
  split <;> simp_all [eq_comm]

theorem apply_stampEmailVerified {now : Time} :
    (stampEmailVerified now).apply cfg u = .ok u' ↔
      u.emailVerifiedAt = none ∧ u' = u.stamped now := by
  simp only [apply]
  split <;> simp_all [eq_comm]

theorem apply_confirmEmailChange {email : String} {now : Time} :
    (confirmEmailChange email now).apply cfg u = .ok u' ↔
      u.pendingEmail = email ∧
        u' = { u with email := email, pendingEmail := "", emailVerifiedAt := some now
                      updatedAt := now } := by
  simp only [apply]
  split <;> simp_all [eq_comm]

/-- The fields of a row that a mutation may not touch unless it is the one meant
    to. -/
structure Frame (m : Mutation) (u u' : User) : Prop where
  id : u'.id = u.id
  version : u'.version = u.version
  email : (∀ email now, m ≠ confirmEmailChange email now) → u'.email = u.email
  verified : u.emailVerifiedAt ≠ none → u'.emailVerifiedAt ≠ none
  unverified : (∀ now, m ≠ stampEmailVerified now) →
    (∀ email now, m ≠ confirmEmailChange email now) → u'.emailVerifiedAt = u.emailVerifiedAt
  disabled : (∀ now, m ≠ enable now) → u.disabledAt ≠ none → u'.disabledAt ≠ none
  pending : (∀ email now, m ≠ stageEmail email now) →
    (∀ email now, m ≠ confirmEmailChange email now) → u'.pendingEmail = u.pendingEmail
  password : (∀ guard hash now, m ≠ setPassword guard hash now) →
    (∀ old new now, m ≠ rehash old new now) → u'.passwordHash = u.passwordHash

theorem frame (h : m.apply cfg u = .ok u') : m.Frame u u' := by
  cases m with
  | setPassword guard hash now =>
    obtain ⟨-, rfl⟩ := apply_setPassword.mp h
    constructor <;> simp
  | rehash verifiedHash newHash now =>
    obtain ⟨-, rfl⟩ := apply_rehash.mp h
    constructor <;> simp
  | stampEmailVerified now =>
    obtain ⟨hnone, rfl⟩ := apply_stampEmailVerified.mp h
    constructor <;> simp [User.stamped]
  | stageEmail email now => cases h; constructor <;> simp
  | confirmEmailChange email now =>
    obtain ⟨-, rfl⟩ := apply_confirmEmailChange.mp h
    constructor <;> simp
  | disable reason now => cases h; constructor <;> simp
  | enable now => cases h; constructor <;> simp
  | recordFailedLogin now =>
    cases h
    constructor <;> (simp only [User.failedOnce]; split <;> simp)
  | clearFailedLogins now => cases h; constructor <;> simp

end Mutation

end Sulis
