-- SUMMARY: Registration, password verification and every way of setting a password.
import Sulis.Model.Service

/-!
# Accounts and passwords

`sulis.go` and the lockout half of `status.go`.
-/

namespace Sulis.Service

open Interaction

/-- A value as an `int64` holds it. -/
def wrapInt64 (x : Int) : Int := x.bmod (2 ^ 64)

/-- `lockoutBackoff`: double the base for every failure past the threshold, up to
    `max`. A shift that overflows counts as `max`. -/
def lockoutBackoff (base max : Duration) (excess : Int) : Duration :=
  let excess := if excess < 0 then 0 else excess
  let excess := if 32 < excess then 32 else excess
  let backoff := wrapInt64 (base * 2 ^ excess.toNat)
  if backoff ≤ 0 ∨ max < backoff then max else backoff

variable (cfg : Config)

/-- `recordFailedLogin`: count a wrong password and lock the account once the
    threshold is reached. Losing every retry is not reported. -/
def recordFailedLogin (userID : UUID) (ri : RequestInfo) : M Unit := do
  let now ← timeNow
  match ← Prog.attempt (updateUserWithRetry userID (fun u =>
      let attempts := u.failedLoginAttempts + 1
      if cfg.failureLockoutThreshold ≤ attempts then
        let until_ := now + lockoutBackoff cfg.failureLockoutBaseBackoff
          cfg.failureLockoutMaxBackoff (attempts - cfg.failureLockoutThreshold)
        pure ({ u with failedLoginAttempts := attempts, lockedUntil := some until_,
                        updatedAt := now }, true)
      else pure ({ u with failedLoginAttempts := attempts, updatedAt := now }, false))) with
  | .error err =>
    if err.is .concurrentUpdate ∨ err.is .userNotFound then return ()
    else throw (.wrap "sulis: recording a failed login" err)
  | .ok (_, locked) =>
    onlyIf (locked = true)
      (emit cfg { kind := .accountLocked, userID := userID, requestInfo := ri })

/-- `clearFailedLogins`: forget the failures of an account whose password has
    just verified. Its own failure is swallowed. -/
def clearFailedLogins (userID : UUID) (ri : RequestInfo) : M Unit := do
  match ← Prog.attempt (updateUserWithRetry userID (fun u => do
      let now ← timeNow
      pure ({ u with failedLoginAttempts := 0, lockedUntil := none, updatedAt := now }, ()))) with
  | .error _ => return ()
  | .ok _ => emit cfg { kind := .accountLockoutCleared, userID := userID, requestInfo := ri }

def emitRehashFailed (userID : UUID) (ri : RequestInfo) (reason : String) : M Unit :=
  emit cfg
    { kind := .passwordRehashFailed, userID := userID, requestInfo := ri
      metadata := [(.reason, reason)] }

variable [Platform]

/-- `hashPassword` with the salt it draws. -/
def hashNewPassword (password : Bytes) : M String := do
  let salt ← randRead cfg.argon2.saltLength.toNat
  return hashPassword password cfg.argon2 cfg.pepper salt

/-- `rehashPassword`: upgrade the hash the password was just verified against,
    unless another request has replaced it. Every failure is swallowed. -/
def rehashPassword (user : User) (password : Bytes) (ri : RequestInfo) : M Unit := do
  let verifiedHash := user.passwordHash
  let newHash ← hashNewPassword cfg password
  let now ← timeNow
  match ← Prog.attempt (updateUserWithRetry user.id (fun u =>
      if u.passwordHash ≠ verifiedHash then throw .rehashPasswordChanged
      else pure ({ u with passwordHash := newHash, updatedAt := now }, ()))) with
  | .error err =>
    emitRehashFailed cfg user.id ri
      (if err.is .rehashPasswordChanged then Reason.passwordChanged else Reason.storeFailed)
  | .ok _ => emit cfg { kind := .passwordRehashed, userID := user.id, requestInfo := ri }

/-- `checkPasswordPolicy`: length bounds, then the configured checker, both on
    the normalized password. -/
def checkPasswordPolicy (password : Bytes) : M Unit :=
  let normalized := normalizePassword password
  if (normalized.length : Int) < cfg.minPasswordLength then throw .passwordTooShort
  else if cfg.maxPasswordLength < (normalized.length : Int) then throw .passwordTooLong
  else onlyIf (cfg.passwordChecker = true) (checkerCheck normalized)

def register (email : String) (password : Bytes) (ri : RequestInfo) :
    M (User × Session × String) := do
  allowIP cfg "register:" ri
  let email ← liftExcept (normalizeEmail email)
  checkPasswordPolicy cfg password
  let hash ← hashNewPassword cfg password
  let now ← timeNow
  let id ← newV7
  let user : User :=
    { id := id, email := email, passwordHash := hash, createdAt := now, updatedAt := now }
  Users.createUser user
  emit cfg { kind := .accountRegistered, userID := user.id, requestInfo := ri }
  let (session, token) ← createSession cfg user.id .password now ri
  return (user, session, token)

/-- The rest of `VerifyPassword` once the submitted password is known to be
    wrong. -/
def refuseWrongPassword (user : User) (ri : RequestInfo) : M User := do
  let recordErr ← Prog.attempt
    (onlyIf (0 < cfg.failureLockoutThreshold) (recordFailedLogin cfg user.id ri))
  emitLoginFailed cfg user.id ri Reason.wrongPassword
  match recordErr with
  | .error err => throw err
  | .ok () => throw .invalidCredentials

/-- The rest of `VerifyPassword` once the submitted password has matched: upgrade
    the hash, then reveal the account's status, then clear old failures. -/
def acceptPassword (user : User) (password : Bytes) (legacyForm : Bool) (ri : RequestInfo) :
    M User := do
  onlyIf (legacyForm = true)
    (emit cfg { kind := .passwordLegacyFormMatched, userID := user.id, requestInfo := ri })
  onlyIf (legacyForm = true ∨ needsRehash user.passwordHash cfg.argon2 = true)
    (rehashPassword cfg user password ri)
  Prog.onError (accountStatus user) (fun err => emitLoginFailed cfg user.id ri (gateReason err))
  onlyIf (0 < cfg.failureLockoutThreshold ∧
      (user.failedLoginAttempts ≠ 0 ∨ user.lockedUntil ≠ none))
    (clearFailedLogins cfg user.id ri)
  emit cfg
    { kind := .loginSucceeded, userID := user.id, requestInfo := ri
      metadata := [(.method, AuthMethod.password.name)] }
  return user

def verifyPassword (email : String) (password : Bytes) (ri : RequestInfo) : M User := do
  let email ← liftExcept (normalizeEmail email)
  allowIP cfg "password:" ri
  allow cfg ("password:" ++ email) ri
  match ← Prog.attempt (Users.getUserByEmail email) with
  | .error err =>
    if err.is .userNotFound then do
      emitLoginFailed cfg .nil ri Reason.userNotFound
      throw .invalidCredentials
    else throw err
  | .ok user =>
    if user.passwordHash = "" then do
      emitLoginFailed cfg user.id ri Reason.noPassword
      throw .invalidCredentials
    else
      match Sulis.verifyPassword password user.passwordHash cfg.pepper with
      | .error err => throw (.wrap "sulis: verifying password" err)
      | .ok (false, _) => refuseWrongPassword cfg user ri
      | .ok (true, legacyForm) => acceptPassword cfg user password legacyForm ri

def login (email : String) (password : Bytes) (ri : RequestInfo) : M LoginResult := do
  let user ← verifyPassword cfg email password ri
  completeFirstFactor cfg user .password ri

/-! ## Setting a password -/

/-- `setPassword`: write the new hash under the guard, then revoke the sessions
    and purge the reset, two-factor and magic-link tokens of the account. -/
def setPassword (userID : UUID) (newPassword : Bytes) (guard : User → Except Err Unit) :
    M Unit := do
  let hash ← hashNewPassword cfg newPassword
  let now ← timeNow
  let (user, _) ← updateUserWithRetry userID (fun u => do
    liftExcept (guard u)
    return ({ u with passwordHash := hash, updatedAt := now, failedLoginAttempts := 0,
                      lockedUntil := none }, ()))
  onlyIf (cfg.revokeSessionsOnPasswordChange = true) (revokeUserSessions cfg user.id)
  Tokens.deleteUserTokens user.id .passwordReset
  Tokens.deleteUserTokens user.id .twoFactor
  Tokens.deleteUserTokens user.id .magicLink

/-- The guard of `ChangePassword`, checked against the row being replaced. -/
def verifyOld (oldPassword : Bytes) (u : User) : Except Err Unit :=
  if u.passwordHash = "" then .error .invalidCredentials
  else
    match Sulis.verifyPassword oldPassword u.passwordHash cfg.pepper with
    | .error err => .error (.wrap "sulis: verifying old password" err)
    | .ok (ok, _) => if ok then .ok () else .error .invalidCredentials

def changePassword (userID : UUID) (oldPassword newPassword : Bytes) (ri : RequestInfo) :
    M Unit := do
  checkPasswordPolicy cfg newPassword
  let user ← Users.getUserByID userID
  allowIP cfg "password:" ri
  allow cfg ("password:" ++ user.email) ri
  setPassword cfg user.id newPassword (verifyOld cfg oldPassword)
  emit cfg { kind := .passwordChanged, userID := user.id, requestInfo := ri }

omit [Platform] in
/-- The guard of `SetInitialPassword`. -/
def requirePasswordless (u : User) : Except Err Unit :=
  if u.passwordHash ≠ "" then .error .invalidCredentials else .ok ()

def setInitialPassword (userID : UUID) (newPassword : Bytes) : M Unit := do
  checkPasswordPolicy cfg newPassword
  setPassword cfg userID newPassword requirePasswordless
  emit cfg { kind := .passwordSet, userID := userID }

/-- `createPasswordResetToken`: for an unknown address the strict variant says
    so, the other one returns an empty token. -/
def createPasswordResetToken (email : String) (ri : RequestInfo) (strict : Bool) : M String := do
  let email ← liftExcept (normalizeEmail email)
  allowIP cfg "reset:" ri
  allow cfg ("reset:" ++ email) ri
  match ← Prog.attempt (Users.getUserByEmail email) with
  | .error err =>
    if err.is .userNotFound then
      if strict then throw err
      else do
        let _ ← generateRawToken cfg.resetTokenBytes
        return ""
    else throw err
  | .ok user => do
    let raw ← createTokenForUser cfg user.id .passwordReset cfg.tokenDuration
    emit cfg { kind := .passwordResetRequested, userID := user.id, requestInfo := ri }
    return raw

def resetPassword (rawToken : String) (newPassword : Bytes) : M Unit := do
  checkPasswordPolicy cfg newPassword
  let token ← consumeToken rawToken .passwordReset
  setPassword cfg token.userID newPassword (fun _ => .ok ())
  emit cfg { kind := .passwordReset, userID := token.userID }

end Sulis.Service
