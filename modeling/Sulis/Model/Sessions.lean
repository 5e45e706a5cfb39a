-- SUMMARY: Issuing, validating, rotating and revoking sessions, step-up, second factors, and account status.
import Sulis.Model.Accounts

/-!
# Sessions

`issue.go`, `session.go`, `stepup.go`, `twofactor.go`, and the session half of
`sulis.go` and of `status.go`.
-/

namespace Sulis.Service

open Interaction

variable (cfg : Config)

/-- `emitSessionEnded` -/
def emitSessionEnded (kind : EventKind) (session : Session) (reason : String) : M Unit :=
  emit cfg
    { kind := kind, userID := session.userID, sessionID := session.id
      metadata := [(.reason, reason)] }

/-- `RevokeSession` -/
def revokeSession (userID sessionID : UUID) : M Unit := do
  Sessions.deleteSession userID sessionID
  emit cfg
    { kind := .sessionRevoked, userID := userID, sessionID := sessionID
      metadata := [(.scope, scopeSingleSession)] }

/-- `RevokeAllSessions` -/
def revokeAllSessions (userID : UUID) : M Unit := revokeUserSessions cfg userID

/-- `ListUserSessions`: the stored sessions without their token hashes. -/
def listUserSessions (userID : UUID) : M (List Session) := do
  let sessions ← Sessions.listUserSessions userID
  return sessions.map (fun s => { s with tokenHash := "" })

/-- `RequireRecentAuth` -/
def requireRecentAuth (session : Session) (maxAge : Duration) : M Unit := do
  let now ← timeNow
  if maxAge < now - session.authenticatedAt then throw .reauthRequired else return ()

/-! ## Account status -/

/-- `DisableUser`: the stamp comes first, so a failing revocation leaves the
    account disabled. -/
def disableUser (userID : UUID) (reason : String) : M Unit := do
  let now ← timeNow
  let (user, _) ← updateUserWithRetry userID (fun u =>
    pure ({ u with disabledAt := some now, disabledReason := reason, updatedAt := now }, ()))
  emit cfg { kind := .accountDisabled, userID := user.id }
  revokeUserSessions cfg user.id

/-- `EnableUser` -/
def enableUser (userID : UUID) : M Unit := do
  let _ ← updateUserWithRetry userID (fun u => do
    let now ← timeNow
    pure ({ u with disabledAt := none, disabledReason := "", updatedAt := now }, ()))
  emit cfg { kind := .accountEnabled, userID := userID }

variable [Platform]

/-! ## Using a session -/

/-- The liveness touch of `ValidateSession`: at most one write per interval, and
    a failed one changes nothing. -/
def touch (session : Session) (now : Time) : M Session :=
  if sessionTouchInterval cfg ≤ now - session.lastSeenAt then do
    let deadline := idleExpiresAt cfg now
    match ← Prog.attempt (Sessions.touchSession session.id now deadline) with
    | .ok () => return { session with lastSeenAt := now, idleExpiresAt := deadline }
    | .error _ => return session
  else pure session

/-- An expired session is deleted on the way out, whether that works or not. -/
def endSession {α : Type} (kind : EventKind) (session : Session) (reason : String) : M α := do
  let _ ← Prog.attempt (Sessions.deleteSession session.userID session.id)
  emitSessionEnded cfg kind session reason
  throw .sessionExpired

/-- `ValidateSession` -/
def validateSession (token : String) : M (Session × User) := do
  let session ← Sessions.getSessionByTokenHash (hashSessionToken token)
  let now ← timeNow
  if session.idleExpiresAt.any (· < now) then
    endSession cfg .sessionIdleExpired session Reason.idleTimeout
  else if session.expiresAt < now then
    endSession cfg .sessionExpired session Reason.absoluteExpiry
  else do
    let user ← Users.getUserByID session.userID
    -- Only the disabled flag counts here: a lockout does not end sessions.
    markStatus user
    if user.disabledAt ≠ none then throw .accountDisabled
    else do
      let validated ← touch cfg session now
      return (validated, user)

/-- `RefreshSession`: the old row is deleted first, and only if that succeeds a
    new one is minted. -/
def refreshSession (session : Session) : M (Session × String) := do
  Sessions.deleteSession session.userID session.id
  let user ← Users.getUserByID session.userID
  accountStatus user
  requireVerifiedEmail cfg user
  let token ← generateSessionToken cfg.sessionTokenBytes
  let now ← timeNow
  let id ← newV7
  let fresh : Session :=
    { id := id
      userID := session.userID
      tokenHash := hashSessionToken token
      expiresAt := now + cfg.sessionDuration
      createdAt := session.createdAt
      authenticatedAt := session.authenticatedAt
      method := session.method
      lastSeenAt := now
      idleExpiresAt := idleExpiresAt cfg now
      ip := session.ip
      userAgent := session.userAgent
      metadata := session.metadata }
  Sessions.createSession fresh
  emit cfg
    { kind := .sessionRefreshed, userID := fresh.userID, sessionID := fresh.id
      metadata := [(.method, fresh.method.name)] }
  return (fresh, token)

/-! ## Step-up -/

omit [Platform] in
/-- `emitReauthFailed`: an empty reason is left out. -/
def emitReauthFailed (session : Session) (ri : RequestInfo) (reason : String) : M Unit :=
  let e : SecurityEvent :=
    { kind := .reauthFailed, userID := session.userID, sessionID := session.id, requestInfo := ri }
  if reason = "" then emit cfg e else emit cfg { e with metadata := [(.reason, reason)] }

/-- The rest of `ReAuthenticate` once the password has matched. -/
def acceptReauth (session : Session) (user : User) (password : Bytes) (legacyForm : Bool)
    (ri : RequestInfo) : M Session := do
  onlyIf (legacyForm = true)
    (emit cfg
      { kind := .passwordLegacyFormMatched, userID := user.id, sessionID := session.id
        requestInfo := ri })
  onlyIf (legacyForm = true ∨ needsRehash user.passwordHash cfg.argon2 = true)
    (rehashPassword cfg user password ri)
  let now ← timeNow
  Sessions.updateAuthenticatedAt session.id now
  emit cfg
    { kind := .reauthSucceeded, userID := user.id, sessionID := session.id, requestInfo := ri }
  return { session with authenticatedAt := now }

/-- `ReAuthenticate`: returns the session the source updates in place. -/
def reAuthenticate (session : Session) (password : Bytes) (ri : RequestInfo) : M Session := do
  let user ← Users.getUserByID session.userID
  allowIP cfg "password:" ri
  allow cfg ("password:" ++ user.email) ri
  Prog.onError (accountStatus user)
    (fun err => emitReauthFailed cfg session ri (gateReason err))
  if user.passwordHash = "" then do
    emitReauthFailed cfg session ri Reason.noPassword
    throw .invalidCredentials
  else
    match Sulis.verifyPassword password user.passwordHash cfg.pepper with
    | .error err => throw (.wrap "sulis: verifying password" err)
    | .ok (false, _) => do
      emitReauthFailed cfg session ri Reason.wrongPassword
      throw .invalidCredentials
    | .ok (true, legacyForm) => acceptReauth cfg session user password legacyForm ri

/-! ## Second factors -/

/-- `CreateTwoFactorToken` -/
def createTwoFactorToken (userID : UUID) : M String := do
  let user ← Users.getUserByID userID
  requireVerifiedEmail cfg user
  let raw ← createTokenForUser cfg userID .twoFactor cfg.twoFactorTokenDuration
  emit cfg { kind := .secondFactorDemanded, userID := userID }
  return raw

omit [Platform] in
/-- `emitSecondFactorFailed`: an empty reason is left out. -/
def emitSecondFactorFailed (userID : UUID) (ri : RequestInfo) (reason : String) : M Unit :=
  let e : SecurityEvent := { kind := .secondFactorFailed, userID := userID, requestInfo := ri }
  if reason = "" then emit cfg e else emit cfg { e with metadata := [(.reason, reason)] }

/-- `CompleteTwoFactor` -/
def completeTwoFactor (userID : UUID) (rawToken : String) (ri : RequestInfo) : M LoginResult := do
  let token ← Prog.onError (consumeToken rawToken .twoFactor)
    (fun err => emitSecondFactorFailed cfg .nil ri (tokenReason err))
  if token.userID ≠ userID then do
    emitSecondFactorFailed cfg token.userID ri Reason.userMismatch
    throw .tokenInvalid
  else do
    let user ← Users.getUserByID token.userID
    Prog.onError (accountStatus user)
      (fun err => emitSecondFactorFailed cfg user.id ri (gateReason err))
    Prog.onError (requireVerifiedEmail cfg user)
      (fun err => emitSecondFactorFailed cfg user.id ri (gateReason err))
    emit cfg { kind := .secondFactorCompleted, userID := user.id, requestInfo := ri }
    let at_ ← timeNow
    let (session, sessionToken) ← createSession cfg user.id .twoFactor at_ ri
    return { user := user, session := some session, sessionToken := sessionToken }

/-! ## Issuing a session for a proof of authentication -/

/-- `issueSessionForUser` -/
def issueSessionForUser (user : User) (method : AuthMethod) (authenticatedAt : Time) :
    M (Session × String) := do
  accountStatus user
  requireVerifiedEmail cfg user
  createSession cfg user.id method authenticatedAt {}

/-- The unexported `issueSession`. -/
def issueSessionOf (auth : Authentication) : M (Session × String) := do
  let user ← Users.getUserByID auth.userID
  issueSessionForUser cfg user auth.method auth.at_

/-- `IssueSession` -/
def issueSession (auth : Authentication) : M (Session × String) :=
  if auth.userID = .nil then throw .notAuthenticated else issueSessionOf cfg auth

/-- `IssueSessionUnchecked`: the caller vouches for the user. -/
def issueSessionUnchecked (userID : UUID) (method : AuthMethod) : M (Session × String) :=
  if userID = .nil then throw .userNotFound
  else do
    let at_ ← timeNow
    issueSessionOf cfg { userID := userID, method := method, at_ := at_ }

end Sulis.Service
