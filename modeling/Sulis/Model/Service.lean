-- SUMMARY: The unexported machinery of the service: events, rate limits, tokens, sessions, and the retrying user update.
import Sulis.Model.Effects
import Sulis.Model.Password

/-!
# Shared machinery of the service

The unexported methods of `Sulis` that the public operations are built from.
Work the source does only to even out response times (verifying against the
dummy hash) has no effect on any call or result and is left out.
-/

namespace Sulis.Service

open Interaction

variable (cfg : Config)

/-! ## Events and rate limits -/

/-- `emit`: nothing happens without a sink. -/
def emit (e : SecurityEvent) : M Unit :=
  if cfg.eventSink then do
    let at_ ← timeNow
    sinkEmit { e with at_ := at_ }
  else pure ()

/-- `emitLoginFailedVia`: an empty reason is left out. -/
def emitLoginFailedVia (userID : UUID) (ri : RequestInfo) (method : AuthMethod) (reason : String) :
    M Unit :=
  if reason = "" then
    emit cfg
      { kind := .loginFailed, userID := userID, requestInfo := ri
        metadata := [(.method, method.name)] }
  else
    emit cfg
      { kind := .loginFailed, userID := userID, requestInfo := ri
        metadata := [(.method, method.name), (.reason, reason)] }

def emitLoginFailed (userID : UUID) (ri : RequestInfo) (reason : String) : M Unit :=
  emitLoginFailedVia cfg userID ri .password reason

/-- `limiterKeyParts`: scope and dimension of a limiter key. -/
def limiterKeyParts (key : String) : String × String :=
  let scope := String.ofList (key.toList.takeWhile (· ≠ ':'))
  if ":ip:".toList <:+: key.toList then (scope, dimensionIP) else (scope, dimensionAccount)

/-- `allow`: any refusal of the limiter becomes `ErrRateLimited`. -/
def allow (key : String) (ri : RequestInfo) : M Unit :=
  if cfg.limiter then do
    match ← Prog.attempt (limiterAllow key) with
    | .ok () => return ()
    | .error _ => do
      let (scope, dimension) := limiterKeyParts key
      emit cfg
        { kind := .rateLimitTripped, requestInfo := ri
          metadata := [(.scope, scope), (.dimension, dimension)] }
      throw .rateLimited
  else pure ()

/-- `allowIP`: callers that report no address are not limited by it. -/
def allowIP (scope : String) (ri : RequestInfo) : M Unit :=
  if ri.ip = "" then pure () else allow cfg (scope ++ "ip:" ++ ri.ip) ri

/-! ## Users -/

/-- `maxUserUpdateAttempts` -/
def maxUserUpdateAttempts : Nat := 3

/-- The loop of `updateUserWithRetry`, with the attempts left and the error of
    the last one. -/
def updateUserLoop {β : Type} (userID : UUID) (mutate : User → M (User × β)) :
    Nat → Err → M (User × β)
  | 0, lastErr => throw lastErr
  | n + 1, _ => do
    let user ← Users.getUserByID userID
    let (user, b) ← mutate user
    match ← Prog.attempt (Users.updateUser user) with
    | .ok () => return (user, b)
    | .error err =>
      if err.is .concurrentUpdate then updateUserLoop userID mutate n err
      else throw err

/-- `updateUserWithRetry`: load, mutate, persist, and start over from a fresh
    read if another writer won the race. The closures of the source also set
    variables of their callers, which is the `β` here. The user returned is the
    copy that was written, so it still carries the version it was read at. -/
def updateUserWithRetry {β : Type} (userID : UUID) (mutate : User → M (User × β)) :
    M (User × β) :=
  -- The initial error is never returned: there is at least one attempt.
  updateUserLoop userID mutate maxUserUpdateAttempts .concurrentUpdate

/-- `accountStatus`: disabled first, then locked, judged at the time of the
    check. -/
def accountStatus (user : User) : M Unit := do
  markStatus user
  match user.disabledAt with
  | some _ => throw .accountDisabled
  | none =>
    match user.lockedUntil with
    | none => return ()
    | some until_ => do
      let now ← timeNow
      if now < until_ then throw .accountLocked else return ()

def requireVerifiedEmail (user : User) : M Unit :=
  if cfg.requireVerifiedEmail ∧ user.emailVerifiedAt = none then throw .emailNotVerified
  else pure ()

/-! ## Tokens -/

variable [Platform]

/-- `generateRawToken`: a fresh raw token of the given size in bytes. -/
def generateRawToken (nBytes : Nat) : M String := do
  let bytes ← randRead nBytes
  return hexEncodeToString bytes

def createTokenForUserWithEmail (userID : UUID) (email : String) (purpose : TokenPurpose)
    (ttl : Duration) : M String := do
  let raw ← generateRawToken cfg.resetTokenBytes
  let now ← timeNow
  let id ← newV7
  Tokens.createToken
    { id := id, userID := userID, email := email, tokenHash := hashToken raw
      purpose := purpose, expiresAt := now + ttl, createdAt := now }
  return raw

def createTokenForUser (userID : UUID) (purpose : TokenPurpose) (ttl : Duration) : M String :=
  createTokenForUserWithEmail cfg userID "" purpose ttl

/-- `consumeToken`: expiry is checked after consumption, so a late token is
    burned. -/
def consumeToken (rawToken : String) (purpose : TokenPurpose) : M Token := do
  match ← Prog.attempt (Tokens.consumeToken (hashToken rawToken) purpose) with
  | .error err => if err.is .tokenNotFound then throw .tokenInvalid else throw err
  | .ok token => do
    let now ← timeNow
    if token.expiresAt < now then throw .tokenExpired else return token

/-! ## Sessions -/

/-- `sessionTouchIntervalDivisor` -/
def sessionTouchIntervalDivisor : Int := 4

/-- `defaultSessionTouchInterval` -/
def defaultSessionTouchInterval : Duration := 5 * minute

def sessionTouchInterval : Duration :=
  if 0 < cfg.idleTimeout then cfg.idleTimeout / sessionTouchIntervalDivisor
  else defaultSessionTouchInterval

def idleExpiresAt (at_ : Time) : Option Time :=
  if cfg.idleTimeout ≤ 0 then none else some (at_ + cfg.idleTimeout)

def revokeUserSessions (userID : UUID) : M Unit := do
  Sessions.deleteUserSessions userID
  emit cfg { kind := .sessionRevoked, userID := userID, metadata := [(.scope, scopeAllSessions)] }

/-- `generateSessionToken` -/
def generateSessionToken (nBytes : Nat) : M String := do
  let bytes ← randRead nBytes
  return hexEncodeToString bytes

/-- `createSession`: a new session and its raw token. -/
def createSession (userID : UUID) (method : AuthMethod) (authenticatedAt : Time)
    (ri : RequestInfo) : M (Session × String) := do
  let token ← generateSessionToken cfg.sessionTokenBytes
  let now ← timeNow
  let id ← newV7
  let session : Session :=
    { id := id
      userID := userID
      tokenHash := hashSessionToken token
      expiresAt := now + cfg.sessionDuration
      createdAt := now
      authenticatedAt := authenticatedAt
      method := method
      lastSeenAt := now
      idleExpiresAt := idleExpiresAt cfg now
      ip := ri.ip
      userAgent := ri.userAgent }
  Sessions.createSession session
  emit cfg
    { kind := .sessionIssued, userID := userID, sessionID := session.id, requestInfo := ri
      metadata := [(.method, method.name)] }
  return (session, token)

/-- `completeFirstFactor`: what a verified first factor earns. A user with a
    second factor gets a pending token and no session. -/
def completeFirstFactor (user : User) (method : AuthMethod) (ri : RequestInfo) :
    M LoginResult := do
  Prog.onError (accountStatus user)
    (fun err => emitLoginFailedVia cfg user.id ri method (gateReason err))
  Prog.onError (requireVerifiedEmail cfg user)
    (fun err => emitLoginFailedVia cfg user.id ri method (gateReason err))
  match ← Prog.attempt (hasSecondFactor user.id) with
  | .error err => do
    -- An unavailable checker must not downgrade the account to one factor.
    emitLoginFailedVia cfg user.id ri method Reason.factorCheckFailed
    throw (.wrap "sulis: checking second factor" err)
  | .ok true => do
    let pending ← createTokenForUser cfg user.id .twoFactor cfg.twoFactorTokenDuration
    emit cfg
      { kind := .secondFactorDemanded, userID := user.id, requestInfo := ri
        metadata := [(.method, method.name)] }
    return { user := user, needsSecondFactor := true, pendingToken := pending }
  | .ok false => do
    let at_ ← timeNow
    let (session, token) ← createSession cfg user.id method at_ ri
    return { user := user, session := some session, sessionToken := token }

end Sulis.Service
