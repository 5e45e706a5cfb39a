-- SUMMARY: Everything that proves control of a mailbox: magic links, email verification and email changes.
import Sulis.Model.Service

/-!
# Magic links, email verification, email changes

`magiclink.go`, `emailverification.go` and `changeemail.go`.
-/

namespace Sulis.Service

open Interaction

variable (cfg : Config)

/-! ## Email verification -/

/-- `stampEmailVerified`: record the first proof of the address. An account that
    already had a password loses its sessions, since whoever registered it never
    proved the address. The source updates `user` in place; here the caller gets
    the new copy. -/
def stampEmailVerified (user : User) : M User :=
  if user.emailVerifiedAt ≠ none then pure user
  else do
    let now ← timeNow
    match ← Prog.attempt (updateUserWithRetry user.id (fun u =>
        if u.emailVerifiedAt ≠ none then throw .alreadyVerified
        else
          pure ({ u with emailVerifiedAt := some now, updatedAt := now },
            decide (u.passwordHash ≠ "")))) with
    | .error err =>
      -- Somebody else stamped it first: continue with their row.
      if err.is .alreadyVerified then Users.getUserByID user.id else throw err
    | .ok (updated, hadPassword) => do
      emit cfg { kind := .emailVerified, userID := updated.id }
      onlyIf (hadPassword = true) (revokeUserSessions cfg updated.id)
      return updated

variable [Platform]

/-- `CreateEmailVerificationToken` -/
def createEmailVerificationToken (userID : UUID) : M String := do
  let user ← Users.getUserByID userID
  createTokenForUserWithEmail cfg user.id user.email .emailVerification
    cfg.emailVerificationTokenDuration

/-- `VerifyEmail`: the token counts only for the address it was issued for. -/
def verifyEmail (rawToken : String) : M User := do
  let token ← consumeToken rawToken .emailVerification
  let user ← Users.getUserByID token.userID
  if token.email ≠ user.email then throw .tokenInvalid
  else stampEmailVerified cfg user

/-! ## Magic links -/

/-- `magicLinkNonceBytes` -/
def magicLinkNonceBytes : Nat := 16

/-- The binding nonce of a link and its stored hash, both empty when binding is
    off. -/
def bindingNonce : M (String × String) :=
  if cfg.magicLinkBinding then do
    let nonce ← generateRawToken magicLinkNonceBytes
    return (nonce, hashToken nonce)
  else pure ("", "")

/-- `issueMagicLinkToken` -/
def issueMagicLinkToken (userID : UUID) (email : String) : M (String × String) := do
  let raw ← generateRawToken cfg.resetTokenBytes
  let (nonce, nonceHash) ← bindingNonce cfg
  let now ← timeNow
  let id ← newV7
  Tokens.createToken
    { id := id, userID := userID, email := email, tokenHash := hashToken raw
      nonceHash := nonceHash, purpose := .magicLink
      expiresAt := now + cfg.magicLinkDuration, createdAt := now }
  emit cfg { kind := .magicLinkCreated, userID := userID }
  return (raw, nonce)

/-- `CreateMagicLinkToken`: a link for a known address names the account, a link
    for an unknown one names only the address. -/
def createMagicLinkToken (email : String) (ri : RequestInfo) : M (String × String) := do
  let email ← liftExcept (normalizeEmail email)
  allowIP cfg "magic:" ri
  allow cfg ("magic:" ++ email) ri
  match ← Prog.attempt (Users.getUserByEmail email) with
  | .error err =>
    if err.is .userNotFound then issueMagicLinkToken cfg .nil email else throw err
  | .ok user => issueMagicLinkToken cfg user.id ""

/-- `getOrCreatePasswordlessUser` -/
def getOrCreatePasswordlessUser (email : String) : M User := do
  match ← Prog.attempt (Users.getUserByEmail email) with
  | .ok user => return user
  | .error err =>
    if err.is .userNotFound then do
      let now ← timeNow
      let id ← newV7
      let user : User := { id := id, email := email, createdAt := now, updatedAt := now }
      match ← Prog.attempt (Users.createUser user) with
      | .ok () => return user
      | .error err =>
        if err.is .userAlreadyExists then Users.getUserByEmail email else throw err
    else throw err

def emitMagicLinkRejected (userID : UUID) (ri : RequestInfo) (reason : String) : M Unit :=
  emit cfg
    { kind := .magicLinkRejected, userID := userID, requestInfo := ri
      metadata := [(.reason, reason)] }

/-- The nonce check of `RedeemMagicLink`: a link issued with a nonce needs it. -/
def nonceMatches (tok : Token) (nonce : String) : Prop :=
  tok.nonceHash = "" ∨ (nonce ≠ "" ∧ hashToken nonce = tok.nonceHash)

instance (tok : Token) (nonce : String) : Decidable (nonceMatches tok nonce) :=
  inferInstanceAs (Decidable (_ ∨ _))

/-- The account a redeemed link logs into. -/
def magicLinkUser (tok : Token) : M User :=
  if tok.userID ≠ .nil then Users.getUserByID tok.userID
  else getOrCreatePasswordlessUser tok.email

/-- `RedeemMagicLink` -/
def redeemMagicLink (rawToken nonce : String) (ri : RequestInfo) : M LoginResult := do
  let tok ← Prog.onError (consumeToken rawToken .magicLink)
    (fun err => emitMagicLinkRejected cfg .nil ri (tokenReason err))
  if nonceMatches tok nonce then do
    let user ← magicLinkUser tok
    emit cfg { kind := .magicLinkRedeemed, userID := user.id, requestInfo := ri }
    let user ← stampEmailVerified cfg user
    completeFirstFactor cfg user .magicLink ri
  else do
    emitMagicLinkRejected cfg tok.userID ri Reason.bindingMismatch
    throw .tokenInvalid

/-! ## Email changes -/

omit [Platform] in
/-- Both halves of an email change refuse an address somebody holds. -/
def requireUnclaimed (email : String) : M Unit := do
  match ← Prog.attempt (Users.getUserByEmail email) with
  | .ok _ => throw .userAlreadyExists
  | .error err => if err.is .userNotFound then return () else throw err

/-- `ChangeEmail`: stage the new address and issue a token for it. -/
def changeEmail (userID : UUID) (newEmail : String) : M String := do
  let newEmail ← liftExcept (normalizeEmail newEmail)
  requireUnclaimed newEmail
  let now ← timeNow
  let _ ← updateUserWithRetry userID (fun u =>
    pure ({ u with pendingEmail := newEmail, updatedAt := now }, ()))
  let raw ← createTokenForUserWithEmail cfg userID newEmail .emailChange
    cfg.emailVerificationTokenDuration
  emit cfg { kind := .emailChangeStaged, userID := userID }
  return raw

/-- `ConfirmEmailChange`: swap the address if the token's is still the staged
    one, then revoke the sessions and purge the reset, two-factor and magic-link
    tokens of the account. -/
def confirmEmailChange (rawToken : String) : M User := do
  let token ← consumeToken rawToken .emailChange
  let now ← timeNow
  let (updated, _) ← updateUserWithRetry token.userID (fun u => do
    if token.email ≠ u.pendingEmail then throw .tokenInvalid
    else do
      requireUnclaimed u.pendingEmail
      return ({ u with email := u.pendingEmail, pendingEmail := "", emailVerifiedAt := some now,
                        updatedAt := now }, ()))
  revokeUserSessions cfg updated.id
  Tokens.deleteUserTokens updated.id .passwordReset
  Tokens.deleteUserTokens updated.id .twoFactor
  Tokens.deleteUserTokens updated.id .magicLink
  emit cfg { kind := .emailChangeConfirmed, userID := updated.id }
  return updated

end Sulis.Service
