-- SUMMARY: The public operations as calls, and the system of any number of them over one world.
import Sulis.Model.Email
import Sulis.Model.Sessions

/-!
# The system

A `Call` is one invocation of an exported method, or one of the two sweeps an
application runs against the stores itself. Any number of them run at once, and
their calls on the environment interleave freely.
-/

namespace Sulis

open Interaction

inductive Call
  | register (email : String) (password : Bytes) (ri : RequestInfo)
  | login (email : String) (password : Bytes) (ri : RequestInfo)
  | verifyPassword (email : String) (password : Bytes) (ri : RequestInfo)
  | changePassword (userID : UUID) (oldPassword newPassword : Bytes) (ri : RequestInfo)
  | setInitialPassword (userID : UUID) (newPassword : Bytes)
  | createPasswordResetToken (email : String) (ri : RequestInfo)
  | createPasswordResetTokenStrict (email : String) (ri : RequestInfo)
  | resetPassword (rawToken : String) (newPassword : Bytes)
  | validateSession (token : String)
  | revokeSession (userID sessionID : UUID)
  | revokeAllSessions (userID : UUID)
  | listUserSessions (userID : UUID)
  | refreshSession (session : Session)
  | requireRecentAuth (session : Session) (maxAge : Duration)
  | reAuthenticate (session : Session) (password : Bytes) (ri : RequestInfo)
  | createMagicLinkToken (email : String) (ri : RequestInfo)
  | redeemMagicLink (rawToken nonce : String) (ri : RequestInfo)
  | createEmailVerificationToken (userID : UUID)
  | verifyEmail (rawToken : String)
  | changeEmail (userID : UUID) (newEmail : String)
  | confirmEmailChange (rawToken : String)
  | createTwoFactorToken (userID : UUID)
  | completeTwoFactor (userID : UUID) (rawToken : String) (ri : RequestInfo)
  | issueSession (auth : Authentication)
  | issueSessionUnchecked (userID : UUID) (method : AuthMethod)
  | disableUser (userID : UUID) (reason : String)
  | enableUser (userID : UUID)
  | cleanExpired
  | deleteExpiredTokens
  deriving DecidableEq, Repr

/-- What a call returns when it succeeds. -/
def Call.Ret : Call → Type
  | .register .. => User × Session × String
  | .login .. => LoginResult
  | .verifyPassword .. => User
  | .changePassword .. => Unit
  | .setInitialPassword .. => Unit
  | .createPasswordResetToken .. => String
  | .createPasswordResetTokenStrict .. => String
  | .resetPassword .. => Unit
  | .validateSession .. => Session × User
  | .revokeSession .. => Unit
  | .revokeAllSessions .. => Unit
  | .listUserSessions .. => List Session
  | .refreshSession .. => Session × String
  | .requireRecentAuth .. => Unit
  | .reAuthenticate .. => Session
  | .createMagicLinkToken .. => String × String
  | .redeemMagicLink .. => LoginResult
  | .createEmailVerificationToken .. => String
  | .verifyEmail .. => User
  | .changeEmail .. => String
  | .confirmEmailChange .. => User
  | .createTwoFactorToken .. => String
  | .completeTwoFactor .. => LoginResult
  | .issueSession .. => Session × String
  | .issueSessionUnchecked .. => Session × String
  | .disableUser .. => Unit
  | .enableUser .. => Unit
  | .cleanExpired => Unit
  | .deleteExpiredTokens => Unit

def Call.program [Platform] (cfg : Config) : (c : Call) → M c.Ret
  | .register email password ri => Service.register cfg email password ri
  | .login email password ri => Service.login cfg email password ri
  | .verifyPassword email password ri => Service.verifyPassword cfg email password ri
  | .changePassword userID oldPassword newPassword ri =>
    Service.changePassword cfg userID oldPassword newPassword ri
  | .setInitialPassword userID newPassword => Service.setInitialPassword cfg userID newPassword
  | .createPasswordResetToken email ri => Service.createPasswordResetToken cfg email ri false
  | .createPasswordResetTokenStrict email ri => Service.createPasswordResetToken cfg email ri true
  | .resetPassword rawToken newPassword => Service.resetPassword cfg rawToken newPassword
  | .validateSession token => Service.validateSession cfg token
  | .revokeSession userID sessionID => Service.revokeSession cfg userID sessionID
  | .revokeAllSessions userID => Service.revokeAllSessions cfg userID
  | .listUserSessions userID => Service.listUserSessions userID
  | .refreshSession session => Service.refreshSession cfg session
  | .requireRecentAuth session maxAge => Service.requireRecentAuth session maxAge
  | .reAuthenticate session password ri => Service.reAuthenticate cfg session password ri
  | .createMagicLinkToken email ri => Service.createMagicLinkToken cfg email ri
  | .redeemMagicLink rawToken nonce ri => Service.redeemMagicLink cfg rawToken nonce ri
  | .createEmailVerificationToken userID => Service.createEmailVerificationToken cfg userID
  | .verifyEmail rawToken => Service.verifyEmail cfg rawToken
  | .changeEmail userID newEmail => Service.changeEmail cfg userID newEmail
  | .confirmEmailChange rawToken => Service.confirmEmailChange cfg rawToken
  | .createTwoFactorToken userID => Service.createTwoFactorToken cfg userID
  | .completeTwoFactor userID rawToken ri => Service.completeTwoFactor cfg userID rawToken ri
  | .issueSession auth => Service.issueSession cfg auth
  | .issueSessionUnchecked userID method => Service.issueSessionUnchecked cfg userID method
  | .disableUser userID reason => Service.disableUser cfg userID reason
  | .enableUser userID => Service.enableUser cfg userID
  | .cleanExpired => Sessions.cleanExpired
  | .deleteExpiredTokens => Tokens.deleteExpiredTokens

/-- The package configured with `cfg`, over memory stores. -/
abbrev system [Platform] (cfg : Config) : System iface where
  World := World
  Choice := Choice
  serve := World.serve
  Call := Call
  Out := fun c => Except Err c.Ret
  body := fun c => (c.program cfg).run

/-- One served call in a run of the package. -/
abbrev Entry [Platform] (cfg : Config) : Type := (system cfg).Entry

/-- A run of the package so far. -/
abbrev Run [Platform] (cfg : Config) : Type := (system cfg).Config

/-- Empty stores, and no operation running. -/
abbrev Run.empty [Platform] (cfg : Config) : Run cfg := System.Config.start (Y := system cfg) {}

end Sulis
