-- SUMMARY: Every operation follows the discipline, and so does every interleaved run of them.
import Sulis.Discipline.Email
import Sulis.Discipline.Sessions

/-!
# The system follows the discipline

The last place where programs are looked at. Everything after this module is
about traces: which calls were served, in which worlds, and why they were made.
-/

namespace Sulis

open Interaction Interaction.Prog Interaction.System

variable [Platform] {cfg : Config}

namespace Service

theorem program_follows (call : Call) :
    Yields (rules cfg call) (call.program cfg) [] (Outcome cfg call) := by
  cases call with
  | register email password ri => exact register_follows email password ri
  | login email password ri => exact login_follows email password ri
  | verifyPassword email password ri => exact verifyPassword_follows email password ri
  | changePassword uid oldPassword newPassword ri =>
    exact changePassword_follows uid oldPassword newPassword ri
  | setInitialPassword uid newPassword => exact setInitialPassword_follows uid newPassword
  | createPasswordResetToken email ri =>
    exact createPasswordResetToken_yields (fun _ _ _ hemail hu => .resetToken hemail hu)
  | createPasswordResetTokenStrict email ri =>
    exact createPasswordResetToken_yields (fun _ _ _ hemail hu => .resetTokenStrict hemail hu)
  | resetPassword raw newPassword => exact resetPassword_follows raw newPassword
  | validateSession token => exact validateSession_follows token
  | revokeSession uid sid =>
    exact yields_bind deleteSession_yields
      (fun _ _ _ _ => emit_yields.mono (fun _ _ _ _ => trivial))
  | revokeAllSessions uid => exact revokeUserSessions_yields
  | listUserSessions uid =>
    exact yields_bind (R := fun _ _ => True)
      (yields_call trivial (fun _ _ => yields_ret (fun _ _ => trivial)))
      (fun _ _ _ _ => yields_pure trivial)
  | refreshSession session => exact refreshSession_follows session
  | requireRecentAuth session maxAge =>
    exact yields_bind timeNow_yields
      (fun _ _ _ _ => yields_ite (fun _ => yields_throw) (fun _ => yields_pure trivial))
  | reAuthenticate session password ri => exact reAuthenticate_follows session password ri
  | createMagicLinkToken email ri => exact createMagicLinkToken_follows email ri
  | redeemMagicLink raw nonce ri => exact redeemMagicLink_follows raw nonce ri
  | createEmailVerificationToken uid => exact createEmailVerificationToken_follows uid
  | verifyEmail raw => exact verifyEmail_follows raw
  | changeEmail uid newEmail => exact changeEmail_follows uid newEmail
  | confirmEmailChange raw => exact confirmEmailChange_follows raw
  | createTwoFactorToken uid => exact createTwoFactorToken_follows uid
  | completeTwoFactor uid raw ri => exact completeTwoFactor_follows uid raw ri
  | issueSession auth => exact issueSession_follows auth
  | issueSessionUnchecked uid method => exact issueSessionUnchecked_follows uid method
  | disableUser uid reason => exact disableUser_follows uid reason
  | enableUser uid => exact enableUser_follows uid
  | cleanExpired => exact yields_call trivial (fun _ _ => yields_ret (fun _ _ => trivial))
  | deleteExpiredTokens => exact yields_call trivial (fun _ _ => yields_ret (fun _ _ => trivial))

end Service

/-- What a returned operation says about its history, whether it failed or not. -/
def Result (cfg : Config) (call : Call) (h : Hist) (out : Except Err call.Ret) : Prop :=
  ∀ a, out = .ok a → Outcome cfg call h a

/-- A trace in which every call was made for a reason. -/
abbrev Trace (cfg : Config) (w₀ : World) (trace : List (Entry cfg)) (w : World) : Prop :=
  Valid (Y := system cfg) (Justified cfg) w₀ trace w

/-- Every run of the package, under any interleaving and any faults, follows the
    discipline. -/
theorem run_sound {w₀ : World} {as : List (system cfg).Action} {c : Run cfg}
    (h : (Config.start w₀).run as = some c) :
    c.Sound (Justified cfg) (Result cfg) w₀ :=
  Config.sound_start.run (fun call => (Service.program_follows call).along) h

theorem run_trace_valid {w₀ : World} {as : List (system cfg).Action} {c : Run cfg}
    (h : (Config.start w₀).run as = some c) : Trace cfg w₀ c.trace c.world := (run_sound h).valid

/-- The entries of a thread that has returned are entries of its call. -/
theorem run_call {w₀ : World} {as : List (system cfg).Action} {c : Run cfg}
    (h : (Config.start w₀).run as = some c) {i : Nat} {call : Call} {out : Except Err call.Ret}
    (hret : c.Returned i call out) {e : Entry cfg} (he : e ∈ c.trace) (htid : e.tid = i) :
    e.call = call := by
  obtain ⟨t, ht, hcall⟩ := (run_sound h).owner e he
  rw [htid, hret] at ht
  cases ht
  exact hcall.symm

/-- A call that returned successfully has the history its success promises. -/
theorem run_outcome {w₀ : World} {as : List (system cfg).Action} {c : Run cfg}
    (h : (Config.start w₀).run as = some c) {i : Nat} {call : Call} {a : call.Ret}
    (hret : c.Returned i call (.ok a)) : Outcome cfg call (history i c.trace) a :=
  (run_sound h).returned hret a rfl

end Sulis
