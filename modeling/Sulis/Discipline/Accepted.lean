-- SUMMARY: Once a password has matched, neither the rest of a verification nor a login refuses it as wrong.
import Sulis.Discipline.Screening
import Sulis.Model.Serve

/-!
# Passwords that matched

Only a password that does not match earns `ErrInvalidCredentials`. What follows a match
can fail, but with errors of its own.
-/

namespace Sulis

open Interaction Interaction.Prog Service

variable [Platform] {cfg : Config}

/-- Not refused as a wrong password. -/
def Believed {α : Type} (r : Except Err α) : Prop := r ≠ .error .invalidCredentials

omit [Platform] in
theorem believed_ok {α : Type} {a : α} : Believed (.ok a : Except Err α) := by
  intro h
  cases h

omit [Platform] in
theorem believed_error {α : Type} {err : Err} (h : err ≠ .invalidCredentials) :
    Believed (.error err : Except Err α) := fun heq => h (Except.error.inj heq)

section

variable {G : (op : Op) → op.Res → Prop}

omit [Platform] in
theorem believed_bind {α β : Type} {p : M α} {f : α → M β}
    (hp : p.run.Settles (S := iface) G Op.NotAllow Believed)
    (hf : ∀ a, (f a).run.Settles (S := iface) G Op.NotAllow Believed) :
    (p >>= f).run.Settles (S := iface) G Op.NotAllow Believed := by
  refine settles_bind hp (fun a _ => hf a) (fun err herr => believed_error ?_)
  rintro rfl
  exact herr rfl

omit [Platform] in
theorem accountStatus_believed {u : User} :
    (accountStatus u).run.Settles (S := iface) G Op.NotAllow Believed := by
  refine settles_returns_bind (settles_query (.status u) trivial) (fun _ => ?_)
  cases u.disabledAt with
  | some _ => exact settles_throw (believed_error (by decide))
  | none =>
    cases u.lockedUntil with
    | none => exact settles_pure believed_ok
    | some until_ =>
      refine settles_returns_bind timeNow_settles (fun now => ?_)
      exact settles_ite (fun _ => settles_throw (believed_error (by decide)))
        (fun _ => settles_pure believed_ok)

theorem rehashPassword_settles {u : User} {password : Bytes} {ri : RequestInfo} :
    (rehashPassword cfg u password ri).run.Settles (S := iface) G Op.NotAllow Returns := by
  refine settles_returns_bind (settles_returns_bind randRead_settles
    (fun _ => settles_pure (returns_ok _))) (fun newHash => ?_)
  refine settles_returns_bind timeNow_settles (fun now => ?_)
  refine settles_attempt_bind (Only.settles (updateUserWithRetry_only trivial (fun _ => trivial)
    (fun _ => only_ite only_throw only_pure))) (fun r _ => ?_)
  cases r with
  | ok x => exact emit_settles
  | error err => exact emit_settles

omit [Platform] in
theorem clearFailedLogins_settles {uid : UUID} {ri : RequestInfo} :
    (clearFailedLogins cfg uid ri).run.Settles (S := iface) G Op.NotAllow Returns := by
  refine settles_attempt_bind (Only.settles (updateUserWithRetry_only trivial (fun _ => trivial)
    (fun _ => only_bind (only_query trivial) fun _ => only_pure))) (fun r _ => ?_)
  cases r with
  | ok x => exact emit_settles
  | error err => exact settles_pure (returns_ok _)

omit [Platform] in
theorem onlyIf_settles {c : Prop} [Decidable c] {act : M Unit}
    (h : act.run.Settles (S := iface) G Op.NotAllow Returns) :
    (onlyIf c act).run.Settles (S := iface) G Op.NotAllow Returns :=
  settles_ite (fun _ => h) (fun _ => settles_pure (returns_ok _))

/-- A password that matched is not refused as wrong. -/
theorem acceptPassword_believed {u : User} {password : Bytes} {legacy : Bool} {ri : RequestInfo} :
    (acceptPassword cfg u password legacy ri).run.Settles (S := iface) G Op.NotAllow Believed := by
  refine settles_returns_bind (onlyIf_settles emit_settles) (fun _ => ?_)
  refine settles_returns_bind (onlyIf_settles rehashPassword_settles) (fun _ => ?_)
  refine believed_bind (settles_onError accountStatus_believed
    (fun _ => emitLoginFailedVia_settles)) (fun _ => ?_)
  refine settles_returns_bind (onlyIf_settles clearFailedLogins_settles) (fun _ => ?_)
  exact settles_returns_bind emit_settles (fun _ => settles_pure believed_ok)

end

/-- The stores take every row that is handed to them. -/
def Receptive : (op : Op) → op.Res → Prop
  | .createSession _, r => r = .ok ()
  | .createToken _, r => r = .ok ()
  | _, _ => True

omit [Platform] in
theorem serve_receptive {w w' : World} {op : Op} {ch : Choice} {r : op.Res} (hch : ch.fault = none)
    (h : w.serve op ch = some (r, w')) : Receptive op r := by
  cases op with
  | createSession s => exact (Prod.mk.inj (World.store_faultless hch h)).1.symm
  | createToken t => exact (Prod.mk.inj (World.store_faultless hch h)).1.symm
  | _ => trivial

theorem createSession_settles {uid : UUID} {method : AuthMethod} {at_ : Time} {ri : RequestInfo} :
    (createSession cfg uid method at_ ri).run.Settles (S := iface) Receptive Op.NotAllow Returns := by
  refine settles_returns_bind (settles_returns_bind randRead_settles
    (fun _ => settles_pure (returns_ok _))) (fun token => ?_)
  refine settles_returns_bind timeNow_settles (fun now => ?_)
  refine settles_returns_bind newV7_settles (fun id => ?_)
  refine settles_returns_bind (settles_answer trivial (fun _ hr => ⟨(), hr⟩)) (fun _ => ?_)
  exact settles_returns_bind emit_settles (fun _ => settles_pure (returns_ok _))

theorem createTokenForUser_settles {uid : UUID} {purpose : TokenPurpose} {ttl : Duration} :
    (createTokenForUser cfg uid purpose ttl).run.Settles (S := iface) Receptive Op.NotAllow
      Returns := by
  refine settles_returns_bind generateRawToken_settles (fun raw => ?_)
  refine settles_returns_bind timeNow_settles (fun now => ?_)
  refine settles_returns_bind newV7_settles (fun id => ?_)
  exact settles_returns_bind (settles_answer trivial (fun _ hr => ⟨(), hr⟩))
    (fun _ => settles_pure (returns_ok _))

theorem completeFirstFactor_believed {u : User} {method : AuthMethod} {ri : RequestInfo} :
    (completeFirstFactor cfg u method ri).run.Settles (S := iface) Receptive Op.NotAllow
      Believed := by
  refine believed_bind (settles_onError accountStatus_believed
    (fun _ => emitLoginFailedVia_settles)) (fun _ => ?_)
  refine believed_bind (settles_onError ?_ (fun _ => emitLoginFailedVia_settles)) (fun _ => ?_)
  · exact settles_ite (fun _ => settles_throw (believed_error (by decide)))
      (fun _ => settles_pure believed_ok)
  refine settles_attempt_bind (V := fun _ => True) (settles_answer trivial (fun _ _ => trivial))
    (fun r _ => ?_)
  rcases r with err | _ | _
  · refine settles_returns_bind emitLoginFailedVia_settles (fun _ => settles_throw ?_)
    exact believed_error (by simp)
  · refine settles_returns_bind timeNow_settles (fun at_ => ?_)
    exact settles_returns_bind createSession_settles (fun _ => settles_pure believed_ok)
  · refine settles_returns_bind createTokenForUser_settles (fun pending => ?_)
    exact settles_returns_bind emit_settles (fun _ => settles_pure believed_ok)

end Sulis
