-- SUMMARY: Without a matching password, what an operation answers is settled by its arguments and the limiter.
import Sulis.Discipline.Screening

/-!
# Answers that give nothing away

If the stores work and the password does not match, the four operations of
`Screening` answer the same whether the address has an account or not, and
whatever state the account is in.
-/

namespace Sulis

open Interaction Interaction.Prog Interaction.System

variable [Platform]

/-- The password is not that of the user, and the hash it would be compared with can
    be read. -/
def Mismatch (cfg : Config) (password : Bytes) (u : User) : Prop :=
  u.passwordHash ≠ "" →
    ∃ legacy, verifyPassword password u.passwordHash cfg.pepper = .ok (false, legacy)

/-- Answers of a store that works and holds no matching password. An update may come
    too late, or find its user gone. -/
def Unrevealing (cfg : Config) (password? : Option Bytes) : (op : Op) → op.Res → Prop
  | .getUserByID _, r => ∀ err, r = .error err → err = .userNotFound
  | .getUserByEmail _, r => (∀ err, r = .error err → err = .userNotFound) ∧
      ∀ u password, r = .ok u → password? = some password → Mismatch cfg password u
  | .updateUser _, r => ∀ err, r = .error err → err = .concurrentUpdate ∨ err = .userNotFound
  | .createToken _, r => r = .ok ()
  | _, _ => True

/-- The error of a call that the limiter let through, without a matching password. -/
def Call.verdict (call : Call) : Option Err :=
  match call.screen? with
  | none => none
  | some (_, email, _) =>
    match normalizeEmail email with
    | .error err => some err
    | .ok _ => call.password?.map (fun _ => .invalidCredentials)

namespace Service

variable {cfg : Config} {password? : Option Bytes}

/-- The error of an update that came to nothing. -/
def Missed {α : Type} (r : Except Err α) : Prop :=
  ∀ err, r = .error err → err = .concurrentUpdate ∨ err = .userNotFound

omit [Platform] in
theorem missed_ok {α : Type} {a : α} : Missed (.ok a) := by
  intro err h
  cases h

omit [Platform] in
theorem missed_error {α : Type} {err : Err} (h : err = .concurrentUpdate ∨ err = .userNotFound) :
    Missed (.error err : Except Err α) := by
  intro err' h'
  cases h'
  exact h

theorem updateUserWithRetry_missed {β : Type} {uid : UUID} {mutate : User → M (User × β)}
    (hmutate : ∀ u, (mutate u).run.Settles (S := iface) (Unrevealing cfg password?) Op.NotAllow
      Returns) :
    (updateUserWithRetry uid mutate).run.Settles (S := iface) (Unrevealing cfg password?)
      Op.NotAllow Missed := by
  have loop : ∀ n err, (err = .concurrentUpdate ∨ err = .userNotFound) →
      (updateUserLoop uid mutate n err).run.Settles (S := iface) (Unrevealing cfg password?)
        Op.NotAllow Missed := by
    intro n
    induction n with
    | zero =>
      exact fun err herr => settles_throw (missed_error herr)
    | succ n ih =>
      intro err _
      refine settles_bind (V := Missed) (settles_answer trivial (fun r hr err herr => ?_)) ?_
        (fun e he => ?_)
      · exact Or.inr (hr err herr)
      · intro u _
        refine settles_returns_bind (hmutate u) (fun x => ?_)
        refine settles_attempt_bind (V := Missed)
          (settles_answer trivial (fun r hr err herr => hr err herr)) (fun r hr => ?_)
        cases r with
        | ok y => exact settles_pure missed_ok
        | error e =>
          exact settles_ite (fun _ => ih e (hr e rfl))
            (fun _ => settles_throw (missed_error (hr e rfl)))
      · exact missed_error (he e rfl)
  exact loop _ _ (Or.inl rfl)

/-- Counting a wrong password never fails: what goes wrong is not reported. -/
theorem recordFailedLogin_settles {uid : UUID} {ri : RequestInfo} :
    (recordFailedLogin cfg uid ri).run.Settles (S := iface) (Unrevealing cfg password?)
      Op.NotAllow Returns := by
  refine settles_returns_bind timeNow_settles (fun now => ?_)
  refine settles_attempt_bind (updateUserWithRetry_missed (fun u => ?_)) (fun r hr => ?_)
  · exact settles_ite (fun _ => settles_pure (returns_ok _)) (fun _ => settles_pure (returns_ok _))
  · cases r with
    | ok x => exact settles_ite (fun _ => emit_settles) (fun _ => settles_pure (returns_ok _))
    | error err =>
      refine settles_ite (fun _ => settles_pure (returns_ok _)) (fun hnot => absurd ?_ hnot)
      rcases hr err rfl with rfl | rfl
      · exact Or.inl rfl
      · exact Or.inr rfl

/-- A wrong password is refused as such, counted or not. -/
theorem refuseWrongPassword_settles {u : User} {ri : RequestInfo} :
    (refuseWrongPassword cfg u ri).run.Settles (S := iface) (Unrevealing cfg password?)
      Op.NotAllow (fun r => errorOf r = some .invalidCredentials) := by
  refine settles_attempt_bind (V := fun r => ∃ x, r = .ok x) ?_ (fun r hr => ?_)
  · exact settles_ite (fun _ => recordFailedLogin_settles) (fun _ => settles_pure (returns_ok _))
  · obtain ⟨x, rfl⟩ := hr
    exact settles_returns_bind emitLoginFailedVia_settles (fun _ => settles_throw rfl)

theorem verifyPassword_screened (email : String) (password : Bytes) (ri : RequestInfo) :
    Results (answering (Unrevealing cfg (some password))) (verifyPassword cfg email password ri) []
      (Screened (screenKeys cfg "password:" email ri)
        (· = (Call.verifyPassword email password ri).verdict)) := by
  refine screened (fun err herr => ?_) (fun address haddress => ?_)
  · simp [Call.verdict, Call.screen?, herr]
  have hverdict : (Call.verifyPassword email password ri).verdict = some .invalidCredentials := by
    simp [Call.verdict, Call.screen?, Call.password?, haddress]
  rw [hverdict]
  refine settles_attempt_bind (V := Unrevealing cfg (some password) (.getUserByEmail address))
    (settles_answer trivial (fun r hr => hr)) (fun r hr => ?_)
  cases r with
  | error err =>
    refine settles_ite (fun _ => settles_returns_bind emitLoginFailedVia_settles (fun _ => settles_throw rfl))
      (fun hnot => absurd ?_ hnot)
    rw [hr.1 err rfl]
    rfl
  | ok u =>
    refine settles_ite (fun _ => settles_returns_bind emitLoginFailedVia_settles (fun _ => settles_throw rfl)) (fun hhash => ?_)
    obtain ⟨legacy, hmatch⟩ := hr.2 u password rfl rfl hhash
    rw [hmatch]
    exact refuseWrongPassword_settles

/-- No login gets as far as the second step. -/
theorem login_screened (email : String) (password : Bytes) (ri : RequestInfo) :
    Results (answering (Unrevealing cfg (some password))) (login cfg email password ri) []
      (Screened (screenKeys cfg "password:" email ri)
        (· = (Call.login email password ri).verdict)) := by
  have hverdict : (Call.login email password ri).verdict =
      (Call.verifyPassword email password ri).verdict := by
    simp only [Call.verdict, Call.screen?, Call.password?]
  refine results_bind (verifyPassword_screened email password ri) (fun u h' hu => ?_) ?_
  · -- A verified password would have left no error.
    rcases hu with ⟨-, hnone⟩ | ⟨_, _, _, _, _, _, hnone⟩
    · simp only [errorOf, Call.verdict, Call.screen?] at hnone
      split at hnone
      · cases hnone
      · cases hnone
    · cases hnone
  · rintro err h' hu
    rw [hverdict]
    exact hu

theorem createToken_settles {t : Token} :
    (Tokens.createToken t).run.Settles (S := iface) (Unrevealing cfg password?) Op.NotAllow Returns :=
  settles_answer trivial (fun _ hr => ⟨(), hr⟩)

theorem createTokenForUser_settles {uid : UUID} {purpose : TokenPurpose} {ttl : Duration} :
    (createTokenForUser cfg uid purpose ttl).run.Settles (S := iface) (Unrevealing cfg password?)
      Op.NotAllow Returns := by
  refine settles_returns_bind generateRawToken_settles (fun raw => ?_)
  refine settles_returns_bind timeNow_settles (fun now => ?_)
  refine settles_returns_bind newV7_settles (fun id => ?_)
  exact settles_returns_bind createToken_settles (fun _ => settles_pure (returns_ok _))

theorem createPasswordResetToken_screened (email : String) (ri : RequestInfo) :
    Results (answering (Unrevealing cfg password?)) (createPasswordResetToken cfg email ri false) []
      (Screened (screenKeys cfg "reset:" email ri)
        (· = (Call.createPasswordResetToken email ri).verdict)) := by
  refine screened (fun err herr => ?_) (fun address haddress => ?_)
  · simp [Call.verdict, Call.screen?, herr]
  have hverdict : (Call.createPasswordResetToken email ri).verdict = none := by
    simp [Call.verdict, Call.screen?, Call.password?, haddress]
  rw [hverdict]
  refine settles_attempt_bind (V := Unrevealing cfg password? (.getUserByEmail address))
    (settles_answer trivial (fun r hr => hr)) (fun r hr => ?_)
  cases r with
  | error err =>
    refine settles_ite (fun _ => ?_) (fun hnot => absurd (by rw [hr.1 err rfl]; rfl) hnot)
    refine settles_ite (fun hstrict => absurd hstrict (by simp)) (fun _ => ?_)
    exact settles_returns_bind generateRawToken_settles (fun _ => settles_pure rfl)
  | ok u =>
    exact settles_returns_bind createTokenForUser_settles
      (fun raw => settles_returns_bind emit_settles (fun _ => settles_pure rfl))

theorem issueMagicLinkToken_settles {uid : UUID} {email : String} :
    (issueMagicLinkToken cfg uid email).run.Settles (S := iface) (Unrevealing cfg password?)
      Op.NotAllow (fun r => errorOf r = none) := by
  refine settles_returns_bind generateRawToken_settles (fun raw => ?_)
  refine settles_returns_bind ?_ (fun x => ?_)
  · refine settles_ite (fun _ => ?_) (fun _ => settles_pure (returns_ok _))
    exact settles_returns_bind generateRawToken_settles (fun _ => settles_pure (returns_ok _))
  · refine settles_returns_bind timeNow_settles (fun now => ?_)
    refine settles_returns_bind newV7_settles (fun id => ?_)
    refine settles_returns_bind createToken_settles (fun _ => ?_)
    exact settles_returns_bind emit_settles (fun _ => settles_pure rfl)

theorem createMagicLinkToken_screened (email : String) (ri : RequestInfo) :
    Results (answering (Unrevealing cfg password?)) (createMagicLinkToken cfg email ri) []
      (Screened (screenKeys cfg "magic:" email ri)
        (· = (Call.createMagicLinkToken email ri).verdict)) := by
  refine screened (fun err herr => ?_) (fun address haddress => ?_)
  · simp [Call.verdict, Call.screen?, herr]
  have hverdict : (Call.createMagicLinkToken email ri).verdict = none := by
    simp [Call.verdict, Call.screen?, Call.password?, haddress]
  rw [hverdict]
  refine settles_attempt_bind (V := Unrevealing cfg password? (.getUserByEmail address))
    (settles_answer trivial (fun r hr => hr)) (fun r hr => ?_)
  cases r with
  | error err =>
    exact settles_ite (fun _ => issueMagicLinkToken_settles)
      (fun hnot => absurd (by rw [hr.1 err rfl]; rfl) hnot)
  | ok u => exact issueMagicLinkToken_settles

/-- What each of the four operations answers. -/
theorem program_screened {call : Call} (hcall : call.screen? ≠ none) :
    Results (answering (Unrevealing cfg call.password?)) (call.program cfg) []
      (Screened (call.keys cfg) (· = call.verdict)) := by
  cases call with
  | verifyPassword email password ri => exact verifyPassword_screened email password ri
  | login email password ri => exact login_screened email password ri
  | createPasswordResetToken email ri => exact createPasswordResetToken_screened email ri
  | createMagicLinkToken email ri => exact createMagicLinkToken_screened email ri
  | _ => exact absurd rfl hcall

end Service

end Sulis
