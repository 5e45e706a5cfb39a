-- SUMMARY: An operation called with a token writes nothing before it has redeemed the token and found that it fits.
import Sulis.Discipline.System

/-!
# Redeeming a token

Five operations are called with a raw token. Until the token has been consumed,
was found unexpired, and fits the other arguments of the call, none of them
writes to a store, and none of them succeeds.
-/

namespace Sulis

open Interaction Interaction.Prog Interaction.System

/-- The calls that change a store. Looking a token up is not one of them, although
    it marks the token as used. -/
def Op.Writes : Op → Prop
  | .createUser _ | .updateUser _ => True
  | .createSession _ | .deleteSession .. | .deleteUserSessions _ | .cleanExpired => True
  | .updateAuthenticatedAt .. | .touchSession .. => True
  | .createToken _ | .deleteExpiredTokens | .deleteUserTokens .. => True
  | _ => False

def Op.WritesNot (op : Op) : Prop := ¬ op.Writes

variable [Platform]

/-- What an operation asks of a token besides its kind and its lifetime. -/
def Call.Fits : Call → Token → Prop
  | .completeTwoFactor userID _ _, tok => tok.userID = userID
  | .redeemMagicLink _ nonce _, tok => Service.nonceMatches tok nonce
  | _, _ => True

/-- The operation has redeemed the token it was called with, and the token fits. -/
def Admitted (call : Call) (h : Hist) : Prop :=
  ∃ purpose raw tok, call.token? = some (purpose, raw) ∧
    Redeemed h (hashToken raw) purpose tok ∧ call.Fits tok

theorem Admitted.mono {call : Call} {h h' : Hist} (ha : Admitted call h) (hs : h <:+ h') :
    Admitted call h' := by
  obtain ⟨purpose, raw, tok, hcall, hr, hfits⟩ := ha
  exact ⟨purpose, raw, tok, hcall, hr.mono hs, hfits⟩

/-- Writing takes an admitted token, for the operations that are called with one. -/
def Redeems (call : Call) (h : Hist) (op : Op) : Prop :=
  call.token? ≠ none → op.Writes → Admitted call h

/-- What issuing a magic link leaves behind: its row, with the hash of the nonce if
    there is one. -/
def LinkIssued (h : Hist) (raw nonce : String) : Prop :=
  ∃ t, Did h (.createToken t) (.ok ()) ∧ t.tokenHash = hashToken raw ∧
    (nonce ≠ "" → t.nonceHash = hashToken nonce)

theorem LinkIssued.mono {h h' : Hist} {raw nonce : String} (hl : LinkIssued h raw nonce)
    (hs : h <:+ h') : LinkIssued h' raw nonce := by
  obtain ⟨t, hd, hhash, hnonce⟩ := hl
  exact ⟨t, hd.mono hs, hhash, hnonce⟩

/-- What a success says about the token the operation was called with, or issued. -/
def Accepted : (c : Call) → Hist → c.Ret → Prop
  | .createMagicLinkToken .., h, (raw, nonce) => LinkIssued h raw nonce
  | c, h, _ => c.token? ≠ none → Admitted c h

namespace Service

variable {cfg : Config} {call : Call} {h : Hist}

/-- The rules of this module. -/
abbrev admission (cfg : Config) (call : Call) : Discipline iface :=
  ⟨(system cfg).Legal, Redeems call⟩

theorem writesNot_yields {α : Type} {p : M α} (hp : Calls Op.WritesNot p) :
    Yields (admission cfg call) p h (fun _ _ => True) :=
  (Only.yields (fun _ _ hop _ hw => absurd hw hop) hp h).mono (fun _ _ _ _ => trivial)

theorem admitted_yields {α : Type} {p : M α} (ha : Admitted call h) :
    Yields (admission cfg call) p h (fun h' _ => Admitted call h') :=
  yields_of_licensed ha (fun _ _ hs ha => ha.mono hs) (fun _ _ ha _ _ => ha)

omit [Platform] in
theorem emit_writesNot {e : SecurityEvent} : Calls Op.WritesNot (emit cfg e) :=
  emit_only id (fun _ => id)

theorem consumeToken_admission {raw : String} {purpose : TokenPurpose} :
    Yields (admission cfg call) (consumeToken raw purpose) h
      (fun h' tok => Redeemed h' (hashToken raw) purpose tok) :=
  consumeToken_redeems (fun _ hw => hw.elim) (fun _ _ hw => hw.elim)

theorem resetPassword_admitted (raw : String) (newPassword : Bytes) :
    Yields (admission cfg (.resetPassword raw newPassword)) (resetPassword cfg raw newPassword) h
      (fun h' _ => Admitted (.resetPassword raw newPassword) h') := by
  refine yields_bind (writesNot_yields (checkPasswordPolicy_only (fun _ => id))) ?_
  intro _ h₁ _ _
  refine yields_bind consumeToken_admission (fun tok h₂ _ htok => ?_)
  exact admitted_yields ⟨.passwordReset, raw, tok, rfl, htok, trivial⟩

theorem verifyEmail_admitted (raw : String) :
    Yields (admission cfg (.verifyEmail raw)) (verifyEmail cfg raw) h
      (fun h' _ => Admitted (.verifyEmail raw) h') := by
  refine yields_bind consumeToken_admission (fun tok h₁ _ htok => ?_)
  exact admitted_yields ⟨.emailVerification, raw, tok, rfl, htok, trivial⟩

theorem confirmEmailChange_admitted (raw : String) :
    Yields (admission cfg (.confirmEmailChange raw)) (confirmEmailChange cfg raw) h
      (fun h' _ => Admitted (.confirmEmailChange raw) h') := by
  refine yields_bind consumeToken_admission (fun tok h₁ _ htok => ?_)
  exact admitted_yields ⟨.emailChange, raw, tok, rfl, htok, trivial⟩

theorem redeemMagicLink_admitted (raw nonce : String) (ri : RequestInfo) :
    Yields (admission cfg (.redeemMagicLink raw nonce ri)) (redeemMagicLink cfg raw nonce ri) h
      (fun h' _ => Admitted (.redeemMagicLink raw nonce ri) h') := by
  refine yields_bind (yields_onError consumeToken_admission
    (fun _ _ _ => writesNot_yields emit_writesNot)) (fun tok h₁ _ htok => ?_)
  refine yields_ite (fun hnonce => ?_) (fun _ => ?_)
  · exact admitted_yields ⟨.magicLink, raw, tok, rfl, htok, hnonce⟩
  · exact yields_bind (writesNot_yields emit_writesNot) (fun _ _ _ _ => yields_throw)

theorem completeTwoFactor_admitted (uid : UUID) (raw : String) (ri : RequestInfo) :
    Yields (admission cfg (.completeTwoFactor uid raw ri)) (completeTwoFactor cfg uid raw ri) h
      (fun h' _ => Admitted (.completeTwoFactor uid raw ri) h') := by
  have hfailed {uid : UUID} {ri : RequestInfo} {reason : String} :
      Calls Op.WritesNot (emitSecondFactorFailed cfg uid ri reason) :=
    only_ite emit_writesNot emit_writesNot
  refine yields_bind (yields_onError consumeToken_admission
    (fun _ _ _ => writesNot_yields hfailed)) (fun tok h₁ _ htok => ?_)
  refine yields_ite (fun _ => ?_) (fun hid => ?_)
  · exact yields_bind (writesNot_yields hfailed) (fun _ _ _ _ => yields_throw)
  · exact admitted_yields ⟨.twoFactor, raw, tok, rfl, htok, not_not.mp hid⟩

/-! ## Issuing a link -/

/-- The operations that are called without a token may do what they want. -/
theorem tokenless_yields (hcall : call.token? = none) {α : Type} {p : M α} :
    Yields (admission cfg call) p h (fun _ _ => True) :=
  yields_of_licensed trivial (fun _ _ _ _ => trivial) (fun _ _ _ hne => absurd hcall hne)

theorem bindingNonce_yields (hcall : call.token? = none) :
    Yields (admission cfg call) (bindingNonce cfg) h
      (fun _ x => x.1 ≠ "" → x.2 = hashToken x.1) := by
  refine yields_ite (fun _ => ?_) (fun _ => yields_pure (fun hne => absurd rfl hne))
  exact yields_bind (tokenless_yields hcall) (fun nonce _ _ _ => yields_pure (fun _ => rfl))

theorem issueMagicLinkToken_issues (hcall : call.token? = none) {uid : UUID} {email : String} :
    Yields (admission cfg call) (issueMagicLinkToken cfg uid email) h
      (fun h' x => LinkIssued h' x.1 x.2) := by
  refine yields_bind (tokenless_yields hcall) (fun raw h₁ _ _ => ?_)
  refine yields_bind (bindingNonce_yields hcall) ?_
  rintro ⟨nonce, nonceHash⟩ h₂ _ hnonce
  refine yields_bind (tokenless_yields hcall) (fun now h₃ _ _ => ?_)
  refine yields_bind (tokenless_yields hcall) (fun id h₄ _ _ => ?_)
  refine yields_bind (R := fun h' _ => LinkIssued h' raw nonce)
    (yields_call (fun hne => absurd hcall hne) (fun r _ => yields_ret ?_)) ?_
  · rintro ⟨⟩ rfl
    exact ⟨_, did_cons_self, rfl, hnonce⟩
  · intro _ h₅ _ hl
    refine yields_bind (tokenless_yields hcall) (fun _ h₆ hs₆ _ => yields_pure ?_)
    exact hl.mono hs₆

theorem createMagicLinkToken_issues (email : String) (ri : RequestInfo) :
    Yields (admission cfg (.createMagicLinkToken email ri)) (createMagicLinkToken cfg email ri) h
      (fun h' x => LinkIssued h' x.1 x.2) := by
  refine yields_bind (tokenless_yields rfl) (fun address h₁ _ _ => ?_)
  refine yields_bind (tokenless_yields rfl) (fun _ h₂ _ _ => ?_)
  refine yields_bind (tokenless_yields rfl) (fun _ h₃ _ _ => ?_)
  refine yields_bind (tokenless_yields rfl) (fun r h₄ _ _ => ?_)
  cases r with
  | error err =>
    exact yields_ite (fun _ => issueMagicLinkToken_issues rfl) (fun _ => yields_throw)
  | ok u => exact issueMagicLinkToken_issues rfl

theorem program_admitted (call : Call) :
    Yields (admission cfg call) (call.program cfg) [] (Accepted call) := by
  cases call with
  | resetPassword raw newPassword =>
    exact (resetPassword_admitted raw newPassword).mono (fun _ _ _ ha _ => ha)
  | verifyEmail raw => exact (verifyEmail_admitted raw).mono (fun _ _ _ ha _ => ha)
  | confirmEmailChange raw =>
    exact (confirmEmailChange_admitted raw).mono (fun _ _ _ ha _ => ha)
  | redeemMagicLink raw nonce ri =>
    exact (redeemMagicLink_admitted raw nonce ri).mono (fun _ _ _ ha _ => ha)
  | completeTwoFactor uid raw ri =>
    exact (completeTwoFactor_admitted uid raw ri).mono (fun _ _ _ ha _ => ha)
  | createMagicLinkToken email ri => exact createMagicLinkToken_issues email ri
  | _ => exact (tokenless_yields rfl).mono (fun _ _ _ _ hne => absurd rfl hne)

end Service

/-- Every run keeps to these rules, under any interleaving and any faults. -/
theorem run_admission {cfg : Config} {w₀ : World} {as : List (system cfg).Action} {c : Run cfg}
    (h : (Config.start w₀).run as = some c) :
    c.Sound Redeems
      (fun (call : Call) h (out : Except Err call.Ret) => ∀ a, out = .ok a → Accepted call h a) w₀ :=
  Config.sound_start.run (fun call => (Service.program_admitted call).along) h

end Sulis
