-- SUMMARY: The operations that verify an address revoke the sessions of a user with a password, failing or not.
import Sulis.Discipline.System

/-!
# Revocation on verification

Each operation that can verify an address writes to the user once. If that write
went through and the user has a password, the operation goes on to revoke the
sessions before it returns, whatever it then returns.
-/

namespace Sulis

open Interaction Interaction.Prog Interaction.System

/-- The operations that verify an address. -/
def Call.Verifies : Call → Prop
  | .verifyEmail .. => True
  | .redeemMagicLink .. => True
  | .confirmEmailChange .. => True
  | _ => False

/-- After each write to a user with a password, the sessions were to be revoked. -/
def Followed (h : Hist) : Prop :=
  ∀ (h₁ : Hist) u h₂, h = h₁ ++ ⟨.updateUser u, .ok ()⟩ :: h₂ → u.passwordHash ≠ "" →
    ∃ r, Did h₁ (.deleteUserSessions u.id) r

/-- The last write to a user was that of `u`, and the ones before were followed up. -/
def Due (u : User) (h : Hist) : Prop :=
  ∃ h₀, Followed h₀ ∧ Grows (S := iface) Op.NotUpdate (⟨.updateUser u, .ok ()⟩ :: h₀) h

theorem followed_nil : Followed [] := by
  intro h₁ u h₂ heq
  simp at heq

theorem Followed.grows {h h' : Hist} (hf : Followed h)
    (hg : Grows (S := iface) Op.NotUpdate h h') : Followed h' := by
  intro h₁ u h₂ heq hpassword
  obtain ⟨mid, hh, hmid⟩ := hg.split heq id
  obtain ⟨r, hr⟩ := hf mid u h₂ hh hpassword
  exact ⟨r, hr.mono hmid⟩

theorem Followed.failed {h : Hist} (hf : Followed h) (u : User) (err : Err) :
    Followed (⟨.updateUser u, .error err⟩ :: h) := by
  intro h₁ u' h₂ heq hpassword
  cases h₁ with
  | nil => cases heq
  | cons ev h₁ =>
    cases heq
    obtain ⟨r, hr⟩ := hf h₁ u' h₂ rfl hpassword
    exact ⟨r, List.mem_cons_of_mem _ hr⟩

theorem Due.grows {u : User} {h h' : Hist} (hd : Due u h)
    (hg : Grows (S := iface) Op.NotUpdate h h') : Due u h' := by
  obtain ⟨h₀, hf, new, rfl, hnew⟩ := hd
  obtain ⟨new', rfl, hnew'⟩ := hg
  refine ⟨h₀, hf, new' ++ new, by simp, fun ev hev => ?_⟩
  exact (List.mem_append.mp hev).elim (hnew' ev) (hnew ev)

/-- What is due is settled by the call, whatever comes of it, or never was if there
    is no password. -/
theorem Due.followed {u : User} {h : Hist} (hd : Due u h)
    (hsettled : u.passwordHash ≠ "" → ∃ r h', h = ⟨.deleteUserSessions u.id, r⟩ :: h') :
    Followed h := by
  obtain ⟨h₀, hf, hg⟩ := hd
  intro h₁ u' h₂ heq hpassword
  obtain ⟨mid, hh, hmid⟩ := hg.split heq id
  cases mid with
  | nil =>
    cases hh
    obtain ⟨r, h', hcons⟩ := hsettled hpassword
    cases h₁ with
    | nil => rw [heq] at hcons; cases hcons
    | cons ev h₁ =>
      rw [heq] at hcons
      cases hcons
      exact ⟨r, by simp [Did]⟩
  | cons ev mid =>
    cases hh
    obtain ⟨r, hr⟩ := hf mid u' h₂ rfl hpassword
    exact ⟨r, hr.mono ((List.suffix_cons _ _).trans hmid)⟩

/-! ## The operations -/

namespace Service

variable {cfg : Config}

/-- Any call is allowed; only the leaves matter here. -/
abbrev free (cfg : Config) [Platform] : Discipline iface := ⟨(system cfg).Legal, fun _ _ => True⟩

variable [Platform]

theorem ends_notUpdate {α : Type} {p : M α} {h : Hist}
    (hp : Calls Op.NotUpdate p) (hf : Followed h) :
    Ends (free cfg) p h (fun h' _ => Followed h') Followed :=
  ends_only (fun _ _ _ => trivial) hp (fun _ hg => hf.grows hg)

theorem updateUser_ends {u : User} {h : Hist} (hf : Followed h) :
    Ends (free cfg) (Users.updateUser u) h (fun h' _ => Due u h') Followed := by
  refine ends_call trivial (fun r _ => ends_ret (fun x hx => ?_) (fun err herr => ?_))
  · cases hx
    exact ⟨h, hf, .refl _⟩
  · cases herr
    exact hf.failed u err

theorem updateUserWithRetry_ends {β : Type} {uid : UUID} {mutate : User → M (User × β)}
    {R : User × β → Prop} {h : Hist} (hf : Followed h)
    (hmutate : ∀ u h', Followed h' →
      Ends (free cfg) (mutate u) h' (fun h'' x => Followed h'' ∧ R x) Followed) :
    Ends (free cfg) (updateUserWithRetry uid mutate) h (fun h' x => Due x.1 h' ∧ R x) Followed := by
  have loop : ∀ n err h, Followed h → Ends (free cfg) (updateUserLoop uid mutate n err) h
      (fun h' x => Due x.1 h' ∧ R x) Followed := by
    intro n
    induction n with
    | zero => exact fun err h hf => ends_throw hf
    | succ n ih =>
      intro err h hf
      refine ends_bind (ends_notUpdate (only_request trivial) hf) ?_
      intro u h₁ hf₁
      refine ends_bind (hmutate u h₁ hf₁) ?_
      rintro ⟨u', b⟩ h₂ ⟨hf₂, hR⟩
      refine ends_bind (ends_attempt (updateUser_ends hf₂)) ?_
      intro r h₃ hr
      cases r with
      | ok x => exact ends_pure ⟨hr.1 x rfl, hR⟩
      | error e =>
        have hf₃ := hr.2 e rfl
        exact ends_ite (fun _ => ih e h₃ hf₃) (fun _ => ends_throw hf₃)
  exact loop _ _ h hf

/-- Emitting an event cannot fail, so what is due stays due. -/
theorem emit_ends {u : User} {h : Hist} {ev : SecurityEvent} (hd : Due u h) :
    Ends (free cfg) (emit cfg ev) h (fun h' _ => Due u h') Followed := by
  have hcall {h : Hist} (op : Op) (hop : op.NotUpdate) (r : op.Res) (hd : Due u h) :
      Due u (⟨op, r⟩ :: h) := hd.grows ⟨[_], rfl, by simpa using hop⟩
  refine ends_ite (fun _ => ?_) (fun _ => ends_pure hd)
  refine ends_bind (R := fun h' _ => Due u h')
    (ends_lift ⟨trivial, fun t _ => hcall .now trivial t hd⟩) ?_
  exact fun t h' hd' => ends_lift ⟨trivial, fun r _ => hcall (.emit _) trivial r hd'⟩

/-- Revoking settles what is due, also if it fails. -/
theorem revokeUserSessions_ends {u : User} {h : Hist} (hd : Due u h) :
    Ends (free cfg) (revokeUserSessions cfg u.id) h (fun h' _ => Followed h') Followed := by
  have hsettled (r : Except Err Unit) : Followed (⟨.deleteUserSessions u.id, r⟩ :: h) :=
    (hd.grows ⟨[_], rfl, by simp [Op.NotUpdate]⟩).followed (fun _ => ⟨r, h, rfl⟩)
  refine ends_bind (R := fun h' _ => Followed h') (ends_call trivial (fun r _ => ?_)) ?_
  · exact ends_ret (fun _ _ => hsettled r) (fun _ _ => hsettled r)
  · exact fun _ h' hf => ends_notUpdate (Quiet.notUpdate emit_quiet) hf

theorem stampEmailVerified_ends {u : User} {h : Hist} (hf : Followed h) :
    Ends (free cfg) (stampEmailVerified cfg u) h (fun h' _ => Followed h') Followed := by
  refine ends_ite (fun _ => ends_pure hf) (fun _ => ?_)
  refine ends_bind (ends_notUpdate (only_query trivial) hf) ?_
  intro now h₁ hf₁
  refine ends_bind (ends_attempt (updateUserWithRetry_ends
    (R := fun x => x.2 = decide (x.1.passwordHash ≠ "")) hf₁ (fun u h' hf' => ?_))) ?_
  · exact ends_ite (fun _ => ends_throw hf') (fun _ => ends_pure ⟨hf', rfl⟩)
  intro r h₂ hr
  cases r with
  | error err =>
    have hf₂ := hr.2 err rfl
    exact ends_ite (fun _ => ends_notUpdate (only_request trivial) hf₂)
      (fun _ => ends_throw hf₂)
  | ok x =>
    obtain ⟨updated, hadPassword⟩ := x
    obtain ⟨hdue, hhad⟩ := hr.1 _ rfl
    refine ends_bind (emit_ends hdue) ?_
    intro _ h₃ hdue₃
    refine ends_bind (R := fun h' _ => Followed h') (ends_ite (fun _ => ?_) (fun hno => ?_)) ?_
    · exact revokeUserSessions_ends hdue₃
    · refine ends_pure (hdue₃.followed (fun hpassword => ?_))
      exact absurd (hhad.trans (decide_eq_true hpassword)) hno
    · exact fun _ h' hf' => ends_pure hf'

omit [Platform] in
theorem requireUnclaimed_notUpdate {email : String} :
    Calls Op.NotUpdate (requireUnclaimed email) := by
  refine only_bind (only_attempt (only_request trivial)) (fun r => ?_)
  cases r with
  | ok u => exact only_throw
  | error err => exact only_ite only_pure only_throw

theorem verifyEmail_ends (raw : String) :
    Ends (free cfg) (verifyEmail cfg raw) [] (fun h' _ => Followed h') Followed := by
  refine ends_bind (ends_notUpdate (Quiet.notUpdate consumeToken_quiet) followed_nil) ?_
  intro tok h₁ hf₁
  refine ends_bind (ends_notUpdate (only_request trivial) hf₁) ?_
  intro u h₂ hf₂
  exact ends_ite (fun _ => ends_throw hf₂) (fun _ => stampEmailVerified_ends hf₂)

theorem redeemMagicLink_ends (raw nonce : String) (ri : RequestInfo) :
    Ends (free cfg) (redeemMagicLink cfg raw nonce ri) [] (fun h' _ => Followed h') Followed := by
  refine ends_bind (ends_notUpdate (only_onError (Quiet.notUpdate consumeToken_quiet)
    (fun _ => Quiet.notUpdate emit_quiet)) followed_nil) ?_
  intro tok h₁ hf₁
  refine ends_ite (fun _ => ?_) (fun _ => ?_)
  · refine ends_bind (ends_notUpdate (Quiet.notUpdate magicLinkUser_quiet) hf₁) ?_
    intro u h₂ hf₂
    refine ends_bind (ends_notUpdate (Quiet.notUpdate emit_quiet) hf₂) ?_
    intro _ h₃ hf₃
    refine ends_bind (stampEmailVerified_ends hf₃) ?_
    exact fun u' h₄ hf₄ => ends_notUpdate completeFirstFactor_notUpdate hf₄
  · refine ends_bind (ends_notUpdate (Quiet.notUpdate emit_quiet) hf₁) ?_
    exact fun _ h₂ hf₂ => ends_throw hf₂

theorem confirmEmailChange_ends (raw : String) :
    Ends (free cfg) (confirmEmailChange cfg raw) [] (fun h' _ => Followed h') Followed := by
  refine ends_bind (ends_notUpdate (Quiet.notUpdate consumeToken_quiet) followed_nil) ?_
  intro tok h₁ hf₁
  refine ends_bind (ends_notUpdate (only_query trivial) hf₁) ?_
  intro now h₂ hf₂
  refine ends_bind (updateUserWithRetry_ends (R := fun _ => True) hf₂ (fun u h' hf' => ?_)) ?_
  · refine ends_ite (fun _ => ends_throw hf') (fun _ => ?_)
    refine ends_bind (ends_notUpdate requireUnclaimed_notUpdate hf') ?_
    exact fun _ h'' hf'' => ends_pure ⟨hf'', trivial⟩
  rintro ⟨updated, x⟩ h₃ ⟨hdue, -⟩
  refine ends_bind (revokeUserSessions_ends hdue) ?_
  intro _ h₄ hf₄
  refine ends_notUpdate ?_ hf₄
  refine only_bind (only_request trivial) (fun _ => ?_)
  refine only_bind (only_request trivial) (fun _ => ?_)
  refine only_bind (only_request trivial) (fun _ => ?_)
  exact only_bind (Quiet.notUpdate emit_quiet) (fun _ => only_pure)

theorem program_ends {call : Call} (hcall : call.Verifies) :
    (call.program cfg).run.Along (free cfg) (fun h' _ => Followed h') [] := by
  cases call with
  | verifyEmail raw => exact (verifyEmail_ends raw).along
  | redeemMagicLink raw nonce ri => exact (redeemMagicLink_ends raw nonce ri).along
  | confirmEmailChange raw => exact (confirmEmailChange_ends raw).along
  | _ => exact hcall.elim

end Service

/-- Whatever an operation that verifies an address returned, its writes were
    followed up. -/
theorem run_followed [Platform] {cfg : Config} {w₀ : World} {as : List (system cfg).Action}
    {c : Run cfg} (h : (Config.start w₀).run as = some c) {i : Nat} {call : Call}
    {out : Except Err call.Ret} (hret : c.Returned i call out) (hcall : call.Verifies) :
    Followed (history i c.trace) := by
  have hsound : c.Sound (fun _ _ _ => True) (fun call h _ => Call.Verifies call → Followed h) w₀ := by
    refine Config.sound_start.run (fun call => ?_) h
    by_cases hcall : Call.Verifies call
    · refine Along.mono (Service.program_ends hcall) (fun _ _ _ hf _ => hf)
    · exact along_trivial (fun _ _ => trivial) (fun _ _ h => absurd h hcall) _
  exact hsound.returned hret hcall

end Sulis
