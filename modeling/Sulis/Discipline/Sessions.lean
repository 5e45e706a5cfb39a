-- SUMMARY: The discipline of sessions, step-up, second factors and account status.
import Sulis.Discipline.Accounts

/-!
# Session operations follow the discipline
-/

namespace Sulis.Service

open Interaction Interaction.Prog

variable [Platform] {cfg : Config} {call : Call} {h : Hist}

/-! ## Account status -/

theorem disableUser_follows (uid : UUID) (reason : String) :
    Yields (rules cfg (.disableUser uid reason)) (disableUser cfg uid reason) []
      (Outcome cfg (.disableUser uid reason)) := by
  refine yields_bind timeNow_yields ?_
  rintro now h₁ hs₁ rfl
  refine yields_bind (updateUserWithRetry_yields (R := fun _ _ _ => True) (fun u h₂ hs₂ _ => ?_)) ?_
  · exact yields_pure ⟨.disable reason now,
      fun h' hs' => .disableUser (did_cons_self.mono (hs₂.trans hs')), rfl, trivial⟩
  rintro ⟨u, _⟩ h₂ hs₂ ⟨hwritten, hid, -⟩
  refine yields_bind emit_yields (fun _ h₃ hs₃ _ => ?_)
  exact revokeUserSessions_yields.mono
    (fun h' _ hs' _ => ⟨u, hid, hwritten.mono (hs₃.trans hs')⟩)

theorem enableUser_follows (uid : UUID) :
    Yields (rules cfg (.enableUser uid)) (enableUser cfg uid) []
      (Outcome cfg (.enableUser uid)) := by
  refine yields_bind (updateUserWithRetry_yields (R := fun _ _ _ => True) (fun u h₂ hs₂ _ => ?_)) ?_
  · refine yields_bind timeNow_yields ?_
    rintro now h₃ hs₃ rfl
    exact yields_pure ⟨.enable now, fun h' hs' => .enableUser (did_cons_self.mono hs'), rfl, trivial⟩
  exact fun _ _ _ _ => emit_yields.mono (fun _ _ _ _ => trivial)

/-! ## Using a session -/

theorem touch_yields {s : Session} {now : Time} :
    Yields (rules cfg call) (touch cfg s now) h (fun _ s' => s'.id = s.id) := by
  refine yields_ite (fun _ => ?_) (fun _ => yields_pure rfl)
  refine yields_bind (R := fun _ _ => True) (yields_attempt ⟨trivial, fun _ _ => trivial⟩) ?_
  intro r h' _ _
  cases r with
  | ok x => exact yields_pure rfl
  | error err => exact yields_pure rfl

theorem endSession_yields {α : Type} {kind : EventKind} {s : Session} {reason : String}
    {Q : Hist → α → Prop} : Yields (rules cfg call) (endSession cfg kind s reason) h Q := by
  refine yields_bind (Yields.attempt deleteSession_yields) (fun _ h₁ _ _ => ?_)
  exact yields_bind emit_yields (fun _ _ _ _ => yields_throw)

theorem validateSession_follows (token : String) :
    Yields (rules cfg (.validateSession token)) (validateSession cfg token) []
      (Outcome cfg (.validateSession token)) := by
  refine yields_bind getSessionByTokenHash_yields ?_
  rintro s h₁ hs₁ rfl
  refine yields_bind timeNow_yields ?_
  rintro now h₂ hs₂ rfl
  refine yields_ite (fun _ => endSession_yields) (fun _ => ?_)
  refine yields_ite (fun _ => endSession_yields) (fun _ => ?_)
  refine yields_bind getUserByID_yields ?_
  rintro u h₃ hs₃ ⟨rfl, hid⟩
  refine yields_bind (markStatus_yields (Or.inl (Or.inl (by rw [hid]; exact did_cons_self)))) ?_
  rintro _ h₄ hs₄ rfl
  refine yields_ite (fun _ => yields_throw) (fun hd => ?_)
  refine yields_bind (touch_yields.only touch_plain) ?_
  rintro s' h₅ hs₅ ⟨hgrow, hs'⟩
  refine yields_pure ⟨?_, s, (did_cons_self.mono (hs₂.trans (hs₃.trans hs₄))).mono hs₅, hs'⟩
  refine Vetted.grows ⟨⟨u, rfl, did_cons_self⟩, Cleared.status ?_ (not_not.mp hd)⟩ hgrow
  exact ((cleared_nil.cons (fun _ => by simp)).cons (fun _ => by simp)).cons (fun _ => by simp)

theorem refreshSession_follows (session : Session) :
    Yields (rules cfg (.refreshSession session)) (refreshSession cfg session) []
      (Outcome cfg (.refreshSession session)) := by
  refine yields_bind deleteSession_yields ?_
  rintro _ h₁ hs₁ rfl
  refine yields_bind getUserByID_yields ?_
  rintro u h₂ hs₂ ⟨rfl, hid⟩
  have hclear₂ : Cleared [⟨.getUserByID session.userID, .ok u⟩,
      ⟨.deleteSession session.userID session.id, .ok ()⟩] :=
    (cleared_nil.cons (fun _ => by simp)).cons (fun _ => by simp)
  refine yields_bind (accountStatus_yields (Or.inl (Or.inl (by rw [hid]; exact did_cons_self)))) ?_
  rintro _ h₃ hs₃ ⟨hpass, hclear₃⟩
  refine yields_bind requireVerifiedEmail_yields ?_
  rintro _ h₄ hs₄ ⟨rfl, hver⟩
  refine yields_bind generateRawToken_yields ?_
  rintro raw h₅ hs₅ ⟨b, rfl, rfl, -⟩
  refine yields_bind timeNow_yields ?_
  rintro now h₆ hs₆ rfl
  refine yields_bind newV7_yields ?_
  rintro id h₇ hs₇ rfl
  have hs := hs₅.trans (hs₆.trans hs₇)
  have hgate : Gated cfg h₄ session.userID := ⟨u, hid, hpass, hver⟩
  have hold : Did h₄ (.deleteSession session.userID session.id) (.ok ()) :=
    did_cons_self.mono (hs₂.trans hs₃)
  refine yields_bind (createSessionRow_yields ⟨now, b, h₄, rfl, rfl⟩
    (.refreshSession (hgate.mono hs) (hold.mono hs))) ?_
  rintro _ h₈ hs₈ rfl
  have hvetted : Vetted h₄ session.userID := hid ▸ hpass.vetted (hclear₃ hclear₂)
  refine yields_bind (emit_yields.only emit_plain) ?_
  rintro _ h₉ hs₉ ⟨hgrow, -⟩
  refine yields_pure ⟨?_, hold.mono (hs.trans (hs₈.trans hs₉)), did_cons_self.mono hs₉⟩
  refine Vetted.grows ?_ hgrow
  exact (((hvetted.cons (fun _ => by simp)).cons (fun _ => by simp)).cons
    (fun _ => by simp)).cons (fun _ => by simp)

/-! ## Step-up -/

theorem emitReauthFailed_yields {s : Session} {ri : RequestInfo} {reason : String} :
    Yields (rules cfg call) (emitReauthFailed cfg s ri reason) h (fun _ _ => True) :=
  yields_ite (fun _ => emit_yields) (fun _ => emit_yields)

theorem acceptReauth_yields {s : Session} {u : User} {password : Bytes} {legacyForm : Bool}
    {ri : RequestInfo} (hu : Compared cfg h password u true) (hvetted : Vetted h s.userID)
    (hmay : ∀ h' uid m, MayUpkeep cfg password h' uid m → MayMutate cfg call h' uid m) :
    Yields (rules cfg call) (acceptReauth cfg s u password legacyForm ri) h
      (fun h' _ => Vetted h' s.userID ∧ ∃ at_, Did h' (.updateAuthenticatedAt s.id at_) (.ok ())) := by
  refine yields_bind ((onlyIf_yields (Q := fun _ _ => True) (fun _ => emit_yields)
    (fun _ => trivial)).only (only_onlyIf emit_plain)) ?_
  rintro _ h₁ hs₁ ⟨hgrow₁, -⟩
  refine yields_bind ((onlyIf_yields (Q := fun _ _ => True) (fun _ => rehashPassword_yields ?_)
    (fun _ => trivial)).only (only_onlyIf rehashPassword_plain)) ?_
  · intro newHash now h' hs' hhash hnow
    exact hmay _ _ _ (.rehash (hu.mono (hs₁.trans hs')) hhash hnow)
  rintro _ h₂ hs₂ ⟨hgrow₂, -⟩
  refine yields_bind timeNow_yields ?_
  rintro now h₃ hs₃ rfl
  refine yields_bind updateAuthenticatedAt_yields ?_
  rintro _ h₄ hs₄ rfl
  have hvetted₃ : Vetted (⟨.now, now⟩ :: h₂) s.userID :=
    ((hvetted.grows hgrow₁).grows hgrow₂).cons (fun _ => by simp)
  have hvetted₄ : Vetted (⟨.updateAuthenticatedAt s.id now, .ok ()⟩ :: ⟨.now, now⟩ :: h₂) s.userID :=
    hvetted₃.cons (fun _ => by simp)
  refine yields_bind (emit_yields.only emit_plain) ?_
  rintro _ h₅ hs₅ ⟨hgrow₅, -⟩
  exact yields_pure ⟨hvetted₄.grows hgrow₅, now, did_cons_self.mono hs₅⟩

theorem reAuthenticate_follows (s : Session) (password : Bytes) (ri : RequestInfo) :
    Yields (rules cfg (.reAuthenticate s password ri)) (reAuthenticate cfg s password ri) []
      (Outcome cfg (.reAuthenticate s password ri)) := by
  refine yields_bind getUserByID_yields ?_
  rintro u h₁ hs₁ ⟨rfl, hid⟩
  have hread : Read [⟨.getUserByID s.userID, .ok u⟩] u := Or.inl (by rw [hid]; exact did_cons_self)
  have hclear₁ : Cleared [⟨.getUserByID s.userID, .ok u⟩] := cleared_nil.cons (fun _ => by simp)
  refine yields_bind (allowIP_yields.only allowIP_plain) ?_
  rintro _ h₂ hs₂ ⟨hgrow₂, -⟩
  refine yields_bind (allow_yields.only allow_plain) ?_
  rintro _ h₃ hs₃ ⟨hgrow₃, -⟩
  have hread₃ : Read h₃ u := hread.mono (hs₂.trans hs₃)
  refine yields_bind (yields_onError (accountStatus_yields (Or.inl hread₃))
    (fun _ _ _ => emitReauthFailed_yields)) ?_
  rintro _ h₄ hs₄ ⟨hpass, hclear₄⟩
  have hvetted := hpass.vetted (hclear₄ ((hclear₁.grows hgrow₂).grows hgrow₃))
  rw [hid] at hvetted
  refine yields_ite (fun _ => ?_) (fun _ => ?_)
  · exact yields_bind emitReauthFailed_yields (fun _ _ _ _ => yields_throw)
  · split
    · exact yields_throw
    · exact yields_bind emitReauthFailed_yields (fun _ _ _ _ => yields_throw)
    · rename_i legacyForm hverify
      exact acceptReauth_yields ⟨hread₃.mono hs₄, legacyForm, hverify⟩ hvetted
        (fun _ _ _ hm => .reAuthenticate hm)

/-! ## Second factors -/

theorem createTwoFactorToken_follows (uid : UUID) :
    Yields (rules cfg (.createTwoFactorToken uid)) (createTwoFactorToken cfg uid) []
      (Outcome cfg (.createTwoFactorToken uid)) := by
  refine yields_bind getUserByID_yields ?_
  rintro u h₁ hs₁ ⟨rfl, hid⟩
  refine yields_bind requireVerifiedEmail_yields ?_
  rintro _ h₂ hs₂ ⟨rfl, -⟩
  refine yields_bind (createTokenForUserWithEmail_yields
    (fun h' hs' => .twoFactorToken (did_cons_self.mono hs'))) (fun _ h₃ hs₃ _ => ?_)
  exact yields_bind emit_yields (fun _ _ _ _ => yields_pure trivial)

theorem emitSecondFactorFailed_yields {uid : UUID} {ri : RequestInfo} {reason : String} :
    Yields (rules cfg call) (emitSecondFactorFailed cfg uid ri reason) h (fun _ _ => True) :=
  yields_ite (fun _ => emit_yields) (fun _ => emit_yields)

theorem completeTwoFactor_follows (uid : UUID) (raw : String) (ri : RequestInfo) :
    Yields (rules cfg (.completeTwoFactor uid raw ri)) (completeTwoFactor cfg uid raw ri) []
      (Outcome cfg (.completeTwoFactor uid raw ri)) := by
  refine yields_bind ((yields_onError (consumeToken_yields rfl unspent_nil)
    (fun _ _ _ => emitSecondFactorFailed_yields)).only
      (only_onError consumeToken_plain (fun _ => emitSecondFactorFailed_plain))) ?_
  rintro tok h₁ hs₁ ⟨hgrow₁, htok⟩
  refine yields_ite (fun _ => ?_) (fun huser => ?_)
  · exact yields_bind emitSecondFactorFailed_yields (fun _ _ _ _ => yields_throw)
  have huser : tok.userID = uid := not_not.mp huser
  refine yields_bind getUserByID_yields ?_
  rintro u h₂ hs₂ ⟨rfl, hid⟩
  refine yields_bind (yields_onError
    (accountStatus_yields (Or.inl (Or.inl (by rw [hid]; exact did_cons_self))))
    (fun _ _ _ => emitSecondFactorFailed_yields)) ?_
  rintro _ h₃ hs₃ ⟨hpass, hclear₃⟩
  have hvetted := hpass.vetted (hclear₃ ((cleared_nil.grows hgrow₁).cons (fun _ => by simp)))
  refine yields_bind (yields_onError requireVerifiedEmail_yields
    (fun _ _ _ => emitSecondFactorFailed_yields)) ?_
  rintro _ h₄ hs₄ ⟨rfl, hver⟩
  refine yields_bind (emit_yields.only emit_plain) ?_
  rintro _ h₅ hs₅ ⟨hgrow₅, -⟩
  refine yields_bind timeNow_yields ?_
  rintro at_ h₆ hs₆ rfl
  have hu : u.id = uid := hid.trans huser
  have hgate : Gated cfg h₄ uid := ⟨u, hu, hpass, hver⟩
  have htok₄ : Redeemed h₄ (hashToken raw) .twoFactor tok := htok.mono (hs₂.trans hs₃)
  refine yields_bind ((createSession_yields (fun h' hs' => ?_)).only createSession_plain) ?_
  · have hs := hs₅.trans (hs₆.trans hs')
    rw [hu]
    exact .completeTwoFactor (hgate.mono hs) (htok₄.mono hs) huser
  rintro ⟨s, token⟩ h₇ hs₇ ⟨hgrow₇, -⟩
  refine yields_pure ⟨?_, hu, tok, htok₄.mono (hs₅.trans (hs₆.trans hs₇)), huser⟩
  rw [← hu]
  exact ((hvetted.grows hgrow₅).cons (fun _ => by simp)).grows hgrow₇

/-! ## Issuing a session for a proof of authentication -/

theorem issueSessionOf_yields {auth : Authentication} (hclear : Cleared h)
    (hmay : ∀ h', Gated cfg h' auth.userID → MayIssue cfg call h' auth.userID) :
    Yields (rules cfg call) (issueSessionOf cfg auth) h (fun h' _ => Vetted h' auth.userID) := by
  refine yields_bind getUserByID_yields ?_
  rintro u h₁ hs₁ ⟨rfl, hid⟩
  refine yields_bind (accountStatus_yields (Or.inl (Or.inl (by rw [hid]; exact did_cons_self)))) ?_
  rintro _ h₂ hs₂ ⟨hpass, hclear₂⟩
  refine yields_bind requireVerifiedEmail_yields ?_
  rintro _ h₃ hs₃ ⟨rfl, hver⟩
  refine ((createSession_yields (fun h' hs' => ?_)).only createSession_plain).mono ?_
  · rw [hid]
    exact hmay h' ⟨u, hid, hpass.mono hs', hver⟩
  · intro h' _ _ hx
    rw [← hid]
    exact (hpass.vetted (hclear₂ (hclear.cons (fun _ => by simp)))).grows hx.1

theorem issueSession_follows (auth : Authentication) :
    Yields (rules cfg (.issueSession auth)) (issueSession cfg auth) []
      (Outcome cfg (.issueSession auth)) :=
  yields_ite (fun _ => yields_throw)
    (fun _ => issueSessionOf_yields cleared_nil (fun _ hgate => .issueSession hgate))

theorem issueSessionUnchecked_follows (uid : UUID) (method : AuthMethod) :
    Yields (rules cfg (.issueSessionUnchecked uid method)) (issueSessionUnchecked cfg uid method) []
      (Outcome cfg (.issueSessionUnchecked uid method)) := by
  refine yields_ite (fun _ => yields_throw) (fun _ => ?_)
  refine yields_bind timeNow_yields ?_
  rintro at_ h₁ hs₁ rfl
  exact issueSessionOf_yields (cleared_nil.cons (fun _ => by simp))
    (fun _ hgate => .issueSessionUnchecked hgate)

end Sulis.Service
