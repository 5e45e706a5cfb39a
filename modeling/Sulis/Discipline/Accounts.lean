-- SUMMARY: The discipline of registration, password checks and everything that sets a password.
import Sulis.Discipline.Rules

/-!
# Accounts and passwords follow the discipline
-/

namespace Sulis.Service

open Interaction Interaction.Prog

variable [Platform] {cfg : Config} {call : Call} {h : Hist}

theorem hashNewPassword_yields {password : Bytes} :
    Yields (rules cfg call) (hashNewPassword cfg password) h
      (fun h' hash => Hashed cfg h' password hash) :=
  yields_bind randRead_yields (fun salt _ _ hsalt => yields_pure ⟨salt, hsalt.1 ▸ did_cons_self, rfl⟩)

theorem checkPasswordPolicy_yields {password : Bytes} :
    Yields (rules cfg call) (checkPasswordPolicy cfg password) h (fun _ _ => True) := by
  refine yields_ite (fun _ => yields_throw) (fun _ => yields_ite (fun _ => yields_throw) ?_)
  exact fun _ => onlyIf_yields (fun _ => yields_call trivial (fun _ _ => yields_ret (fun _ _ => trivial)))
    (fun _ => trivial)

/-! ## Upkeep of a checked row -/

theorem recordFailedLogin_yields {uid : UUID} {ri : RequestInfo}
    (hmay : ∀ now h', h <:+ h' → Did h' .now now →
      MayMutate cfg call h' uid (.recordFailedLogin now)) :
    Yields (rules cfg call) (recordFailedLogin cfg uid ri) h (fun _ _ => True) := by
  refine yields_bind timeNow_yields ?_
  rintro now h₁ hs₁ rfl
  refine yields_bind (Yields.attempt
    (updateUserWithRetry_yields (R := fun _ _ _ => True) (fun u h₂ hs₂ _ => ?_))) ?_
  · have hm : ∀ h', h₂ <:+ h' → MayMutate cfg call h' uid (.recordFailedLogin now) :=
      fun h' hs' => hmay now h' (hs₁.trans (hs₂.trans hs')) (did_cons_self.mono (hs₂.trans hs'))
    refine yields_ite (fun hc => yields_pure ⟨_, hm, ?_, trivial⟩)
      (fun hc => yields_pure ⟨_, hm, ?_, trivial⟩)
    · simp [Mutation.apply, User.failedOnce, hc]
    · simp [Mutation.apply, User.failedOnce, hc]
  · intro r h₃ _ _
    cases r with
    | error err => exact yields_ite (fun _ => yields_pure trivial) (fun _ => yields_throw)
    | ok x => exact onlyIf_yields (fun _ => emit_yields) (fun _ => trivial)

theorem clearFailedLogins_yields {uid : UUID} {ri : RequestInfo}
    (hmay : ∀ now h', h <:+ h' → Did h' .now now →
      MayMutate cfg call h' uid (.clearFailedLogins now)) :
    Yields (rules cfg call) (clearFailedLogins cfg uid ri) h (fun _ _ => True) := by
  refine yields_bind (Yields.attempt
    (updateUserWithRetry_yields (R := fun _ _ _ => True) (fun u h₂ hs₂ _ => ?_))) ?_
  · refine yields_bind timeNow_yields ?_
    rintro now h₃ hs₃ rfl
    exact yields_pure ⟨.clearFailedLogins now, fun h' hs' =>
      hmay now h' (hs₂.trans (hs₃.trans hs')) (did_cons_self.mono hs'), rfl, trivial⟩
  · intro r h₃ _ _
    cases r with
    | error err => exact yields_pure trivial
    | ok x => exact emit_yields

theorem rehashPassword_yields {u : User} {password : Bytes} {ri : RequestInfo}
    (hmay : ∀ newHash now h', h <:+ h' → Hashed cfg h' password newHash → Did h' .now now →
      MayMutate cfg call h' u.id (.rehash u.passwordHash newHash now)) :
    Yields (rules cfg call) (rehashPassword cfg u password ri) h (fun _ _ => True) := by
  refine yields_bind hashNewPassword_yields ?_
  intro newHash h₁ hs₁ hhash
  refine yields_bind timeNow_yields ?_
  rintro now h₂ hs₂ rfl
  refine yields_bind (Yields.attempt
    (updateUserWithRetry_yields (R := fun _ _ _ => True) (fun u' h₃ hs₃ _ => ?_))) ?_
  · refine yields_ite (fun _ => yields_throw) (fun hsame => yields_pure ?_)
    refine ⟨.rehash u.passwordHash newHash now, fun h' hs' => ?_,
      Mutation.apply_rehash.mpr ⟨not_not.mp hsame, rfl⟩, trivial⟩
    exact hmay newHash now h' (hs₁.trans (hs₂.trans (hs₃.trans hs')))
      (hhash.mono (hs₂.trans (hs₃.trans hs'))) (did_cons_self.mono (hs₃.trans hs'))
  · intro r h₃ _ _
    cases r with
    | error err => exact emit_yields
    | ok x => exact emit_yields

/-! ## Checking a password -/

theorem refuseWrongPassword_yields {u : User} {ri : RequestInfo} {Q : Hist → User → Prop}
    (hmay : ∀ now h', h <:+ h' → Did h' .now now →
      MayMutate cfg call h' u.id (.recordFailedLogin now)) :
    Yields (rules cfg call) (refuseWrongPassword cfg u ri) h Q := by
  refine yields_bind (Yields.attempt (onlyIf_yields (Q := fun _ _ => True)
    (fun _ => recordFailedLogin_yields hmay) (fun _ => trivial))) ?_
  intro r h₁ _ _
  refine yields_bind emitLoginFailedVia_yields (fun _ h₂ _ _ => ?_)
  cases r with
  | error err => exact yields_throw
  | ok x => exact yields_throw

theorem acceptPassword_yields {u : User} {password : Bytes} {legacyForm : Bool} {ri : RequestInfo}
    (hu : Compared cfg h password u true) (hclear : Cleared h)
    (hmay : ∀ h' uid m, MayUpkeep cfg password h' uid m → MayMutate cfg call h' uid m) :
    Yields (rules cfg call) (acceptPassword cfg u password legacyForm ri) h
      (fun h' u' => u' = u ∧ Read h' u ∧ Vetted h' u.id) := by
  refine yields_bind ((onlyIf_yields (Q := fun _ _ => True) (fun _ => emit_yields)
    (fun _ => trivial)).only (only_onlyIf emit_plain)) ?_
  rintro _ h₁ hs₁ ⟨hgrow₁, -⟩
  refine yields_bind ((onlyIf_yields (Q := fun _ _ => True) (fun _ => rehashPassword_yields ?_)
    (fun _ => trivial)).only (only_onlyIf rehashPassword_plain)) ?_
  · intro newHash now h' hs' hhash hnow
    exact hmay _ _ _ (.rehash (hu.mono (hs₁.trans hs')) hhash hnow)
  rintro _ h₂ hs₂ ⟨hgrow₂, -⟩
  have hread₂ : Read h₂ u := hu.1.mono (hs₁.trans hs₂)
  refine yields_bind (yields_onError (accountStatus_yields (Or.inl hread₂))
    (fun _ _ _ => emitLoginFailedVia_yields)) ?_
  rintro _ h₃ hs₃ ⟨hpass, hclear₃⟩
  refine yields_bind ((onlyIf_yields (Q := fun _ _ => True) (fun _ => clearFailedLogins_yields ?_)
    (fun _ => trivial)).only (only_onlyIf clearFailedLogins_plain)) ?_
  · intro now h' hs' hnow
    exact hmay _ _ _ (.clearFailedLogins (hu.mono (hs₁.trans (hs₂.trans (hs₃.trans hs')))) hnow)
  rintro _ h₄ hs₄ ⟨hgrow₄, -⟩
  refine yields_bind (emit_yields.only emit_plain) (fun _ h₅ hs₅ hgrow₅ => yields_pure ?_)
  refine ⟨rfl, hread₂.mono (hs₃.trans (hs₄.trans hs₅)), ?_⟩
  have hclear₂ : Cleared h₂ := (hclear.grows hgrow₁).grows hgrow₂
  exact ((hpass.vetted (hclear₃ hclear₂)).grows hgrow₄).grows hgrow₅.1

theorem verifyPassword_yields {email : String} {password : Bytes} {ri : RequestInfo}
    (hclear : Cleared h)
    (hmay : ∀ h' uid m, MayUpkeep cfg password h' uid m → MayMutate cfg call h' uid m) :
    Yields (rules cfg call) (verifyPassword cfg email password ri) h
      (fun h' u => Read h' u ∧ Vetted h' u.id) := by
  refine yields_bind liftExcept_yields ?_
  rintro address h₁ hs₁ ⟨rfl, -⟩
  refine yields_bind (allowIP_yields.only allowIP_plain) ?_
  rintro _ h₂ hs₂ ⟨hgrow₂, -⟩
  refine yields_bind (allow_yields.only allow_plain) ?_
  rintro _ h₃ hs₃ ⟨hgrow₃, -⟩
  refine yields_bind (yields_attempt getUserByEmail_along) ?_
  rintro r h₄ hs₄ ⟨rfl, hemail⟩
  have hclear₄ : Cleared (⟨.getUserByEmail address, r⟩ :: h₃) :=
    ((hclear.grows hgrow₂).grows hgrow₃).cons (fun _ => by simp)
  cases r with
  | error err =>
    refine yields_ite (fun _ => ?_) (fun _ => yields_throw)
    exact yields_bind emitLoginFailedVia_yields (fun _ _ _ _ => yields_throw)
  | ok u =>
    have hread : Read (⟨.getUserByEmail address, .ok u⟩ :: h₃) u :=
      Or.inr (by rw [hemail u rfl]; exact did_cons_self)
    refine yields_ite (fun _ => ?_) (fun _ => ?_)
    · exact yields_bind emitLoginFailedVia_yields (fun _ _ _ _ => yields_throw)
    · split
      · exact yields_throw
      · rename_i legacyForm hverify
        refine refuseWrongPassword_yields (fun now h' hs' hnow => ?_)
        exact hmay _ _ _ (.recordFailedLogin ⟨hread.mono hs', legacyForm, hverify⟩ hnow)
      · rename_i legacyForm hverify
        refine (acceptPassword_yields ⟨hread, legacyForm, hverify⟩ hclear₄ hmay).mono ?_
        rintro h' u' _ ⟨rfl, hread', hvetted⟩
        exact ⟨hread', hvetted⟩

theorem verifyPassword_follows (email : String) (password : Bytes) (ri : RequestInfo) :
    Yields (rules cfg (.verifyPassword email password ri)) (verifyPassword cfg email password ri) []
      (Outcome cfg (.verifyPassword email password ri)) :=
  (verifyPassword_yields cleared_nil (fun _ _ _ hm => .verifyPassword hm)).mono
    (fun _ _ _ hu => hu.2)

theorem login_follows (email : String) (password : Bytes) (ri : RequestInfo) :
    Yields (rules cfg (.login email password ri)) (login cfg email password ri) []
      (Outcome cfg (.login email password ri)) := by
  refine yields_bind ((verifyPassword_yields cleared_nil (fun _ _ _ hm => .login hm)).only
    verifyPassword_notFactor) ?_
  rintro u h₁ hs₁ ⟨hgrow₁, hread, hvetted⟩
  refine (completeFirstFactor_yields (by trivial) (Or.inl hread) hvetted.cleared
    (unasked_nil.grows hgrow₁)
    (fun h' _ hgate hf => .login hgate hf) (fun h' _ hgate hf => .login hgate hf)).mono ?_
  exact fun h' r _ hr => ⟨hr.1, hr.2.1⟩

theorem register_follows (email : String) (password : Bytes) (ri : RequestInfo) :
    Yields (rules cfg (.register email password ri)) (register cfg email password ri) []
      (Outcome cfg (.register email password ri)) := by
  refine yields_bind allowIP_yields (fun _ h₁ hs₁ _ => ?_)
  refine yields_bind liftExcept_yields ?_
  rintro address h₂ hs₂ ⟨rfl, hemail⟩
  refine yields_bind checkPasswordPolicy_yields (fun _ h₃ hs₃ _ => ?_)
  refine yields_bind hashNewPassword_yields (fun hash h₄ hs₄ hhash => ?_)
  refine yields_bind timeNow_yields ?_
  rintro now h₅ hs₅ rfl
  refine yields_bind newV7_yields ?_
  rintro id h₆ hs₆ rfl
  refine yields_bind (createUser_yields (.register ⟨did_cons_self, rfl, rfl, rfl⟩ hemail
    (hhash.mono (hs₅.trans hs₆)))) ?_
  rintro _ h₇ hs₇ rfl
  refine yields_bind emit_yields (fun _ h₈ hs₈ _ => ?_)
  refine yields_bind (createSession_yields (fun h' hs' =>
    .register (did_cons_self.mono (hs₈.trans hs')))) ?_
  exact fun _ _ _ _ => yields_pure trivial

/-! ## Setting a password -/

theorem setPassword_yields {uid : UUID} {newPassword : Bytes} {guard : User → Except Err Unit}
    {g : PasswordGuard} (hguard : ∀ u, guard u = g.check cfg u)
    (hmay : ∀ hash now h', h <:+ h' → Hashed cfg h' newPassword hash → Did h' .now now →
      MayMutate cfg call h' uid (.setPassword g hash now)) :
    Yields (rules cfg call) (setPassword cfg uid newPassword guard) h
      (fun h' _ => Recovered cfg h' uid) := by
  refine yields_bind hashNewPassword_yields (fun hash h₁ hs₁ hhash => ?_)
  refine yields_bind timeNow_yields ?_
  rintro now h₂ hs₂ rfl
  refine yields_bind (updateUserWithRetry_yields (R := fun _ _ _ => True) (fun u h₃ hs₃ _ => ?_)) ?_
  · refine yields_bind liftExcept_yields ?_
    rintro _ h₄ hs₄ ⟨rfl, hok⟩
    refine yields_pure ⟨.setPassword g hash now, fun h' hs' => ?_, ?_, trivial⟩
    · exact hmay hash now h' (hs₁.trans (hs₂.trans (hs₃.trans hs')))
        (hhash.mono (hs₂.trans (hs₃.trans hs'))) (did_cons_self.mono (hs₃.trans hs'))
    · exact Mutation.apply_setPassword.mpr ⟨by rw [← hguard]; exact hok, rfl⟩
  rintro ⟨u, _⟩ h₃ hs₃ ⟨hwritten, hid, -⟩
  refine yields_bind (R := fun (h' : Hist) _ =>
    cfg.revokeSessionsOnPasswordChange = true → Did h' (.deleteUserSessions u.id) (.ok ()))
    (onlyIf_yields (fun _ => ?_) (fun hc hc' => absurd hc' hc)) ?_
  · exact revokeUserSessions_yields.mono (fun _ _ _ hd _ => hd)
  intro _ h₄ hs₄ hsessions
  refine yields_bind deleteUserTokens_yields ?_
  rintro _ h₅ hs₅ rfl
  refine yields_bind deleteUserTokens_yields ?_
  rintro _ h₆ hs₆ rfl
  refine deleteUserTokens_yields.mono ?_
  rintro h₇ _ hs₇ rfl
  simp only at hid
  subst hid
  exact ⟨⟨u, rfl, hwritten.mono (hs₄.trans (hs₅.trans (hs₆.trans hs₇)))⟩,
    fun hc => (hsessions hc).mono (hs₅.trans (hs₆.trans hs₇)),
    did_cons_self.mono (hs₆.trans hs₇), did_cons_self.mono hs₇, did_cons_self⟩

theorem changePassword_follows (uid : UUID) (oldPassword newPassword : Bytes) (ri : RequestInfo) :
    Yields (rules cfg (.changePassword uid oldPassword newPassword ri))
      (changePassword cfg uid oldPassword newPassword ri) []
      (Outcome cfg (.changePassword uid oldPassword newPassword ri)) := by
  refine yields_bind checkPasswordPolicy_yields (fun _ h₁ hs₁ _ => ?_)
  refine yields_bind getUserByID_yields ?_
  rintro u h₂ hs₂ ⟨rfl, rfl⟩
  refine yields_bind allowIP_yields (fun _ h₃ hs₃ _ => ?_)
  refine yields_bind allow_yields (fun _ h₄ hs₄ _ => ?_)
  refine yields_bind (setPassword_yields (g := .oldPassword oldPassword) (fun _ => rfl)
    (fun hash now h' _ hhash hnow => .changePassword hhash hnow)) (fun _ h₅ hs₅ hrec => ?_)
  exact emit_yields.mono (fun h' _ hs' _ => hrec.mono hs')

theorem setInitialPassword_follows (uid : UUID) (newPassword : Bytes) :
    Yields (rules cfg (.setInitialPassword uid newPassword))
      (setInitialPassword cfg uid newPassword) []
      (Outcome cfg (.setInitialPassword uid newPassword)) := by
  refine yields_bind checkPasswordPolicy_yields (fun _ h₁ hs₁ _ => ?_)
  refine yields_bind (setPassword_yields (g := .passwordless) (fun _ => rfl)
    (fun hash now h' _ hhash hnow => .setInitialPassword hhash hnow)) (fun _ h₂ hs₂ hrec => ?_)
  exact emit_yields.mono (fun h' _ hs' _ => hrec.mono hs')

theorem resetPassword_follows (raw : String) (newPassword : Bytes) :
    Yields (rules cfg (.resetPassword raw newPassword)) (resetPassword cfg raw newPassword) []
      (Outcome cfg (.resetPassword raw newPassword)) := by
  refine yields_bind (checkPasswordPolicy_yields.only
    (checkPasswordPolicy_only (P := Op.NotConsume) (fun _ => trivial))) ?_
  rintro _ h₁ hs₁ ⟨hgrow₁, -⟩
  refine yields_bind (consumeToken_yields rfl (unspent_nil.grows hgrow₁)) (fun tok h₂ hs₂ htok => ?_)
  refine yields_bind (setPassword_yields (g := .unguarded) (fun _ => rfl)
    (fun hash now h' hs' hhash hnow => .resetPassword (htok.mono hs') hhash hnow))
    (fun _ h₃ hs₃ hrec => ?_)
  exact emit_yields.mono (fun h' _ hs' _ => ⟨tok, htok.mono (hs₃.trans hs'), hrec.mono hs'⟩)

/-- The two variants of a reset request differ only in what they say about an
    unknown address. -/
theorem createPasswordResetToken_yields {email : String} {ri : RequestInfo} {strict : Bool}
    (hmay : ∀ address u (h' : Hist), normalizeEmail email = .ok address →
      Did h' (.getUserByEmail address) (.ok u) → MayMint cfg call h' .passwordReset u.id "") :
    Yields (rules cfg call) (createPasswordResetToken cfg email ri strict) []
      (fun _ _ => True) := by
  refine yields_bind liftExcept_yields ?_
  rintro address h₁ hs₁ ⟨rfl, hemail⟩
  refine yields_bind allowIP_yields (fun _ h₂ hs₂ _ => ?_)
  refine yields_bind allow_yields (fun _ h₃ hs₃ _ => ?_)
  refine yields_bind (yields_attempt getUserByEmail_along) ?_
  rintro r h₄ hs₄ ⟨rfl, -⟩
  cases r with
  | error err =>
    refine yields_ite (fun _ => ?_) (fun _ => yields_throw)
    refine yields_ite (fun _ => yields_throw) (fun _ => ?_)
    exact yields_bind generateRawToken_yields (fun _ _ _ _ => yields_pure trivial)
  | ok u =>
    refine yields_bind (createTokenForUserWithEmail_yields
      (fun h' hs' => hmay address u h' hemail (did_cons_self.mono hs'))) (fun _ h₅ hs₅ _ => ?_)
    exact yields_bind emit_yields (fun _ _ _ _ => yields_pure trivial)

end Sulis.Service
