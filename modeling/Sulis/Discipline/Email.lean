-- SUMMARY: The discipline of magic links, email verification and email changes.
import Sulis.Discipline.Rules

/-!
# Mailbox operations follow the discipline
-/

namespace Sulis.Service

open Interaction Interaction.Prog

variable [Platform] {cfg : Config} {call : Call} {h : Hist}

/-! ## Email verification -/

/-- The copy a verification continues with was read by the operation, or read and
    stamped by it. -/
theorem stampEmailVerified_yields {u : User} (hu : u.emailVerifiedAt ≠ none → Read h u)
    (hmay : ∀ now h', h <:+ h' → Did h' .now now →
      MayMutate cfg call h' u.id (.stampEmailVerified now)) :
    Yields (rules cfg call) (stampEmailVerified cfg u) h
      (fun h' u' => Loaded h' u' ∧ u'.id = u.id) := by
  refine yields_ite (fun hv => yields_pure ⟨Or.inl (hu hv), rfl⟩) (fun _ => ?_)
  refine yields_bind timeNow_yields ?_
  rintro now h₁ hs₁ rfl
  refine yields_bind (Yields.attempt (updateUserWithRetry_yields
    (R := fun m _ _ => m = .stampEmailVerified now) (fun u' h₂ hs₂ _ => ?_))) ?_
  · refine yields_ite (fun _ => yields_throw) (fun hnone => yields_pure ?_)
    refine ⟨.stampEmailVerified now, fun h' hs' => ?_,
      Mutation.apply_stampEmailVerified.mpr ⟨not_not.mp hnone, rfl⟩, rfl⟩
    exact hmay now h' (hs₁.trans (hs₂.trans hs')) (did_cons_self.mono (hs₂.trans hs'))
  · intro r h₂ hs₂ hr
    cases r with
    | error err =>
      refine yields_ite (fun _ => ?_) (fun _ => yields_throw)
      refine getUserByID_yields.mono ?_
      rintro h₃ u' _ ⟨rfl, hid⟩
      exact ⟨Or.inl (Or.inl (by rw [hid]; exact did_cons_self)), hid⟩
    | ok x =>
      obtain ⟨hwritten, hid, u₀, m, hread, hid₀, -, happly, rfl⟩ := hr x rfl
      obtain ⟨-, hstamp⟩ := Mutation.apply_stampEmailVerified.mp happly
      refine yields_bind emit_yields (fun _ h₃ hs₃ _ => ?_)
      refine yields_bind (onlyIf_yields (Q := fun _ _ => True)
        (fun _ => revokeUserSessions_yields.mono (fun _ _ _ _ => trivial)) (fun _ => trivial)) ?_
      refine fun _ h₄ hs₄ _ => yields_pure ⟨Or.inr ⟨u₀, now, Or.inl ?_, hstamp⟩, hid⟩
      rw [hid₀]
      exact hread.mono (hs₃.trans hs₄)

theorem createEmailVerificationToken_follows (uid : UUID) :
    Yields (rules cfg (.createEmailVerificationToken uid)) (createEmailVerificationToken cfg uid) []
      (Outcome cfg (.createEmailVerificationToken uid)) := by
  refine yields_bind getUserByID_yields ?_
  rintro u h₁ hs₁ ⟨rfl, hid⟩
  refine (createTokenForUserWithEmail_yields (fun h' hs' => ?_)).mono (fun _ _ _ _ => trivial)
  exact .verificationToken (did_cons_self.mono hs')

theorem verifyEmail_follows (raw : String) :
    Yields (rules cfg (.verifyEmail raw)) (verifyEmail cfg raw) []
      (Outcome cfg (.verifyEmail raw)) := by
  refine yields_bind (consumeToken_yields rfl unspent_nil) (fun tok h₁ hs₁ htok => ?_)
  refine yields_bind getUserByID_yields ?_
  rintro u h₂ hs₂ ⟨rfl, hid⟩
  refine yields_ite (fun _ => yields_throw) (fun hemail => ?_)
  have hread : Read (⟨.getUserByID tok.userID, .ok u⟩ :: h₁) u :=
    Or.inl (by rw [hid]; exact did_cons_self)
  refine (stampEmailVerified_yields (fun _ => hread) (fun now h' hs' hnow => ?_)).mono ?_
  · rw [hid]
    exact .verifyEmail (htok.mono (hs₂.trans hs')) (hread.mono hs') hid (not_not.mp hemail) hnow
  · exact fun h' u' hs' hu' => ⟨tok, htok.mono (hs₂.trans hs'), hu'.2.trans hid⟩

/-! ## Magic links -/

theorem issueMagicLinkToken_yields {uid : UUID} {email : String}
    (hmay : ∀ h', h <:+ h' → MayMint cfg call h' .magicLink uid email) :
    Yields (rules cfg call) (issueMagicLinkToken cfg uid email) h (fun _ _ => True) := by
  refine yields_bind generateRawToken_yields ?_
  rintro raw h₁ hs₁ ⟨b, rfl, rfl, -⟩
  refine yields_bind (R := fun h' _ => ∃ nonce : Hist,
    h' = nonce ++ ⟨.randRead cfg.resetTokenBytes, b⟩ :: h ∧
      (nonce = [] ∨ ∃ b', nonce = [⟨.randRead magicLinkNonceBytes, b'⟩]))
    (yields_ite (fun _ => ?_) (fun _ => yields_pure ⟨[], rfl, Or.inl rfl⟩)) ?_
  · refine yields_bind generateRawToken_yields ?_
    rintro nonce h₂ hs₂ ⟨b', rfl, rfl, -⟩
    exact yields_pure ⟨[⟨.randRead magicLinkNonceBytes, b'⟩], rfl, Or.inr ⟨b', rfl⟩⟩
  rintro ⟨nonce, nonceHash⟩ h₂ hs₂ ⟨events, rfl, hevents⟩
  refine yields_bind timeNow_yields ?_
  rintro now h₃ hs₃ rfl
  refine yields_bind newV7_yields ?_
  rintro id h₄ hs₄ rfl
  refine yields_bind (createTokenRow_yields ⟨rfl, now, events, b, h, rfl, hevents, rfl⟩
    (hmay _ (hs₁.trans (hs₂.trans (hs₃.trans hs₄))))) (fun _ h₅ hs₅ _ => ?_)
  exact yields_bind emit_yields (fun _ _ _ _ => yields_pure trivial)

theorem createMagicLinkToken_follows (email : String) (ri : RequestInfo) :
    Yields (rules cfg (.createMagicLinkToken email ri)) (createMagicLinkToken cfg email ri) []
      (Outcome cfg (.createMagicLinkToken email ri)) := by
  refine yields_bind liftExcept_yields ?_
  rintro address h₁ hs₁ ⟨rfl, hemail⟩
  refine yields_bind allowIP_yields (fun _ h₂ hs₂ _ => ?_)
  refine yields_bind allow_yields (fun _ h₃ hs₃ _ => ?_)
  refine yields_bind (yields_attempt getUserByEmail_along) ?_
  rintro r h₄ hs₄ ⟨rfl, -⟩
  cases r with
  | error err =>
    refine yields_ite (fun herr => ?_) (fun _ => yields_throw)
    exact issueMagicLinkToken_yields (fun h' hs' => .unknownLink hemail (did_cons_self.mono hs') herr)
  | ok u =>
    exact issueMagicLinkToken_yields (fun h' hs' => .knownLink hemail (did_cons_self.mono hs'))

theorem getOrCreatePasswordlessUser_yields {tok : Token} (hnil : tok.userID = .nil)
    (hmay : ∀ u h', h <:+ h' → NewUser h' u → u.email = tok.email → MayCreate cfg call h' u) :
    Yields (rules cfg call) (getOrCreatePasswordlessUser tok.email) h
      (fun h' u => Resolves h' tok u ∧ (u.emailVerifiedAt ≠ none → Read h' u)) := by
  refine yields_bind (yields_attempt getUserByEmail_along) ?_
  rintro r h₁ hs₁ ⟨rfl, hemail⟩
  have found {h' : Hist} {u : User} (hu : u.email = tok.email)
      (hd : Did h' (.getUserByEmail tok.email) (.ok u)) :
      Resolves h' tok u ∧ (u.emailVerifiedAt ≠ none → Read h' u) :=
    ⟨Or.inr ⟨hnil, hu, Or.inl hd⟩, fun _ => Or.inr (by rw [hu]; exact hd)⟩
  cases r with
  | ok u => exact yields_pure (found (hemail u rfl) did_cons_self)
  | error err =>
    refine yields_ite (fun _ => ?_) (fun _ => yields_throw)
    refine yields_bind timeNow_yields ?_
    rintro now h₂ hs₂ rfl
    refine yields_bind newV7_yields ?_
    rintro id h₃ hs₃ rfl
    refine yields_bind (yields_attempt (createUser_along
      (hmay _ _ (hs₁.trans (hs₂.trans hs₃)) ⟨did_cons_self, rfl, rfl, rfl⟩ rfl))) ?_
    rintro r h₄ hs₄ rfl
    cases r with
    | ok x => exact yields_pure ⟨Or.inr ⟨hnil, rfl, Or.inr did_cons_self⟩, fun hv => absurd rfl hv⟩
    | error err =>
      refine yields_ite (fun _ => .intro (getUserByEmail_along.mono ?_)) (fun _ => yields_throw)
      rintro h₅ r hs₅ ⟨rfl, hemail'⟩ u rfl
      exact found (hemail' u rfl) did_cons_self

theorem magicLinkUser_yields {tok : Token}
    (hmay : ∀ u h', h <:+ h' → tok.userID = .nil → NewUser h' u → u.email = tok.email →
      MayCreate cfg call h' u) :
    Yields (rules cfg call) (magicLinkUser tok) h
      (fun h' u => Resolves h' tok u ∧ (u.emailVerifiedAt ≠ none → Read h' u)) := by
  refine yields_ite (fun hne => ?_) (fun hnil => ?_)
  · refine getUserByID_yields.mono ?_
    rintro h₁ u _ ⟨rfl, hid⟩
    exact ⟨Or.inl ⟨hne, did_cons_self, hid⟩, fun _ => Or.inl (by rw [hid]; exact did_cons_self)⟩
  · have hnil : tok.userID = .nil := not_not.mp hnil
    exact getOrCreatePasswordlessUser_yields hnil (fun u h' hs' => hmay u h' hs' hnil)

theorem redeemMagicLink_follows (raw nonce : String) (ri : RequestInfo) :
    Yields (rules cfg (.redeemMagicLink raw nonce ri)) (redeemMagicLink cfg raw nonce ri) []
      (Outcome cfg (.redeemMagicLink raw nonce ri)) := by
  have notFactor {h h' : Hist} (hg : Grows (S := iface) Op.Plain h h') :
      Grows (S := iface) Op.NotFactor h h' := by
    obtain ⟨new, heq, hnew⟩ := hg
    exact ⟨new, heq, fun ev hev => (hnew ev hev).notFactor⟩
  refine yields_bind ((yields_onError (consumeToken_yields rfl unspent_nil) (fun _ _ _ => emit_yields)).only
    (only_onError consumeToken_plain (fun _ => emit_plain))) ?_
  rintro tok h₁ hs₁ ⟨hgrow₁, htok⟩
  refine yields_ite (fun _ => ?_) (fun _ => yields_bind emit_yields (fun _ _ _ _ => yields_throw))
  refine yields_bind ((magicLinkUser_yields (fun u h' hs' hnil hnew hemail =>
    .redeem hnew (htok.mono hs') hnil hemail)).only magicLinkUser_plain) ?_
  rintro u h₂ hs₂ ⟨hgrow₂, hres, hread⟩
  refine yields_bind (emit_yields.only emit_plain) ?_
  rintro _ h₃ hs₃ ⟨hgrow₃, -⟩
  refine yields_bind ((stampEmailVerified_yields (fun hv => (hread hv).mono hs₃)
    (fun now h' hs' hnow => ?_)).only stampEmailVerified_plain) ?_
  · exact .redeemMagicLink (htok.mono (hs₂.trans (hs₃.trans hs'))) (hres.mono (hs₃.trans hs')) hnow
  rintro u' h₄ hs₄ ⟨hgrow₄, hloaded, hid⟩
  have hclear : Cleared h₄ :=
    (((cleared_nil.grows hgrow₁).grows hgrow₂).grows hgrow₃).grows hgrow₄
  have hask : Unasked h₄ :=
    (((unasked_nil.grows (notFactor hgrow₁)).grows (notFactor hgrow₂)).grows
      (notFactor hgrow₃)).grows (notFactor hgrow₄)
  have htok₄ : Redeemed h₄ (hashToken raw) .magicLink tok := htok.mono (hs₂.trans (hs₃.trans hs₄))
  have hres₄ : Resolves h₄ tok u := hres.mono (hs₃.trans hs₄)
  refine (completeFirstFactor_yields (by trivial) hloaded hclear hask (fun h' hs' hgate hf => ?_)
    (fun h' hs' hgate hf => ?_)).mono ?_
  · exact .redeemMagicLink hgate hf (htok₄.mono hs') (hres₄.mono hs') hid.symm
  · exact .redeemMagicLink hgate hf (htok₄.mono hs') (hres₄.mono hs') hid.symm
  · rintro h' r hs' ⟨hshape, hvetted, rfl⟩
    exact ⟨hshape, hvetted, tok, u, htok₄.mono hs', hres₄.mono hs', hid.symm⟩

/-! ## Email changes -/

theorem requireUnclaimed_yields {email : String} :
    Yields (rules cfg call) (requireUnclaimed email) h (fun _ _ => True) := by
  refine yields_bind (yields_attempt getUserByEmail_along) (fun r h' _ _ => ?_)
  cases r with
  | ok u => exact yields_throw
  | error err => exact yields_ite (fun _ => yields_pure trivial) (fun _ => yields_throw)

theorem changeEmail_follows (uid : UUID) (newEmail : String) :
    Yields (rules cfg (.changeEmail uid newEmail)) (changeEmail cfg uid newEmail) []
      (Outcome cfg (.changeEmail uid newEmail)) := by
  refine yields_bind liftExcept_yields ?_
  rintro address h₁ hs₁ ⟨rfl, hemail⟩
  refine yields_bind requireUnclaimed_yields (fun _ h₂ hs₂ _ => ?_)
  refine yields_bind timeNow_yields ?_
  rintro now h₃ hs₃ rfl
  refine yields_bind (updateUserWithRetry_yields (R := fun _ _ _ => True) (fun u h₄ hs₄ _ => ?_)) ?_
  · exact yields_pure ⟨.stageEmail address now,
      fun h' hs' => .changeEmail hemail (did_cons_self.mono (hs₄.trans hs')), rfl, trivial⟩
  intro _ h₄ hs₄ _
  refine yields_bind (createTokenForUserWithEmail_yields (fun h' hs' => .changeEmail hemail))
    (fun _ h₅ hs₅ _ => ?_)
  exact yields_bind emit_yields (fun _ _ _ _ => yields_pure trivial)

theorem confirmEmailChange_follows (raw : String) :
    Yields (rules cfg (.confirmEmailChange raw)) (confirmEmailChange cfg raw) []
      (Outcome cfg (.confirmEmailChange raw)) := by
  refine yields_bind (consumeToken_yields rfl unspent_nil) (fun tok h₁ hs₁ htok => ?_)
  refine yields_bind timeNow_yields ?_
  rintro now h₂ hs₂ rfl
  refine yields_bind (updateUserWithRetry_yields
    (R := fun m _ _ => m = .confirmEmailChange tok.email now) (fun u h₃ hs₃ _ => ?_)) ?_
  · refine yields_ite (fun _ => yields_throw) (fun heq => ?_)
    have heq : tok.email = u.pendingEmail := not_not.mp heq
    refine yields_bind requireUnclaimed_yields (fun _ h₄ hs₄ _ => yields_pure ?_)
    refine ⟨.confirmEmailChange tok.email now, fun h' hs' => ?_, ?_, rfl⟩
    · exact .confirmEmailChange (htok.mono (hs₂.trans (hs₃.trans (hs₄.trans hs'))))
        (did_cons_self.mono (hs₃.trans (hs₄.trans hs')))
    · exact Mutation.apply_confirmEmailChange.mpr ⟨heq.symm, by rw [heq]⟩
  rintro ⟨u, _⟩ h₃ hs₃ ⟨hwritten, hid, u₀, m, -, -, -, happly, rfl⟩
  obtain ⟨-, hu⟩ := Mutation.apply_confirmEmailChange.mp happly
  simp only at hid hwritten hu
  refine yields_bind revokeUserSessions_yields (fun _ h₄ hs₄ hsessions => ?_)
  refine yields_bind deleteUserTokens_yields ?_
  rintro _ h₅ hs₅ rfl
  refine yields_bind deleteUserTokens_yields ?_
  rintro _ h₆ hs₆ rfl
  refine yields_bind deleteUserTokens_yields ?_
  rintro _ h₇ hs₇ rfl
  refine yields_bind emit_yields (fun _ h₈ hs₈ _ => yields_pure ?_)
  have hs₄₈ := hs₅.trans (hs₆.trans (hs₇.trans hs₈))
  have hcommit := hwritten.mono (hs₄.trans hs₄₈)
  have hdel := hsessions.mono hs₄₈
  refine ⟨tok, htok.mono (hs₂.trans (hs₃.trans (hs₄.trans hs₄₈))), hid, by rw [hu], hcommit, ?_⟩
  rw [← hid]
  exact ⟨hdel, ⟨u, rfl, hcommit⟩, fun _ => hdel, did_cons_self.mono (hs₆.trans (hs₇.trans hs₈)),
    did_cons_self.mono (hs₇.trans hs₈), did_cons_self.mono hs₈⟩

end Sulis.Service
