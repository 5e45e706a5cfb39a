-- SUMMARY: One rule per call, and the rules for the shared machinery of the service.
import Sulis.Discipline.Footprint
import Sulis.Model.Serve

/-!
# Rules for the shared machinery

One rule for each call an operation can make, then one for each unexported
method. The operations are assembled from these; none of their proofs unfolds a
helper again.
-/

namespace Sulis.Service

open Interaction Interaction.Prog

variable [Platform] {cfg : Config} {call : Call} {h : Hist}

/-! ## Calls -/

theorem timeNow_yields : Yields (rules cfg call) timeNow h (fun h' t => h' = ⟨.now, t⟩ :: h) :=
  yields_query (rules _ _) .now trivial

theorem newV7_yields : Yields (rules cfg call) newV7 h (fun h' id => h' = ⟨.newV7, id⟩ :: h) :=
  yields_query (rules _ _) .newV7 trivial

theorem randRead_yields {n : Nat} :
    Yields (rules cfg call) (randRead n) h
      (fun h' b => h' = ⟨.randRead n, b⟩ :: h ∧ b.length = n) := by
  refine yields_lift ⟨trivial, ?_⟩
  rintro b ⟨w, ch, w', hserve⟩
  exact ⟨rfl, (World.serve_randRead hserve).1⟩

theorem markStatus_yields {u : User} (hu : Loaded h u) :
    Yields (rules cfg call) (markStatus u) h (fun h' _ => h' = ⟨.status u, ()⟩ :: h) :=
  yields_query (rules _ _) (.status u) hu

theorem liftExcept_yields {α : Type} {r : Except Err α} :
    Yields (rules cfg call) (liftExcept r) h (fun h' a => h' = h ∧ r = .ok a) :=
  yields_ret (fun _ ha => ⟨rfl, ha⟩)

theorem onlyIf_yields {c : Prop} [Decidable c] {act : M Unit} {Q : Hist → Unit → Prop}
    (hact : c → Yields (rules cfg call) act h Q) (hQ : ¬ c → Q h ()) :
    Yields (rules cfg call) (onlyIf c act) h Q :=
  yields_ite hact (fun hc => yields_pure (hQ hc))

theorem getUserByID_yields {id : UUID} :
    Yields (rules cfg call) (Users.getUserByID id) h
      (fun h' u => h' = ⟨.getUserByID id, .ok u⟩ :: h ∧ u.id = id) := by
  refine .intro ⟨trivial, ?_⟩
  rintro r ⟨w, ch, w', hserve⟩ u rfl
  exact ⟨rfl, (World.serve_getUserByID hserve).2.1⟩

theorem getUserByEmail_along {email : String} :
    (Users.getUserByEmail email).run.Along (rules cfg call)
      (fun h' r => h' = ⟨.getUserByEmail email, r⟩ :: h ∧ ∀ u, r = .ok u → u.email = email) h := by
  refine ⟨trivial, ?_⟩
  rintro r ⟨w, ch, w', hserve⟩
  refine ⟨rfl, ?_⟩
  rintro u rfl
  exact (World.serve_getUserByEmail hserve).2.1

theorem hasSecondFactor_along {uid : UUID} (hcall : call.FirstFactor) (hask : Unasked h) :
    (hasSecondFactor uid).run.Along (rules cfg call)
      (fun h' r => h' = ⟨.hasSecondFactor uid, r⟩ :: h) h :=
  ⟨⟨hcall, hask⟩, fun _ _ => rfl⟩

theorem getSessionByTokenHash_yields {hash : String} :
    Yields (rules cfg call) (Sessions.getSessionByTokenHash hash) h
      (fun h' s => h' = ⟨.getSessionByTokenHash hash, .ok s⟩ :: h) := by
  refine yields_call trivial (fun r _ => yields_ret ?_)
  rintro s rfl
  rfl

theorem deleteSession_yields {userID id : UUID} :
    Yields (rules cfg call) (Sessions.deleteSession userID id) h
      (fun h' _ => h' = ⟨.deleteSession userID id, .ok ()⟩ :: h) := by
  refine yields_call trivial (fun r _ => yields_ret ?_)
  rintro ⟨⟩ rfl
  rfl

theorem deleteUserSessions_yields {userID : UUID} :
    Yields (rules cfg call) (Sessions.deleteUserSessions userID) h
      (fun h' _ => h' = ⟨.deleteUserSessions userID, .ok ()⟩ :: h) := by
  refine yields_call trivial (fun r _ => yields_ret ?_)
  rintro ⟨⟩ rfl
  rfl

theorem deleteUserTokens_yields {userID : UUID} {purpose : TokenPurpose} :
    Yields (rules cfg call) (Tokens.deleteUserTokens userID purpose) h
      (fun h' _ => h' = ⟨.deleteUserTokens userID purpose, .ok ()⟩ :: h) := by
  refine yields_call trivial (fun r _ => yields_ret ?_)
  rintro ⟨⟩ rfl
  rfl

theorem updateAuthenticatedAt_yields {id : UUID} {at_ : Time} :
    Yields (rules cfg call) (Sessions.updateAuthenticatedAt id at_) h
      (fun h' _ => h' = ⟨.updateAuthenticatedAt id at_, .ok ()⟩ :: h) := by
  refine yields_call trivial (fun r _ => yields_ret ?_)
  rintro ⟨⟩ rfl
  rfl

theorem createUser_along {u : User} (hmay : MayCreate cfg call h u) :
    (Users.createUser u).run.Along (rules cfg call)
      (fun h' r => h' = ⟨.createUser u, r⟩ :: h) h := ⟨hmay, fun _ _ => rfl⟩

theorem createUser_yields {u : User} (hmay : MayCreate cfg call h u) :
    Yields (rules cfg call) (Users.createUser u) h
      (fun h' _ => h' = ⟨.createUser u, .ok ()⟩ :: h) := by
  refine .intro ((createUser_along hmay).mono ?_)
  rintro h' r _ rfl ⟨⟩ rfl
  rfl

theorem createSessionRow_yields {s : Session} (hnew : NewSession cfg h s)
    (hmay : MayIssue cfg call h s.userID) :
    Yields (rules cfg call) (Sessions.createSession s) h
      (fun h' _ => h' = ⟨.createSession s, .ok ()⟩ :: h) := by
  refine yields_call ⟨hnew, hmay⟩ (fun r _ => yields_ret ?_)
  rintro ⟨⟩ rfl
  rfl

theorem createTokenRow_yields {t : Token} (hnew : NewToken cfg h t)
    (hmay : MayMint cfg call h t.purpose t.userID t.email) :
    Yields (rules cfg call) (Tokens.createToken t) h
      (fun h' _ => h' = ⟨.createToken t, .ok ()⟩ :: h) := by
  refine yields_call ⟨hnew, hmay⟩ (fun r _ => yields_ret ?_)
  rintro ⟨⟩ rfl
  rfl

/-! ## Events and rate limits -/

theorem emit_yields {e : SecurityEvent} :
    Yields (rules cfg call) (emit cfg e) h (fun _ _ => True) := by
  unfold emit
  refine yields_ite (fun _ => ?_) (fun _ => yields_pure trivial)
  refine yields_bind timeNow_yields ?_
  intro t h' _ _
  exact yields_lift ⟨trivial, fun _ _ => trivial⟩

theorem emitLoginFailedVia_yields {uid : UUID} {ri : RequestInfo} {method : AuthMethod}
    {reason : String} :
    Yields (rules cfg call) (emitLoginFailedVia cfg uid ri method reason) h (fun _ _ => True) :=
  yields_ite (fun _ => emit_yields) (fun _ => emit_yields)

theorem allow_yields {key : String} {ri : RequestInfo} :
    Yields (rules cfg call) (allow cfg key ri) h (fun _ _ => True) := by
  unfold allow
  refine yields_ite (fun _ => ?_) (fun _ => yields_pure trivial)
  refine yields_bind (R := fun _ _ => True) (yields_attempt ⟨trivial, fun _ _ => trivial⟩) ?_
  intro r h' _ _
  cases r with
  | ok x => exact yields_pure trivial
  | error err => exact yields_bind emit_yields (fun _ _ _ _ => yields_throw)

theorem allowIP_yields {scope : String} {ri : RequestInfo} :
    Yields (rules cfg call) (allowIP cfg scope ri) h (fun _ _ => True) :=
  yields_ite (fun _ => yields_pure trivial) (fun _ => allow_yields)

/-! ## Users -/

/-- What a successful `updateUserWithRetry` leaves in the history: the copy it
    read, and the copy it wrote in its place. -/
structure Committed {β : Type} (cfg : Config) (call : Call) (uid : UUID)
    (R : Mutation → User → β → Prop) (h : Hist) (x : User × β) : Prop where
  written : Did h (.updateUser x.1) (.ok ())
  id : x.1.id = uid
  source : ∃ u m, Did h (.getUserByID uid) (.ok u) ∧ u.id = uid ∧ MayMutate cfg call h uid m ∧
    m.apply cfg u = .ok x.1 ∧ R m u x.2

/-- What a closure given to `updateUserWithRetry` must do with the copy it gets. -/
def Mutates {β : Type} (cfg : Config) (call : Call) (uid : UUID) (R : Mutation → User → β → Prop)
    (u : User) (h : Hist) (x : User × β) : Prop :=
  ∃ m, (∀ h', h <:+ h' → MayMutate cfg call h' uid m) ∧ m.apply cfg u = .ok x.1 ∧ R m u x.2

theorem updateUserLoop_yields {β : Type} {uid : UUID} {mutate : User → M (User × β)}
    {R : Mutation → User → β → Prop} (n : Nat) (err : Err)
    (hmutate : ∀ u h', h <:+ h' → u.id = uid →
      Yields (rules cfg call) (mutate u) h' (Mutates cfg call uid R u)) :
    Yields (rules cfg call) (updateUserLoop uid mutate n err) h (Committed cfg call uid R) := by
  induction n generalizing h err with
  | zero => exact yields_throw
  | succ n ih =>
    refine yields_bind getUserByID_yields ?_
    rintro u h₁ hs₁ ⟨rfl, hid⟩
    refine yields_bind (hmutate u _ hs₁ hid) ?_
    rintro ⟨u', b⟩ h₂ hs₂ ⟨m, hmay, happly, hR⟩
    have hread : Did h₂ (.getUserByID uid) (.ok u) := did_cons_self.mono hs₂
    have hid' : u'.id = uid := (Mutation.frame happly).id.trans hid
    have hup : Updates cfg call h₂ u' :=
      ⟨u, m, by rw [hid]; exact hread, by rw [hid]; exact hmay h₂ List.suffix_rfl, happly⟩
    refine yields_bind (yields_attempt ⟨hup, fun r _ => ?_⟩)
      (R := fun h' r => h' = ⟨.updateUser u', r⟩ :: h₂) ?_
    · exact rfl
    · rintro r h₃ hs₃ rfl
      cases r with
      | ok x =>
        refine yields_pure ⟨did_cons_self, hid', u, m, hread.mono hs₃, hid, hmay _ hs₃, happly, hR⟩
      | error e =>
        refine yields_ite (fun _ => ?_) (fun _ => yields_throw)
        exact ih e (fun u h' hs' => hmutate u h' (hs₁.trans (hs₂.trans (hs₃.trans hs'))))

theorem updateUserWithRetry_yields {β : Type} {uid : UUID} {mutate : User → M (User × β)}
    {R : Mutation → User → β → Prop}
    (hmutate : ∀ u h', h <:+ h' → u.id = uid →
      Yields (rules cfg call) (mutate u) h' (Mutates cfg call uid R u)) :
    Yields (rules cfg call) (updateUserWithRetry uid mutate) h (Committed cfg call uid R) :=
  updateUserLoop_yields _ _ hmutate

/-- Where the status check lets through, its copy passed. -/
theorem accountStatus_yields {u : User} (hu : Loaded h u) :
    Yields (rules cfg call) (accountStatus u) h
      (fun h' _ => Passed h' u ∧ (Cleared h → Cleared h')) := by
  unfold accountStatus
  refine yields_bind (markStatus_yields hu) ?_
  rintro _ h₁ hs₁ rfl
  cases hd : u.disabledAt with
  | some t => exact yields_throw
  | none =>
    cases hl : u.lockedUntil with
    | none =>
      refine yields_pure ⟨⟨⟨h, List.suffix_rfl, hu⟩, hd, ?_⟩, fun hc => hc.status hd⟩
      intro until_ h'
      rw [hl] at h'; cases h'
    | some until_ =>
      refine yields_bind timeNow_yields ?_
      rintro t h₂ hs₂ rfl
      refine yields_ite (fun _ => yields_throw) (fun hlt => yields_pure ⟨⟨⟨h, hs₂, hu⟩, hd, ?_⟩,
        fun hc => (hc.status hd).cons (fun _ => by simp)⟩)
      intro until' h'
      rw [hl] at h'; cases h'
      exact ⟨t, ⟨[], h, rfl⟩, Int.not_lt.mp hlt⟩

theorem requireVerifiedEmail_yields {u : User} :
    Yields (rules cfg call) (requireVerifiedEmail cfg u) h
      (fun h' _ => h' = h ∧ (cfg.requireVerifiedEmail = true → u.emailVerifiedAt ≠ none)) := by
  refine yields_ite (fun _ => yields_throw) (fun hc => yields_pure ⟨rfl, ?_⟩)
  intro hreq hnone
  exact hc ⟨hreq, hnone⟩

/-! ## Tokens -/

theorem generateRawToken_yields {n : Nat} :
    Yields (rules cfg call) (generateRawToken n) h
      (fun h' raw => ∃ b, h' = ⟨.randRead n, b⟩ :: h ∧ raw = hexEncodeToString b ∧ b.length = n) :=
  yields_bind randRead_yields (fun b _ _ hb => yields_pure ⟨b, hb.1, rfl, hb.2⟩)

/-- What issuing a token leaves behind. -/
def Minted (h : Hist) (raw : String) (purpose : TokenPurpose) (uid : UUID) (email : String) : Prop :=
  ∃ t, Did h (.createToken t) (.ok ()) ∧ t.purpose = purpose ∧ t.userID = uid ∧ t.email = email ∧
    t.tokenHash = hashToken raw

theorem createTokenForUserWithEmail_yields {uid : UUID} {email : String} {purpose : TokenPurpose}
    {ttl : Duration} (hmay : ∀ h', h <:+ h' → MayMint cfg call h' purpose uid email) :
    Yields (rules cfg call) (createTokenForUserWithEmail cfg uid email purpose ttl) h
      (fun h' raw => raw.length = 2 * cfg.resetTokenBytes ∧ Minted h' raw purpose uid email) := by
  unfold createTokenForUserWithEmail
  refine yields_bind generateRawToken_yields ?_
  rintro raw h₁ hs₁ ⟨b, rfl, rfl, hlen⟩
  refine yields_bind timeNow_yields ?_
  rintro now h₂ hs₂ rfl
  refine yields_bind newV7_yields ?_
  rintro id h₃ hs₃ rfl
  have hs : h <:+ _ := hs₁.trans (hs₂.trans hs₃)
  refine yields_bind (createTokenRow_yields
    ⟨rfl, now, [], b, h, rfl, Or.inl rfl, rfl⟩ (hmay _ hs)) ?_
  rintro _ h₄ hs₄ rfl
  refine yields_pure ⟨?_, _, did_cons_self, rfl, rfl, rfl, rfl⟩
  rw [length_hexEncodeToString, hlen]

/-- Under whatever rules, a token comes out of `consumeToken` redeemed. -/
theorem consumeToken_redeems {D : Discipline iface} {raw : String} {purpose : TokenPurpose}
    (hconsume : D.allows h (.consumeToken (hashToken raw) purpose))
    (hnow : ∀ r, D.allows (⟨.consumeToken (hashToken raw) purpose, r⟩ :: h) .now) :
    Yields D (consumeToken raw purpose) h
      (fun h' tok => Redeemed h' (hashToken raw) purpose tok) := by
  refine yields_bind (R := fun h' r => h' = ⟨.consumeToken (hashToken raw) purpose, r⟩ :: h)
    (yields_attempt ⟨hconsume, fun _ _ => rfl⟩) ?_
  rintro r h₁ hs₁ rfl
  cases r with
  | error err => exact yields_ite (fun _ => yields_throw) (fun _ => yields_throw)
  | ok tok =>
    refine yields_bind (R := fun (h' : Hist) t => h' = ⟨.now, t⟩ :: _)
      (yields_lift ⟨hnow _, fun _ _ => rfl⟩) ?_
    rintro now h₂ hs₂ rfl
    refine yields_ite (fun _ => yields_throw) (fun hlt => yields_pure ?_)
    exact ⟨now, ⟨[], h, rfl⟩, Int.not_lt.mp hlt⟩

theorem consumeToken_yields {raw : String} {purpose : TokenPurpose}
    (hcall : call.token? = some (purpose, raw)) (hspent : Unspent h) :
    Yields (rules cfg call) (consumeToken raw purpose) h
      (fun h' tok => Redeemed h' (hashToken raw) purpose tok) :=
  consumeToken_redeems ⟨hspent, raw, hcall, rfl⟩ (fun _ => trivial)

/-! ## Sessions -/

theorem revokeUserSessions_yields {uid : UUID} :
    Yields (rules cfg call) (revokeUserSessions cfg uid) h
      (fun h' _ => Did h' (.deleteUserSessions uid) (.ok ())) := by
  refine yields_bind deleteUserSessions_yields ?_
  rintro _ h₁ hs₁ rfl
  exact emit_yields.mono (fun h' _ hs _ => did_cons_self.mono hs)

/-- What issuing a session leaves behind. -/
def Issued (h : Hist) (s : Session) (token : String) (uid : UUID) : Prop :=
  Did h (.createSession s) (.ok ()) ∧ s.userID = uid ∧ s.tokenHash = hashSessionToken token

theorem createSession_yields {uid : UUID} {method : AuthMethod} {at_ : Time} {ri : RequestInfo}
    (hmay : ∀ h', h <:+ h' → MayIssue cfg call h' uid) :
    Yields (rules cfg call) (createSession cfg uid method at_ ri) h
      (fun h' x => Issued h' x.1 x.2 uid) := by
  unfold createSession
  refine yields_bind generateRawToken_yields ?_
  rintro raw h₁ hs₁ ⟨b, rfl, rfl, hlen⟩
  refine yields_bind timeNow_yields ?_
  rintro now h₂ hs₂ rfl
  refine yields_bind newV7_yields ?_
  rintro id h₃ hs₃ rfl
  have hs : h <:+ _ := hs₁.trans (hs₂.trans hs₃)
  refine yields_bind (createSessionRow_yields ⟨now, b, h, rfl, rfl⟩ (hmay _ hs)) ?_
  rintro _ h₄ hs₄ rfl
  refine yields_bind emit_yields (fun _ h₅ hs₅ _ => yields_pure ?_)
  exact ⟨did_cons_self.mono hs₅, rfl, rfl⟩

/-- Both outcomes of a first factor come after the gates and after the checker's
    answer. -/
theorem completeFirstFactor_yields {u : User} {method : AuthMethod} {ri : RequestInfo}
    (hcall : call.FirstFactor) (hu : Loaded h u) (hclear : Cleared h) (hask : Unasked h)
    (hissue : ∀ h', h <:+ h' → Gated cfg h' u.id → Did h' (.hasSecondFactor u.id) (.ok false) →
      MayIssue cfg call h' u.id)
    (hmint : ∀ h', h <:+ h' → Gated cfg h' u.id → Did h' (.hasSecondFactor u.id) (.ok true) →
      MayMint cfg call h' .twoFactor u.id "") :
    Yields (rules cfg call) (completeFirstFactor cfg u method ri) h
      (fun h' r => LoginShape cfg h' r ∧ Vetted h' r.user.id ∧ r.user = u) := by
  unfold completeFirstFactor
  refine yields_bind ((yields_onError (accountStatus_yields hu)
    (fun _ _ _ => emitLoginFailedVia_yields)).only (P := Op.NotFactor)
      (only_onError accountStatus_notFactor
        (fun _ => Plain.notFactor emitLoginFailedVia_plain))) ?_
  rintro _ h₁ hs₁ ⟨hgrow₁, hpass, hclear₁⟩
  refine yields_bind (yields_onError requireVerifiedEmail_yields
    (fun _ _ _ => emitLoginFailedVia_yields)) ?_
  rintro _ h₂ hs₂ ⟨rfl, hver⟩
  have hgate : Gated cfg h₂ u.id := ⟨u, rfl, hpass, hver⟩
  refine yields_bind (yields_attempt (hasSecondFactor_along hcall (hask.grows hgrow₁))) ?_
  rintro r h₃ hs₃ rfl
  have hvetted : Vetted (⟨.hasSecondFactor u.id, r⟩ :: h₂) u.id :=
    (hpass.vetted (hclear₁ hclear)).cons (fun _ => by simp)
  have hs : h <:+ ⟨.hasSecondFactor u.id, r⟩ :: h₂ := hs₁.trans hs₃
  cases r with
  | error err => exact yields_bind emitLoginFailedVia_yields (fun _ _ _ _ => yields_throw)
  | ok has =>
    cases has with
    | true =>
      refine yields_bind ((createTokenForUserWithEmail_yields (fun h' hs' => hmint h' (hs.trans hs')
        (hgate.mono (hs₃.trans hs')) (did_cons_self.mono hs'))).only createTokenForUser_plain) ?_
      rintro raw h₄ hs₄ ⟨hgrow₄, hlen, t, hd, hpurpose, huser, -, hhash⟩
      refine yields_bind (emit_yields.only emit_plain) (fun _ h₅ hs₅ hgrow₅ => yields_pure ?_)
      refine ⟨Or.inr ⟨rfl, (did_cons_self.mono hs₄).mono hs₅, rfl, rfl, hlen, t, hd.mono hs₅,
        hpurpose, huser, hhash⟩, ?_, rfl⟩
      exact (hvetted.grows hgrow₄).grows hgrow₅.1
    | false =>
      refine yields_bind timeNow_yields ?_
      rintro at_ h₄ hs₄ rfl
      refine yields_bind ((createSession_yields (fun h' hs' => hissue h' (hs.trans (hs₄.trans hs'))
        (hgate.mono (hs₃.trans (hs₄.trans hs'))) (did_cons_self.mono (hs₄.trans hs')))).only
          createSession_plain) ?_
      rintro ⟨s, token⟩ h₅ hs₅ ⟨hgrow₅, hd, huser, hhash⟩
      refine yields_pure ⟨Or.inl ⟨rfl, did_cons_self.mono (hs₄.trans hs₅), rfl, s, rfl, hd, huser,
        hhash⟩, ?_, rfl⟩
      exact (hvetted.cons (fun _ => by simp)).grows hgrow₅

end Sulis.Service
