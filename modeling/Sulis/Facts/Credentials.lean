-- SUMMARY: Where session and token rows come from, and why a row that is gone does not come back.
import Sulis.Discipline.System

/-!
# Session and token rows along a run

Every row goes back to the step that created it, under an ID and a random token
that were drawn for it and for nothing else. So a row that was deleted can only
come back through the thread that created it.
-/

namespace Sulis

open Interaction Interaction.System World

variable [Platform] {cfg : Config} {w₀ w w' : World} {trace later later' past past' : List (Entry cfg)}
  {g g' : Entry cfg}

/-! ## Draws -/

/-- IDs are never handed out twice. -/
def idSupply (cfg : Config) : Supply (system cfg) UUID := ⟨World.ids, drawnID?, serve_ids⟩

/-- Random strings are never handed out twice. -/
def drawSupply (cfg : Config) : Supply (system cfg) Bytes := ⟨World.draws, drawnBytes?, serve_draws⟩

/-! ## Sessions -/

/-- What is known about the step that stored a session row. -/
theorem createSession_spec (hv : Trace cfg w₀ trace w) (htrace : trace = later ++ g :: past)
    {s : Session} (hop : g.op = .createSession s) :
    NewSession cfg (history g.tid past) s ∧ MayIssue cfg g.call (history g.tid past) s.userID := by
  subst htrace
  have hallow := (Valid.entry hv).2.2.1
  rw [hop] at hallow
  exact hallow

/-- A session ID is written once. -/
theorem session_of_id (hv : Trace cfg w₀ trace w) (htrace : trace = later ++ g :: past)
    (htrace' : trace = later' ++ g' :: past') {s s' : Session} (hop : g.op = .createSession s)
    (hop' : g'.op = .createSession s') (hid : s'.id = s.id) :
    later = later' ∧ g = g' ∧ past = past' := by
  obtain ⟨⟨now, b, h₀, hh, _⟩, _⟩ := createSession_spec hv htrace hop
  obtain ⟨⟨now', b', h₀', hh', _⟩, _⟩ := createSession_spec hv htrace' hop'
  exact Valid.handed_place (idSupply cfg) hv htrace htrace'
    (show history g.tid past = [] ++ _ from hh) (show history g'.tid past' = [] ++ _ from hh') rfl
    (by rw [hid]; rfl) (by simp) (by simp)

theorem session_not_again (hv : Trace cfg w₀ (later ++ past) w) (hg : g ∈ past) (hg' : g' ∈ later)
    {s s' : Session} (hop : g.op = .createSession s) (hop' : g'.op = .createSession s') : s'.id ≠ s.id := by
  intro hid
  obtain ⟨l, p, rfl⟩ := List.append_of_mem hg
  obtain ⟨l₁, l₂, rfl⟩ := List.append_of_mem hg'
  have hplace := session_of_id hv (show _ = (l₁ ++ g' :: (l₂ ++ l)) ++ g :: p by simp)
    (show _ = l₁ ++ g' :: (l₂ ++ (l ++ g :: p)) by simp) hop hop' hid
  have := congrArg List.length hplace.1
  simp at this

/-- Every stored session was created in the run. -/
theorem session_issued (hv : Trace cfg {} trace w) {s : Session} (hs : s ∈ w.sessions) :
    ∃ later g past s₀, trace = later ++ g :: past ∧ g.op = .createSession s₀ ∧
      SameSession s₀ s := by
  induction hv generalizing s with
  | nil => exact absurd hs (Store.Table.not_mem_empty s)
  | cons e past hpast hserve hallow hcall ih =>
    rcases serve_sessions hserve s hs with hop | ⟨s₁, hs₁, hsame⟩
    · exact ⟨[], e, past, s, rfl, hop, .refl⟩
    · obtain ⟨later, g, past', s₀, rfl, hop, hsame'⟩ := ih hs₁
      exact ⟨e :: later, g, past', s₀, rfl, hop, hsame'.trans hsame⟩

/-- With a collision-free hash, sessions with one token hash are one session. -/
theorem session_of_hash (hinj : Function.Injective Platform.sha256Hex) (hv : Trace cfg w₀ trace w)
    (htrace : trace = later ++ g :: past) (htrace' : trace = later' ++ g' :: past') {s s' : Session}
    (hop : g.op = .createSession s) (hop' : g'.op = .createSession s')
    (hhash : s.tokenHash = s'.tokenHash) : s = s' := by
  obtain ⟨⟨now, b, h₀, hh, htok⟩, _⟩ := createSession_spec hv htrace hop
  obtain ⟨⟨now', b', h₀', hh', htok'⟩, _⟩ := createSession_spec hv htrace' hop'
  have hb : b = b' := hexEncodeToString_inj (hinj (htok.symm.trans (hhash.trans htok')))
  subst hb
  have notCreate {g : Entry cfg} {s : Session} (hop : g.op = .createSession s) {id : UUID}
      {now : Time} : ∀ ev ∈ ([⟨.newV7, id⟩, ⟨.now, now⟩] : Hist), ev ≠ g.event := by
    intro ev hev heq
    have : ev.1 = .createSession s := by rw [heq]; exact hop
    rcases List.mem_cons.mp hev with rfl | hev
    · cases this
    · rw [List.mem_singleton.mp hev] at this; cases this
  obtain ⟨_, rfl, _⟩ := Valid.handed_place (drawSupply cfg) hv htrace htrace'
    (show history g.tid past = [⟨.newV7, s.id⟩, ⟨.now, now⟩] ++ _ from hh)
    (show history g'.tid past' = [⟨.newV7, s'.id⟩, ⟨.now, now'⟩] ++ _ from hh')
    rfl rfl (notCreate hop') (notCreate hop)
  rw [hop] at hop'
  cases hop'
  rfl

/-- A session that is gone stays gone unless it is created again. -/
theorem session_gone (hpast : Trace cfg w₀ past w') (hv : Trace cfg w₀ (later ++ past) w) {id : UUID}
    (hgone : ∀ s ∈ w'.sessions, s.id ≠ id)
    (hnew : ∀ e ∈ later, ∀ s, e.op = .createSession s → s.id ≠ id) :
    ∀ s ∈ w.sessions, s.id ≠ id := by
  refine Valid.world_induction (P := fun w : World => ∀ s ∈ w.sessions, s.id ≠ id) hpast hv hgone ?_
  intro l₁ l₂ e hlater _ hserve _ hpre s hs
  rcases serve_sessions hserve s hs with hop | ⟨s₀, hs₀, hsame⟩
  · exact hnew e (by rw [hlater]; simp) s hop
  · rw [hsame.id]; exact hpre s₀ hs₀

/-- A session that was there when the sessions of its user were revoked is gone. -/
theorem session_swept (hv : Trace cfg {} (later ++ g' :: past) w) {uid : UUID}
    (hsweep : g'.event = ⟨.deleteUserSessions uid, .ok ()⟩) (hg : g ∈ past) {s : Session}
    (hop : g.op = .createSession s) (huser : s.userID = uid) : ∀ row ∈ w.sessions, row.id ≠ s.id := by
  obtain ⟨-, hserve, -⟩ := Valid.entry hv
  have hpost : Trace cfg {} (g' :: past) g'.post := Valid.upto hv
  have hgone : ∀ row ∈ g'.post.sessions, row.userID ≠ uid :=
    serve_deleteUserSessions (Entry.served hsweep hserve)
  obtain ⟨l, p, rfl⟩ := List.append_of_mem hg
  refine session_gone hpost hv (fun row hrow hid => ?_) (fun e he s' hop' hid => ?_)
  · -- A row with this ID would be this session's, and belong to the user.
    obtain ⟨l', k, p', s₀, htrace, hop₀, hsame⟩ := session_issued hpost hrow
    obtain ⟨-, rfl, -⟩ := session_of_id hpost (show _ = (g' :: l) ++ g :: p from rfl) htrace hop hop₀
      (hsame.id.symm.trans hid)
    rw [hop] at hop₀
    cases hop₀
    exact hgone row hrow (hsame.userID.trans huser)
  · exact session_not_again hv (List.mem_cons_of_mem g' hg) he hop hop' hid

/-- The step that rotated a session out found its row and removed it. -/
theorem refreshed_row (hv : Trace cfg w₀ trace w) (htrace : trace = later ++ g :: past)
    {s old : Session} (hop : g.op = .createSession s) (hcall : g.call = .refreshSession old) :
    ∃ k ∈ past, k.tid = g.tid ∧ k.event = ⟨.deleteSession old.userID old.id, .ok ()⟩ ∧
      (∃ row ∈ k.pre.sessions, row.id = old.id ∧ row.userID = s.userID) ∧
      ∀ row ∈ k.post.sessions, row.id ≠ old.id := by
  obtain ⟨_, hmay⟩ := createSession_spec hv htrace hop
  subst htrace
  have hpast := (Valid.entry hv).1
  rw [hcall] at hmay
  generalize hs : s.userID = user at hmay
  cases hmay with
  | refreshSession hgate hold =>
    obtain ⟨k, hk, htid, hev⟩ := mem_history.mp hold
    obtain ⟨hrow, hgone⟩ := World.serve_deleteSession (hpast.served hk hev)
    exact ⟨k, hk, htid, hev, hrow, hgone⟩

/-! ## Tokens -/

/-- What is known about the step that stored a token row. -/
theorem createToken_spec (hv : Trace cfg w₀ trace w) (htrace : trace = later ++ g :: past)
    {t : Token} (hop : g.op = .createToken t) :
    NewToken cfg (history g.tid past) t ∧
      MayMint cfg g.call (history g.tid past) t.purpose t.userID t.email := by
  subst htrace
  have hallow := (Valid.entry hv).2.2.1
  rw [hop] at hallow
  exact hallow

section

variable {call : Call} {h : Hist} {uid : UUID} {email : String}

theorem MayMint.emailChange (hmay : MayMint cfg call h .emailChange uid email) :
    ∃ newEmail, call = .changeEmail uid newEmail ∧ normalizeEmail newEmail = .ok email := by
  cases hmay with
  | changeEmail hemail => exact ⟨_, rfl, hemail⟩

/-- A magic link names the account that held the address it was asked for, or the
    address itself if there was none. -/
theorem MayMint.magicLink (hmay : MayMint cfg call h .magicLink uid email) :
    ∃ asked ri address, call = .createMagicLinkToken asked ri ∧
      normalizeEmail asked = .ok address ∧
      ((∃ u, Did h (.getUserByEmail address) (.ok u) ∧ u.id = uid ∧ email = "") ∨
        ∃ err, Did h (.getUserByEmail address) (.error err) ∧ err.is .userNotFound = true ∧
          uid = .nil ∧ email = address) := by
  cases hmay with
  | knownLink hemail hu => exact ⟨_, _, _, rfl, hemail, Or.inl ⟨_, hu, rfl, rfl⟩⟩
  | unknownLink hemail hu herr => exact ⟨_, _, _, rfl, hemail, Or.inr ⟨_, hu, herr, rfl, rfl⟩⟩

end

/-- A token ID is written once. -/
theorem token_of_id (hv : Trace cfg w₀ trace w) (htrace : trace = later ++ g :: past)
    (htrace' : trace = later' ++ g' :: past') {t t' : Token} (hop : g.op = .createToken t)
    (hop' : g'.op = .createToken t') (hid : t'.id = t.id) :
    later = later' ∧ g = g' ∧ past = past' := by
  obtain ⟨⟨_, now, nonce, b, h₀, hh, _⟩, _⟩ := createToken_spec hv htrace hop
  obtain ⟨⟨_, now', nonce', b', h₀', hh', _⟩, _⟩ := createToken_spec hv htrace' hop'
  exact Valid.handed_place (idSupply cfg) hv htrace htrace'
    (show history g.tid past = [] ++ _ from hh) (show history g'.tid past' = [] ++ _ from hh') rfl
    (by rw [hid]; rfl) (by simp) (by simp)

theorem token_not_again (hv : Trace cfg w₀ (later ++ past) w) (hg : g ∈ past) (hg' : g' ∈ later)
    {t t' : Token} (hop : g.op = .createToken t) (hop' : g'.op = .createToken t') : t'.id ≠ t.id := by
  intro hid
  obtain ⟨l, p, rfl⟩ := List.append_of_mem hg
  obtain ⟨l₁, l₂, rfl⟩ := List.append_of_mem hg'
  have hplace := token_of_id hv (show _ = (l₁ ++ g' :: (l₂ ++ l)) ++ g :: p by simp)
    (show _ = l₁ ++ g' :: (l₂ ++ (l ++ g :: p)) by simp) hop hop' hid
  have := congrArg List.length hplace.1
  simp at this

/-- Every stored token was created in the run. -/
theorem token_issued (hv : Trace cfg {} trace w) {t : Token} (ht : t ∈ w.tokens) :
    ∃ later g past t₀, trace = later ++ g :: past ∧ g.op = .createToken t₀ ∧ SameToken t₀ t := by
  induction hv generalizing t with
  | nil => exact absurd ht (Store.Table.not_mem_empty t)
  | cons e past hpast hserve hallow hcall ih =>
    rcases serve_tokens hserve t ht with hop | ⟨t₁, ht₁, hsame, -⟩
    · exact ⟨[], e, past, t, rfl, hop, rfl⟩
    · obtain ⟨later, g, past', t₀, rfl, hop, hsame'⟩ := ih ht₁
      exact ⟨e :: later, g, past', t₀, rfl, hop, hsame'.trans hsame⟩

/-- With a collision-free hash, tokens with one hash are one token. -/
theorem token_of_hash (hinj : Function.Injective Platform.sha256Hex) (hv : Trace cfg w₀ trace w)
    (htrace : trace = later ++ g :: past) (htrace' : trace = later' ++ g' :: past') {t t' : Token}
    (hop : g.op = .createToken t) (hop' : g'.op = .createToken t')
    (hhash : t.tokenHash = t'.tokenHash) : t = t' := by
  obtain ⟨⟨_, now, nonce, b, h₀, hh, hnonce, htok⟩, _⟩ := createToken_spec hv htrace hop
  obtain ⟨⟨_, now', nonce', b', h₀', hh', hnonce', htok'⟩, _⟩ := createToken_spec hv htrace' hop'
  have hb : b = b' := hexEncodeToString_inj (hinj (htok.symm.trans (hhash.trans htok')))
  subst hb
  have notCreate {g : Entry cfg} {t : Token} (hop : g.op = .createToken t) {id : UUID}
      {now : Time} {nonce : Hist}
      (hnonce : nonce = [] ∨ ∃ b, nonce = [⟨.randRead Service.magicLinkNonceBytes, b⟩]) :
      ∀ ev ∈ ((⟨.newV7, id⟩ :: ⟨.now, now⟩ :: nonce) : Hist), ev ≠ g.event := by
    intro ev hev heq
    have : ev.1 = .createToken t := by rw [heq]; exact hop
    rcases List.mem_cons.mp hev with rfl | hev
    · cases this
    · rcases List.mem_cons.mp hev with rfl | hev
      · cases this
      · rcases hnonce with rfl | ⟨b, rfl⟩
        · cases hev
        · rw [List.mem_singleton.mp hev] at this; cases this
  obtain ⟨_, rfl, _⟩ := Valid.handed_place (drawSupply cfg) hv htrace htrace'
    (show history g.tid past = (⟨.newV7, t.id⟩ :: ⟨.now, now⟩ :: nonce) ++ _ from hh)
    (show history g'.tid past' = (⟨.newV7, t'.id⟩ :: ⟨.now, now'⟩ :: nonce') ++ _ from hh')
    rfl rfl (notCreate hop' hnonce) (notCreate hop hnonce')
  rw [hop] at hop'
  cases hop'
  rfl

/-- A token that is gone stays gone unless it is created again. -/
theorem token_gone (hpast : Trace cfg w₀ past w') (hv : Trace cfg w₀ (later ++ past) w) {id : UUID}
    (hgone : ∀ t ∈ w'.tokens, t.id ≠ id)
    (hnew : ∀ e ∈ later, ∀ t, e.op = .createToken t → t.id ≠ id) :
    ∀ t ∈ w.tokens, t.id ≠ id := by
  refine Valid.world_induction (P := fun w : World => ∀ t ∈ w.tokens, t.id ≠ id) hpast hv hgone ?_
  intro l₁ l₂ e hlater _ hserve _ hpre t ht
  rcases serve_tokens hserve t ht with hop | ⟨t₀, ht₀, hsame, -⟩
  · exact hnew e (by rw [hlater]; simp) t hop
  · rw [show t.id = t₀.id by rw [hsame]]; exact hpre t₀ ht₀

/-- A token that was there when the tokens of its user and kind were purged is gone. -/
theorem token_swept (hv : Trace cfg {} (later ++ g' :: past) w) {uid : UUID}
    {purpose : TokenPurpose} (huid : uid ≠ .nil)
    (hsweep : g'.event = ⟨.deleteUserTokens uid purpose, .ok ()⟩) (hg : g ∈ past) {t : Token}
    (hop : g.op = .createToken t) (huser : t.userID = uid) (hpurpose : t.purpose = purpose) :
    ∀ row ∈ w.tokens, row.id ≠ t.id := by
  obtain ⟨-, hserve, -⟩ := Valid.entry hv
  have hpost : Trace cfg {} (g' :: past) g'.post := Valid.upto hv
  have hgone := serve_deleteUserTokens huid (Entry.served hsweep hserve)
  obtain ⟨l, p, rfl⟩ := List.append_of_mem hg
  refine token_gone hpost hv (fun row hrow hid => ?_) (fun e he t' hop' hid => ?_)
  · obtain ⟨l', k, p', t₀, htrace, hop₀, hsame⟩ := token_issued hpost hrow
    obtain ⟨-, rfl, -⟩ := token_of_id hpost (show _ = (g' :: l) ++ g :: p from rfl) htrace hop hop₀
      (by rw [← hid, hsame])
    rw [hop] at hop₀
    cases hop₀
    rw [hsame] at hrow
    exact hgone _ hrow ⟨huser, hpurpose⟩
  · exact token_not_again hv (List.mem_cons_of_mem g' hg) he hop hop' hid

/-- A redeemed token was taken, unused, from the store. -/
theorem Redeemed.entry (hv : Trace cfg w₀ trace w) {i : Nat} {hash : String}
    {purpose : TokenPurpose} {tok : Token} (hr : Redeemed (history i trace) hash purpose tok) :
    ∃ later k past t, trace = later ++ k :: past ∧ k.tid = i ∧
      k.event = ⟨.consumeToken hash purpose, .ok tok⟩ ∧ t ∈ k.pre.tokens ∧ t.used = false ∧
      t.tokenHash = hash ∧ t.purpose = purpose ∧ tok = { t with used := true } := by
  obtain ⟨k, hk, htid, hev⟩ := mem_history.mp hr.did
  obtain ⟨later, past, rfl⟩ := List.append_of_mem hk
  obtain ⟨t, ht, hhash, hpurpose, hused, htok, _⟩ := serve_consumeToken (hv.served hk hev)
  exact ⟨later, k, past, t, rfl, htid, hev, ht, hused, hhash, hpurpose, htok⟩

/-- Where a redeemed token came from. -/
theorem Redeemed.origin (hv : Trace cfg {} trace w) {i : Nat} {hash : String}
    {purpose : TokenPurpose} {tok : Token} (hr : Redeemed (history i trace) hash purpose tok) :
    ∃ later k mid g past t, trace = later ++ k :: (mid ++ g :: past) ∧ k.tid = i ∧
      k.event = ⟨.consumeToken hash purpose, .ok tok⟩ ∧ g.op = .createToken t ∧
      tok = { t with used := true } ∧ t.tokenHash = hash ∧ t.purpose = purpose ∧
      ∃ row ∈ k.pre.tokens, row.id = t.id := by
  obtain ⟨later, k, past, t₁, rfl, htid, hev, ht₁, -, hhash, hpurpose, rfl⟩ := Redeemed.entry hv hr
  obtain ⟨mid, g, past', t, rfl, hop, hsame⟩ := token_issued (Valid.entry hv).1 ht₁
  rw [hsame] at hhash hpurpose
  exact ⟨later, k, mid, g, past', t, rfl, htid, hev, hop, by rw [hsame], hhash, hpurpose, t₁, ht₁,
    by rw [hsame]⟩

/-- A token that was consumed stays used, for as long as its row is there. -/
theorem token_used (hv : Trace cfg {} (later ++ g :: past) w) {hash : String}
    {purpose : TokenPurpose} {tok : Token} (hev : g.event = ⟨.consumeToken hash purpose, .ok tok⟩) :
    ∀ row ∈ w.tokens, row.id = tok.id → row.used = true := by
  obtain ⟨hpast, hserve, -⟩ := Valid.entry hv
  obtain ⟨t, ht, -, -, -, rfl, hmem⟩ := serve_consumeToken (Entry.served hev hserve)
  obtain ⟨l, k, p, t₀, rfl, hop, hsame⟩ := token_issued hpast ht
  refine Valid.world_induction (P := fun w : World => ∀ row ∈ w.tokens, row.id = t.id → row.used = true)
    (Valid.upto hv) hv (fun row hrow hid => ?_) ?_
  · rw [Store.Table.eq_of_mem hrow hmem hid]
  · -- The row was created before it was consumed, so no later step creates it.
    intro l₁ l₂ e hlater _ hserve _ hpre row hrow hid
    rcases serve_tokens hserve row hrow with hop' | ⟨row₀, hrow₀, hsame', hused⟩
    · have hk : k ∈ g :: (l ++ k :: p) := by simp
      have he : e ∈ later := by rw [hlater]; simp
      exact absurd (hid.trans (by rw [hsame])) (token_not_again hv hk he hop hop')
    · exact hused (hpre row₀ hrow₀ (by rw [← hid, hsame']))

/-- A token is consumed once. -/
theorem token_consumed_once (hv : Trace cfg {} trace w) (htrace : trace = later ++ g :: past)
    (htrace' : trace = later' ++ g' :: past') {hash hash' : String} {purpose purpose' : TokenPurpose}
    {tok tok' : Token} (hev : g.event = ⟨.consumeToken hash purpose, .ok tok⟩)
    (hev' : g'.event = ⟨.consumeToken hash' purpose', .ok tok'⟩) (hid : tok.id = tok'.id) :
    g = g' := by
  have older {later past past' mid : List (Entry cfg)} {g g' : Entry cfg} {hash hash' : String}
      {purpose purpose' : TokenPurpose} {tok tok' : Token} (htrace : trace = later ++ g :: past)
      (hev : g.event = ⟨.consumeToken hash purpose, .ok tok⟩)
      (hev' : g'.event = ⟨.consumeToken hash' purpose', .ok tok'⟩) (hid : tok.id = tok'.id)
      (hpast : past = mid ++ g' :: past') : False := by
    subst htrace
    obtain ⟨hpre, hserve, -⟩ := Valid.entry hv
    obtain ⟨t, ht, -, -, hfresh, rfl, -⟩ := serve_consumeToken (Entry.served hev hserve)
    have hused := token_used (hpast ▸ hpre) hev' t ht hid
    rw [hfresh] at hused
    cases hused
  rcases append_cons_cases (htrace.symm.trans htrace') with h | ⟨mid, hp⟩ | ⟨mid, hp⟩
  · exact h.2.1
  · exact (older htrace hev hev' hid hp).elim
  · exact (older htrace' hev' hev hid.symm hp).elim

/-- A redeemed token is told by its ID. -/
theorem token_redeemed (hv : Trace cfg {} trace w) (hg : g ∈ trace) {t tok : Token}
    (hop : g.op = .createToken t) {i : Nat} {hash : String} {purpose : TokenPurpose}
    (hr : Redeemed (history i trace) hash purpose tok) (hid : tok.id = t.id) :
    tok = { t with used := true } := by
  obtain ⟨l, k, m, g', p, t', htrace, -, -, hop', rfl, -⟩ := hr.origin hv
  obtain ⟨l₁, p₁, htrace₁⟩ := List.append_of_mem hg
  obtain ⟨-, rfl, -⟩ := token_of_id hv htrace₁
    (show trace = (l ++ k :: m) ++ g' :: p by rw [htrace]; simp) hop hop' hid
  rw [hop] at hop'
  cases hop'
  rfl

/-- An operation consumes the token it was given. -/
theorem consumed_given (hv : Trace cfg w₀ trace w) (hg : g ∈ trace) {hash : String}
    {purpose : TokenPurpose} (hop : g.op = .consumeToken hash purpose) :
    ∃ raw, Call.token? g.call = some (purpose, raw) ∧ hash = hashToken raw := by
  obtain ⟨later, past, rfl⟩ := List.append_of_mem hg
  have hallow := (Valid.entry hv).2.2.1
  rw [hop] at hallow
  exact hallow.2

/-- An operation consumes at most one token. -/
theorem consumed_once (hv : Trace cfg w₀ trace w) {i : Nat} {hash hash' : String}
    {purpose purpose' : TokenPurpose} {r r' : Except Err Token}
    (h : Did (history i trace) (.consumeToken hash purpose) r)
    (h' : Did (history i trace) (.consumeToken hash' purpose') r') :
    hash = hash' ∧ purpose = purpose' ∧ r = r' := by
  have heq := event_once (P := fun ev : Interaction.Event iface =>
    ∃ hash purpose r, ev = ⟨.consumeToken hash purpose, r⟩) ?_ h h' ⟨_, _, _, rfl⟩ ⟨_, _, _, rfl⟩
  · cases heq
    exact ⟨rfl, rfl, rfl⟩
  · rintro later e past rfl ⟨hash₁, purpose₁, r₁, hev⟩ ev hmem ⟨hash₂, purpose₂, r₂, rfl⟩
    have hallow := (Valid.entry hv).2.2.1
    rw [show e.op = .consumeToken hash₁ purpose₁ from congrArg Sigma.fst hev] at hallow
    exact hallow.1 hash₂ purpose₂ r₂ hmem

/-- Operation `j` consumed the token. -/
def Spends (trace : List (Entry cfg)) (j : Nat) (t : Token) : Prop :=
  ∃ hash tok, Did (history j trace) (.consumeToken hash t.purpose) (.ok tok) ∧ tok.id = t.id

/-- Consuming a token needs its row. -/
theorem Spends.row (hv : Trace cfg w₀ trace w) {j : Nat} {t : Token} (hs : Spends trace j t) :
    ∃ k ∈ trace, k.tid = j ∧ ∃ row ∈ k.pre.tokens, row.id = t.id := by
  obtain ⟨hash, tok, hd, hid⟩ := hs
  obtain ⟨k, hk, htid, hev⟩ := mem_history.mp hd
  obtain ⟨row, hrow, -, -, -, rfl, -⟩ := serve_consumeToken (hv.served hk hev)
  exact ⟨k, hk, htid, row, hrow, hid⟩

end Sulis
