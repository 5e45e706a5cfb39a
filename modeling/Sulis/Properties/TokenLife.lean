-- SUMMARY: A token is accepted once, by the operation of its kind, in time, and with what it was issued with.
import Sulis.Discipline.Redemption
import Sulis.Properties.Scenario

/-!
# The life of a token

A raw token leaves the package once and comes back any number of times, to any
operation. At most one of the operations it comes back to goes ahead on it. The
store lookup is where this is decided: an operation of another kind does not find
the token, and one of its own kind uses it up whatever it makes of it.
-/

namespace Sulis

open Interaction Interaction.System World

section

variable [Platform] {cfg : Config} {c : Run cfg} {as : List (system cfg).Action}

/-- Operation `i`, called with the raw token, goes ahead on it: it succeeds, or it
    writes to a store. -/
structure Accepts (c : Run cfg) (i : Nat) (call : Call) (raw : String) : Prop where
  invoked : ∃ rest, c.threads[i]? = some ⟨call, rest⟩
  given : ∃ purpose, call.token? = some (purpose, raw)
  ahead : (∃ a, c.Returned i call (.ok a)) ∨ ∃ e ∈ c.trace, e.tid = i ∧ e.op.Writes

/-- The store would still hand the token out. -/
def Redeemable (w : World) (t : Token) : Prop :=
  ∃ order tok, (w.tokens.consumeToken t.tokenHash t.purpose order).1 = .ok tok

/-- The entries of a thread are entries of its call. -/
theorem thread_call (hrun : (Run.empty cfg).run as = some c) {i : Nat} {call : Call}
    {rest : Prog iface (Except Err call.Ret)} (ht : c.threads[i]? = some ⟨call, rest⟩)
    {e : Entry cfg} (he : e ∈ c.trace) (htid : e.tid = i) : e.call = call := by
  obtain ⟨t, ht', hcall⟩ := (run_sound hrun).owner e he
  rw [htid, ht] at ht'
  cases ht'
  exact hcall.symm

theorem Accepted.admitted {call : Call} {h : Hist} {a : call.Ret} (ha : Accepted call h a)
    {x : TokenPurpose × String} (hcall : call.token? = some x) : Admitted call h := by
  cases call with
  | createMagicLinkToken email ri => cases hcall
  | _ => exact ha (by rw [hcall]; simp)

/-- A write by an operation that was called with a token. -/
theorem write_admitted (hrun : (Run.empty cfg).run as = some c) {e : Entry cfg} (he : e ∈ c.trace)
    {x : TokenPurpose × String} (hcall : e.call.token? = some x) (hw : e.op.Writes) :
    Admitted e.call (history e.tid c.trace) := by
  obtain ⟨later, past, htrace⟩ := List.append_of_mem he
  have hallow := (Valid.entry (htrace ▸ (run_admission hrun).valid)).2.2.1
  refine (hallow (by rw [hcall]; simp) hw).mono (history_suffix ?_ e.tid)
  rw [htrace]
  exact (List.suffix_cons e past).trans (List.suffix_append later _)

/-- Going ahead means having redeemed the token. -/
theorem Accepts.redeemed (hrun : (Run.empty cfg).run as = some c) {i : Nat} {call : Call}
    {raw : String} (ha : Accepts c i call raw) :
    ∃ purpose tok, call.token? = some (purpose, raw) ∧
      Redeemed (history i c.trace) (hashToken raw) purpose tok ∧ call.Fits tok := by
  obtain ⟨purpose, hgiven⟩ := ha.given
  have hadmitted : Admitted call (history i c.trace) := by
    rcases ha.ahead with ⟨a, hret⟩ | ⟨e, he, rfl, hw⟩
    · exact ((run_admission hrun).returned hret a rfl).admitted hgiven
    · obtain ⟨rest, hthread⟩ := ha.invoked
      have hcall := thread_call hrun hthread he rfl
      rw [← hcall]
      exact write_admitted hrun he (hcall ▸ hgiven) hw
  obtain ⟨purpose', raw', tok, hcall, hr, hfits⟩ := hadmitted
  cases hgiven.symm.trans hcall
  exact ⟨purpose, tok, hcall, hr, hfits⟩

/-- With a collision-free hash, what was redeemed under a raw token is the token that
    was issued under it. -/
theorem redeemed_issued (hinj : Function.Injective Platform.sha256Hex)
    (hrun : (Run.empty cfg).run as = some c) {g : Entry cfg} {t : Token} {raw : String}
    (hg : g ∈ c.trace) (hop : g.op = .createToken t) (hraw : t.tokenHash = hashToken raw) {i : Nat}
    {purpose : TokenPurpose} {tok : Token}
    (hr : Redeemed (history i c.trace) (hashToken raw) purpose tok) :
    tok = { t with used := true } ∧ purpose = t.purpose := by
  have hv := run_trace_valid hrun
  obtain ⟨l, k, m, g', p, t', htrace, -, -, hop', htok, hhash, hpurpose, -⟩ := hr.origin hv
  obtain ⟨l₁, p₁, htrace₁⟩ := List.append_of_mem hg
  have heq : t = t' := token_of_hash hinj hv htrace₁
    (show c.trace = (l ++ k :: m) ++ g' :: p by rw [htrace]; simp) hop hop' (hraw.trans hhash.symm)
  rw [heq]
  exact ⟨htok, hpurpose.symm⟩

/-- Rows with the hash of an issued token are that token's. -/
theorem row_issued (hinj : Function.Injective Platform.sha256Hex) {w w' : World}
    {trace past : List (Entry cfg)} (hv : Trace cfg {} trace w) (hpast : Trace cfg {} past w')
    (hsuf : past <:+ trace) {g : Entry cfg} {t row : Token} (hg : g ∈ trace)
    (hop : g.op = .createToken t) (hrow : row ∈ w'.tokens) (hhash : row.tokenHash = t.tokenHash) :
    row.id = t.id ∧ row.purpose = t.purpose := by
  obtain ⟨l, g', p, t', rfl, hop', hsame⟩ := token_issued hpast hrow
  obtain ⟨l', hl'⟩ := hsuf
  obtain ⟨l₁, p₁, htrace₁⟩ := List.append_of_mem hg
  have heq : t = t' := token_of_hash hinj hv htrace₁
    (show trace = (l' ++ l) ++ g' :: p by rw [← hl']; simp) hop hop'
    (by rw [← hhash, hsame])
  rw [heq]
  exact ⟨by rw [hsame], by rw [hsame]⟩

omit [Platform] in
/-- A call that neither writes nor looks a token up leaves the tokens alone. -/
theorem serve_tokens_same {w w' : World} {ch : Choice} {op : Op} {r : op.Res}
    (h : w.serve op ch = some (r, w')) (hw : ¬ op.Writes) (hc : op.NotConsume) :
    w'.tokens = w.tokens := by
  cases op with
  | newV7 | randRead | hasSecondFactor | allow | check | emit | now | status =>
    exact (serve_offStore h trivial).2.2
  | getUserByID | getUserByEmail | getSessionByTokenHash | listUserSessions =>
    rcases store_world h with rfl | rfl <;> rfl
  | consumeToken hash purpose => exact hc.elim
  | _ => exact absurd trivial hw

/-- An operation of another kind does nothing to any token. -/
theorem misdirected_tokens (hinj : Function.Injective Platform.sha256Hex)
    (hrun : (Run.empty cfg).run as = some c) {g e : Entry cfg} {t : Token} {raw : String}
    (hg : g ∈ c.trace) (hop : g.op = .createToken t) (hraw : t.tokenHash = hashToken raw)
    (he : e ∈ c.trace) {purpose : TokenPurpose} (hcall : e.call.token? = some (purpose, raw))
    (hne : purpose ≠ t.purpose) : e.post.tokens = e.pre.tokens := by
  have hv := run_trace_valid hrun
  obtain ⟨later, past, htrace⟩ := List.append_of_mem he
  obtain ⟨hpast, hserve, -⟩ := Valid.entry (htrace ▸ hv)
  -- If it wrote anything it would have redeemed the token, under the wrong kind.
  have hquiet : ¬ e.op.Writes := by
    intro hw
    obtain ⟨purpose', raw', tok, hcall', hr, -⟩ := write_admitted hrun he hcall hw
    cases hcall.symm.trans hcall'
    exact hne (redeemed_issued hinj hrun hg hop hraw hr).2
  by_cases hc : e.op.NotConsume
  · exact serve_tokens_same hserve hquiet hc
  · obtain ⟨hash, purpose', hop'⟩ : ∃ hash purpose, e.op = .consumeToken hash purpose := by
      cases hcase : e.op with
      | consumeToken hash purpose => exact ⟨hash, purpose, rfl⟩
      | _ => rw [hcase] at hc; exact absurd trivial hc
    obtain ⟨raw', hcall', rfl⟩ := consumed_given hv he hop'
    cases hcall.symm.trans hcall'
    obtain ⟨r, hev⟩ := Entry.event_of_op hop'
    have hserve' := Entry.served hev hserve
    rcases store_world hserve' with hw | hw
    · rw [hw]
    · rw [hw]
      rcases e.pre.tokens.consumeToken_cases (hashToken raw) purpose e.choice.order with
        ⟨err, heq⟩ | ⟨row, hrow, hhash, hpurpose, -, -⟩
      · simp only [withTokens, heq]
      · -- A row under this hash is the issued token's, and of its kind.
        have hkind := (row_issued hinj hv hpast ⟨later ++ [e], by rw [htrace]; simp⟩ hg hop hrow
          (hhash.trans hraw.symm)).2
        exact absurd (hpurpose.symm.trans hkind) hne

/-- A token that came out of the store once does not come out again. -/
theorem consumed_unredeemable (hinj : Function.Injective Platform.sha256Hex)
    (hrun : (Run.empty cfg).run as = some c) {g : Entry cfg} {t : Token} (hg : g ∈ c.trace)
    (hop : g.op = .createToken t) {i : Nat} {tok : Token}
    (hd : Did (history i c.trace) (.consumeToken t.tokenHash t.purpose) (.ok tok)) :
    ¬ Redeemable c.world t := by
  have hv := run_trace_valid hrun
  obtain ⟨k, hk, -, hev⟩ := mem_history.mp hd
  obtain ⟨later, past, htrace⟩ := List.append_of_mem hk
  rw [htrace] at hv
  obtain ⟨hpast, hserve, -⟩ := Valid.entry hv
  obtain ⟨row, hrow, hhash, -, -, rfl, -⟩ := serve_consumeToken (Entry.served hev hserve)
  have hrowid := (row_issued hinj hv hpast ⟨later ++ [k], by simp⟩ (htrace ▸ hg) hop hrow hhash).1
  rintro ⟨order, tok, hok⟩
  rcases c.world.tokens.consumeToken_cases t.tokenHash t.purpose order with
    ⟨err, heq⟩ | ⟨row', hrow', hhash', -, hfresh, -⟩
  · rw [heq] at hok; cases hok
  · have hid := (row_issued hinj hv hv List.suffix_rfl (htrace ▸ hg) hop hrow' hhash').1
    rw [token_used hv hev row' hrow' (hid.trans hrowid.symm)] at hfresh
    cases hfresh

/-- A link goes through with the nonce it was issued with. -/
theorem nonce_issued (hinj : Function.Injective Platform.sha256Hex)
    (hhex : ∀ s, s ≠ "" → Platform.sha256Hex s ≠ "") (hrun : (Run.empty cfg).run as = some c)
    {g : Entry cfg} {t : Token} {raw nonce n email : String} {ri : RequestInfo} {j : Nat}
    (hg : g ∈ c.trace) (hop : g.op = .createToken t) (hraw : t.tokenHash = hashToken raw)
    (hfits : Service.nonceMatches { t with used := true } nonce)
    (hret : c.Returned j (.createMagicLinkToken email ri) (.ok (raw, n))) (hn : n ≠ "") :
    nonce = n := by
  have hv := run_trace_valid hrun
  obtain ⟨t', hd, hhash, hnonce⟩ : LinkIssued (history j c.trace) raw n :=
    (run_admission hrun).returned hret (raw, n) rfl
  obtain ⟨g', hg', -, hev⟩ := mem_history.mp hd
  obtain ⟨l, p, htrace⟩ := List.append_of_mem hg
  obtain ⟨l', p', htrace'⟩ := List.append_of_mem hg'
  have heq : t = t' := token_of_hash hinj hv htrace htrace' hop (congrArg Sigma.fst hev)
    (hraw.trans hhash.symm)
  have hstored : t.nonceHash = hashToken n := heq ▸ hnonce hn
  rcases hfits with hempty | ⟨-, hmatch⟩
  · exact absurd (hstored.symm.trans hempty) (hhex n hn)
  · exact hinj (hmatch.trans hstored)

/-- For every issued token: one operation at most goes ahead on it, and only one of
    its kind, not past its expiry, for its user and with its nonce. Presenting it to
    another kind of operation does not use it up; its own kind uses it up even if it
    then turns it down. -/
theorem token_accepted_once (hinj : Function.Injective Platform.sha256Hex)
    (hhex : ∀ s, s ≠ "" → Platform.sha256Hex s ≠ "") (hrun : (Run.empty cfg).run as = some c)
    {g : Entry cfg} {t : Token} {raw : String} (hg : g ∈ c.trace) (hop : g.op = .createToken t)
    (hraw : t.tokenHash = hashToken raw) :
    (∀ i j call call', Accepts c i call raw → Accepts c j call' raw → i = j) ∧
    (∀ i call, Accepts c i call raw →
      call.token? = some (t.purpose, raw) ∧
      (∃ now, [⟨.now, now⟩, ⟨.consumeToken t.tokenHash t.purpose, .ok { t with used := true }⟩] <:+:
        history i c.trace ∧ now ≤ t.expiresAt) ∧
      (∀ userID ri, call = .completeTwoFactor userID raw ri → userID = t.userID) ∧
      (∀ nonce ri j email ri' n, call = .redeemMagicLink raw nonce ri →
        c.Returned j (.createMagicLinkToken email ri') (.ok (raw, n)) → n ≠ "" → nonce = n)) ∧
    (∀ i call rest purpose, c.threads[i]? = some ⟨call, rest⟩ →
      call.token? = some (purpose, raw) → purpose ≠ t.purpose →
      ∀ e ∈ c.trace, e.tid = i → Redeemable e.pre t → Redeemable e.post t) ∧
    (∀ i tok, Did (history i c.trace) (.consumeToken t.tokenHash t.purpose) (.ok tok) →
      ¬ Redeemable c.world t) := by
  have hv := run_trace_valid hrun
  refine ⟨fun i j call call' hi hj => ?_, fun i call ha => ?_, ?_, fun i tok hd => ?_⟩
  · obtain ⟨purpose, tok, -, hr, -⟩ := hi.redeemed hrun
    obtain ⟨purpose', tok', -, hr', -⟩ := hj.redeemed hrun
    obtain ⟨later, k, past, t₁, htrace, hktid, hkev, -⟩ := hr.entry hv
    obtain ⟨later', k', past', t₁', htrace', hktid', hkev', -⟩ := hr'.entry hv
    have hid : tok.id = tok'.id := by
      rw [(redeemed_issued hinj hrun hg hop hraw hr).1, (redeemed_issued hinj hrun hg hop hraw hr').1]
    rw [← hktid, ← hktid', token_consumed_once hv htrace htrace' hkev hkev' hid]
  · obtain ⟨purpose, tok, hcall, hr, hfits⟩ := ha.redeemed hrun
    obtain ⟨rfl, rfl⟩ := redeemed_issued hinj hrun hg hop hraw hr
    refine ⟨hcall, ?_, ?_, ?_⟩
    · rw [← hraw] at hr
      exact hr
    · rintro userID ri rfl
      exact hfits.symm
    · rintro nonce ri j email ri' n rfl hret hn
      exact nonce_issued hinj hhex hrun hg hop hraw hfits hret hn
  · rintro i call rest purpose hthread hcall hne e he rfl ⟨order, tok, hok⟩
    have hcall' : e.call.token? = some (purpose, raw) :=
      (thread_call hrun hthread he rfl).symm ▸ hcall
    have hsame := misdirected_tokens hinj hrun hg hop hraw he hcall' hne
    exact ⟨order, tok, by rw [hsame]; exact hok⟩
  · exact consumed_unredeemable hinj hrun hg hop hd

end

section

open Scenario

attribute [local instance] plain

/-- A link for a new address, requested at ticks 0 to 5. -/
def signupLink : Token :=
  { id := ident 4, userID := .nil, tokenHash := raw 1, purpose := .magicLink
    expiresAt := 3 + config.magicLinkDuration, createdAt := 3, email := "a", nonceHash := raw 2 }

/-- A link is presented as a reset token, then redeemed, then presented again. -/
def linkThreeTimes : List (Call × Nat) :=
  [(.createMagicLinkToken "a" {}, 6), (.resetPassword (raw 1) [1], 1),
    (.redeemMagicLink (raw 1) (raw 2) {}, 16), (.redeemMagicLink (raw 1) (raw 2) {}, 1)]

theorem token_accepted_once_linkThreeTimes :
    ∃ c, play linkThreeTimes = some c ∧
      Accepts c 2 (.redeemMagicLink (raw 1) (raw 2) {}) (raw 1) ∧
      (∀ i call, Accepts c i call (raw 1) → i = 2) ∧ ¬ Redeemable c.world signupLink := by
  obtain ⟨c, hplay, ⟨g, hg, hop⟩, hok, hspent⟩ := computed (o := play linkThreeTimes)
    (P := fun c => (∃ g ∈ c.trace, g.op = .createToken signupLink) ∧
      succeeded c 2 (.redeemMagicLink (raw 1) (raw 2) {}) = true ∧
      ∃ k ∈ c.trace, k.tid = 2 ∧ k.event =
        ⟨.consumeToken signupLink.tokenHash signupLink.purpose, .ok { signupLink with used := true }⟩)
    (by decide +kernel)
  obtain ⟨a, hret⟩ := succeeded_returned hok
  have haccepts : Accepts c 2 (.redeemMagicLink (raw 1) (raw 2) {}) (raw 1) :=
    ⟨⟨_, hret⟩, ⟨_, rfl⟩, Or.inl ⟨a, hret⟩⟩
  obtain ⟨as, hrun⟩ := Config.runBlocks_run hplay
  obtain ⟨honce, -, -, hgone⟩ := token_accepted_once (fun _ _ h => h) (fun _ h => h) hrun hg hop
    (show signupLink.tokenHash = hashToken (raw 1) from rfl)
  exact ⟨c, hplay, haccepts, fun i call ha => honce i 2 call _ ha haccepts,
    hgone 2 _ (mem_history.mpr hspent)⟩

end

end Sulis
