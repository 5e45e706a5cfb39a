-- SUMMARY: What a recovery of an account ends: every older session, reset token and pending login.
import Sulis.Facts.Credentials
import Sulis.Facts.Users
import Sulis.Properties.Scenario

/-!
# Recovery

Setting a password or moving to another address takes an account back from
whoever held its old credentials. In a sequential run, operation `i` ends what
was handed out by operations before it.
-/

namespace Sulis

open Interaction Interaction.System

section

variable [Platform] {cfg : Config}

/-- No store call fails for a reason of its own. -/
def Faultless (trace : List (Entry cfg)) : Prop := ∀ e ∈ trace, e.choice.fault = none

/-- Operation `i` has set a password of the user. -/
inductive PasswordSetBy (c : Run cfg) (i : Nat) (uid : UUID) : Prop
  | changePassword (old new : Bytes) (ri : RequestInfo)
      (hret : c.Returned i (.changePassword uid old new ri) (.ok ()))
  | setInitialPassword (new : Bytes) (hret : c.Returned i (.setInitialPassword uid new) (.ok ()))
  | resetPassword (raw : String) (new : Bytes) (tok : Token)
      (hret : c.Returned i (.resetPassword raw new) (.ok ()))
      (htok : Did (history i c.trace) (.consumeToken (hashToken raw) .passwordReset) (.ok tok))
      (huser : tok.userID = uid)

/-- Operation `i` has moved the user to another address. -/
def EmailMovedBy (c : Run cfg) (i : Nat) (uid : UUID) : Prop :=
  ∃ raw u, c.Returned i (.confirmEmailChange raw) (.ok u) ∧ u.id = uid

variable {w₀ : World} {as : List (system cfg).Action} {c : Run cfg} {i : Nat} {uid : UUID}

theorem PasswordSetBy.recovered (hset : PasswordSetBy c i uid)
    (hrun : (Config.start w₀).run as = some c) : Recovered cfg (history i c.trace) uid := by
  cases hset with
  | changePassword old new ri hret => exact run_outcome hrun hret
  | setInitialPassword new hret => exact run_outcome hrun hret
  | resetPassword raw new tok hret htok huser =>
    obtain ⟨tok', hred, hrec⟩ := run_outcome hrun hret
    obtain ⟨-, -, heq⟩ := consumed_once (run_trace_valid hrun) htok hred.did
    cases heq
    rw [← huser]
    exact hrec

theorem EmailMovedBy.recovered (hmoved : EmailMovedBy c i uid)
    (hrun : (Config.start w₀).run as = some c) :
    Recovered cfg (history i c.trace) uid ∧
      Did (history i c.trace) (.deleteUserSessions uid) (.ok ()) := by
  obtain ⟨raw, u, hret, rfl⟩ := hmoved
  obtain ⟨tok, -, hid, -, -, hsessions, hrec⟩ := run_outcome hrun hret
  rw [hid]
  exact ⟨hrec, hsessions⟩

/-- The user a recovery is for has a proper ID. -/
theorem Recovered.ne_nil (hrun : (Run.empty cfg).run as = some c)
    (hrec : Recovered cfg (history i c.trace) uid) : uid ≠ .nil := by
  obtain ⟨u, rfl, hu⟩ := hrec.commit
  obtain ⟨e, he, -, hev⟩ := mem_history.mp hu
  obtain ⟨later, past, htrace⟩ := List.append_of_mem he
  have hv := run_trace_valid hrun
  obtain ⟨row, m, hrow, hid, -⟩ := hv.commit htrace hev
  rw [htrace] at hv
  rw [← hid]
  exact user_id_ne_nil (Valid.entry hv).1 hrow

/-! ## Sessions -/

/-- The sessions handed out before operation `i`, and those they were rotated into
    after it. -/
inductive OlderSession (c : Run cfg) (i : Nat) (uid : UUID) : Session → Prop
  | issued {g : Entry cfg} {s : Session} (hg : g ∈ c.trace) (hlt : g.tid < i)
      (hop : g.op = .createSession s) (huser : s.userID = uid) : OlderSession c i uid s
  | rotated {s₀ old s : Session} {g : Entry cfg} (hold : OlderSession c i uid s₀)
      (hg : g ∈ c.trace) (hlt : i < g.tid) (hcall : g.call = .refreshSession old)
      (hid : old.id = s₀.id) (hop : g.op = .createSession s) : OlderSession c i uid s

variable {blocks : List (Call × List Choice)}

/-- What operation `i` did lies between the steps of an older operation and those of a
    younger one. -/
theorem did_between (hrun : (Run.empty cfg).runBlocks blocks = some c) {op : Op} {r : op.Res}
    (hdid : Did (history i c.trace) op r) {g e : Entry cfg} (hg : g ∈ c.trace) (hlt : g.tid < i)
    (he : e ∈ c.trace) (hi : i < e.tid) :
    ∃ (d : Entry cfg) (m past : List (Entry cfg)), d.event = ⟨op, r⟩ ∧ g ∈ past ∧
      Trace cfg {} (m ++ d :: past) e.pre := by
  obtain ⟨as, has⟩ := Config.runBlocks_run hrun
  have hv := run_trace_valid has
  have hseq := (Config.sequential_start _).runBlocks hrun
  obtain ⟨d, hd, rfl, hdev⟩ := mem_history.mp hdid
  obtain ⟨later, past, htrace⟩ := List.append_of_mem hd
  have hgp := hseq.mem_past htrace hg hlt
  obtain ⟨l, m, rfl⟩ := List.append_of_mem (hseq.mem_later htrace he hi)
  rw [htrace, List.append_assoc, List.cons_append] at hv
  exact ⟨d, m, past, hdev, hgp, (Valid.entry hv).1⟩

/-- Sessions issued before operation `i` are not in the store after it, if it
    revoked the sessions of their user. -/
theorem issued_gone (hrun : (Run.empty cfg).runBlocks blocks = some c)
    (hsweep : Did (history i c.trace) (.deleteUserSessions uid) (.ok ())) {g e : Entry cfg}
    {s : Session} (hg : g ∈ c.trace) (hlt : g.tid < i) (hop : g.op = .createSession s)
    (huser : s.userID = uid) (he : e ∈ c.trace) (hi : i < e.tid) :
    ∀ row ∈ e.pre.sessions, row.id ≠ s.id := by
  obtain ⟨d, m, past, hdev, hgp, hv⟩ := did_between hrun hsweep hg hlt he hi
  exact session_swept hv hdev hgp hop huser

/-- Rotating a session needs its row, so nothing is rotated out of a session that
    is gone. -/
theorem OlderSession.gone (hrun : (Run.empty cfg).runBlocks blocks = some c)
    (hsweep : Did (history i c.trace) (.deleteUserSessions uid) (.ok ())) {s : Session}
    (hs : OlderSession c i uid s) {e : Entry cfg} (he : e ∈ c.trace) (hi : i < e.tid) :
    ∀ row ∈ e.pre.sessions, row.id ≠ s.id := by
  induction hs generalizing e with
  | issued hg hlt hop huser => exact issued_gone hrun hsweep hg hlt hop huser he hi
  | @rotated s₀ old s g _ hg hlt hcall hid hop ih =>
    obtain ⟨as, has⟩ := Config.runBlocks_run hrun
    have hv := run_trace_valid has
    obtain ⟨later, past, htrace⟩ := List.append_of_mem hg
    obtain ⟨k, hk, htid, -, ⟨row, hrow, hrid, -⟩, -⟩ := refreshed_row hv htrace hop hcall
    have hkc : k ∈ c.trace := by rw [htrace]; simp [hk]
    exact absurd (hrid.trans hid) (ih hkc (htid ▸ hlt) row hrow)

/-! ## Tokens -/

/-- Tokens issued before operation `i` are not in the store after it, if it purged
    the tokens of their user and kind. -/
theorem token_issued_gone (hrun : (Run.empty cfg).runBlocks blocks = some c) {purpose : TokenPurpose}
    (huid : uid ≠ .nil)
    (hsweep : Did (history i c.trace) (.deleteUserTokens uid purpose) (.ok ())) {g e : Entry cfg}
    {t : Token} (hg : g ∈ c.trace) (hlt : g.tid < i) (hop : g.op = .createToken t)
    (huser : t.userID = uid) (hpurpose : t.purpose = purpose) (he : e ∈ c.trace)
    (hi : i < e.tid) : ∀ row ∈ e.pre.tokens, row.id ≠ t.id := by
  obtain ⟨d, m, past, hdev, hgp, hv⟩ := did_between hrun hsweep hg hlt he hi
  exact token_swept hv huid hdev hgp hop huser hpurpose

/-- With a collision-free hash, such a token is not redeemed any more. -/
theorem token_not_redeemed (hinj : Function.Injective Platform.sha256Hex)
    (hrun : (Run.empty cfg).runBlocks blocks = some c) {purpose : TokenPurpose} (huid : uid ≠ .nil)
    (hsweep : Did (history i c.trace) (.deleteUserTokens uid purpose) (.ok ())) {g : Entry cfg}
    {t tok : Token} (hg : g ∈ c.trace) (hlt : g.tid < i) (hop : g.op = .createToken t)
    (huser : t.userID = uid) (hpurpose : t.purpose = purpose) {j : Nat} (hj : i < j)
    {raw : String} (hraw : hashToken raw = t.tokenHash) :
    ¬ Redeemed (history j c.trace) (hashToken raw) purpose tok := by
  intro hred
  obtain ⟨as, has⟩ := Config.runBlocks_run hrun
  have hv := run_trace_valid has
  obtain ⟨l, k, m, g', p, t', htrace, rfl, -, hop', -, hhash, -, row, hrow, hid⟩ := hred.origin hv
  obtain ⟨l₁, p₁, htrace₁⟩ := List.append_of_mem hg
  have heq : t = t' := token_of_hash hinj hv htrace₁
    (show c.trace = (l ++ k :: m) ++ g' :: p by rw [htrace]; simp) hop hop'
    (hraw.symm.trans hhash.symm)
  exact token_issued_gone hrun huid hsweep hg hlt hop huser hpurpose
    (show k ∈ c.trace by rw [htrace]; simp) hj row hrow (by rw [hid, heq])

/-! ## The property -/

/-- Nothing the user was handed before operation `i` is accepted after it. -/
structure EndsOlder (c : Run cfg) (i : Nat) (uid : UUID) : Prop where
  validate : ∀ s, OlderSession c i uid s → ∀ j, i < j → ∀ token a,
    hashSessionToken token = s.tokenHash → ¬ c.Returned j (.validateSession token) (.ok a)
  refresh : ∀ s, OlderSession c i uid s → ∀ j, i < j → ∀ old a, old.id = s.id →
    ¬ c.Returned j (.refreshSession old) (.ok a)
  reAuthenticate : ∀ s, OlderSession c i uid s → ∀ j, i < j → ∀ s' password ri a, s'.id = s.id →
    ¬ c.Returned j (.reAuthenticate s' password ri) (.ok a)
  resetPassword : ∀ g ∈ c.trace, g.tid < i → ∀ t, g.op = .createToken t → t.userID = uid →
    t.purpose = .passwordReset → ∀ j, i < j → ∀ raw new a, hashToken raw = t.tokenHash →
    ¬ c.Returned j (.resetPassword raw new) (.ok a)
  completeTwoFactor : ∀ g ∈ c.trace, g.tid < i → ∀ t, g.op = .createToken t → t.userID = uid →
    t.purpose = .twoFactor → ∀ j, i < j → ∀ uid' raw ri a, hashToken raw = t.tokenHash →
    ¬ c.Returned j (.completeTwoFactor uid' raw ri) (.ok a)

/-- The session a token leads to, with a collision-free hash. -/
theorem OlderSession.of_hash (hinj : Function.Injective Platform.sha256Hex)
    (hv : Trace cfg {} c.trace c.world) {s : Session} (hs : OlderSession c i uid s) {e : Entry cfg}
    (he : e ∈ c.trace) {row : Session} (hrow : row ∈ e.pre.sessions)
    (hhash : row.tokenHash = s.tokenHash) : row.id = s.id := by
  obtain ⟨g, hg, hop⟩ : ∃ g ∈ c.trace, g.op = .createSession s := by
    cases hs with
    | issued hg _ hop _ => exact ⟨_, hg, hop⟩
    | rotated _ hg _ _ _ hop => exact ⟨_, hg, hop⟩
  obtain ⟨later, past, htrace⟩ := List.append_of_mem he
  obtain ⟨l₁, p₁, htrace₁⟩ := List.append_of_mem hg
  have hpre := (Valid.entry (htrace ▸ hv)).1
  obtain ⟨l, g', p, s', hpast, hop', hsame⟩ := session_issued hpre hrow
  have heq : s' = s := session_of_hash hinj hv
    (show c.trace = (later ++ e :: l) ++ g' :: p by rw [htrace, hpast]; simp) htrace₁ hop' hop
    (hsame.tokenHash.symm.trans hhash)
  rw [hsame.id, heq]

/-- A recovery ends every older session, reset token and pending login of the
    user. -/
theorem recovery_ends_older (hinj : Function.Injective Platform.sha256Hex)
    (hrevoke : cfg.revokeSessionsOnPasswordChange = true)
    (hrun : (Run.empty cfg).runBlocks blocks = some c)
    (hrec : PasswordSetBy c i uid ∨ EmailMovedBy c i uid) : EndsOlder c i uid := by
  obtain ⟨as, has⟩ := Config.runBlocks_run hrun
  have hv := run_trace_valid has
  obtain ⟨hrec, hsweep⟩ : Recovered cfg (history i c.trace) uid ∧
      Did (history i c.trace) (.deleteUserSessions uid) (.ok ()) := by
    rcases hrec with hset | hmoved
    · exact ⟨hset.recovered has, (hset.recovered has).sessions hrevoke⟩
    · exact hmoved.recovered has
  have huid := hrec.ne_nil has
  refine ⟨?_, ?_, ?_, ?_, ?_⟩
  · rintro s hs j hj token ⟨s', u'⟩ htoken hret
    obtain ⟨-, row, hget, -⟩ := run_outcome has hret
    obtain ⟨k, hk, rfl, hev⟩ := mem_history.mp hget
    obtain ⟨hrow, hhash⟩ := World.serve_getSessionByTokenHash (hv.served hk hev)
    exact hs.gone hrun hsweep hk hj row hrow (hs.of_hash hinj hv hk hrow (hhash.trans htoken))
  · rintro s hs j hj old ⟨s', token⟩ hid hret
    obtain ⟨-, hdel, -⟩ := run_outcome has hret
    obtain ⟨k, hk, rfl, hev⟩ := mem_history.mp hdel
    obtain ⟨⟨row, hrow, hrid, -⟩, -⟩ := World.serve_deleteSession (hv.served hk hev)
    exact hs.gone hrun hsweep hk hj row hrow (hrid.trans hid)
  · intro s hs j hj s' password ri a hid hret
    obtain ⟨-, at_, hup⟩ := run_outcome has hret
    obtain ⟨k, hk, rfl, hev⟩ := mem_history.mp hup
    obtain ⟨row, hrow, hrid, -⟩ := World.serve_updateAuthenticatedAt (hv.served hk hev)
    exact hs.gone hrun hsweep hk hj row hrow (hrid.trans hid)
  · intro g hg hlt t hop huser hpurpose j hj raw new a hraw hret
    obtain ⟨tok, hred, -⟩ := run_outcome has hret
    exact token_not_redeemed hinj hrun huid hrec.resets hg hlt hop huser hpurpose hj hraw hred
  · intro g hg hlt t hop huser hpurpose j hj uid' raw ri a hraw hret
    obtain ⟨-, -, tok, hred, -⟩ := run_outcome has hret
    exact token_not_redeemed hinj hrun huid hrec.pending hg hlt hop huser hpurpose hj hraw hred

end

section

open Scenario

attribute [local instance] plain

/-- A user registers and then changes the password. Then the session of the registration is
    presented. -/
def passwordChange : List (Call × Nat) :=
  [(.register "a" [1] {}, 8), (.changePassword (ident 2) [1] [2] {}, 9), (.validateSession (raw 4), 1)]

theorem recovery_ends_older_passwordChange :
    ∃ c s err, play passwordChange = some c ∧ OlderSession c 1 (ident 2) s ∧
      hashSessionToken (raw 4) = s.tokenHash ∧ EndsOlder c 1 (ident 2) ∧
      c.Returned 2 (.validateSession (raw 4)) (.error err) := by
  obtain ⟨c, hplay, ⟨g, hg, hlt, hs⟩, hret⟩ := computed (o := play passwordChange)
    (P := fun c => (∃ g ∈ c.trace, g.tid < 1 ∧ ∃ s ∈ g.post.sessions.rows,
      g.op = .createSession s ∧ s.userID = ident 2 ∧ hashSessionToken (raw 4) = s.tokenHash) ∧
      succeeded c 1 (.changePassword (ident 2) [1] [2] {}) = true) (by decide +kernel)
  obtain ⟨s, -, hop, huser, hhash⟩ := hs
  obtain ⟨a, hret⟩ := succeeded_returned hret
  have holder : OlderSession c 1 (ident 2) s := .issued hg hlt hop huser
  have hends : EndsOlder c 1 (ident 2) :=
    recovery_ends_older Function.injective_id rfl hplay (Or.inl (.changePassword [1] [2] {} hret))
  obtain ⟨out, hout⟩ := Config.runBlocks_returned hplay (i := 2) rfl
  cases out with
  | ok x => exact absurd hout (hends.validate s holder 2 (by decide) (raw 4) x hhash)
  | error err => exact ⟨c, s, err, hplay, holder, hhash, hends, hout⟩

end

end Sulis
