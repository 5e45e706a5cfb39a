-- SUMMARY: Session issuance safety: no session without its gates, its second factor and its proof.
import Sulis.Facts.Credentials
import Sulis.Properties.Scenario

/-!
# Session issuance

Whatever the stores and the second-factor checker answer, a session row is only
ever written by an operation that has passed the gates in front of it.
-/

namespace Sulis

open Interaction Interaction.System

section

variable [Platform] {cfg : Config} {w₀ w : World} {trace later past : List (Entry cfg)}
  {g : Entry cfg}

/-! ## The second-factor checker is asked once -/

/-- An operation gets at most one answer from the second-factor checker. -/
theorem asked_once (hv : Trace cfg w₀ trace w) {i : Nat} {uid uid' : UUID} {r r' : Except Err Bool}
    (h : Did (history i trace) (.hasSecondFactor uid) r)
    (h' : Did (history i trace) (.hasSecondFactor uid') r') : uid = uid' ∧ r = r' := by
  have heq := event_once (P := fun ev : Interaction.Event iface =>
    ∃ uid r, ev = ⟨.hasSecondFactor uid, r⟩) ?_ h h' ⟨_, _, rfl⟩ ⟨_, _, rfl⟩
  · cases heq
    exact ⟨rfl, rfl⟩
  · rintro later e past rfl ⟨uid₁, r₁, hev⟩ ev hmem ⟨uid₂, r₂, rfl⟩
    have hallow := (Valid.entry hv).2.2.1
    rw [show e.op = .hasSecondFactor uid₁ from congrArg Sigma.fst hev] at hallow
    exact hallow.2 uid₂ r₂ hmem

/-- Only a login or a redeemed link asks the second-factor checker. -/
theorem asked_firstFactor (hv : Trace cfg w₀ trace w) {e : Entry cfg} (he : e ∈ trace) {uid : UUID}
    (hop : e.op = .hasSecondFactor uid) : Call.FirstFactor e.call := by
  obtain ⟨later, past, rfl⟩ := List.append_of_mem he
  have hallow := (Valid.entry hv).2.2.1
  rw [hop] at hallow
  exact hallow.1

/-! ## What each operation needs for a session -/

def Call.IsRegister : Call → Prop
  | .register .. => True
  | _ => False

theorem MayIssue.gated {call : Call} {h : Hist} {uid : UUID} (hmay : MayIssue cfg call h uid)
    (hcall : ¬ call.IsRegister) : Gated cfg h uid := by
  cases hmay with
  | register hu => exact absurd trivial hcall
  | login hgate | redeemMagicLink hgate | completeTwoFactor hgate | refreshSession hgate
  | issueSession hgate | issueSessionUnchecked hgate => exact hgate

theorem MayIssue.noSecondFactor {call : Call} {h : Hist} {uid : UUID}
    (hmay : MayIssue cfg call h uid) (hcall : call.FirstFactor) :
    Did h (.hasSecondFactor uid) (.ok false) := by
  cases hmay with
  | login _ hfactor | redeemMagicLink _ hfactor => exact hfactor
  | register | completeTwoFactor | refreshSession | issueSession | issueSessionUnchecked =>
    exact hcall.elim

theorem MayMint.secondFactor {call : Call} {h : Hist} {uid : UUID} {email : String}
    (hmay : MayMint cfg call h .twoFactor uid email) (hcall : call.FirstFactor) :
    Did h (.hasSecondFactor uid) (.ok true) := by
  cases hmay with
  | login _ hfactor | redeemMagicLink _ hfactor => exact hfactor
  | twoFactorToken => exact hcall.elim

/-- The step that consumed a pending login found it unused in the store. -/
theorem completed_pending (hv : Trace cfg w₀ trace w) (htrace : trace = later ++ g :: past)
    {s : Session} (hop : g.op = .createSession s) {uid : UUID} {raw : String} {ri : RequestInfo}
    (hcall : g.call = .completeTwoFactor uid raw ri) :
    ∃ t, t.purpose = .twoFactor ∧ t.userID = s.userID ∧ t.used = false ∧
      Redeemed (history g.tid past) (hashToken raw) .twoFactor { t with used := true } ∧
      ∃ k ∈ past, k.tid = g.tid ∧ t ∈ k.pre.tokens ∧
        k.event = ⟨.consumeToken (hashToken raw) .twoFactor, .ok { t with used := true }⟩ := by
  obtain ⟨_, hmay⟩ := createSession_spec hv htrace hop
  subst htrace
  have hpast := (Valid.entry hv).1
  rw [hcall] at hmay
  generalize hs : s.userID = user at hmay
  cases hmay with
  | completeTwoFactor hgate htok hid =>
    obtain ⟨l, k, p, t, rfl, htid, hev, ht, hused, -, hpurpose, rfl⟩ := Redeemed.entry hpast htok
    exact ⟨t, hpurpose, hid, hused, htok, k, by simp, htid, ht, hev⟩

/-! ## The property -/

/-- A session or a pending token, never both and never neither. -/
structure OneCredential (cfg : Config) (h : Hist) (r : LoginResult) : Prop where
  session : r.session.isSome ↔ r.needsSecondFactor = false
  sessionStored : ∀ s, r.session = some s → s.userID = r.user.id ∧
    Did h (.createSession s) (.ok ()) ∧ s.tokenHash = hashSessionToken r.sessionToken
  noPending : r.needsSecondFactor = false → r.pendingToken = ""
  noSession : r.needsSecondFactor = true → r.sessionToken = ""
  pendingStored : r.needsSecondFactor = true →
    r.pendingToken.length = 2 * cfg.resetTokenBytes ∧
      ∃ t, Did h (.createToken t) (.ok ()) ∧ t.purpose = .twoFactor ∧ t.userID = r.user.id ∧
        t.tokenHash = hashToken r.pendingToken

theorem LoginShape.oneCredential {h : Hist} {r : LoginResult} (hr : LoginShape cfg h r) :
    OneCredential cfg h r := by
  rcases hr with ⟨hneeds, _, hpending, s, hs, hd, huser, hhash⟩ |
    ⟨hneeds, _, hsession, htoken, hlen, ht⟩
  · constructor
    · simp [hs, hneeds]
    · intro s' hs'
      rw [hs, Option.some.injEq] at hs'
      subst hs'
      exact ⟨huser, hd, hhash⟩
    · exact fun _ => hpending
    · intro h'; rw [hneeds] at h'; cases h'
    · intro h'; rw [hneeds] at h'; cases h'
  · constructor
    · simp [hsession, hneeds]
    · intro s' hs'; rw [hsession] at hs'; cases hs'
    · intro h'; rw [hneeds] at h'; cases h'
    · exact fun _ => htoken
    · exact fun _ => ⟨hlen, ht⟩

/-- A pending token is there exactly if it is asked for. The configured size of
    such tokens is not checked anywhere, and of size zero all are empty. -/
theorem OneCredential.pending_iff {h : Hist} {r : LoginResult} (hr : OneCredential cfg h r)
    (hsize : 0 < cfg.resetTokenBytes) : r.pendingToken ≠ "" ↔ r.needsSecondFactor = true := by
  constructor
  · intro hne
    by_contra hneeds
    exact hne (hr.noPending (Bool.eq_false_iff.mpr hneeds))
  · intro hneeds hempty
    have hlen := (hr.pendingStored hneeds).1
    rw [hempty] at hlen
    simp at hlen
    omega

/-- An operation that got an error from the second-factor checker writes neither a
    session nor a pending token, before or after. -/
theorem failed_check_issues_nothing (hv : Trace cfg w₀ trace w) {i : Nat} {uid : UUID} {err : Err}
    (hask : Did (history i trace) (.hasSecondFactor uid) (.error err)) {e : Entry cfg}
    (he : e ∈ trace) (htid : e.tid = i) :
    (∀ s, e.op ≠ .createSession s) ∧ ∀ t, e.op = .createToken t → t.purpose ≠ .twoFactor := by
  obtain ⟨later, past, htrace⟩ := List.append_of_mem he
  have hfirst : Call.FirstFactor e.call := by
    obtain ⟨k, hk, hki, hkev⟩ := mem_history.mp hask
    rw [hv.call_eq he hk (htid.trans hki.symm)]
    exact asked_firstFactor hv hk (congrArg Sigma.fst hkev)
  -- Both writes need an answer, and there is only one.
  have hno {b : Bool} {uid' : UUID} (hd : Did (history e.tid past) (.hasSecondFactor uid') (.ok b)) :
      False := by
    have hmono : history e.tid past <:+ history i trace := by
      rw [← htid]
      exact history_suffix ⟨later ++ [e], by rw [htrace]; simp⟩ e.tid
    cases (asked_once hv hask (hd.mono hmono)).2
  constructor
  · intro s hop
    exact hno ((createSession_spec hv htrace hop).2.noSecondFactor hfirst)
  · intro t hop hpurpose
    have hmay := (createToken_spec hv htrace hop).2
    rw [hpurpose] at hmay
    exact hno (hmay.secondFactor hfirst)

/-- No session without its gates. -/
structure IssuanceSafety (c : Run cfg) : Prop where
  /-- Every session but a signup's was written by an operation that had loaded its
      user and found it neither disabled nor locked, and verified if it has to be. -/
  gated : ∀ (later : List (Entry cfg)) (g : Entry cfg) (past : List (Entry cfg)),
    c.trace = later ++ g :: past → ∀ s, g.op = .createSession s → ¬ Call.IsRegister g.call →
    Gated cfg (history g.tid past) s.userID
  /-- A first factor alone is enough only if the checker said so. -/
  firstFactor : ∀ (later : List (Entry cfg)) (g : Entry cfg) (past : List (Entry cfg)),
    c.trace = later ++ g :: past → ∀ s, g.op = .createSession s → Call.FirstFactor g.call →
    Did (history g.tid past) (.hasSecondFactor s.userID) (.ok false) ∧
      ∀ uid err, ¬ Did (history g.tid c.trace) (.hasSecondFactor uid) (.error err)
  /-- A second factor consumes a pending login of the very same user. -/
  secondFactor : ∀ (later : List (Entry cfg)) (g : Entry cfg) (past : List (Entry cfg)),
    c.trace = later ++ g :: past → ∀ s, g.op = .createSession s → ∀ uid raw ri,
    g.call = .completeTwoFactor uid raw ri →
    ∃ t, t.purpose = .twoFactor ∧ t.userID = s.userID ∧ t.used = false ∧
      Redeemed (history g.tid past) (hashToken raw) .twoFactor { t with used := true } ∧
      ∃ k ∈ past, k.tid = g.tid ∧ t ∈ k.pre.tokens ∧
        k.event = ⟨.consumeToken (hashToken raw) .twoFactor, .ok { t with used := true }⟩
  /-- A rotation removes a row of the same user first. -/
  rotation : ∀ (later : List (Entry cfg)) (g : Entry cfg) (past : List (Entry cfg)),
    c.trace = later ++ g :: past → ∀ s, g.op = .createSession s → ∀ old,
    g.call = .refreshSession old →
    ∃ k ∈ past, k.tid = g.tid ∧ k.event = ⟨.deleteSession old.userID old.id, .ok ()⟩ ∧
      (∃ row ∈ k.pre.sessions, row.id = old.id ∧ row.userID = s.userID) ∧
      ∀ row ∈ k.post.sessions, row.id ≠ old.id
  /-- An error of the checker yields nothing. -/
  checkerError : ∀ i uid err, Did (history i c.trace) (.hasSecondFactor uid) (.error err) →
    (∀ e ∈ c.trace, e.tid = i →
      (∀ s, e.op ≠ .createSession s) ∧ ∀ t, e.op = .createToken t → t.purpose ≠ .twoFactor) ∧
    ∀ call a, ¬ c.Returned i call (.ok a)
  /-- A successful first factor returns one credential. -/
  login : ∀ i email password ri r, c.Returned i (.login email password ri) (.ok r) →
    OneCredential cfg (history i c.trace) r ∧
      (0 < cfg.resetTokenBytes → (r.pendingToken ≠ "" ↔ r.needsSecondFactor = true))
  redeem : ∀ i raw nonce ri r, c.Returned i (.redeemMagicLink raw nonce ri) (.ok r) →
    OneCredential cfg (history i c.trace) r ∧
      (0 < cfg.resetTokenBytes → (r.pendingToken ≠ "" ↔ r.needsSecondFactor = true))

/-- No successful call got an error from the second-factor checker. -/
theorem failed_check_fails {as : List (system cfg).Action} {c : Run cfg}
    (hrun : (Config.start w₀).run as = some c) {i : Nat} {uid : UUID} {err : Err}
    (hask : Did (history i c.trace) (.hasSecondFactor uid) (.error err)) (call : Call)
    (a : call.Ret) : ¬ c.Returned i call (.ok a) := by
  intro hret
  have hv := run_trace_valid hrun
  have hfirst : call.FirstFactor := by
    obtain ⟨k, hk, hki, hkev⟩ := mem_history.mp hask
    rw [← run_call hrun hret hk hki]
    exact asked_firstFactor hv hk (congrArg Sigma.fst hkev)
  have hno {h : LoginResult} (hr : LoginShape cfg (history i c.trace) h) : False := by
    rcases hr with ⟨_, hd, _⟩ | ⟨_, hd, _⟩
    · cases (asked_once hv hask hd).2
    · cases (asked_once hv hask hd).2
  have hout := run_outcome hrun hret
  cases call with
  | login => exact hno hout.1
  | redeemMagicLink => exact hno hout.1
  | _ => exact hfirst

/-- Every run from empty stores issues sessions safely. -/
theorem issuanceSafety {as : List (system cfg).Action} {c : Run cfg}
    (hrun : (Run.empty cfg).run as = some c) : IssuanceSafety c := by
  have hv := run_trace_valid hrun
  refine ⟨?_, ?_, ?_, ?_, ?_, ?_, ?_⟩
  · intro later g past htrace s hop hcall
    exact (createSession_spec hv htrace hop).2.gated hcall
  · intro later g past htrace s hop hcall
    refine ⟨(createSession_spec hv htrace hop).2.noSecondFactor hcall, fun uid err hask => ?_⟩
    exact (failed_check_issues_nothing hv hask (by rw [htrace]; simp) rfl).1 s hop
  · intro later g past htrace s hop uid raw ri hcall
    exact completed_pending hv htrace hop hcall
  · intro later g past htrace s hop old hcall
    exact refreshed_row hv htrace hop hcall
  · intro i uid err hask
    exact ⟨fun e he htid => failed_check_issues_nothing hv hask he htid,
      failed_check_fails hrun hask⟩
  · intro i email password ri r hret
    have hone := (run_outcome hrun hret).1.oneCredential
    exact ⟨hone, hone.pending_iff⟩
  · intro i raw nonce ri r hret
    have hone := (run_outcome hrun hret).1.oneCredential
    exact ⟨hone, hone.pending_iff⟩

end

section

open Scenario

attribute [local instance] plain

/-- Somebody without an account asks for a link and redeems it. -/
def linkSignup : List (Call × Nat) :=
  [(.createMagicLinkToken "a" {}, 6), (.redeemMagicLink (raw 1) (raw 2) {}, 16)]

theorem issuanceSafety_linkSignup :
    ∃ c, play linkSignup = some c ∧ c.world.sessions.rows.length = 1 ∧ IssuanceSafety c := by
  obtain ⟨c, hplay, hlen⟩ := computed (o := play linkSignup)
    (P := fun c => c.world.sessions.rows.length = 1) (by decide +kernel)
  obtain ⟨as, hrun⟩ := Config.runBlocks_run hplay
  exact ⟨c, hplay, hlen, issuanceSafety hrun⟩

end

end Sulis
