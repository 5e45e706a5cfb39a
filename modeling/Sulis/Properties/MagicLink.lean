-- SUMMARY: Magic links that outlive a recovery: those that name only an address, and why no others do.
import Sulis.Properties.StagedEmail

/-!
# Magic links after a recovery

A recovery purges the magic links stored with the user's ID. A link requested
when nobody held the address is stored with the address only, and belongs to
whoever holds that address when it is redeemed.
-/

namespace Sulis

open Interaction Interaction.System

section

variable [Platform] {cfg : Config} {w₀ w : World} {trace later past : List (Entry cfg)}
  {e : Entry cfg} {uid : UUID}

/-- The step stores a session or a pending login of the user. -/
def YieldsFor (e : Entry cfg) (uid : UUID) : Prop :=
  (∃ s, e.op = .createSession s ∧ s.userID = uid) ∨
    ∃ t, e.op = .createToken t ∧ t.purpose = .twoFactor ∧ t.userID = uid

/-- A redeemed link yields something only for the account it leads to. -/
theorem YieldsFor.resolves (hv : Trace cfg {} trace w) (htrace : trace = later ++ e :: past)
    (hyield : YieldsFor e uid) {g : Entry cfg} {t : Token} (hg : g ∈ trace)
    (hop : g.op = .createToken t) (hkind : t.purpose = .magicLink) (hspent : Spends trace e.tid t) :
    ∃ u, Resolves (history e.tid past) { t with used := true } u ∧ u.id = uid := by
  obtain ⟨hash, tok, hd, hid⟩ := hspent
  have hmono : history e.tid past <:+ history e.tid trace :=
    history_suffix ⟨later ++ [e], by rw [htrace]; simp⟩ e.tid
  -- Only `RedeemMagicLink` consumes a link, and it consumes no other.
  obtain ⟨raw, nonce, ri, hcall⟩ : ∃ raw nonce ri, e.call = .redeemMagicLink raw nonce ri := by
    obtain ⟨k, hk, htid, hev⟩ := mem_history.mp hd
    obtain ⟨raw, hraw, -⟩ := consumed_given hv hk (congrArg Sigma.fst hev)
    rw [← hv.call_eq (show e ∈ trace by rw [htrace]; simp) hk htid.symm, hkind] at hraw
    cases hc : (e.call : Call) <;> rw [hc] at hraw <;> cases hraw
    exact ⟨_, _, _, rfl⟩
  have same {tok' : Token} (hred : Redeemed (history e.tid past) (hashToken raw) .magicLink tok') :
      tok' = { t with used := true } := by
    obtain ⟨-, -, heq⟩ := consumed_once hv hd (hred.mono hmono).did
    cases heq
    exact token_redeemed hv hg hop (hred.mono hmono) hid
  rcases hyield with ⟨s, hs, huser⟩ | ⟨t', ht', hpurpose, huser⟩
  · have hmay := (createSession_spec hv htrace hs).2
    rw [hcall, huser] at hmay
    cases hmay with
    | redeemMagicLink _ _ htok hu hid => exact ⟨_, same htok ▸ hu, hid⟩
  · have hmay := (createToken_spec hv htrace ht').2
    rw [hcall, huser, hpurpose] at hmay
    generalize t'.email = email at hmay
    cases hmay with
    | redeemMagicLink _ _ htok hu hid => exact ⟨_, same htok ▸ hu, hid⟩

/-- A link that names only an address yields nothing for a user who has another
    one, unless it is used to create that user. -/
theorem YieldsFor.holds_address (hv : Trace cfg {} trace w) (htrace : trace = later ++ e :: past)
    (hyield : YieldsFor e uid) {g : Entry cfg} {t : Token} (hg : g ∈ trace)
    (hop : g.op = .createToken t) (hkind : t.purpose = .magicLink) (hspent : Spends trace e.tid t)
    (hnil : t.userID = .nil) :
    ∃ q ∈ past, q.tid = e.tid ∧
      ((∃ row ∈ q.pre.users, row.id = uid ∧ row.email = t.email) ∨
        ∀ row ∈ q.pre.users, row.id ≠ uid) := by
  obtain ⟨u, hres, rfl⟩ := hyield.resolves hv htrace hg hop hkind hspent
  have hpast : Trace cfg {} past e.pre := (Valid.entry (htrace ▸ hv)).1
  rcases hres with ⟨hne, -⟩ | ⟨-, hemail, hget | hcreate⟩
  · exact absurd hnil hne
  · obtain ⟨q, hq, htid, hev⟩ := mem_history.mp hget
    obtain ⟨hmem, -, -⟩ := World.serve_getUserByEmail (hpast.served hq hev)
    exact ⟨q, hq, htid, Or.inl ⟨u, hmem, rfl, hemail⟩⟩
  · obtain ⟨q, hq, htid, hev⟩ := mem_history.mp hcreate
    exact ⟨q, hq, htid, Or.inr (World.serve_createUser (hpast.served hq hev)).1⟩

/-! ## The property -/

/-- Operation `i` recovers the user, and `address` is the one whose links it has
    to end: the user's own, or the one the user moves away from. -/
inductive RecoversFrom (c : Run cfg) (i : Nat) (uid : UUID) (address : String) : Prop
  | password (hset : PasswordSetBy c i uid)
      (haddress : ∃ e ∈ c.trace, e.tid = i ∧ ∃ row ∈ e.post.users, row.id = uid ∧
        row.email = address)
  | moved (hmoved : EmailMovedBy c i uid)
      (haddress : ∃ e ∈ c.trace, e.tid = i ∧ (∃ row ∈ e.pre.users, row.id = uid ∧
        row.email = address) ∧ ∃ row ∈ e.post.users, row.id = uid ∧ row.email ≠ address)

/-- A magic link from before the recovery `i` yields something for the user after
    it. -/
structure LinkOutlives (c : Run cfg) (i : Nat) (uid : UUID) (address : String) (t : Token) :
    Prop where
  recovery : RecoversFrom c i uid address
  issued : ∃ g ∈ c.trace, g.tid < i ∧ g.op = .createToken t
  kind : t.purpose = .magicLink
  target : t.userID = uid ∨ (t.userID = .nil ∧ t.email = address)
  yields : ∃ e ∈ c.trace, i < e.tid ∧ Spends c.trace e.tid t ∧ YieldsFor e uid

variable {c : Run cfg} {i : Nat} {address : String} {t : Token}
  {blocks : List (Call × List Choice)} {as : List (system cfg).Action}

theorem RecoversFrom.recovered (hrec : RecoversFrom c i uid address)
    (hrun : (Config.start w₀).run as = some c) : Recovered cfg (history i c.trace) uid := by
  cases hrec with
  | password hset => exact hset.recovered hrun
  | moved hmoved => exact (hmoved.recovered hrun).1

/-- The user exists when operation `i` runs. -/
theorem RecoversFrom.user (hrec : RecoversFrom c i uid address) :
    ∃ d ∈ c.trace, d.tid = i ∧ ∃ row ∈ d.post.users, row.id = uid := by
  cases hrec with
  | password _ haddress =>
    obtain ⟨d, hd, htid, row, hrow, hid, -⟩ := haddress
    exact ⟨d, hd, htid, row, hrow, hid⟩
  | moved _ haddress =>
    obtain ⟨d, hd, htid, -, row, hrow, hid, -⟩ := haddress
    exact ⟨d, hd, htid, row, hrow, hid⟩

/-- No link outlives a recovery if it was stored with the user's ID, or if the user
    does not hold its address while it is redeemed. -/
theorem link_ends (hrun : (Run.empty cfg).runBlocks blocks = some c)
    (hwhen : t.userID = uid ∨ ∀ e ∈ c.trace, i < e.tid → Spends c.trace e.tid t →
      ∀ row ∈ e.pre.users, row.id = uid → row.email ≠ t.email) :
    ¬ LinkOutlives c i uid address t := by
  intro hout
  obtain ⟨as, has⟩ := Config.runBlocks_run hrun
  have hv := run_trace_valid has
  have hseq := (Config.sequential_start _).runBlocks hrun
  have hrec := hout.recovery.recovered has
  obtain ⟨g, hg, hlt, hop⟩ := hout.issued
  obtain ⟨e, he, hi, hspent, hyield⟩ := hout.yields
  by_cases huser : t.userID = uid
  · obtain ⟨k, hk, htid, row, hrow, hid⟩ := hspent.row hv
    exact token_issued_gone hrun (hrec.ne_nil has) hrec.links hg hlt hop huser hout.kind hk
      (htid ▸ hi) row hrow hid
  · have hwhen := hwhen.resolve_left huser
    obtain ⟨hnil, -⟩ := hout.target.resolve_left huser
    obtain ⟨later, past, htrace⟩ := List.append_of_mem he
    obtain ⟨q, hq, htid, hcase⟩ :=
      hyield.holds_address hv htrace hg hop hout.kind hspent hnil
    have hqc : q ∈ c.trace := by rw [htrace]; simp [hq]
    rcases hcase with ⟨row, hrow, hid, hemail⟩ | hnone
    · exact hwhen q hqc (htid ▸ hi) (htid ▸ hspent) row hrow hid hemail
    · -- The user was there all along, so nobody was created under this ID.
      obtain ⟨d, hd, rfl, hrow⟩ := hout.recovery.user
      obtain ⟨l, p, htrace'⟩ := List.append_of_mem hd
      obtain ⟨l₁, l₂, rfl⟩ := List.append_of_mem (hseq.mem_later htrace' hqc (htid ▸ hi))
      have hpre : Trace cfg {} (l₂ ++ d :: p) q.pre := by
        rw [htrace', List.append_assoc, List.cons_append] at hv
        exact (Valid.entry hv).1
      obtain ⟨row, hrow, hid⟩ := user_kept (Valid.upto (htrace' ▸ hv)) hpre hrow
      exact hnone row hrow hid

end

section

open Scenario

attribute [local instance] plain

/-- A link for an address nobody holds, requested at ticks 0 to 5. -/
def addressLink : Token :=
  { id := ident 4, userID := .nil, tokenHash := raw 1, purpose := .magicLink
    expiresAt := 3 + config.magicLinkDuration, createdAt := 3, email := "a", nonceHash := raw 2 }

/-- The link is requested before the account exists, and redeemed after its
    password was changed. -/
def linkBeforeAccount : List (Call × Nat) :=
  [(.createMagicLinkToken "a" {}, 6), (.register "a" [1] {}, 8),
    (.changePassword (ident 8) [1] [2] {}, 9), (.redeemMagicLink (raw 1) (raw 2) {}, 14)]

theorem address_link_survives :
    ∃ c, play linkBeforeAccount = some c ∧ Faultless c.trace ∧
      LinkOutlives c 2 (ident 8) "a" addressLink := by
  obtain ⟨c, hplay, hok, hset, haddress, hissued, hspent, hsession⟩ :=
    computed (o := play linkBeforeAccount)
    (P := fun c => (∀ e ∈ c.trace, e.choice.fault = none) ∧
      succeeded c 2 (.changePassword (ident 8) [1] [2] {}) = true ∧
      (∃ e ∈ c.trace, e.tid = 2 ∧ ∃ row ∈ e.post.users.rows, row.id = ident 8 ∧
        row.email = "a") ∧
      (∃ g ∈ c.trace, g.tid < 2 ∧ g.op = .createToken addressLink) ∧
      spent c 3 addressLink = true ∧ sessionFor c 3 (ident 8) = true)
    (by decide +kernel)
  obtain ⟨a, hret⟩ := succeeded_returned hset
  obtain ⟨e, he, htid, hs⟩ := sessionFor_stores hsession
  exact ⟨c, hplay, hok,
    { recovery := .password (.changePassword [1] [2] {} hret) haddress
      issued := hissued
      kind := rfl
      target := Or.inr ⟨rfl, rfl⟩
      yields := ⟨e, he, by omega, htid ▸ spent_spends hspent, Or.inl hs⟩ }⟩

/-- A link for an address somebody holds, requested at ticks 8 to 13. -/
def accountLink : Token :=
  { id := ident 12, userID := ident 2, tokenHash := raw 9, purpose := .magicLink
    expiresAt := 11 + config.magicLinkDuration, createdAt := 11, nonceHash := raw 10 }

/-- The link is requested for an account, and refused after its password was
    changed. -/
def linkAfterAccount : List (Call × Nat) :=
  [(.register "a" [1] {}, 8), (.createMagicLinkToken "a" {}, 6),
    (.changePassword (ident 2) [1] [2] {}, 9), (.redeemMagicLink (raw 9) (raw 10) {}, 1)]

theorem link_ends_linkAfterAccount :
    ∃ c, play linkAfterAccount = some c ∧
      (∃ g ∈ c.trace, g.tid < 2 ∧ g.op = .createToken accountLink) ∧
      ¬ LinkOutlives c 2 (ident 2) "a" accountLink := by
  obtain ⟨c, hplay, hissued⟩ := computed (o := play linkAfterAccount)
    (P := fun c => ∃ g ∈ c.trace, g.tid < 2 ∧ g.op = .createToken accountLink) (by decide +kernel)
  exact ⟨c, hplay, hissued, link_ends hplay (Or.inl rfl)⟩

end

end Sulis
