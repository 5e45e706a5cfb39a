-- SUMMARY: A magic link requested while the account moves away from the address, and when it reaches the account.
import Sulis.Interaction.Overlap
import Sulis.Properties.MagicLink

/-!
# Links for an abandoned address

`CreateMagicLinkToken` looks the address up and then stores a link with the ID it
found. If the account moves away and purges its links in between, the link is
stored too late for the purge and leads to an account that has left the address.
-/

namespace Sulis

open Interaction Interaction.System

section

variable [Platform] {cfg : Config}

/-- Thread `c₀.threads.length` requests a link for the address while the next one
    moves the user away from it, and the link yields something for the user in a
    continuation in which the user does not come back to the address. -/
structure ReachesMoved (c₀ c₁ c₂ : Run cfg) (uid : UUID) (address : String) (t : Token) :
    Prop where
  requested : ∃ asked ri link, c₁.Returned c₀.threads.length (.createMagicLinkToken asked ri)
    (.ok link) ∧ normalizeEmail asked = .ok address
  issued : ∃ g ∈ c₁.trace, g.tid = c₀.threads.length ∧ g.op = .createToken t
  moved : EmailMovedBy c₁ (c₀.threads.length + 1) uid
  swapped : ∃ x ∈ c₁.trace, x.tid = c₀.threads.length + 1 ∧
    (∃ row ∈ x.pre.users, row.id = uid ∧ row.email = address) ∧
    ∃ row ∈ x.post.users, row.id = uid ∧ row.email ≠ address
  away : ∀ later, c₂.trace = later ++ c₁.trace → ∀ e ∈ later, ∀ row ∈ e.pre.users,
    row.id = uid → row.email ≠ address
  yields : ∃ later, c₂.trace = later ++ c₁.trace ∧
    ∃ e ∈ later, Spends c₂.trace e.tid t ∧ YieldsFor e uid

/-- The link request `i` does not straddle the move `j`: it looks the address up
    after the swap, or stores the link before the purge. -/
inductive LinkInTime (c : Run cfg) (i j : Nat) (uid : UUID) : Prop
  | lookedUpAfter (h : ∀ (later : List (Entry cfg)) (q : Entry cfg) (past : List (Entry cfg)),
      c.trace = later ++ q :: past → q.tid = i → (∃ a, q.op = .getUserByEmail a) →
      ∃ x ∈ past, x.tid = j ∧ MovesEmail x uid)
  | storedBefore (h : ∀ (later : List (Entry cfg)) (g : Entry cfg) (past : List (Entry cfg)),
      c.trace = later ++ g :: past → g.tid = i → (∃ t, g.op = .createToken t) →
      ∀ d ∈ past, d.tid = j → d.op ≠ .deleteUserTokens uid .magicLink)

variable {w₀ w w' : World} {trace later past : List (Entry cfg)} {uid : UUID} {address : String}

/-- A user who is elsewhere stays so unless a step moves them back. -/
theorem address_kept_away (hpast : Trace cfg w₀ past w') (hv : Trace cfg w₀ (later ++ past) w)
    (hrow : ∃ row ∈ w'.users, row.id = uid)
    (haway : ∀ row ∈ w'.users, row.id = uid → row.email ≠ address)
    (hmoves : ∀ e ∈ later, MovesEmail e uid → ∀ row ∈ e.post.users, row.id = uid →
      row.email ≠ address) :
    ∀ row ∈ w.users, row.id = uid → row.email ≠ address := by
  refine And.right (a := ∃ row ∈ w.users, row.id = uid) ?_
  refine Valid.world_induction (P := fun w : World => (∃ row ∈ w.users, row.id = uid) ∧
    ∀ row ∈ w.users, row.id = uid → row.email ≠ address) hpast hv ⟨hrow, haway⟩ ?_
  rintro l₁ l₂ e hlater hpre hserve hallow ⟨⟨row₀, hrow₀, hid₀⟩, haway⟩
  obtain ⟨row₁, hrow₁, hid₁, -⟩ := (user_change hpre hserve hallow).row hrow₀
  refine ⟨⟨row₁, hrow₁, hid₁.trans hid₀⟩, fun row hrow hid => ?_⟩
  by_cases hsame : row.email = row₀.email
  · rw [hsame]
    exact haway row₀ hrow₀ hid₀
  · exact hmoves e (by rw [hlater]; simp) ⟨row₀, hrow₀, row, hrow, hid₀, hid, hsame⟩ row hrow hid

/-- All moves of one operation go to the same address. -/
theorem MovesEmail.same_target (hv : Trace cfg w₀ trace w) {x y : Entry cfg} (hx : x ∈ trace)
    (hy : y ∈ trace) (htid : x.tid = y.tid) (hmx : MovesEmail x uid) (hmy : MovesEmail y uid)
    {row row' : User} (hrow : row ∈ x.post.users) (hid : row.id = uid) (hrow' : row' ∈ y.post.users)
    (hid' : row'.id = uid) : row.email = row'.email := by
  have target {x : Entry cfg} (hx : x ∈ trace) (hmx : MovesEmail x uid) {row : User}
      (hrow : row ∈ x.post.users) (hid : row.id = uid) :
      ∃ hash tok, Did (history x.tid trace) (.consumeToken hash .emailChange) (.ok tok) ∧
        row.email = tok.email := by
    obtain ⟨l, p, rfl⟩ := List.append_of_mem hx
    obtain ⟨raw, tok, -, -, hred, -, row₁, hrow₁, hid₁, hemail⟩ := hmx.staged hv rfl
    rw [Store.Table.eq_of_mem hrow hrow₁ (hid.trans hid₁.symm)]
    exact ⟨_, tok, hred.did.mono (history_suffix ⟨l ++ [x], by simp⟩ x.tid), hemail⟩
  obtain ⟨_, tok, hd, hemail⟩ := target hx hmx hrow hid
  obtain ⟨_, tok', hd', hemail'⟩ := target hy hmy hrow' hid'
  obtain ⟨-, -, heq⟩ := consumed_once hv hd (htid ▸ hd')
  cases heq
  rw [hemail, hemail']

/-- What `CreateMagicLinkToken` stores. -/
theorem MayMint.of_link {asked : String} {ri : RequestInfo} {h : Hist} {purpose : TokenPurpose}
    {email : String} (hmay : MayMint cfg (.createMagicLinkToken asked ri) h purpose uid email)
    (hasked : normalizeEmail asked = .ok address) :
    purpose = .magicLink ∧
      ((∃ u, Did h (.getUserByEmail address) (.ok u) ∧ u.id = uid) ∨
        (uid = .nil ∧ email = address)) := by
  cases hmay with
  | knownLink hemail hu =>
    obtain rfl := Except.ok.inj (hasked.symm.trans hemail)
    exact ⟨rfl, Or.inl ⟨_, hu, rfl⟩⟩
  | unknownLink hemail hu herr =>
    obtain rfl := Except.ok.inj (hasked.symm.trans hemail)
    exact ⟨rfl, Or.inr ⟨rfl, rfl⟩⟩

/-! ## The property -/

variable {c₀ c₁ c₂ : Run cfg} {t : Token} {as as' : List (system cfg).Action}

/-- A link stored before the purge with the ID of the user is not there after it. -/
theorem stored_before_purged (hrun : (Run.empty cfg).run as = some c₁) (hv : Trace cfg {} trace w)
    (htrace : trace = later ++ c₁.trace) {i j : Nat} (hij : i ≠ j) (hmoved : EmailMovedBy c₁ j uid)
    {g : Entry cfg} (hg : g ∈ c₁.trace) (hgi : g.tid = i) (hop : g.op = .createToken t)
    (hkind : t.purpose = .magicLink) (huser : t.userID = uid)
    (horder : ∀ (later : List (Entry cfg)) (g : Entry cfg) (past : List (Entry cfg)),
      c₁.trace = later ++ g :: past → g.tid = i → (∃ t, g.op = .createToken t) →
      ∀ d ∈ past, d.tid = j → d.op ≠ .deleteUserTokens uid .magicLink) :
    ∀ k ∈ later, ∀ row ∈ k.pre.tokens, row.id ≠ t.id := by
  intro k hk
  obtain ⟨hrec, -⟩ := hmoved.recovered hrun
  obtain ⟨d, hd, hdj, hdev⟩ := mem_history.mp hrec.links
  obtain ⟨l, p, hsplit⟩ := List.append_of_mem hg
  obtain ⟨l', p', hsplit'⟩ := List.append_of_mem hd
  have hpast : g ∈ p' := by
    rcases append_cons_cases (hsplit.symm.trans hsplit') with h | ⟨mid, hp⟩ | ⟨mid, hp⟩
    · rw [h.2.1] at hgi
      exact absurd (hgi.symm.trans hdj) hij
    · exact absurd (congrArg Sigma.fst hdev)
        (horder l g p hsplit hgi ⟨t, hop⟩ d (by rw [hp]; simp) hdj)
    · rw [hp]; simp
  obtain ⟨l₁, l₂, rfl⟩ := List.append_of_mem hk
  have hpre : Trace cfg {} ((l₂ ++ l') ++ d :: p') k.pre := by
    rw [htrace, hsplit', List.append_assoc, List.cons_append] at hv
    simpa using (Valid.entry hv).1
  exact token_swept hpre (hrec.ne_nil hrun) hdev hpast hop huser hkind

/-- A lookup after the swap does not find the user under the address. -/
theorem looked_up_after_misses (hv : Trace cfg {} trace w) {j : Nat} {x₀ x q : Entry cfg}
    (hx₀ : x₀ ∈ trace) (hx₀j : x₀.tid = j) (hmx₀ : MovesEmail x₀ uid)
    (haway : ∀ row ∈ x₀.post.users, row.id = uid → row.email ≠ address) {mid : List (Entry cfg)}
    (htrace : trace = later ++ q :: (mid ++ x :: past)) (hxj : x.tid = j) (hmx : MovesEmail x uid)
    (hmid : ∀ e ∈ mid, MovesEmail e uid → e.tid = j) :
    ∀ row ∈ q.pre.users, row.id = uid → row.email ≠ address := by
  have hmem {y : Entry cfg} (hy : y ∈ mid ++ x :: past) : y ∈ trace := by rw [htrace]; simp [hy]
  -- Every move of the thread goes where the known one went.
  have target {y : Entry cfg} (hy : y ∈ trace) (hyj : y.tid = j) (hmy : MovesEmail y uid) :
      ∀ row ∈ y.post.users, row.id = uid → row.email ≠ address := by
    intro row hrow hid
    have hmoves := hmx₀
    obtain ⟨-, -, row₀, hrow₀, -, hid₀, -⟩ := hmoves
    rw [MovesEmail.same_target hv hy hx₀ (hyj.trans hx₀j.symm) hmy hmx₀ hrow hid hrow₀ hid₀]
    exact haway row₀ hrow₀ hid₀
  have hpre : Trace cfg {} (mid ++ x :: past) q.pre := (Valid.entry (htrace ▸ hv)).1
  refine address_kept_away (Valid.upto hpre) hpre ?_ (target (hmem (by simp)) hxj hmx) ?_
  · obtain ⟨-, -, row, hrow, -, hid, -⟩ := hmx
    exact ⟨row, hrow, hid⟩
  · intro e he hme
    exact target (hmem (List.mem_append_left _ he)) (hmid e he hme) hme

/-- While the two operations overlap, only the second one moves the user. -/
theorem overlap_moves (hrun : (Run.empty cfg).run as = some c₁) {asked : String} {ri : RequestInfo}
    {raw : String} (hover : c₀.Overlap c₁ (.createMagicLinkToken asked ri) (.confirmEmailChange raw))
    {asked' : String} {ri' : RequestInfo} {link : String × String}
    (hreq : c₁.Returned c₀.threads.length (.createMagicLinkToken asked' ri') (.ok link))
    {e : Entry cfg} (he : e ∈ c₁.trace) (hle : c₀.threads.length ≤ e.tid)
    (hmove : MovesEmail e uid) : e.tid = c₀.threads.length + 1 := by
  obtain ⟨l, p, htrace⟩ := List.append_of_mem he
  obtain ⟨raw', -, hcall, -⟩ := hmove.staged (run_trace_valid hrun) htrace
  have hlt := (run_sound hrun).bounded e he
  rw [hover.threads] at hlt
  by_contra hne
  have heq : e.tid = c₀.threads.length := by omega
  cases (run_call hrun hreq he heq).symm.trans hcall

/-- A link that does not straddle the move is stored for somebody else, or is
    gone. -/
theorem in_time_not_for_user (hbefore : (Run.empty cfg).run as = some c₀)
    (hoverRun : c₀.run as' = some c₁) {asked : String} {ri : RequestInfo} {raw : String}
    (hover : c₀.Overlap c₁ (.createMagicLinkToken asked ri) (.confirmEmailChange raw))
    (hwhen : LinkInTime c₁ c₀.threads.length (c₀.threads.length + 1) uid)
    (hout : ReachesMoved c₀ c₁ c₂ uid address t) (hv : Trace cfg {} c₂.trace c₂.world)
    {later : List (Entry cfg)} (htrace : c₂.trace = later ++ c₁.trace) {j : Nat}
    (hj : c₀.threads.length + 2 ≤ j) (hspent : Spends c₂.trace j t)
    (hkind : t.purpose = .magicLink) : t.userID ≠ uid := by
  intro huser
  have hrun : (Run.empty cfg).run (as ++ as') = some c₁ := by
    rw [Config.run_append, hbefore]
    exact hoverRun
  have hv₁ := run_trace_valid hrun
  have hbound := (run_sound hrun).bounded
  rw [hover.threads] at hbound
  obtain ⟨g, hg, hgi, hop⟩ := hout.issued
  cases hwhen with
  | storedBefore horder =>
    obtain ⟨k, hk, hkj, row, hrow, hid⟩ := hspent.row hv
    refine stored_before_purged hrun hv htrace (by omega) hout.moved hg hgi hop hkind huser horder
      k ?_ row hrow hid
    rw [htrace] at hk
    rcases List.mem_append.mp hk with hk | hk
    · exact hk
    · have := hbound k hk
      omega
  | lookedUpAfter hlookup =>
    obtain ⟨asked', ri', link, hreq, hasked⟩ := hout.requested
    obtain ⟨l, p, hsplit⟩ := List.append_of_mem hg
    have hmay := (createToken_spec hv₁ hsplit hop).2
    rw [run_call hrun hreq hg hgi] at hmay
    obtain ⟨-, ⟨u, hu, hid⟩ | ⟨hnil, -⟩⟩ := hmay.of_link hasked
    · -- The lookup comes after a move, and yet finds the user at the address.
      obtain ⟨q, hq, hqi, hqev⟩ := mem_history.mp hu
      obtain ⟨l', p', hsplit'⟩ := List.append_of_mem
        (show q ∈ c₁.trace by rw [hsplit]; simp [hq])
      obtain ⟨x, hx, hxj, hmx⟩ := hlookup l' q p' hsplit' (hqi.trans hgi)
        ⟨address, congrArg Sigma.fst hqev⟩
      obtain ⟨hmem, hemail, -⟩ := World.serve_getUserByEmail
        (hv₁.served (show q ∈ c₁.trace by rw [hsplit]; simp [hq]) hqev)
      obtain ⟨x₀, hx₀, hx₀j, ⟨row, hrow, hrid, hrowe⟩, row', hrow', hrid', hrowe'⟩ := hout.swapped
      have hmx₀ : MovesEmail x₀ uid :=
        ⟨row, hrow, row', hrow', hrid, hrid', by rw [hrowe]; exact hrowe'⟩
      obtain ⟨mid, p'', rfl⟩ := List.append_of_mem hx
      refine looked_up_after_misses hv₁ hx₀ hx₀j hmx₀ (fun r hr hi => ?_) hsplit' hxj hmx
        (fun e he hme => ?_) u hmem (hid.trans huser) hemail
      · rw [Store.Table.eq_of_mem hr hrow' (hi.trans hrid'.symm)]
        exact hrowe'
      · have hec : e ∈ c₁.trace := by rw [hsplit']; simp [he]
        refine overlap_moves hrun hover hreq hec ?_ hme
        refine hover.before.le_of_mem_later (run_sound hbefore).bounded hoverRun
          (l := l' ++ q :: mid) (d := x) (p := p'') (by rw [hsplit']; simp) (by omega) e ?_
        simp [he]
    · exact (hout.moved.recovered hrun).1.ne_nil hrun (huser.symm.trans hnil)

/-- A link request that does not straddle the move never leads to the account that
    moved away. -/
theorem moved_account_unreachable {asked raw : String} {ri : RequestInfo}
    {as₂ : List (system cfg).Action} (hbefore : (Run.empty cfg).run as = some c₀)
    (hover : c₀.Overlap c₁ (.createMagicLinkToken asked ri) (.confirmEmailChange raw))
    (hafter : c₁.run as₂ = some c₂)
    (hwhen : LinkInTime c₁ c₀.threads.length (c₀.threads.length + 1) uid) :
    ¬ ReachesMoved c₀ c₁ c₂ uid address t := by
  intro hout
  obtain ⟨as', hoverRun⟩ := hover.run
  have hrun : (Run.empty cfg).run (as ++ as') = some c₁ := by
    rw [Config.run_append, hbefore]
    exact hoverRun
  have hrun₂ : (Run.empty cfg).run ((as ++ as') ++ as₂) = some c₂ := by
    rw [Config.run_append, hrun]
    exact hafter
  have hv₁ := run_trace_valid hrun
  have hv := run_trace_valid hrun₂
  obtain ⟨later, htrace, e, he, hspent, hyield⟩ := hout.yields
  -- The continuation is the work of threads started after the two.
  obtain ⟨l₂, p₂, rfl⟩ := List.append_of_mem he
  have hnew : ∀ k ∈ c₁.trace, k.tid < c₁.threads.length := (run_sound hrun).bounded
  have hcont : ∀ k ∈ l₂ ++ e :: p₂, c₁.threads.length ≤ k.tid := by
    obtain ⟨later', htrace', hlater'⟩ := hover.after.run_trace hafter
    rw [List.append_cancel_right (htrace.symm.trans htrace')]
    exact hlater'
  have hej := hcont e he
  obtain ⟨g, hg, hgi, hop⟩ := hout.issued
  obtain ⟨asked', ri', link, hreq, hasked⟩ := hout.requested
  obtain ⟨l, p, hsplit⟩ := List.append_of_mem hg
  have hmay := (createToken_spec hv₁ hsplit hop).2
  rw [run_call hrun hreq hg hgi] at hmay
  obtain ⟨hkind, htarget⟩ := hmay.of_link hasked
  have huser : t.userID ≠ uid := in_time_not_for_user hbefore hoverRun hover hwhen hout hv htrace
    (by rw [hover.threads] at hej; exact hej) hspent hkind
  have hg₂ : g ∈ c₂.trace := by rw [htrace]; exact List.mem_append_right _ hg
  have htrace₂ : c₂.trace = l₂ ++ e :: (p₂ ++ c₁.trace) := by rw [htrace]; simp
  obtain ⟨u, hres, hid⟩ := hyield.resolves hv htrace₂ hg₂ hop hkind hspent
  rcases hres with ⟨-, -, hto⟩ | ⟨hnil, -, -⟩
  · exact huser (hto.symm.trans hid)
  -- The link names only the address, which the user does not hold any more.
  have hemail : t.email = address := by
    rcases htarget with ⟨v, hv', hvid⟩ | ⟨-, hemail⟩
    · obtain ⟨q, hq, -, hqev⟩ := mem_history.mp hv'
      have hqc : q ∈ c₁.trace := by rw [hsplit]; simp [hq]
      obtain ⟨hmem, -⟩ := World.serve_getUserByEmail (hv₁.served hqc hqev)
      obtain ⟨l', p', hsplit'⟩ := List.append_of_mem hqc
      exact absurd (hvid.trans hnil)
        (user_id_ne_nil (Valid.entry (hsplit' ▸ hv₁)).1 hmem)
    · exact hemail
  obtain ⟨q, hq, hqj, hcase⟩ := hyield.holds_address hv htrace₂ hg₂ hop hkind hspent hnil
  have hq' : q ∈ p₂ := by
    rcases List.mem_append.mp hq with hq | hq
    · exact hq
    · have := hnew q hq
      omega
  rcases hcase with ⟨row, hrow, hrid, hrowe⟩ | hnone
  · exact hout.away _ htrace q (by simp [hq']) row hrow hrid (hrowe.trans hemail)
  · obtain ⟨x, hx, -, -, row, hrow, hrid, -⟩ := hout.swapped
    obtain ⟨lx, px, hxsplit⟩ := List.append_of_mem hx
    obtain ⟨m₁, m₂, rfl⟩ := List.append_of_mem hq'
    have hpre : Trace cfg {} ((m₂ ++ lx) ++ x :: px) q.pre := by
      rw [htrace₂, hxsplit] at hv
      have hv' : Trace cfg {} ((l₂ ++ e :: m₁) ++ q :: ((m₂ ++ lx) ++ x :: px)) c₂.world := by
        simpa using hv
      exact (Valid.entry hv').1
    obtain ⟨row', hrow', hrid'⟩ := user_kept (Valid.upto (hxsplit ▸ hv₁)) hpre ⟨row, hrow, hrid⟩
    exact hnone row' hrow' hrid'

end

section

open Scenario

attribute [local instance] plain

/-- An account whose holder has staged another address. -/
def stagedAccount : List (Call × Nat) :=
  [(.register "a" [1] {}, 8), (.changeEmail (ident 2) "b", 8)]

/-- A link for the old address is requested while the account moves to the staged
    one, and is redeemed later. -/
def linkDuringMove (order : List Nat) (nonce link : Nat) (redeemed : Nat) :
    Option ((Run config × Run config) × Run config) :=
  (overlap stagedAccount (.createMagicLinkToken "a" {}) (.confirmEmailChange (raw 12)) 16 order).bind
    (fun x => (x.2.run (.invoke (.redeemMagicLink (raw link) (raw nonce) {}) ::
      steps 32 (List.replicate redeemed 4))).map (fun c => (x, c)))

theorem linkDuringMove_eq_some {order : List Nat} {nonce link redeemed : Nat}
    {c₀ c₁ c₂ : Run config} (h : linkDuringMove order nonce link redeemed = some ((c₀, c₁), c₂))
    (hc : c₁.Quiescent) :
    (∃ as, (Run.empty config).run as = some c₀) ∧
      c₀.Overlap c₁ (.createMagicLinkToken "a" {}) (.confirmEmailChange (raw 12)) ∧
      ∃ as, c₁.run as = some c₂ := by
  simp only [linkDuringMove, Option.bind_eq_some_iff, Option.map_eq_some_iff] at h
  obtain ⟨x, hover, c, hrun, heq⟩ := h
  cases heq
  obtain ⟨hbefore, hover⟩ := overlap_eq_some hover hc
  exact ⟨hbefore, hover, _, hrun⟩

/-- The address is looked up first, and the link stored last. -/
def straddlingOrder : List Nat := 2 :: List.replicate 10 3 ++ List.replicate 5 2

/-- The link stored at ticks 27 to 31. -/
def straddlingLink : Token :=
  { id := ident 30, userID := ident 2, tokenHash := raw 27, purpose := .magicLink
    expiresAt := 29 + config.magicLinkDuration, createdAt := 29, nonceHash := raw 28 }

theorem straddling_link_reaches :
    ∃ as c₀ c₁ as₂ c₂, (Run.empty config).run as = some c₀ ∧
      c₀.Overlap c₁ (.createMagicLinkToken "a" {}) (.confirmEmailChange (raw 12)) ∧
      c₁.run as₂ = some c₂ ∧ Faultless c₂.trace ∧
      ReachesMoved c₀ c₁ c₂ (ident 2) "a" straddlingLink := by
  obtain ⟨⟨⟨c₀, c₁⟩, c₂⟩, hmove, hlen, hquiet, hok, hreq, hmoved, hissued, hswapped, haway, hspent,
      hsession⟩ :=
    computed (o := linkDuringMove straddlingOrder 28 27 10)
    (P := fun x => x.1.1.threads.length = 2 ∧ (∀ t ∈ x.1.2.threads, t.rest.value?.isSome) ∧
      (∀ e ∈ x.2.trace, e.choice.fault = none) ∧
      succeeded x.1.2 2 (.createMagicLinkToken "a" {}) = true ∧
      succeededWith x.1.2 3 (.confirmEmailChange (raw 12)) (fun u => User.id u = ident 2) = true ∧
      (∃ g ∈ x.1.2.trace, g.tid = 2 ∧ g.op = .createToken straddlingLink) ∧
      (∃ y ∈ x.1.2.trace, y.tid = 3 ∧
        (∃ row ∈ y.pre.users.rows, row.id = ident 2 ∧ row.email = "a") ∧
        ∃ row ∈ y.post.users.rows, row.id = ident 2 ∧ row.email ≠ "a") ∧
      (∀ e ∈ x.2.trace, 4 ≤ e.tid → ∀ row ∈ e.pre.users.rows, row.id = ident 2 →
        row.email ≠ "a") ∧
      spent x.2 4 straddlingLink = true ∧ sessionFor x.2 4 (ident 2) = true)
    (by decide +kernel)
  obtain ⟨⟨as, has⟩, hover, as₂, has₂⟩ := linkDuringMove_eq_some hmove hquiet
  have h2 : c₀.threads.length = 2 := hlen
  have h4 : c₁.threads.length = 4 := by rw [hover.threads, h2]
  obtain ⟨link, hreq⟩ := succeeded_returned hreq
  obtain ⟨u, hmoved, hu⟩ := succeededWith_returned hmoved
  obtain ⟨later, htrace, hlater⟩ := hover.after.run_trace has₂
  refine ⟨as, c₀, c₁, as₂, c₂, has, hover, has₂, hok, ?_, ?_, ?_, ?_, ?_, ?_⟩
  · rw [h2]
    exact ⟨"a", {}, link, hreq, by decide +kernel⟩
  · rw [h2]
    exact hissued
  · rw [h2]
    exact ⟨raw 12, u, hmoved, of_decide_eq_true hu⟩
  · rw [h2]
    exact hswapped
  · intro later' htrace' e' he'
    rw [List.append_cancel_right (htrace'.symm.trans htrace)] at he'
    exact haway e' (by rw [htrace]; exact List.mem_append_left _ he') (h4 ▸ hlater e' he')
  · obtain ⟨e, he, hej, s, hs, huser⟩ := sessionFor_stores hsession
    refine ⟨later, htrace, e, ?_, hej ▸ spent_spends hspent, Or.inl ⟨s, hs, huser⟩⟩
    obtain ⟨as', has'⟩ := hover.run
    have hrun : (Run.empty config).run (as ++ as') = some c₁ := by
      rw [Config.run_append, has]
      exact has'
    have hbound := (run_sound hrun).bounded
    rcases List.mem_append.mp (htrace ▸ he) with he | he
    · exact he
    · have := hbound e he
      omega

/-- The link is stored before the account moves. -/
theorem moved_account_unreachable_linkFirst :
    ∃ as c₀ c₁ as₂ c₂, (Run.empty config).run as = some c₀ ∧
      c₀.Overlap c₁ (.createMagicLinkToken "a" {}) (.confirmEmailChange (raw 12)) ∧
      c₁.run as₂ = some c₂ ∧
      LinkInTime c₁ c₀.threads.length (c₀.threads.length + 1) (ident 2) ∧
      ∀ t, ¬ ReachesMoved c₀ c₁ c₂ (ident 2) "a" t := by
  obtain ⟨⟨⟨c₀, c₁⟩, c₂⟩, hmove, hlen, hquiet, hsorted⟩ :=
    computed (o := linkDuringMove (List.replicate 6 2 ++ List.replicate 10 3) 18 17 1)
    (P := fun x => x.1.1.threads.length = 2 ∧ (∀ t ∈ x.1.2.threads, t.rest.value?.isSome) ∧
      x.1.2.trace.Pairwise (fun newer older => newer.tid = 2 → older.tid ≠ 3))
    (by decide +kernel)
  obtain ⟨⟨as, has⟩, hover, as₂, has₂⟩ := linkDuringMove_eq_some hmove hquiet
  have hwhen : LinkInTime c₁ c₀.threads.length (c₀.threads.length + 1) (ident 2) := by
    refine .storedBefore (fun later g past htrace hgi _ d hd hdj => ?_)
    rw [show c₁.trace = _ from htrace] at hsorted
    have := (List.pairwise_cons.mp (List.pairwise_append.mp hsorted).2.1).1 d hd
    simp only [hlen] at hgi hdj
    exact absurd hdj (this hgi)
  exact ⟨as, c₀, c₁, as₂, c₂, has, hover, has₂, hwhen,
    fun t => moved_account_unreachable has hover has₂ hwhen⟩

end

end Sulis
