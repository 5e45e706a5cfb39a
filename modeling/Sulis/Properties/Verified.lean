-- SUMMARY: A verified address has been proven: some token issued for it was redeemed.
import Sulis.Properties.StagedEmail

/-!
# Verified means proven

Whatever runs concurrently, a user whose address counts as verified holds an
address for which somebody redeemed a token that was issued for it. The stamp is
put on the row as it is at that moment, while the token was checked against an
older copy of it: what links the two is that the address of an unverified user
never changes.
-/

namespace Sulis

open Interaction Interaction.System

section

variable [Platform] {cfg : Config}

/-- A lookup that fails does not claim that there is no such user. -/
def TruthfulLookups (trace : List (Entry cfg)) : Prop :=
  ∀ e ∈ trace, ∀ address, e.op = .getUserByEmail address →
    ∀ f, e.choice.fault = some f → f.err.is .userNotFound = false

/-- The token stored by `g` was issued for this address of the user. -/
inductive IssuedFor (g : Entry cfg) (past : List (Entry cfg)) (uid : UUID) (address : String)
    (t : Token) : Prop
  | verification (hkind : t.purpose = .emailVerification) (huser : t.userID = uid)
      (hemail : t.email = address)
  | change (hkind : t.purpose = .emailChange) (huser : t.userID = uid) (hemail : t.email = address)
  /-- A link requested when no account had the address. -/
  | unclaimedLink (hkind : t.purpose = .magicLink) (huser : t.userID = .nil)
      (hemail : t.email = address)
      (hlookup : ∃ q ∈ past, q.tid = g.tid ∧ q.op = .getUserByEmail address ∧
        ∀ row ∈ q.pre.users, row.email ≠ address)
  /-- A link requested while the user held the address. -/
  | liveLink (hkind : t.purpose = .magicLink) (huser : t.userID = uid)
      (hlookup : ∃ q ∈ past, q.tid = g.tid ∧ q.op = .getUserByEmail address ∧
        ∃ row ∈ q.pre.users, row.id = uid ∧ row.email = address)

/-- A token issued for this address of the user was redeemed in time. -/
def ProvenFor (trace : List (Entry cfg)) (uid : UUID) (address : String) : Prop :=
  ∃ later k mid g past t hash, trace = later ++ k :: (mid ++ g :: past) ∧ g.op = .createToken t ∧
    k.event = ⟨.consumeToken hash t.purpose, .ok { t with used := true }⟩ ∧
    Redeemed (history k.tid trace) hash t.purpose { t with used := true } ∧
    IssuedFor g past uid address t

variable {w₀ w : World} {trace past : List (Entry cfg)} {e : Entry cfg} {uid : UUID}
  {address : String}

theorem ProvenFor.cons (h : ProvenFor past uid address) (e : Entry cfg) :
    ProvenFor (e :: past) uid address := by
  obtain ⟨later, k, mid, g, past', t, hash, htrace, hop, hev, hred, hfor⟩ := h
  exact ⟨e :: later, k, mid, g, past', t, hash, by rw [htrace]; rfl, hop, hev,
    hred.mono (history_suffix ⟨[e], rfl⟩ k.tid), hfor⟩

/-! ## The address of an unverified user -/

/-- The address of an unverified user is the one in every copy ever read. -/
def SameAddress (trace : List (Entry cfg)) (s : UserStore) : Prop :=
  ∀ row ∈ s, row.emailVerifiedAt = none → ∀ e ∈ trace, ∀ u, Saw e u → u.id = row.id →
    u.email = row.email

/-- A change that leaves a user unverified leaves the address alone. -/
theorem RowChange.unverified {call : Call} {h : Hist} {op : Op} {row row' : User}
    (hc : RowChange cfg call h op row row') (hnone : row'.emailVerifiedAt = none) :
    row.emailVerifiedAt = none ∧ row'.email = row.email := by
  cases hc with
  | same heq => rw [heq] at hnone ⊢; exact ⟨hnone, rfl⟩
  | commit u m hop hmay happly heq =>
    have hframe := Mutation.frame happly
    have hu : u.emailVerifiedAt = none := by rw [heq] at hnone; exact hnone
    refine ⟨?_, ?_⟩
    · by_contra hsome
      exact hframe.verified hsome hu
    · rw [heq]
      refine hframe.email (fun email now hm => ?_)
      rw [hm] at happly
      rw [(Mutation.apply_confirmEmailChange.mp happly).2] at hu
      cases hu

theorem sameAddress (hv : Trace cfg w₀ trace w) : SameAddress trace w.users := by
  induction hv with
  | nil => intro row hrow _ e he; cases he
  | cons e past hpast hserve hallow hcall ih =>
    intro row' hrow' hnone e' he' u hsaw hid
    rcases List.mem_cons.mp he' with rfl | he'
    · -- The copy was read just now.
      rw [Store.Table.eq_of_mem (hsaw.mem_post hserve) hrow' hid]
    · rcases (user_change hpast hserve hallow).row_before hrow' with
        ⟨-, -, hnew⟩ | ⟨row, hrow, hid', hchange⟩
      · obtain ⟨row, hrow, hrid⟩ := (hsaw.behind hpast he').stored
        exact absurd (hrid.trans hid) (hnew row hrow)
      · obtain ⟨hnone', hemail⟩ := hchange.unverified hnone
        rw [hemail]
        exact ih row hrow hnone' e' he' u hsaw (hid.trans hid')

/-! ## The proof behind a stamp -/

/-- A magic link was issued for the address it was asked for: that of the account
    it names, or one that no account had. -/
theorem magicLink_issuedFor {later : List (Entry cfg)} {g : Entry cfg} {t : Token}
    (hv : Trace cfg {} trace w) (htrace : trace = later ++ g :: past)
    (hlookups : TruthfulLookups trace) (hop : g.op = .createToken t)
    (hkind : t.purpose = .magicLink) :
    (t.userID ≠ .nil ∧
      ∃ q ∈ past, ∃ u, Saw q u ∧ u.id = t.userID ∧ IssuedFor g past t.userID u.email t) ∨
      (t.userID = .nil ∧ ∀ uid, IssuedFor g past uid t.email t) := by
  have hmay := (createToken_spec hv htrace hop).2
  rw [hkind] at hmay
  subst htrace
  have hpast := (Valid.entry hv).1
  obtain ⟨asked, ri, address, -, -, ⟨u, hd, hid, -⟩ | ⟨err, hd, herr, hnil, hemail⟩⟩ :=
    hmay.magicLink
  · obtain ⟨q, hq, htid, hev⟩ := mem_history.mp hd
    obtain ⟨hmem, haddress, -⟩ := World.serve_getUserByEmail (Valid.served hpast hq hev)
    subst haddress
    have hne : u.id ≠ .nil := by
      obtain ⟨l, p, rfl⟩ := List.append_of_mem hq
      exact user_id_ne_nil (Valid.entry hpast).1 hmem
    exact Or.inl ⟨hid ▸ hne, q, hq, u, Or.inr (Or.inl hev), hid, .liveLink hkind rfl
      ⟨q, hq, htid, congrArg Sigma.fst hev, u, hmem, hid, rfl⟩⟩
  · obtain ⟨q, hq, htid, hev⟩ := mem_history.mp hd
    have hq' : q ∈ later ++ g :: past := by simp [hq]
    have hnobody := World.serve_getUserByEmail_notFound
      (hlookups q hq' address (congrArg Sigma.fst hev)) (Valid.served hpast hq hev) herr
    subst hemail
    exact Or.inr ⟨hnil, fun _ => .unclaimedLink hkind hnil rfl
      ⟨q, hq, htid, congrArg Sigma.fst hev, hnobody⟩⟩

/-- A redeemed token proves the address it was issued for. -/
theorem Redeemed.proven {i : Nat} {hash : String} {purpose : TokenPurpose} {tok : Token}
    (hv : Trace cfg {} trace w) (hr : Redeemed (history i trace) hash purpose tok)
    (hfor : ∀ later g past t, trace = later ++ g :: past → g.op = .createToken t →
      tok = { t with used := true } → t.purpose = purpose → IssuedFor g past uid address t) :
    ProvenFor trace uid address := by
  obtain ⟨later, k, mid, g, past, t, htrace, rfl, hev, hop, rfl, -, rfl, -⟩ := hr.origin hv
  exact ⟨later, k, mid, g, past, t, hash, htrace, hop, hev, hr,
    hfor (later ++ k :: mid) g past t (by rw [htrace]; simp) hop rfl rfl⟩

/-- Verifying an unverified user takes a proof of the address in its row. -/
theorem MayMutate.stamp_proven {i : Nat} {call : Call} {row : User} {now : Int}
    (hmay : MayMutate cfg call (history i trace) row.id (.stampEmailVerified now))
    (hv : Trace cfg {} trace w) (hlookups : TruthfulLookups trace) (hrow : row ∈ w.users)
    (hnone : row.emailVerifiedAt = none) : ProvenFor trace row.id row.email := by
  -- Whichever copy the token was checked against has the address of the row.
  have haddress {e : Entry cfg} {u : User} (he : e ∈ trace) (hsaw : Saw e u)
      (hid : u.id = row.id) : u.email = row.email := sameAddress hv row hrow hnone e he u hsaw hid
  rcases hmay.stamped with ⟨raw, tok, u, -, hred, huser, hread, hid, hemail⟩ |
    ⟨raw, nonce, ri, tok, u, -, hred, hres, hid⟩
  · obtain ⟨e, he, -, hsaw⟩ := hread.saw
    refine hred.proven hv fun later g past t htrace hop htok hkind => ?_
    subst htok
    exact .verification hkind huser (hemail.trans (haddress he hsaw hid))
  · refine hred.proven hv fun later g past t htrace hop htok hkind => ?_
    subst htok
    rcases magicLink_issuedFor hv htrace hlookups hop hkind with
      ⟨hne, q, hq, u', hsaw, hid', hfor⟩ | ⟨hnil, hfor⟩ <;>
    rcases hres with ⟨hne', -, huser⟩ | ⟨hnil', hemail, hd⟩
    · -- The link names the user, who held the address it was asked for.
      have huser : t.userID = row.id := huser.symm.trans hid
      have hu' := haddress (show q ∈ trace by rw [htrace]; simp [hq]) hsaw (hid'.trans huser)
      rw [huser, hu'] at hfor
      exact hfor
    · exact absurd hnil' hne
    · exact absurd hnil hne'
    · -- The link names an address, and the user was found or created by it.
      obtain ⟨e, he, hsaw⟩ : ∃ e ∈ trace, Saw e u := by
        rcases hd with hd | hd <;> obtain ⟨e, he, -, hev⟩ := mem_history.mp hd
        · exact ⟨e, he, Or.inr (Or.inl (by rw [hemail]; exact hev))⟩
        · exact ⟨e, he, Or.inr (Or.inr hev)⟩
      have hu := haddress he hsaw hid
      rw [show row.email = t.email from hu.symm.trans hemail]
      exact hfor row.id

/-- A change that verifies a user, or moves a verified one, comes with the proof
    for the address the user then has. -/
theorem RowChange.proven {i : Nat} {call : Call} {op : Op} {row row' : User}
    (hc : RowChange cfg call (history i past) op row row') (hpast : Trace cfg {} past w)
    (hlookups : TruthfulLookups past) (hrow : row ∈ w.users) (hsome : row'.emailVerifiedAt ≠ none) :
    ProvenFor past row.id row'.email ∨ row.emailVerifiedAt ≠ none ∧ row'.email = row.email := by
  cases hc with
  | same heq => rw [heq] at hsome ⊢; exact Or.inr ⟨hsome, rfl⟩
  | commit u m hop hmay happly heq =>
    have hframe := Mutation.frame happly
    have hemail' : row'.email = u.email := by rw [heq]
    have hverified : u.emailVerifiedAt ≠ none := by rw [heq] at hsome; exact hsome
    rw [hemail']
    by_cases hconfirm : ∃ email now, m = .confirmEmailChange email now
    · obtain ⟨email, now, rfl⟩ := hconfirm
      obtain ⟨raw, tok, -, huser, hemail, hred⟩ := hmay.confirmed
      have hu : u.email = email := by rw [(Mutation.apply_confirmEmailChange.mp happly).2]
      refine Or.inl (hred.proven hpast fun later g past' t htrace hop htok hkind => ?_)
      subst htok
      exact .change hkind huser (hemail.trans hu.symm)
    have hconfirm' : ∀ email now, m ≠ .confirmEmailChange email now :=
      fun email now h => hconfirm ⟨email, now, h⟩
    rw [hframe.email hconfirm']
    by_cases hstamp : ∃ now, m = .stampEmailVerified now
    · obtain ⟨now, rfl⟩ := hstamp
      have hnone := (Mutation.apply_stampEmailVerified.mp happly).1
      exact Or.inl (hmay.stamp_proven hpast hlookups hrow hnone)
    · rw [hframe.unverified (fun now h => hstamp ⟨now, h⟩) hconfirm'] at hverified
      exact Or.inr ⟨hverified, rfl⟩

/-- Whoever counts as verified has proven the address. -/
theorem verified_proven (hv : Trace cfg {} trace w) (hlookups : TruthfulLookups trace)
    {row : User} (hrow : row ∈ w.users) (hsome : row.emailVerifiedAt ≠ none) :
    ProvenFor trace row.id row.email := by
  induction hv generalizing row with
  | nil => exact absurd hrow (Store.Table.not_mem_empty row)
  | cons e past hpast hserve hallow hcall ih =>
    have hlookups' : TruthfulLookups past := fun e' he' => hlookups e' (List.mem_cons_of_mem _ he')
    rcases (user_change hpast hserve hallow).row_before hrow with
      ⟨-, hmay, -⟩ | ⟨row₀, hrow₀, hid, hchange⟩
    · exact absurd hmay.newUser.email hsome
    · rcases hchange.proven hpast hlookups' hrow₀ hsome with hproven | ⟨hsome₀, hemail⟩
      · rw [hid]
        exact hproven.cons e
      · rw [hid, hemail]
        exact (ih hlookups' hrow₀ hsome₀).cons e

/-! ## Addresses -/

/-- No two users have one address. -/
theorem email_distinct (hv : Trace cfg {} trace w) {row row' : User} (hrow : row ∈ w.users)
    (hrow' : row' ∈ w.users) (hemail : row.email = row'.email) : row = row' := by
  induction hv generalizing row row' with
  | nil => exact absurd hrow (Store.Table.not_mem_empty row)
  | cons e past hpast hserve hallow hcall ih =>
    cases user_change hpast hserve hallow with
    | same heq => rw [heq] at hrow hrow'; exact ih hrow hrow' hemail
    | create u hop hmay hid hfree heq =>
      rw [heq] at hrow hrow'
      rcases Store.Table.mem_put.mp hrow with rfl | ⟨h, hne⟩ <;>
        rcases Store.Table.mem_put.mp hrow' with rfl | ⟨h', hne'⟩
      · rfl
      · exact absurd hemail.symm (hfree row' h')
      · exact absurd hemail (hfree row h)
      · exact ih h h' hemail
    | commit row₀ u m hop hrow₀ hmay happly hfree heq =>
      have hid := (Mutation.frame happly).id
      rw [heq] at hrow hrow'
      rcases Store.Table.mem_put.mp hrow with rfl | ⟨h, hne⟩ <;>
        rcases Store.Table.mem_put.mp hrow' with rfl | ⟨h', hne'⟩
      · rfl
      · exact absurd hemail.symm (hfree row' h' (fun h => hne' (h.trans hid.symm)))
      · exact absurd hemail (hfree row h (fun h => hne (h.trans hid.symm)))
      · exact ih h h' hemail

/-- The token that moves a user to another address was issued to that user for it. -/
theorem MovesEmail.issued {later : List (Entry cfg)} (hv : Trace cfg {} trace w)
    (htrace : trace = later ++ e :: past) (hmove : MovesEmail e uid) :
    ∃ raw t g newEmail, e.call = .confirmEmailChange raw ∧
      Redeemed (history e.tid past) (hashToken raw) .emailChange { t with used := true } ∧
      g ∈ past ∧ g.op = .createToken t ∧ t.userID = uid ∧
      g.call = .changeEmail uid newEmail ∧ normalizeEmail newEmail = .ok t.email ∧
      ∃ row' ∈ e.post.users, row'.id = uid ∧ row'.email = t.email := by
  obtain ⟨raw, tok, hcall, huser, hred, -, hrow'⟩ := hmove.staged hv htrace
  subst htrace
  have hpast := (Valid.entry hv).1
  obtain ⟨l, k, mid, g, p, t, rfl, -, -, hop, rfl, -, hkind, -⟩ := hred.origin hpast
  have hmay := (createToken_spec hpast
    (show l ++ k :: (mid ++ g :: p) = (l ++ k :: mid) ++ g :: p by simp) hop).2
  rw [hkind] at hmay
  obtain ⟨newEmail, hchange, hnorm⟩ := hmay.emailChange
  have huser' : t.userID = uid := huser
  rw [huser'] at hchange
  exact ⟨raw, t, g, newEmail, hcall, hred, by simp, hop, huser', hchange, hnorm, hrow'⟩

/-! ## The theorem -/

structure VerifiedIsProven (c : Run cfg) : Prop where
  proven : ∀ row ∈ c.world.users, row.emailVerifiedAt ≠ none → ProvenFor c.trace row.id row.email
  moved : ∀ later e past, c.trace = later ++ e :: past → ∀ uid, MovesEmail e uid →
    ∃ raw t g newEmail, e.call = .confirmEmailChange raw ∧
      Redeemed (history e.tid past) (hashToken raw) .emailChange { t with used := true } ∧
      g ∈ past ∧ g.op = .createToken t ∧ t.userID = uid ∧
      g.call = .changeEmail uid newEmail ∧ normalizeEmail newEmail = .ok t.email ∧
      ∃ row' ∈ e.post.users, row'.id = uid ∧ row'.email = t.email
  distinct : ∀ row ∈ c.world.users, ∀ row' ∈ c.world.users, row.email = row'.email → row = row'

/-- In every interleaving, verified means proven for the address of the moment. -/
theorem verified_is_proven {as : List (system cfg).Action} {c : Run cfg}
    (hrun : (Run.empty cfg).run as = some c) (hlookups : TruthfulLookups c.trace) :
    VerifiedIsProven c := by
  have hv := run_trace_valid hrun
  exact
    { proven := fun row hrow hsome => verified_proven hv hlookups hrow hsome
      moved := fun later e past htrace uid hmove => hmove.issued hv htrace
      distinct := fun row hrow row' hrow' hemail => email_distinct hv hrow hrow' hemail }

end

section

open Scenario

attribute [local instance] plain

/-- Somebody registers with one address and moves to another. -/
def movedAccount : List (Call × Nat) :=
  [(.register "a" [1] {}, 8), (.changeEmail (ident 2) "b", 8), (.confirmEmailChange (raw 12), 10)]

theorem verified_is_proven_movedAccount :
    ∃ c, play movedAccount = some c ∧ TruthfulLookups c.trace ∧
      (∃ row ∈ c.world.users, row.emailVerifiedAt ≠ none ∧ row.email = "b") ∧
      VerifiedIsProven c := by
  obtain ⟨c, hplay, hok, hrow⟩ := computed (o := play movedAccount)
    (P := fun c => (∀ e ∈ c.trace, e.choice.fault = none) ∧
      ∃ row ∈ c.world.users.rows, row.emailVerifiedAt ≠ none ∧ row.email = "b")
    (by decide +kernel)
  obtain ⟨as, hrun⟩ := Config.runBlocks_run hplay
  have hlookups : TruthfulLookups c.trace := by
    intro e he address hop f hfault
    rw [hok e he] at hfault
    cases hfault
  exact ⟨c, hplay, hlookups, hrow, verified_is_proven hrun hlookups⟩

end

end Sulis
