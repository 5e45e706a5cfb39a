-- SUMMARY: Every address in a stored row was asked for, for that very account, in a spelling that normalizes to it.
import Sulis.Properties.StagedEmail

/-!
# Where stored addresses come from

An address reaches the stores through `Register`, `CreateMagicLinkToken` and
`ChangeEmail` only, and all three normalize it first. From there it travels: a
link carries it to the account that redeeming it creates, an email change stages
it, and its token carries it back. Over a whole run nothing gets lost on the
way: what a row of a user holds was asked for, for that user.
-/

namespace Sulis

open Interaction Interaction.System

section

variable [Platform] {cfg : Config}

/-- An operation of the run asked for a link to the address, and the raw token is that of the
    link it stored. -/
def LinkAsked (trace : List (Entry cfg)) (raw address : String) : Prop :=
  ∃ g ∈ trace, ∃ t spelling ri, g.op = .createToken t ∧ t.tokenHash = hashToken raw ∧
    t.email = address ∧ g.call = .createMagicLinkToken spelling ri ∧
    normalizeEmail spelling = .ok address

/-- An operation of the run asked to move the user to the address, and the raw token is the one
    it stored for that. -/
def MoveAsked (trace : List (Entry cfg)) (raw : String) (uid : UUID) (address : String) : Prop :=
  ∃ g ∈ trace, ∃ t spelling, g.op = .createToken t ∧ t.tokenHash = hashToken raw ∧
    t.userID = uid ∧ t.email = address ∧ g.call = .changeEmail uid spelling ∧
    normalizeEmail spelling = .ok address

/-- The step creates the row. -/
structure Creates (e : Entry cfg) (row : User) : Prop where
  op : e.op = .createUser row
  fresh : ∀ u ∈ e.pre.users, u.id ≠ row.id
  stored : row ∈ e.post.users

/-- The step leaves the row with the addresses it writes. -/
structure Rewrites (e : Entry cfg) (row : User) : Prop where
  op : ∃ u, e.op = .updateUser u ∧ u.id = row.id ∧ u.email = row.email ∧
    u.pendingEmail = row.pendingEmail
  stored : row ∈ e.post.users

/-- An operation of the run that was asked to move the user to the address has staged it. -/
def Staged (trace : List (Entry cfg)) (uid : UUID) (address : String) : Prop :=
  ∃ e ∈ trace, ∃ row spelling, Rewrites e row ∧ row.id = uid ∧ row.pendingEmail = address ∧
    e.call = .changeEmail uid spelling ∧ normalizeEmail spelling = .ok address

/-- Why the row of a user holds an address. -/
inductive AskedFor : List (Entry cfg) → UUID → String → Prop
  /-- The user registered with it. -/
  | registered (later : List (Entry cfg)) (e : Entry cfg) (past : List (Entry cfg)) (u : User)
      (hnew : Creates e u) (spelling : String) (password : Bytes) (ri : RequestInfo)
      (hcall : e.call = .register spelling password ri)
      (hemail : normalizeEmail spelling = .ok u.email) : AskedFor (later ++ e :: past) u.id u.email
  /-- The user came in through a link to it. -/
  | linked (later : List (Entry cfg)) (e : Entry cfg) (past : List (Entry cfg)) (u : User)
      (hnew : Creates e u) (raw nonce : String) (ri : RequestInfo)
      (hcall : e.call = .redeemMagicLink raw nonce ri) (hlink : LinkAsked past raw u.email) :
      AskedFor (later ++ e :: past) u.id u.email
  /-- The user was moved to it. -/
  | moved (later : List (Entry cfg)) (e : Entry cfg) (past : List (Entry cfg)) (u : User)
      (hwrote : Rewrites e u) (raw : String) (hcall : e.call = .confirmEmailChange raw)
      (hmove : MoveAsked past raw u.id u.email) : AskedFor (later ++ e :: past) u.id u.email

variable {w : World} {trace past : List (Entry cfg)} {uid : UUID} {address : String}

theorem Staged.cons (h : Staged past uid address) (e : Entry cfg) :
    Staged (e :: past) uid address := by
  obtain ⟨e', he', hstaged⟩ := h
  exact ⟨e', List.mem_cons_of_mem e he', hstaged⟩

theorem AskedFor.cons (h : AskedFor past uid address) (e : Entry cfg) :
    AskedFor (e :: past) uid address := by
  cases h with
  | registered later e' past' u hnew spelling password ri hcall hemail =>
    exact .registered (e :: later) e' past' u hnew spelling password ri hcall hemail
  | linked later e' past' u hnew raw nonce ri hcall hlink =>
    exact .linked (e :: later) e' past' u hnew raw nonce ri hcall hlink
  | moved later e' past' u hwrote raw hcall hmove =>
    exact .moved (e :: later) e' past' u hwrote raw hcall hmove

/-! ## Tokens that carry an address -/

/-- The address a redeemed change token carries was asked for by its user. -/
theorem Redeemed.moveAsked {i : Nat} {raw : String} {tok : Token} (hv : Trace cfg {} trace w)
    (hr : Redeemed (history i trace) (hashToken raw) .emailChange tok) :
    MoveAsked trace raw tok.userID tok.email := by
  obtain ⟨later, k, mid, g, p, t, rfl, -, -, hop, rfl, hhash, hkind, -⟩ := hr.origin hv
  have hmay := (createToken_spec hv
    (show later ++ k :: (mid ++ g :: p) = (later ++ k :: mid) ++ g :: p by simp) hop).2
  rw [hkind] at hmay
  obtain ⟨spelling, hcall, hemail⟩ := hmay.emailChange
  exact ⟨g, by simp, t, spelling, hop, hhash, rfl, rfl, hcall, hemail⟩

/-- A redeemed link that names no account carries the address it was asked for. -/
theorem Redeemed.linkAsked {i : Nat} {raw : String} {tok : Token} (hv : Trace cfg {} trace w)
    (hr : Redeemed (history i trace) (hashToken raw) .magicLink tok) (hnil : tok.userID = .nil) :
    LinkAsked trace raw tok.email := by
  obtain ⟨later, k, mid, g, p, t, rfl, -, -, hop, rfl, hhash, hkind, -⟩ := hr.origin hv
  rw [show later ++ k :: (mid ++ g :: p) = (later ++ k :: mid) ++ g :: p by simp] at hv ⊢
  have hmay := (createToken_spec hv rfl hop).2
  rw [hkind] at hmay
  obtain ⟨spelling, ri, address, hcall, hemail, ⟨u, hd, hid, -⟩ | ⟨err, -, -, -, haddress⟩⟩ :=
    hmay.magicLink
  · -- An account that was found has a proper ID.
    have hpast := (Valid.entry hv).1
    obtain ⟨q, hq, -, hev⟩ := mem_history.mp hd
    obtain ⟨l, p, rfl⟩ := List.append_of_mem hq
    obtain ⟨hmem, -, -⟩ := World.serve_getUserByEmail (Valid.served hpast hq hev)
    exact absurd (hid.trans hnil) (user_id_ne_nil (Valid.entry hpast).1 hmem)
  · exact ⟨g, by simp, t, spelling, ri, hop, hhash, rfl, hcall, by rw [hemail, haddress]⟩

/-! ## Rows of users -/

/-- A row under which only addresses stand that were asked for. -/
structure RowAsked (trace : List (Entry cfg)) (row : User) : Prop where
  email : AskedFor trace row.id row.email
  pending : row.pendingEmail ≠ "" → Staged trace row.id row.pendingEmail

/-- A new row holds the address it was created for. -/
theorem MayCreate.asked {e : Entry cfg} {row : User} (hpast : Trace cfg {} past w)
    (hnew : Creates e row) (hmay : MayCreate cfg e.call (history e.tid past) row) :
    RowAsked (e :: past) row where
  email := by
    generalize hcall : e.call = call at hmay
    cases hmay with
    | @register email password ri _ _ _ hemail hhash =>
      exact .registered [] e past row hnew email password ri hcall hemail
    | @redeem raw nonce ri _ _ tok _ htok hnil hemail =>
      refine .linked [] e past row hnew raw nonce ri hcall ?_
      rw [hemail]
      exact htok.linkAsked hpast hnil
  pending := fun hne => absurd hmay.newUser.pending hne

/-- A commit stages an address it was asked for, or moves the row to the one of its
    token, or leaves both addresses alone. -/
theorem RowChange.asked {e : Entry cfg} {row row' : User} (hpast : Trace cfg {} past w)
    (hc : RowChange cfg e.call (history e.tid past) e.op row row') (hid : row'.id = row.id)
    (hrow' : row' ∈ e.post.users) (hrow : RowAsked past row) : RowAsked (e :: past) row' := by
  have hold : RowAsked (e :: past) row :=
    ⟨hrow.email.cons e, fun hne => (hrow.pending hne).cons e⟩
  cases hc with
  | same heq => rw [heq]; exact hold
  | commit u m hop hmay happly heq =>
    have hframe := Mutation.frame happly
    have hemail' : row'.email = u.email := by rw [heq]
    have hpending' : row'.pendingEmail = u.pendingEmail := by rw [heq]
    have hwrote : Rewrites e row' :=
      ⟨⟨u, hop, hframe.id.trans hid.symm, hemail'.symm, hpending'.symm⟩, hrow'⟩
    by_cases hconfirm : ∃ email now, m = .confirmEmailChange email now
    · obtain ⟨email, now, rfl⟩ := hconfirm
      obtain ⟨raw, tok, hcall, huser, hemail, hred⟩ := hmay.confirmed
      have hu := (Mutation.apply_confirmEmailChange.mp happly).2
      refine ⟨.moved [] e past row' hwrote raw hcall ?_, fun hne => absurd (by rw [hpending', hu]) hne⟩
      rw [hid, hemail', hu, ← huser]
      show MoveAsked past raw tok.userID email
      rw [← hemail]
      exact hred.moveAsked hpast
    have hconfirm' : ∀ email now, m ≠ .confirmEmailChange email now :=
      fun email now h => hconfirm ⟨email, now, h⟩
    refine ⟨?_, ?_⟩
    · rw [hid, hemail', hframe.email hconfirm']
      exact hold.email
    by_cases hstage : ∃ address now, m = .stageEmail address now
    · obtain ⟨address, now, rfl⟩ := hstage
      obtain ⟨spelling, hcall, hemail⟩ := hmay.stageEmail
      intro _
      refine ⟨e, List.mem_cons_self, row', spelling, hwrote, rfl, rfl, hid ▸ hcall, ?_⟩
      cases happly
      rw [hpending']
      exact hemail
    · rw [hid, hpending', hframe.pending (fun address now h => hstage ⟨address, now, h⟩) hconfirm']
      exact hold.pending

theorem row_asked (hv : Trace cfg {} trace w) {row : User} (hrow : row ∈ w.users) :
    RowAsked trace row := by
  induction hv generalizing row with
  | nil => exact absurd hrow (Store.Table.not_mem_empty row)
  | cons e past hpast hserve hallow hcall ih =>
    rcases (user_change hpast hserve hallow).row_before hrow with
      ⟨hop, hmay, hfresh⟩ | ⟨row₀, hrow₀, hid, hchange⟩
    · exact hmay.asked hpast ⟨hop, hfresh, hrow⟩
    · exact hchange.asked hpast hid hrow (ih hrow₀)

/-- In every interleaving, whatever fails, each address in the row of a user was asked
    for. -/
theorem stored_addresses_asked {as : List (system cfg).Action} {c : Run cfg}
    (hrun : (Run.empty cfg).run as = some c) : ∀ row ∈ c.world.users, RowAsked c.trace row :=
  fun _ hrow => row_asked (run_trace_valid hrun) hrow

end

section

open Scenario

attribute [local instance] plain

/-- An account that comes in through a link and then asks for another address. -/
def linkedAccount : List (Call × Nat) :=
  [(.createMagicLinkToken "a" {}, 6), (.redeemMagicLink (raw 1) (raw 2) {}, 16),
    (.changeEmail (ident 10) "b", 8)]

theorem stored_addresses_asked_linkedAccount :
    ∃ c, play linkedAccount = some c ∧ ∃ row ∈ c.world.users, row.email = "a" ∧
      row.pendingEmail = "b" ∧ RowAsked c.trace row := by
  obtain ⟨c, hplay, row, hrow, hemail, hpending⟩ := computed (o := play linkedAccount)
    (P := fun c => ∃ row ∈ c.world.users.rows, row.email = "a" ∧ row.pendingEmail = "b")
    (by decide +kernel)
  obtain ⟨as, hrun⟩ := Config.runBlocks_run hplay
  exact ⟨c, hplay, row, hrow, hemail, hpending, stored_addresses_asked hrun row hrow⟩

end

end Sulis
