-- SUMMARY: When the user returned by an operation that proves a mailbox is the row that was stored.
import Sulis.Facts.Solo
import Sulis.Properties.Scenario

/-!
# The returned user

`stampEmailVerified` and `ConfirmEmailChange` hand out the copy they wrote. The store
advances the version of its own copy, so what is handed out is one version behind. Only
an account that was verified before is handed out as it was read.
-/

namespace Sulis

open Interaction Interaction.Prog Interaction.System Service

section

variable [Platform] {cfg : Config} {C : Choice → Prop} {w w' : World}

/-! ## Copies and rows -/

/-- The copy is the stored row but for the version, which has gone on by one. -/
def OneBehind (user : User) (s : UserStore) : Prop := { user with version := user.version + 1 } ∈ s

omit [Platform] in
theorem OneBehind.not_stored {user : User} {s : UserStore} (h : OneBehind user s) :
    s.getUserByID user.id ≠ .ok user := by
  intro hget
  have hsame := Store.Table.eq_of_mem (UserStore.getUserByID_eq_ok.mp hget).1 h rfl
  have hversion := congrArg User.version hsame
  simp at hversion

/-- The account had its address verified. -/
def AlreadyVerified (w : World) (uid : UUID) : Prop :=
  ∃ row, w.users.get? uid = some row ∧ row.emailVerifiedAt ≠ none

omit [Platform] in
theorem alreadyVerified_iff {u : User} (hu : u ∈ w.users) :
    AlreadyVerified w u.id ↔ u.emailVerifiedAt ≠ none := by
  have hget : w.users.get? u.id = some u := Store.Table.get?_eq_some.mpr ⟨hu, rfl⟩
  constructor
  · rintro ⟨row, hrow, hverified⟩
    cases Option.some.inj (hrow.symm.trans hget)
    exact hverified
  · exact fun hverified => ⟨u, hget, hverified⟩

/-- What an operation that ends in the user leaves in the store: the user, if the account
    was verified before, and otherwise the row after it. -/
structure HandedOut (verified : Prop) (user : User) (s : UserStore) : Prop where
  stored : verified → user ∈ s
  behind : ¬ verified → OneBehind user s

/-! ## The operations -/

omit [Platform] in
theorem requireUnclaimed_notUser {email : String} : Calls Op.NotUser (requireUnclaimed email) := by
  refine only_bind (only_attempt (only_request trivial)) (fun r => ?_)
  cases r with
  | ok u => exact only_throw
  | error err => exact only_ite only_pure only_throw

/-- The address of a stored user is stamped, unless it was verified before. -/
theorem stampEmailVerified_hands {u user : User} (hu : u ∈ w.users)
    (h : Solo cfg C (stampEmailVerified cfg u) w w' (.ok user)) :
    user.id = u.id ∧ HandedOut (u.emailVerifiedAt ≠ none) user w'.users := by
  unfold stampEmailVerified at h
  split at h
  · rename_i hverified
    obtain ⟨rfl, heq⟩ := lands_pure.mp h
    cases heq
    exact ⟨rfl, fun _ => hu, fun hnot => absurd hverified hnot⟩
  rename_i hverified
  obtain ⟨w₁, now, hnow, hrest⟩ := h.of_bind
  obtain ⟨rfl, -⟩ := solo_timeNow hnow
  obtain ⟨w₂, x, hupdate, hend⟩ := lands_attempt_bind.mp hrest
  rcases solo_updateUserWithRetry (fun _ => only_ite only_throw only_pure) hupdate with
    ⟨err, rfl, hsame, hforgone⟩ | ⟨row, u', b, rfl, hcommit⟩
  · -- Alone, nobody else has stamped the row in between.
    dsimp only at hend
    split at hend
    · rename_i hraced
      cases hforgone with
      | missing => cases hraced
      | outdated => cases hraced
      | taken => cases hraced
      | declined mem id users mutated =>
        cases Store.Table.eq_of_mem mem hu id
        rw [if_neg hverified] at mutated
        cases (lands_pure.mp mutated).2
    · cases (lands_throw.mp hend).2
  · cases Store.Table.eq_of_mem hcommit.mem hu hcommit.id
    obtain ⟨w₃, w₄, -, hmutated⟩ := hcommit.mutated
    rw [if_neg hverified] at hmutated
    cases (lands_pure.mp hmutated).2
    obtain ⟨w₅, _, hemit, hend⟩ := Lands.of_bind hend
    obtain ⟨w₆, _, hrevoke, hend⟩ := hend.of_bind
    obtain ⟨rfl, heq⟩ := lands_pure.mp hend
    cases heq
    have hquiet := (solo_users hrevoke (only_onlyIf (Bare.notUser revokeUserSessions_bare))).trans
      (solo_users hemit (Bare.notUser emit_bare))
    refine ⟨rfl, fun hbefore => absurd hbefore hverified, fun _ => ?_⟩
    rw [hquiet, hcommit.users_eq]
    exact Store.Table.mem_put.mpr (Or.inl rfl)

theorem verifyEmail_hands {raw : String} {user : User}
    (h : Solo cfg C (Service.verifyEmail cfg raw) w w' (.ok user)) :
    HandedOut (AlreadyVerified w user.id) user w'.users := by
  obtain ⟨w₁, tok, hconsume, h₁⟩ := h.of_bind
  have hw₁ := solo_users hconsume (Bare.notUser consumeToken_bare)
  obtain ⟨w₂, u, hget, h₂⟩ := h₁.of_bind
  obtain ⟨rfl, hu⟩ := solo_getUserByID hget
  have hmem := (UserStore.getUserByID_eq_ok.mp hu.symm).1
  split at h₂
  · cases (lands_throw.mp h₂).2
  · obtain ⟨hid, hhanded⟩ := stampEmailVerified_hands hmem h₂
    rw [hw₁] at hmem
    rwa [hid, alreadyVerified_iff hmem]

/-- A user that is found by its address is as it was. -/
theorem getUserByEmail_stored {email : String} {u : User}
    (h : Solo cfg C (Users.getUserByEmail email) w w' (.ok u)) :
    u ∈ w'.users ∧ (AlreadyVerified w u.id ↔ u.emailVerifiedAt ≠ none) := by
  obtain ⟨rfl, order, hu⟩ := solo_getUserByEmail h
  have hmem := (UserStore.getUserByEmail_eq_ok hu.symm).1
  exact ⟨hmem, alreadyVerified_iff hmem⟩

/-- The account of a link: stored by then, and verified if it was so before. -/
theorem magicLinkUser_stored {tok : Token} {u : User}
    (h : Solo cfg C (magicLinkUser tok) w w' (.ok u)) :
    u ∈ w'.users ∧ (AlreadyVerified w u.id ↔ u.emailVerifiedAt ≠ none) := by
  unfold magicLinkUser at h
  split at h
  · obtain ⟨rfl, hu⟩ := solo_getUserByID h
    have hmem := (UserStore.getUserByID_eq_ok.mp hu.symm).1
    exact ⟨hmem, alreadyVerified_iff hmem⟩
  obtain ⟨w₁, x, hget, h₁⟩ := lands_attempt_bind.mp h
  cases x with
  | ok u' =>
    obtain ⟨rfl, heq⟩ := lands_pure.mp h₁
    cases heq
    exact getUserByEmail_stored hget
  | error err =>
    obtain ⟨rfl, -⟩ := solo_getUserByEmail hget
    dsimp only at h₁
    split at h₁
    swap
    · cases (lands_throw.mp h₁).2
    obtain ⟨w₂, now, hnow, h₂⟩ := Lands.of_bind h₁
    obtain ⟨w₃, id, hid, h₃⟩ := h₂.of_bind
    have hw₃ := (solo_users hid (only_query trivial)).trans
      (solo_users hnow (only_query trivial))
    obtain ⟨w₄, y, hcreate, h₄⟩ := lands_attempt_bind.mp h₃
    replace hcreate := solo_createUser hcreate
    rw [hw₃] at hcreate
    cases y with
    | ok _ =>
      obtain ⟨rfl, heq⟩ := lands_pure.mp h₄
      cases heq
      rcases w₁.users.createUser_cases _ with hnot | ⟨hfresh, -, hput⟩
      · cases congrArg Prod.fst (hnot.symm.trans hcreate)
      · have hw' : w'.users = _ := congrArg Prod.snd (hcreate.symm.trans hput)
        refine ⟨?_, iff_of_false ?_ (not_not.mpr rfl)⟩
        · rw [hw']
          exact Store.Table.mem_put.mpr (Or.inl rfl)
        rintro ⟨row, hrow, -⟩
        obtain ⟨hmem, hid⟩ := Store.Table.get?_eq_some.mp hrow
        exact hfresh row hmem hid
    | error err =>
      dsimp only at h₄
      split at h₄
      swap
      · cases (lands_throw.mp h₄).2
      have hw₄ : w₄.users = w₁.users := by
        rcases w₁.users.createUser_cases _ with hnot | ⟨-, -, hput⟩
        · exact congrArg Prod.snd (hcreate.symm.trans hnot)
        · cases congrArg Prod.fst (hput.symm.trans hcreate)
      obtain ⟨hmem, hiff⟩ := getUserByEmail_stored h₄
      refine ⟨hmem, Iff.trans ?_ hiff⟩
      rw [AlreadyVerified, AlreadyVerified, hw₄]

/-- What a first factor earns names the user it was given. -/
theorem completeFirstFactor_user {u : User} {method : AuthMethod} {ri : RequestInfo}
    {result : LoginResult} (h : Solo cfg C (completeFirstFactor cfg u method ri) w w' (.ok result)) :
    result.user = u := by
  obtain ⟨w₁, _, -, h₁⟩ := h.of_bind
  obtain ⟨w₂, _, -, h₂⟩ := h₁.of_bind
  obtain ⟨w₃, x, -, h₃⟩ := lands_attempt_bind.mp h₂
  rcases x with err | _ | _
  · obtain ⟨w₄, _, -, h₄⟩ := Lands.of_bind h₃
    cases (lands_throw.mp h₄).2
  · obtain ⟨w₄, _, -, h₄⟩ := Lands.of_bind h₃
    obtain ⟨w₅, _, -, h₅⟩ := h₄.of_bind
    cases (lands_pure.mp h₅).2
    rfl
  · obtain ⟨w₄, _, -, h₄⟩ := Lands.of_bind h₃
    obtain ⟨w₅, _, -, h₅⟩ := h₄.of_bind
    cases (lands_pure.mp h₅).2
    rfl

theorem redeemMagicLink_hands {raw nonce : String} {ri : RequestInfo} {result : LoginResult}
    (h : Solo cfg C (Service.redeemMagicLink cfg raw nonce ri) w w' (.ok result)) :
    HandedOut (AlreadyVerified w result.user.id) result.user w'.users := by
  obtain ⟨w₁, tok, hconsume, h₁⟩ := h.of_bind
  have hw₁ := solo_users hconsume (only_onError (Bare.notUser consumeToken_bare)
    fun _ => Bare.notUser emit_bare)
  split at h₁
  swap
  · obtain ⟨_, _, -, hthrow⟩ := Lands.of_bind h₁
    cases (lands_throw.mp hthrow).2
  obtain ⟨w₂, u, huser, h₂⟩ := Lands.of_bind h₁
  obtain ⟨hu, hiff⟩ := magicLinkUser_stored huser
  obtain ⟨w₃, _, hemit, h₃⟩ := h₂.of_bind
  have hw₃ := solo_users hemit (Bare.notUser emit_bare)
  obtain ⟨w₄, user, hstamp, h₄⟩ := h₃.of_bind
  obtain ⟨hid, hhanded⟩ := stampEmailVerified_hands (hw₃ ▸ hu) hstamp
  have hw' := solo_users h₄ (completeFirstFactor_only trivial trivial fun _ => Op.Bare.notUser)
  rw [completeFirstFactor_user h₄, hw', hid, AlreadyVerified, ← hw₁, ← AlreadyVerified, hiff]
  exact hhanded

/-- A confirmed change is always written. -/
theorem confirmEmailChange_behind {raw : String} {user : User}
    (h : Solo cfg C (Service.confirmEmailChange cfg raw) w w' (.ok user)) :
    OneBehind user w'.users := by
  obtain ⟨w₁, tok, -, h₁⟩ := h.of_bind
  obtain ⟨w₂, now, -, h₂⟩ := h₁.of_bind
  obtain ⟨w₃, x, hupdate, h₃⟩ := h₂.of_bind
  rcases solo_updateUserWithRetry (fun u => only_ite only_throw
      (only_bind requireUnclaimed_notUser fun _ => only_pure)) hupdate with
    ⟨err, herr, -⟩ | ⟨row, u, b, hx, hcommit⟩
  · cases herr
  cases hx
  have hrest : w'.users = w₃.users ∧ user = u := by
    obtain ⟨w₄, _, hrevoke, h₄⟩ := Lands.of_bind h₃
    obtain ⟨w₅, _, hreset, h₅⟩ := h₄.of_bind
    obtain ⟨w₆, _, htwo, h₆⟩ := h₅.of_bind
    obtain ⟨w₇, _, hlink, h₇⟩ := h₆.of_bind
    obtain ⟨w₈, _, hemit, h₈⟩ := h₇.of_bind
    obtain ⟨rfl, heq⟩ := lands_pure.mp h₈
    cases heq
    refine ⟨?_, rfl⟩
    rw [solo_users hemit (Bare.notUser emit_bare),
      solo_users hlink (only_request trivial),
      solo_users htwo (only_request trivial),
      solo_users hreset (only_request trivial),
      solo_users hrevoke (Bare.notUser revokeUserSessions_bare)]
  obtain ⟨hsame, rfl⟩ := hrest
  rw [OneBehind, hsame, hcommit.users_eq]
  exact Store.Table.mem_put.mpr (Or.inl rfl)

/-! ## The returned user -/

/-- The user an operation that proves a mailbox returns. -/
def Call.provenUser? : (call : Call) → call.Ret → Option User
  | .verifyEmail _, user => some user
  | .redeemMagicLink _ _ _, result => some result.user
  | .confirmEmailChange _, user => some user
  | _, _ => none

/-- The operation has nothing to write: the address was verified, and it stays. -/
def Call.WritesNothing (w : World) (uid : UUID) : Call → Prop
  | .confirmEmailChange _ => False
  | _ => AlreadyVerified w uid

theorem provenUser_handed {call : Call} {ret : call.Ret} {user : User}
    (h : Solo cfg C (call.program cfg) w w' (.ok ret)) (huser : call.provenUser? ret = some user) :
    HandedOut (call.WritesNothing w user.id) user w'.users := by
  cases call with
  | verifyEmail raw =>
    cases huser
    exact verifyEmail_hands h
  | redeemMagicLink raw nonce ri =>
    cases huser
    exact redeemMagicLink_hands h
  | confirmEmailChange raw =>
    cases huser
    exact ⟨False.elim, fun _ => confirmEmailChange_behind h⟩
  | _ => cases huser

/-- The returned user is the stored row, and a change of it is not refused as outdated,
    exactly if the operation had nothing to write. -/
theorem returned_user_persisted_iff {call : Call} {ret : call.Ret} {user : User}
    (h : Solo cfg (fun _ => True) (call.program cfg) w w' (.ok ret))
    (huser : call.provenUser? ret = some user) :
    (w'.users.getUserByID user.id = .ok user ↔ call.WritesNothing w user.id) ∧
      ∀ edited : User, edited.id = user.id → edited.version = user.version →
        ((w'.users.updateUser edited).1 ≠ .error .concurrentUpdate ↔
          call.WritesNothing w user.id) := by
  have hhanded := provenUser_handed h huser
  by_cases hnothing : call.WritesNothing w user.id
  · have hstored := hhanded.stored hnothing
    refine ⟨iff_of_true (UserStore.getUserByID_eq_ok.mpr ⟨hstored, rfl⟩) hnothing, ?_⟩
    intro edited hid hversion
    refine iff_of_true (fun hrefused => ?_) hnothing
    exact (UserStore.updateUser_outdated_iff hstored hid.symm).mp hrefused hversion.symm
  · have hbehind := hhanded.behind hnothing
    refine ⟨iff_of_false hbehind.not_stored hnothing, fun edited hid hversion => ?_⟩
    refine iff_of_false (not_not.mpr ?_) hnothing
    refine (UserStore.updateUser_outdated_iff hbehind hid.symm).mpr ?_
    rw [hversion]
    exact Nat.succ_ne_self _

end

section

open Scenario

attribute [local instance] plain

/-- An account, verified or not, with a token for its address. -/
def mailboxWorld (verifiedAt : Option Time) : World :=
  { users := Store.Table.empty.put
      { id := ident 0, email := "a", createdAt := 0, updatedAt := 0, emailVerifiedAt := verifiedAt }
    tokens := Store.Table.empty.put
      { id := ident 1, userID := ident 0, email := "a", tokenHash := "t"
        purpose := .emailVerification, expiresAt := 1, createdAt := 0 } }

/-- Verify the address, at time zero. -/
def verifyMailbox (w : World) : Option (World × Except Err User) :=
  (system config).runWith {} (Service.verifyEmail config "t").run w

theorem verifyMailbox_ends {w w' : World} {r : Except Err User} {P : User → Prop}
    (h : verifyMailbox w = some (w', r)) (hr : ∃ user, r.toOption = some user ∧ P user) :
    ∃ user, P user ∧
      Solo config (fun _ => True) (Call.program config (.verifyEmail "t")) w w' (.ok user) := by
  obtain ⟨user, hsome, hP⟩ := hr
  cases r with
  | error err => cases hsome
  | ok u =>
    cases hsome
    exact ⟨user, hP, lands_of_runWith ⟨rfl, trivial⟩ h⟩

theorem returned_user_persisted_iff_verified :
    ∃ w' user, Solo config (fun _ => True) (Call.program config (.verifyEmail "t"))
        (mailboxWorld (some 0)) w' (.ok user) ∧
      w'.users.getUserByID user.id = .ok user ∧
      (w'.users.updateUser { user with email := "b" }).1 ≠ .error .concurrentUpdate := by
  obtain ⟨⟨w', r⟩, hrun, hr⟩ := computed (o := verifyMailbox (mailboxWorld (some 0)))
    (P := fun x => ∃ user ∈ x.2.toOption, user.id = ident 0) (by decide +kernel)
  obtain ⟨user, hid, hends⟩ := verifyMailbox_ends hrun hr
  have hverified : AlreadyVerified (mailboxWorld (some 0)) user.id := by
    rw [hid]
    exact ⟨_, rfl, by decide⟩
  obtain ⟨hsame, hupdate⟩ := returned_user_persisted_iff hends rfl
  exact ⟨w', user, hends, hsame.mpr hverified, (hupdate { user with email := "b" } rfl rfl).mpr hverified⟩

/-- The first verification returns version 0 of a row that is stored as version 1, and an
    update of the returned user is refused. -/
theorem verified_user_outdated :
    ∃ w' user, Solo config (fun _ => True) (Call.program config (.verifyEmail "t"))
        (mailboxWorld none) w' (.ok user) ∧
      user.version = 0 ∧ (w'.users.get? user.id).map User.version = some 1 ∧
      (w'.users.updateUser { user with email := "b" }).1 = .error .concurrentUpdate := by
  obtain ⟨⟨w', r⟩, hrun, hr⟩ := computed (o := verifyMailbox (mailboxWorld none))
    (P := fun x => ∃ user ∈ x.2.toOption, user.version = 0 ∧
      (x.1.users.get? user.id).map User.version = some 1 ∧
      (x.1.users.updateUser { user with email := "b" }).1 = .error .concurrentUpdate)
    (by decide +kernel)
  obtain ⟨user, hfacts, hends⟩ := verifyMailbox_ends hrun hr
  exact ⟨w', user, hends, hfacts⟩

end

end Sulis
