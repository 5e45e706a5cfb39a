-- SUMMARY: A disabled account is dead: nothing that checks its status succeeds until it is enabled.
import Sulis.Facts.Users
import Sulis.Properties.Scenario

/-!
# Disabled accounts

Whatever else runs and whichever store calls fail, from the write of a
`DisableUser` to that of the next `EnableUser` every copy of the account that is
read is disabled, and an operation that checks such a copy does not succeed.
-/

namespace Sulis

open Interaction Interaction.System

/-- The user that an operation which checks the status of an account succeeded for. -/
def Call.subject? : (call : Call) → call.Ret → Option UUID
  | .login .., r => some r.user.id
  | .verifyPassword .., u => some u.id
  | .redeemMagicLink .., r => some r.user.id
  | .completeTwoFactor uid .., _ => some uid
  | .issueSession auth, _ => some auth.userID
  | .issueSessionUnchecked uid _, _ => some uid
  | .refreshSession s, _ => some s.userID
  | .reAuthenticate s .., _ => some s.userID
  | .validateSession _, (_, u) => some u.id
  | _, _ => none

section

variable [Platform] {cfg : Config}

/-- The step is an update of a user that took effect. -/
def Commits (e : Entry cfg) : Prop :=
  (∃ u, e.op = .updateUser u) ∧ e.post.users ≠ e.pre.users

def DisableCommit (e : Entry cfg) (uid : UUID) : Prop :=
  (∃ reason, e.call = .disableUser uid reason) ∧ Commits e

def EnableCommit (e : Entry cfg) (uid : UUID) : Prop := e.call = .enableUser uid ∧ Commits e

/-- A copy for a status check: as read, or with the verification just stamped. -/
def CopyOf (u u₀ : User) : Prop := u = u₀ ∨ ∃ now, u = u₀.stamped now

/-- Operation `i` checked the status of a copy of the user that it read after the
    write `d` and before the user was enabled again. -/
def CheckedWithin (c : Run cfg) (d : Entry cfg) (i : Nat) (uid : UUID) : Prop :=
  ∃ later : List (Entry cfg), ∃ r mid past u₀ u, c.trace = later ++ r :: (mid ++ d :: past) ∧
    r.tid = i ∧ Saw r u₀ ∧ u₀.id = uid ∧ (∀ x ∈ mid, ¬ EnableCommit x uid) ∧ CopyOf u u₀ ∧
    Did (history i later) (.status u) ()

def IsDisabled (w : World) (uid : UUID) : Prop :=
  ∃ row ∈ w.users, row.id = uid ∧ row.disabledAt ≠ none

variable {w₀ w : World} {trace later past : List (Entry cfg)} {e : Entry cfg} {uid : UUID}
  {h : Hist}

/-! ## The disabled row -/

/-- Whatever `DisableUser` writes is disabled. -/
theorem DisableCommit.isDisabled (hd : DisableCommit e uid)
    (hchange : UserChange cfg e.call h e.op e.pre.users e.post.users) : IsDisabled e.post uid := by
  obtain ⟨⟨reason, hcall⟩, -, hne⟩ := hd
  rw [hcall] at hchange
  cases hchange with
  | same heq => exact absurd heq hne
  | create u hop hmay => cases hmay
  | commit row u m hop hrow hmay happly hemail heq =>
    obtain ⟨hid, now, rfl⟩ := hmay.of_disableUser
    refine ⟨{ u with version := row.version + 1 }, ?_, (Mutation.frame happly).id.trans hid, ?_⟩
    · rw [heq]
      exact Store.Table.mem_put.mpr (Or.inl rfl)
    · cases happly
      simp

/-- Only a commit of `EnableUser` clears it. -/
theorem IsDisabled.step (hdis : IsDisabled e.pre uid)
    (hchange : UserChange cfg e.call h e.op e.pre.users e.post.users) :
    IsDisabled e.post uid ∨ EnableCommit e uid := by
  obtain ⟨row, hrow, rfl, hsome⟩ := hdis
  obtain ⟨row', hrow', hid', hc⟩ := hchange.row hrow
  cases hc with
  | same heq => exact Or.inl ⟨row', hrow', hid', by rwa [heq]⟩
  | commit u m hop hmay happly heq =>
    by_cases henable : ∃ now, m = .enable now
    · obtain ⟨now, rfl⟩ := henable
      refine Or.inr ⟨hmay.enabled, ⟨u, hop⟩, fun hsame => ?_⟩
      -- The write has raised the version.
      rw [hsame] at hrow'
      have hversion := congrArg User.version (Store.Table.eq_of_mem hrow' hrow hid')
      rw [heq] at hversion
      exact absurd hversion (Nat.succ_ne_self _)
    · refine Or.inl ⟨row', hrow', hid', ?_⟩
      rw [heq]
      exact (Mutation.frame happly).disabled (fun now h => henable ⟨now, h⟩) hsome

/-- The account is disabled from the write on until it is enabled. -/
theorem DisableCommit.until_enabled {mid : List (Entry cfg)} {d : Entry cfg}
    (hv : Trace cfg w₀ (mid ++ d :: past) w) (hd : DisableCommit d uid)
    (hno : ∀ x ∈ mid, ¬ EnableCommit x uid) : IsDisabled w uid := by
  refine Valid.world_induction (P := fun w => IsDisabled w uid) (Valid.upto hv) hv ?_ ?_
  · exact hd.isDisabled (hv.user_change rfl)
  · intro l₁ l₂ x hmid hpast hserve hallow hpre
    refine (hpre.step (user_change hpast hserve hallow)).resolve_right (hno x ?_)
    rw [hmid]
    simp

/-- A copy read while the account is disabled is disabled. -/
theorem Saw.disabled {u : User} (hsaw : Saw e u) (hdis : IsDisabled e.pre u.id)
    (hserve : World.serve e.pre e.op e.choice = some (e.res, e.post))
    (hchange : UserChange cfg e.call h e.op e.pre.users e.post.users) : u.disabledAt ≠ none := by
  have hno : ¬ EnableCommit e u.id := by
    rintro ⟨-, ⟨u', hop⟩, -⟩
    rcases hsaw with hev | hev | hev <;> cases hop.symm.trans (congrArg Sigma.fst hev)
  obtain ⟨row, hrow, hid, hsome⟩ := (hdis.step hchange).resolve_right hno
  rwa [Store.Table.eq_of_mem (hsaw.mem_post hserve) hrow hid.symm]

omit [Platform] in
theorem CopyOf.disabledAt {u u₀ : User} (hcopy : CopyOf u u₀) : u.disabledAt = u₀.disabledAt := by
  rcases hcopy with rfl | ⟨now, rfl⟩ <;> rfl

/-! ## The guarded operations -/

/-- An operation that succeeds for a user has checked a copy of it, and has met no
    disabled one. -/
theorem Outcome.vetted {call : Call} {a : call.Ret} (ho : Outcome cfg call h a)
    (hsubject : call.subject? a = some uid) : Vetted h uid := by
  cases call <;> cases hsubject
  case login => exact ho.2
  case redeemMagicLink => exact ho.2.1
  case verifyPassword | issueSession | issueSessionUnchecked => exact ho
  case validateSession | refreshSession | reAuthenticate | completeTwoFactor => exact ho.1

/-! ## The theorem -/

structure DisabledIsDead (c : Run cfg) : Prop where
  /-- An operation that checked a copy read in the meantime does not succeed. -/
  refused : ∀ d uid i, DisableCommit d uid → CheckedWithin c d i uid →
    ∀ call a uid', call.subject? a = some uid' → ¬ c.Returned i call (.ok a)
  /-- None succeeds without checking a copy of the user that it read. -/
  checked : ∀ i call a uid, call.subject? a = some uid → c.Returned i call (.ok a) →
    ∃ later k past u, c.trace = later ++ k :: past ∧ k.tid = i ∧ k.op = .status u ∧ u.id = uid ∧
      Loaded (history i past) u
  /-- No other operation clears the mark. -/
  kept : ∀ e ∈ c.trace, ∀ uid, IsDisabled e.pre uid → e.call ≠ .enableUser uid →
    IsDisabled e.post uid

theorem disabled_is_dead {as : List (system cfg).Action} {c : Run cfg}
    (hrun : (Config.start w₀).run as = some c) : DisabledIsDead c := by
  have hv := run_trace_valid hrun
  refine ⟨?_, ?_, ?_⟩
  · rintro d uid i hd ⟨later, r, mid, past, u₀, u, htrace, rfl, hsaw, rfl, hno, hcopy, hstatus⟩
      call a uid' hsubject hret
    have hcleared := ((run_outcome hrun hret).vetted hsubject).cleared
    rw [htrace] at hv hcleared
    obtain ⟨hpre, hserve, hallow, -⟩ := Valid.entry hv
    have hdis : u₀.disabledAt ≠ none :=
      hsaw.disabled (hd.until_enabled hpre hno) hserve (user_change hpre hserve hallow)
    refine hdis (hcopy.disabledAt ▸ hcleared u ?_)
    rw [history_append]
    exact List.mem_append_left _ hstatus
  · intro i call a uid hsubject hret
    obtain ⟨u, hid, hstatus⟩ := ((run_outcome hrun hret).vetted hsubject).checked
    obtain ⟨k, hk, rfl, hev⟩ := mem_history.mp hstatus
    obtain ⟨later, past, htrace⟩ := List.append_of_mem hk
    have hop : k.op = .status u := congrArg Sigma.fst hev
    refine ⟨later, k, past, u, htrace, rfl, hop, hid, ?_⟩
    rw [htrace] at hv
    have hallow := (Valid.entry hv).2.2.1
    rw [hop] at hallow
    exact hallow
  · intro e he uid hdis hcall
    obtain ⟨later, past, htrace⟩ := List.append_of_mem he
    exact (hdis.step (hv.user_change htrace)).resolve_right (fun h => hcall h.1)

end

section

open Scenario

attribute [local instance] plain

/-- An account is disabled, but its session stays in the store and is presented. -/
def disabledHolder : List (Call × Nat) :=
  [(.register "a" [1] {}, 8), (.disableUser (ident 2) "abuse", 4), (.validateSession (raw 4), 4)]

/-- The last steps of that run: the write, the read and the status check. -/
def readWhileDisabled (c : Run config) : Bool :=
  match c.trace with
  | k :: r :: x :: y :: z :: d :: _ =>
    match k.op, d.op with
    | .status u, .updateUser _ =>
      k.tid = 2 ∧ r.tid = 2 ∧ r.event = ⟨.getUserByID u.id, .ok u⟩ ∧ u.id = ident 2 ∧
        d.call = .disableUser (ident 2) "abuse" ∧ d.post.users.rows ≠ d.pre.users.rows ∧
        ∀ e ∈ [x, y, z], e.call ≠ .enableUser (ident 2)
    | _, _ => false
  | _ => false

theorem readWhileDisabled_checked {c : Run config} (h : readWhileDisabled c = true) :
    ∃ d, DisableCommit d (ident 2) ∧ CheckedWithin c d 2 (ident 2) := by
  unfold readWhileDisabled at h
  split at h
  case h_2 => cases h
  rename_i k r x y z d past htrace
  split at h
  case h_2 => cases h
  rename_i u u' hk hd
  obtain ⟨hktid, hrtid, hread, hid, hcall, hne, hno⟩ := of_decide_eq_true h
  refine ⟨d, ⟨⟨_, hcall⟩, ⟨u', hd⟩, fun heq => hne (by rw [heq])⟩,
    [k], r, [x, y, z], past, u, u, htrace, hrtid, Or.inl hread, hid,
    fun e he hc => hno e he hc.1, Or.inl rfl, ?_⟩
  obtain ⟨res, hev⟩ := Entry.event_of_op hk
  exact mem_history.mpr ⟨k, by simp, hktid, hev⟩

/-- The revocation of `DisableUser` fails, and the session is refused all the same. -/
theorem disabled_is_dead_failedRevocation :
    ∃ c d, playFailing 11 disabledHolder = some c ∧ DisableCommit d (ident 2) ∧
      CheckedWithin c d 2 (ident 2) ∧ DisabledIsDead c := by
  obtain ⟨c, hplay, hread⟩ := computed (o := playFailing 11 disabledHolder)
    (P := fun c => readWhileDisabled c = true) (by decide +kernel)
  obtain ⟨d, hd, hchecked⟩ := readWhileDisabled_checked hread
  obtain ⟨as, hrun⟩ := Config.runBlocks_run hplay
  exact ⟨c, d, hplay, hd, hchecked, disabled_is_dead hrun⟩

end

end Sulis
