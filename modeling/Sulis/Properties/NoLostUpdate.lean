-- SUMMARY: No update of a user row is ever lost: the stored row is the fold of the committed mutations.
import Sulis.Facts.Users
import Sulis.Properties.Scenario

/-!
# No lost update

Any number of operations read, mutate and write user rows concurrently. The
stored row is always what one gets by applying, in commit order, the mutations of
the updates that succeeded, each to the row its predecessor left.
-/

namespace Sulis

open Interaction Interaction.System

section

variable [Platform] {cfg : Config} {w₀ w : World} {trace past : List (Entry cfg)} {e : Entry cfg}

/-- The row of one user after a trace, as the fold of what was committed to it. A
    commit applies a mutation of its own call, guard included, to the row left by
    the commit before. -/
inductive Folds (cfg : Config) (uid : UUID) (row₀ : Option User) :
    List (Entry cfg) → Option User → Prop
  | nil : Folds cfg uid row₀ [] row₀
  | create {e past u} (hpast : Folds cfg uid row₀ past none)
      (hev : e.event = ⟨.createUser u, .ok ()⟩) (hid : u.id = uid) :
      Folds cfg uid row₀ (e :: past) (some u)
  | commit {e past row u m} (hpast : Folds cfg uid row₀ past (some row))
      (hev : e.event = ⟨.updateUser u, .ok ()⟩) (hid : u.id = uid)
      (hmay : MayMutate cfg e.call (history e.tid past) uid m)
      (happly : m.apply cfg row = .ok u) :
      Folds cfg uid row₀ (e :: past) (some { u with version := row.version + 1 })
  | skip {e past row} (hpast : Folds cfg uid row₀ past row)
      (hcreate : ∀ u, e.event = ⟨.createUser u, .ok ()⟩ → u.id ≠ uid)
      (hupdate : ∀ u, e.event = ⟨.updateUser u, .ok ()⟩ → u.id ≠ uid) :
      Folds cfg uid row₀ (e :: past) row

/-- The user store is memstore's: a write that reports an error has not happened. -/
def AtomicUsers (trace : List (Entry cfg)) : Prop :=
  ∀ e ∈ trace, (∃ u, e.op = .createUser u ∨ e.op = .updateUser u) →
    ∀ f, e.choice.fault = some f → f.applied = false

/-- With an atomic user store only successful writes change a row. -/
theorem users_unchanged (hserve : World.serve e.pre e.op e.choice = some (e.res, e.post))
    (hatomic : (∃ u, e.op = .createUser u ∨ e.op = .updateUser u) →
      ∀ f, e.choice.fault = some f → f.applied = false)
    (hcreate : ∀ u, e.event ≠ ⟨.createUser u, .ok ()⟩)
    (hupdate : ∀ u, e.event ≠ ⟨.updateUser u, .ok ()⟩) : e.post.users = e.pre.users := by
  obtain ⟨tid, call, op, choice, res, pre, post⟩ := e
  cases World.serve_users hserve with
  | same h => exact h
  | create u hop =>
    simp only at hop
    subst hop
    cases res with
    | ok x => exact absurd rfl (hcreate u)
    | error err => exact World.serve_createUser_error (hatomic ⟨u, Or.inl rfl⟩) hserve
  | update u existing hop =>
    simp only at hop
    subst hop
    cases res with
    | ok x => exact absurd rfl (hupdate u)
    | error err => exact World.serve_updateUser_error (hatomic ⟨u, Or.inr rfl⟩) hserve

/-- The run lemma: the fold keeps up with the store. -/
theorem folds_of_trace (hv : Trace cfg w₀ trace w) (hatomic : AtomicUsers trace) (uid : UUID) :
    Folds cfg uid (w₀.users.get? uid) trace (w.users.get? uid) := by
  induction hv with
  | nil => exact .nil
  | cons e past hpast hserve hallow hcall ih =>
    have ih := ih (fun e' he' => hatomic e' (List.mem_cons_of_mem e he'))
    have hv' : Trace cfg w₀ (e :: past) e.post := Valid.cons e past hpast hserve hallow hcall
    by_cases hup : ∃ u, e.event = ⟨.updateUser u, .ok ()⟩
    · obtain ⟨u, hev⟩ := hup
      obtain ⟨row, m, hrow, hid, hmay, happly, heq⟩ :=
        hv'.commit (show e :: past = [] ++ e :: past from rfl) hev
      have hother : ∀ u', e.event ≠ ⟨.createUser u', .ok ()⟩ := by
        intro u' h; rw [hev] at h; cases h
      by_cases huid : u.id = uid
      · have hget : e.pre.users.get? uid = some row :=
          Store.Table.get?_eq_some.mpr ⟨hrow, hid.trans huid⟩
        rw [hget] at ih
        rw [heq, Store.Table.get?_put, if_pos huid]
        exact .commit ih hev huid (by rw [← huid, ← hid]; exact hmay) happly
      · rw [heq, Store.Table.get?_put, if_neg huid]
        refine .skip ih (fun u' h => absurd h (hother u')) (fun u' h => ?_)
        rw [hev] at h
        cases h
        exact huid
    · have hup : ∀ u, e.event ≠ ⟨.updateUser u, .ok ()⟩ := fun u h => hup ⟨u, h⟩
      by_cases hcr : ∃ u, e.event = ⟨.createUser u, .ok ()⟩
      · obtain ⟨u, hev⟩ := hcr
        obtain ⟨hnew, heq⟩ := World.serve_createUser (Entry.served hev hserve)
        by_cases huid : u.id = uid
        · have hget : e.pre.users.get? uid = none :=
            Store.Table.get?_eq_none.mpr (fun u' hu' => huid ▸ hnew u' hu')
          rw [hget] at ih
          rw [heq, Store.Table.get?_put, if_pos huid]
          exact .create ih hev huid
        · rw [heq, Store.Table.get?_put_of_ne huid]
          refine .skip ih (fun u' h => ?_) (fun u' h => absurd h (hup u'))
          rw [hev] at h
          cases h
          exact huid
      · have hcr : ∀ u, e.event ≠ ⟨.createUser u, .ok ()⟩ := fun u h => hcr ⟨u, h⟩
        rw [users_unchanged hserve (hatomic e List.mem_cons_self) hcr hup]
        exact .skip ih (fun u h => absurd h (hcr u)) (fun u h => absurd h (hup u))

/-! ## Consequences for single operations -/

/-- The password an operation checks against a stored hash, if it does that. -/
def Call.checkedPassword : Call → Option Bytes
  | .login _ password _ => some password
  | .verifyPassword _ password _ => some password
  | .reAuthenticate _ password _ => some password
  | _ => none

/-- An operation that checks a password may only do upkeep. -/
theorem MayMutate.upkeep {call : Call} {h : Hist} {uid : UUID} {m : Mutation} {password : Bytes}
    (hmay : MayMutate cfg call h uid m) (hcall : call.checkedPassword = some password) :
    MayUpkeep cfg password h uid m := by
  cases hmay <;> cases hcall <;> assumption

/-- A login replaces a hash only if it is the one it has verified. -/
theorem rehash_replaces_verified (hv : Trace cfg w₀ trace w) {later : List (Entry cfg)}
    (htrace : trace = later ++ e :: past) {u row : User} {password : Bytes}
    (hev : e.event = ⟨.updateUser u, .ok ()⟩) (hcall : e.call.checkedPassword = some password)
    (hrow : e.pre.users.get? u.id = some row) (hchange : u.passwordHash ≠ row.passwordHash) :
    Hashed cfg (history e.tid past) password u.passwordHash ∧
      ∃ copy, Compared cfg (history e.tid past) password copy true ∧ copy.id = u.id ∧
        copy.passwordHash = row.passwordHash := by
  obtain ⟨row', m, hrow', hid, hmay, happly, _⟩ := hv.commit htrace hev
  obtain rfl : row' = row :=
    Store.Table.eq_of_mem hrow' (Store.Table.get?_eq_some.mp hrow).1
      (hid.trans (Store.Table.get?_eq_some.mp hrow).2.symm)
  have hframe := Mutation.frame happly
  generalize hrid : row'.id = rid at hmay
  cases hmay.upkeep hcall with
  | rehash hu hhash hnow =>
    obtain ⟨hsame, heq⟩ := Mutation.apply_rehash.mp happly
    exact ⟨by rw [heq]; exact hhash, _, hu, hrid.symm.trans hid, hsame.symm⟩
  | recordFailedLogin hu hnow => exact absurd (hframe.password (by simp) (by simp)) hchange
  | clearFailedLogins hu hnow => exact absurd (hframe.password (by simp) (by simp)) hchange

/-- No mutation takes a password away. -/
theorem MayMutate.keeps_password {call : Call} {h : Hist} {uid : UUID} {m : Mutation}
    {row u : User} (hmay : MayMutate cfg call h uid m) (happly : m.apply cfg row = .ok u)
    (hrow : row.passwordHash ≠ "") : u.passwordHash ≠ "" := by
  have hframe := Mutation.frame happly
  have hashed {password : Bytes} {hash : String} (hh : Hashed cfg h password hash) : hash ≠ "" := by
    obtain ⟨salt, _, rfl⟩ := hh
    exact hashPassword_ne_empty _ _ _ _
  have upkeep {password : Bytes} (hm : MayUpkeep cfg password h uid m) : u.passwordHash ≠ "" := by
    cases hm with
    | rehash hu hhash hnow => rw [(Mutation.apply_rehash.mp happly).2]; exact hashed hhash
    | recordFailedLogin hu hnow => rw [hframe.password (by simp) (by simp)]; exact hrow
    | clearFailedLogins hu hnow => rw [hframe.password (by simp) (by simp)]; exact hrow
  cases hmay with
  | login hm | verifyPassword hm | reAuthenticate hm => exact upkeep hm
  | changePassword hhash hnow | setInitialPassword hhash hnow | resetPassword _ hhash hnow =>
    rw [(Mutation.apply_setPassword.mp happly).2]
    exact hashed hhash
  | verifyEmail | redeemMagicLink | changeEmail | confirmEmailChange | disableUser | enableUser =>
    rw [hframe.password (by simp) (by simp)]
    exact hrow

/-- An account that has a password keeps having one. -/
theorem password_kept {later : List (Entry cfg)} {w' : World} (hpast : Trace cfg w₀ past w')
    (hv : Trace cfg w₀ (later ++ past) w) {uid : UUID}
    (hhas : ∀ row ∈ w'.users, row.id = uid → row.passwordHash ≠ "") (hrow : ∃ row ∈ w'.users, row.id = uid) :
    ∀ row ∈ w.users, row.id = uid → row.passwordHash ≠ "" := by
  refine And.left (b := ∃ row ∈ w.users, row.id = uid) ?_
  refine Valid.world_induction (P := fun w : World =>
    (∀ row ∈ w.users, row.id = uid → row.passwordHash ≠ "") ∧ ∃ row ∈ w.users, row.id = uid)
    hpast hv ⟨hhas, hrow⟩ ?_
  rintro l₁ l₂ e hlater hpre hserve hallow ⟨hhas, row₀, hrow₀, hid₀⟩
  have hchange := user_change hpre hserve hallow
  obtain ⟨row₁, hrow₁, hid₁, _⟩ := hchange.row hrow₀
  refine ⟨fun row' hrow' hid' => ?_, row₁, hrow₁, hid₁.trans hid₀⟩
  rcases hchange.row_before hrow' with ⟨_, _, hnew⟩ | ⟨row, hrow, hid, hrc⟩
  · exact absurd (hid₀.trans hid'.symm) (hnew row₀ hrow₀)
  · have hpass := hhas row hrow (hid.symm.trans hid')
    cases hrc with
    | same heq => rw [heq]; exact hpass
    | commit u m hop hmay happly heq =>
      have hu : u.passwordHash ≠ "" := hmay.keeps_password happly hpass
      rw [heq]
      exact hu

/-- A commit of `SetInitialPassword` found no password and left one. -/
theorem bootstrap_commit (hv : Trace cfg w₀ trace w) {later : List (Entry cfg)}
    (htrace : trace = later ++ e :: past) {uid : UUID} {newPassword : Bytes} {u : User}
    (hcall : e.call = .setInitialPassword uid newPassword)
    (hev : e.event = ⟨.updateUser u, .ok ()⟩) :
    (∃ row ∈ e.pre.users, row.id = uid ∧ row.passwordHash = "") ∧
      (∃ row ∈ e.post.users, row.id = uid) ∧
      ∀ row ∈ e.post.users, row.id = uid → row.passwordHash ≠ "" := by
  obtain ⟨row, m, hrow, hid, hmay, happly, heq⟩ := hv.commit htrace hev
  rw [hcall] at hmay
  generalize hrid : row.id = rid at hmay
  cases hmay with
  | setInitialPassword hhash hnow =>
    obtain ⟨hguard, hu⟩ := Mutation.apply_setPassword.mp happly
    have hempty : row.passwordHash = "" := by
      by_contra hne
      simp [PasswordGuard.check, Service.requirePasswordless, hne] at hguard
    have huid : u.id = uid := hid.symm.trans hrid
    refine ⟨⟨row, hrow, hrid, hempty⟩, ⟨{ u with version := row.version + 1 }, ?_, huid⟩, ?_⟩
    · rw [heq]; exact Store.Table.mem_put.mpr (Or.inl rfl)
    · intro row' hrow' hid'
      rw [heq] at hrow'
      rcases Store.Table.mem_put.mp hrow' with rfl | ⟨_, hne⟩
      · obtain ⟨salt, _, hsalt⟩ := hhash
        simp only [hu, hsalt]
        exact hashPassword_ne_empty _ _ _ _
      · exact absurd (hid'.trans huid.symm) hne

/-- A successful `SetInitialPassword` has committed. -/
theorem bootstrap_committed {as : List (system cfg).Action} {c : Run cfg}
    (hrun : (Config.start w₀).run as = some c) {i : Nat} {uid : UUID} {p : Bytes}
    (hret : c.Returned i (.setInitialPassword uid p) (.ok ())) :
    ∃ e later past, c.trace = later ++ e :: past ∧ e.tid = i ∧
      e.call = .setInitialPassword uid p ∧ ∃ u, e.event = ⟨.updateUser u, .ok ()⟩ := by
  obtain ⟨u, _, hu⟩ := Recovered.commit (run_outcome hrun hret)
  obtain ⟨e, he, htid, hev⟩ := mem_history.mp hu
  obtain ⟨later, past, htrace⟩ := List.append_of_mem he
  exact ⟨e, later, past, htrace, htid, run_call hrun hret he htid, u, hev⟩

/-- Of two different commits of `SetInitialPassword` for one user, the later one
    would have found a password. -/
theorem bootstrap_once (hv : Trace cfg w₀ trace w) {later later' past' : List (Entry cfg)}
    {e' : Entry cfg} (htrace : trace = later ++ e :: past) (htrace' : trace = later' ++ e' :: past')
    {uid : UUID} {p p' : Bytes} {u u' : User} (hcall : e.call = .setInitialPassword uid p)
    (hcall' : e'.call = .setInitialPassword uid p') (hev : e.event = ⟨.updateUser u, .ok ()⟩)
    (hev' : e'.event = ⟨.updateUser u', .ok ()⟩) : e = e' := by
  have older {later later' past past' : List (Entry cfg)} {e e' : Entry cfg} {p p' : Bytes}
      {u u' : User} (htrace : trace = later ++ e :: past) (htrace' : trace = later' ++ e' :: past')
      (hcall : e.call = .setInitialPassword uid p) (hcall' : e'.call = .setInitialPassword uid p')
      (hev : e.event = ⟨.updateUser u, .ok ()⟩) (hev' : e'.event = ⟨.updateUser u', .ok ()⟩)
      {mid : List (Entry cfg)} (hpast : past = mid ++ e' :: past') : False := by
    obtain ⟨⟨row, hrow, hid, hempty⟩, _⟩ := bootstrap_commit hv htrace hcall hev
    obtain ⟨_, hex, hpass⟩ := bootstrap_commit hv htrace' hcall' hev'
    have hpre : Trace cfg w₀ (mid ++ e' :: past') e.pre := by
      rw [htrace, hpast] at hv
      exact (Valid.entry hv).1
    exact password_kept (Valid.upto hpre) hpre hpass hex row hrow hid hempty
  rcases append_cons_cases (htrace.symm.trans htrace') with h | ⟨mid, hp⟩ | ⟨mid, hp⟩
  · exact h.2.1
  · exact (older htrace htrace' hcall hcall' hev hev' hp).elim
  · exact (older htrace' htrace hcall' hcall hev' hev hp).elim

/-! ## The property -/

/-- What it means that no update of a user is lost. -/
structure NoLostUpdate (w₀ : World) (c : Run cfg) : Prop where
  /-- The stored rows are the fold of what was committed to them. -/
  folded : ∀ uid, Folds cfg uid (w₀.users.get? uid) c.trace (c.world.users.get? uid)
  /-- So they were at every earlier moment. -/
  folded_before : ∀ (later : List (Entry cfg)) (e : Entry cfg) (past : List (Entry cfg)),
    c.trace = later ++ e :: past → ∀ uid, Folds cfg uid (w₀.users.get? uid) past (e.pre.users.get? uid)
  /-- An update that returns an error leaves no trace. -/
  failed : ∀ e ∈ c.trace, ∀ u err, e.event = ⟨.updateUser u, .error err⟩ →
    e.post.users = e.pre.users
  /-- A login that writes a hash writes one of the password it was given, over the
      very hash it has verified that password against. -/
  rehash : ∀ (later : List (Entry cfg)) (e : Entry cfg) (past : List (Entry cfg)),
    c.trace = later ++ e :: past → ∀ (u row : User) (password : Bytes),
    e.event = ⟨.updateUser u, .ok ()⟩ → Call.checkedPassword e.call = some password →
    e.pre.users.get? u.id = some row → u.passwordHash ≠ row.passwordHash →
    Hashed cfg (history e.tid past) password u.passwordHash ∧
      ∃ copy, Compared cfg (history e.tid past) password copy true ∧ copy.id = u.id ∧
        copy.passwordHash = row.passwordHash
  /-- One `SetInitialPassword` for a user succeeds at most. -/
  bootstrap : ∀ i j uid p p', c.Returned i (.setInitialPassword uid p) (.ok ()) →
    c.Returned j (.setInitialPassword uid p') (.ok ()) → i = j

/-- Whatever runs concurrently, no update of a user is lost. -/
theorem noLostUpdate {as : List (system cfg).Action} {c : Run cfg}
    (hrun : (Config.start w₀).run as = some c) (hatomic : AtomicUsers c.trace) :
    NoLostUpdate w₀ c := by
  have hv := run_trace_valid hrun
  refine ⟨folds_of_trace hv hatomic, ?_, ?_, ?_, ?_⟩
  · intro later e past htrace
    rw [htrace] at hv hatomic
    exact folds_of_trace (Valid.entry hv).1
      (fun e' he' => hatomic e' (List.mem_append_right _ (List.mem_cons_of_mem e he')))
  · intro e he u err hev
    have hop : e.op = .updateUser u := congrArg Sigma.fst hev
    exact World.serve_updateUser_error (hatomic e he ⟨u, Or.inr hop⟩) (hv.served he hev)
  · intro later e past htrace u row password hev hcall hrow hchange
    exact rehash_replaces_verified hv htrace hev hcall hrow hchange
  · intro i j uid p p' hi hj
    obtain ⟨e, later, past, htrace, hti, hcall, u, hev⟩ := bootstrap_committed hrun hi
    obtain ⟨e', later', past', htrace', htj, hcall', u', hev'⟩ := bootstrap_committed hrun hj
    rw [← hti, ← htj, bootstrap_once hv htrace htrace' hcall hcall' hev hev']

end

section

open Scenario

attribute [local instance] plain

/-- Two requests set the first password of one user: both read the row before
    either writes, and the second finds its copy outdated. -/
def bootstrapRace : List (system config).Action :=
  .invoke (.setInitialPassword (ident 0) [1]) :: .invoke (.setInitialPassword (ident 0) [2]) ::
    steps 1 ([0, 0, 0, 1, 1, 1] ++ List.replicate 5 0 ++ [1, 1])

/-- A store that holds one passwordless user. -/
def passwordlessWorld : World :=
  { users := Store.Table.empty.put { id := ident 0, email := "a", createdAt := 0, updatedAt := 0 } }

theorem noLostUpdate_bootstrapRace :
    ∃ c, (Config.start passwordlessWorld).run bootstrapRace = some c ∧
      (∃ row, c.world.users.get? (ident 0) = some row ∧ row.version = 1) ∧
      NoLostUpdate passwordlessWorld c := by
  obtain ⟨c, hrun, hrow, hfault⟩ := computed
    (o := (Config.start (Y := system config) passwordlessWorld).run bootstrapRace)
    (P := fun c => (c.world.users.get? (ident 0)).map User.version = some 1 ∧
      ∀ e ∈ c.trace, e.choice.fault = none)
    (by decide +kernel)
  have hatomic : AtomicUsers c.trace := by
    intro e he _ f hf
    rw [hfault e he] at hf
    cases hf
  exact ⟨c, hrun, Option.map_eq_some_iff.mp hrow, noLostUpdate hrun hatomic⟩

end

end Sulis
