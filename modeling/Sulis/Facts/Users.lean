-- SUMMARY: User rows along a run: copies and versions, and what any single step can do to the rows.
import Sulis.Discipline.System

/-!
# User rows along a run

A copy of a user that some thread holds may be stale, but its version tells: a
copy with the version of the stored row is the stored row. So an update that the
store accepts was computed from the row it replaces, and `UserChange` can say
what a step does to the rows without mentioning copies at all.
-/

namespace Sulis

open Interaction Interaction.System

/-! ## Versions -/

/-- How a copy relates to the stored row of the same user. -/
structure Behind (u : User) (s : UserStore) : Prop where
  stored : ∃ row ∈ s, row.id = u.id
  version : ∀ row ∈ s, row.id = u.id → u.version ≤ row.version
  current : ∀ row ∈ s, row.id = u.id → u.version = row.version → u = row

theorem behind_of_mem {u : User} {s : UserStore} (hu : u ∈ s) : Behind u s where
  stored := ⟨u, hu, rfl⟩
  version := fun row hrow hid => by rw [Store.Table.eq_of_mem hu hrow hid.symm]
  current := fun row hrow hid _ => Store.Table.eq_of_mem hu hrow hid.symm

/-- Writes to other rows do not matter, and a write to this row moves its version
    past the copy's. -/
theorem Behind.step {u : User} {op : Op} {s s' : UserStore} (hb : Behind u s)
    (hstep : World.UserStep op s s') : Behind u s' := by
  cases hstep with
  | same h => rw [h]; exact hb
  | create v hop hid hemail h =>
    obtain ⟨row, hrow, hrowid⟩ := hb.stored
    have hne : v.id ≠ u.id := fun heq => hid row hrow (hrowid.trans heq.symm)
    have hold : ∀ row ∈ s', row.id = u.id → row ∈ s := by
      intro row hrow hi
      rw [h] at hrow
      rcases Store.Table.mem_put.mp hrow with rfl | ⟨hmem, _⟩
      · exact absurd hi hne
      · exact hmem
    refine ⟨⟨row, ?_, hrowid⟩, fun r hr hi => hb.version r (hold r hr hi) hi,
      fun r hr hi => hb.current r (hold r hr hi) hi⟩
    rw [h]
    exact Store.Table.mem_put.mpr (Or.inr ⟨hrow, by rw [hrowid]; exact hne.symm⟩)
  | update v existing hop hmem hid hversion hemail h =>
    subst h
    by_cases hsame : v.id = u.id
    · have hlt : u.version < v.version + 1 := by
        have := hb.version existing hmem (hid.trans hsame)
        omega
      have hrow : ∀ row ∈ s.put { v with version := v.version + 1 }, row.id = u.id →
          row.version = v.version + 1 := by
        intro row hrow hi
        rcases Store.Table.mem_put.mp hrow with rfl | ⟨_, hne⟩
        · rfl
        · exact absurd (hi.trans hsame.symm) hne
      refine ⟨⟨_, Store.Table.mem_put.mpr (Or.inl rfl), hsame⟩, fun r hr hi => ?_,
        fun r hr hi hv => ?_⟩
      · rw [hrow r hr hi]; omega
      · rw [hrow r hr hi] at hv; omega
    · have hold : ∀ row ∈ s.put { v with version := v.version + 1 }, row.id = u.id → row ∈ s := by
        intro row hrow hi
        rcases Store.Table.mem_put.mp hrow with rfl | ⟨hmem, _⟩
        · exact absurd hi hsame
        · exact hmem
      obtain ⟨row, hrow, hrowid⟩ := hb.stored
      refine ⟨⟨row, Store.Table.mem_put.mpr (Or.inr ⟨hrow, ?_⟩), hrowid⟩,
        fun r hr hi => hb.version r (hold r hr hi) hi,
        fun r hr hi => hb.current r (hold r hr hi) hi⟩
      rw [hrowid]
      exact fun heq => hsame heq.symm

/-! ## Copies -/

variable [Platform] {cfg : Config} {w₀ w : World} {trace past : List (Entry cfg)} {e : Entry cfg}

/-- The step handed a copy of this row to its thread. -/
def Saw (e : Entry cfg) (u : User) : Prop :=
  e.event = ⟨.getUserByID u.id, .ok u⟩ ∨ e.event = ⟨.getUserByEmail u.email, .ok u⟩ ∨
    e.event = ⟨.createUser u, .ok ()⟩

theorem Read.saw {i : Nat} {u : User} (h : Read (history i trace) u) :
    ∃ e ∈ trace, e.tid = i ∧ Saw e u := by
  rcases h with h | h
  · obtain ⟨e, he, hi, hev⟩ := mem_history.mp h
    exact ⟨e, he, hi, Or.inl hev⟩
  · obtain ⟨e, he, hi, hev⟩ := mem_history.mp h
    exact ⟨e, he, hi, Or.inr (Or.inl hev)⟩

/-- Right after the step the copy is the stored row. -/
theorem Saw.mem_post {u : User} (hsaw : Saw e u)
    (hserve : World.serve e.pre e.op e.choice = some (e.res, e.post)) : u ∈ e.post.users := by
  rcases hsaw with hev | hev | hev
  · obtain ⟨hmem, _, hpost⟩ := World.serve_getUserByID (Entry.served hev hserve)
    rw [hpost]; exact hmem
  · obtain ⟨hmem, _, hpost⟩ := World.serve_getUserByEmail (Entry.served hev hserve)
    rw [hpost]; exact hmem
  · obtain ⟨_, hpost⟩ := World.serve_createUser (Entry.served hev hserve)
    rw [hpost]; exact Store.Table.mem_put.mpr (Or.inl rfl)

/-! ## What a step does to the rows -/

/-- Every copy ever handed out is behind the stored row, or is it. -/
theorem Saw.behind (hv : Trace cfg w₀ trace w) {u : User} (he : e ∈ trace) (hsaw : Saw e u) :
    Behind u w.users := by
  induction hv with
  | nil => cases he
  | cons e' past hpast hserve hallow hcall ih =>
    rcases List.mem_cons.mp he with rfl | he
    · exact behind_of_mem (hsaw.mem_post hserve)
    · exact (ih he).step (World.serve_users hserve)

/-- Everything one step of a run can do to the users. An update replaces a row by
    what one of the call's own mutations makes of that very row. -/
inductive UserChange (cfg : Config) (call : Call) (h : Hist) (op : Op) (s s' : UserStore) : Prop
  | same (heq : s' = s)
  | create (u : User) (hop : op = .createUser u) (hmay : MayCreate cfg call h u)
      (hid : ∀ u' ∈ s, u'.id ≠ u.id) (hemail : ∀ u' ∈ s, u'.email ≠ u.email) (heq : s' = s.put u)
  | commit (row u : User) (m : Mutation) (hop : op = .updateUser u) (hrow : row ∈ s)
      (hmay : MayMutate cfg call h row.id m) (happly : m.apply cfg row = .ok u)
      (hemail : ∀ u' ∈ s, u'.id ≠ row.id → u'.email ≠ u.email)
      (heq : s' = s.put { u with version := row.version + 1 })

/-- An update the store accepts was computed from the row it replaces: the copy
    has the version of that row, so it is that row. -/
theorem Updates.of_current {i : Nat} {call : Call} {u existing : User} {s : World}
    (hup : Updates cfg call (history i past) u) (hpast : Trace cfg w₀ past s)
    (hmem : existing ∈ s.users) (hid : existing.id = u.id) (hversion : existing.version = u.version) :
    ∃ m, MayMutate cfg call (history i past) existing.id m ∧ m.apply cfg existing = .ok u := by
  obtain ⟨u₀, m, hread, hmay, happly⟩ := hup
  have hframe := Mutation.frame happly
  obtain ⟨e', he', _, hev⟩ := mem_history.mp hread
  have hrow : u₀ = existing := (Saw.behind hpast he' (Or.inl hev)).current existing hmem
    (by rw [hid, hframe.id]) (by rw [hversion, hframe.version])
  subst hrow
  exact ⟨m, hmay, happly⟩

theorem user_change (hpast : Trace cfg w₀ past e.pre)
    (hserve : World.serve e.pre e.op e.choice = some (e.res, e.post))
    (hallow : Justified cfg e.call (history e.tid past) e.op) :
    UserChange cfg e.call (history e.tid past) e.op e.pre.users e.post.users := by
  cases World.serve_users hserve with
  | same h => exact .same h
  | create u hop hid hemail h =>
    rw [hop] at hallow
    exact .create u hop hallow hid hemail h
  | update u existing hop hmem hid hversion hemail h =>
    rw [hop] at hallow
    obtain ⟨m, hmay, happly⟩ := Updates.of_current hallow hpast hmem hid hversion
    refine .commit existing u m hop hmem hmay happly ?_ ?_
    · rw [hid]; exact hemail
    · rw [h, hversion]

/-- A successful update, found by its place in the trace. -/
theorem Trace.commit (hv : Trace cfg w₀ trace w) {later : List (Entry cfg)}
    (htrace : trace = later ++ e :: past) {u : User} (hev : e.event = ⟨.updateUser u, .ok ()⟩) :
    ∃ row m, row ∈ e.pre.users ∧ row.id = u.id ∧
      MayMutate cfg e.call (history e.tid past) row.id m ∧ m.apply cfg row = .ok u ∧
      e.post.users = e.pre.users.put { u with version := row.version + 1 } := by
  subst htrace
  obtain ⟨hpast, hserve, hallow, _⟩ := Valid.entry hv
  obtain ⟨row, hrow, hid, hversion, heq⟩ := World.serve_updateUser (Entry.served hev hserve)
  have hop : e.op = .updateUser u := congrArg Sigma.fst hev
  rw [hop] at hallow
  obtain ⟨m, hmay, happly⟩ := Updates.of_current hallow hpast hrow hid hversion
  exact ⟨row, m, hrow, hid, hmay, happly, by rw [heq, hversion]⟩

/-- The change a step made, found by its place in the trace. -/
theorem Trace.user_change (hv : Trace cfg w₀ trace w) {later : List (Entry cfg)}
    (htrace : trace = later ++ e :: past) :
    UserChange cfg e.call (history e.tid past) e.op e.pre.users e.post.users := by
  subst htrace
  obtain ⟨hpast, hserve, hallow, _⟩ := Valid.entry hv
  exact Sulis.user_change hpast hserve hallow

/-- What happens to the row of a given user in one step. -/
inductive RowChange (cfg : Config) (call : Call) (h : Hist) (op : Op) (row row' : User) : Prop
  | same (heq : row' = row)
  | commit (u : User) (m : Mutation) (hop : op = .updateUser u)
      (hmay : MayMutate cfg call h row.id m) (happly : m.apply cfg row = .ok u)
      (heq : row' = { u with version := row.version + 1 })

/-- A stored row stays stored, changed at most by a commit to it. -/
theorem UserChange.row {call : Call} {h : Hist} {op : Op} {s s' : UserStore} {row : User}
    (hc : UserChange cfg call h op s s') (hrow : row ∈ s) :
    ∃ row' ∈ s', row'.id = row.id ∧ RowChange cfg call h op row row' := by
  cases hc with
  | same heq => exact ⟨row, by rw [heq]; exact hrow, rfl, .same rfl⟩
  | create u hop hmay hid hemail heq =>
    refine ⟨row, ?_, rfl, .same rfl⟩
    rw [heq]
    exact Store.Table.mem_put.mpr (Or.inr ⟨hrow, hid row hrow⟩)
  | commit row₀ u m hop hrow₀ hmay happly hemail heq =>
    have huid : u.id = row₀.id := (Mutation.frame happly).id
    by_cases hsame : row.id = row₀.id
    · have : row = row₀ := Store.Table.eq_of_mem hrow hrow₀ hsame
      subst this
      refine ⟨{ u with version := row.version + 1 }, ?_, huid, .commit u m hop hmay happly rfl⟩
      rw [heq]
      exact Store.Table.mem_put.mpr (Or.inl rfl)
    · refine ⟨row, ?_, rfl, .same rfl⟩
      rw [heq]
      refine Store.Table.mem_put.mpr (Or.inr ⟨hrow, ?_⟩)
      simp only [huid]
      exact hsame

/-- A user stays. -/
theorem user_kept {later : List (Entry cfg)} {w' : World} (hpast : Trace cfg w₀ past w')
    (hv : Trace cfg w₀ (later ++ past) w) {uid : UUID} (hrow : ∃ row ∈ w'.users, row.id = uid) :
    ∃ row ∈ w.users, row.id = uid := by
  refine Valid.world_induction (P := fun w : World => ∃ row ∈ w.users, row.id = uid) hpast hv hrow ?_
  rintro l₁ l₂ e - hpre hserve hallow ⟨row, hrow, hid⟩
  obtain ⟨row', hrow', hid', -⟩ := (Sulis.user_change hpre hserve hallow).row hrow
  exact ⟨row', hrow', hid'.trans hid⟩

/-- A row that is stored after a step was stored before, or was just created. -/
theorem UserChange.row_before {call : Call} {h : Hist} {op : Op} {s s' : UserStore} {row' : User}
    (hc : UserChange cfg call h op s s') (hrow' : row' ∈ s') :
    (op = .createUser row' ∧ MayCreate cfg call h row' ∧ ∀ u ∈ s, u.id ≠ row'.id) ∨
      ∃ row ∈ s, row'.id = row.id ∧ RowChange cfg call h op row row' := by
  by_cases hex : ∃ row ∈ s, row.id = row'.id
  · obtain ⟨row, hrow, hid⟩ := hex
    obtain ⟨row'', hrow'', hid'', hchange⟩ := hc.row hrow
    have : row'' = row' := Store.Table.eq_of_mem hrow'' hrow' (hid''.trans hid)
    subst this
    exact Or.inr ⟨row, hrow, hid'', hchange⟩
  · have hnew : ∀ u ∈ s, u.id ≠ row'.id := fun u hu heq => hex ⟨u, hu, heq⟩
    cases hc with
    | same heq => rw [heq] at hrow'; exact absurd rfl (hnew row' hrow')
    | create u hop hmay hid hemail heq =>
      rw [heq] at hrow'
      rcases Store.Table.mem_put.mp hrow' with rfl | ⟨hmem, _⟩
      · exact Or.inl ⟨hop, hmay, hid⟩
      · exact absurd rfl (hnew row' hmem)
    | commit row₀ u m hop hrow₀ hmay happly hemail heq =>
      rw [heq] at hrow'
      rcases Store.Table.mem_put.mp hrow' with rfl | ⟨hmem, _⟩
      · exact absurd (Mutation.frame happly).id.symm (hnew row₀ hrow₀)
      · exact absurd rfl (hnew row' hmem)

/-! ## Who makes which change -/

section

variable {call : Call} {h : Hist} {uid : UUID} {now : Time} {address : String}

theorem MayMutate.stageEmail (hmay : MayMutate cfg call h uid (.stageEmail address now)) :
    ∃ newEmail, call = .changeEmail uid newEmail ∧ normalizeEmail newEmail = .ok address := by
  cases hmay with
  | changeEmail hemail => exact ⟨_, rfl, hemail⟩
  | login hm | verifyPassword hm | reAuthenticate hm => cases hm

theorem MayMutate.confirmed (hmay : MayMutate cfg call h uid (.confirmEmailChange address now)) :
    ∃ raw tok, call = .confirmEmailChange raw ∧ tok.userID = uid ∧ tok.email = address ∧
      Redeemed h (hashToken raw) .emailChange tok := by
  cases hmay with
  | confirmEmailChange htok => exact ⟨_, _, rfl, rfl, rfl, htok⟩
  | login hm | verifyPassword hm | reAuthenticate hm => cases hm

theorem MayMutate.stamped (hmay : MayMutate cfg call h uid (.stampEmailVerified now)) :
    (∃ raw tok u, call = .verifyEmail raw ∧ Redeemed h (hashToken raw) .emailVerification tok ∧
      tok.userID = uid ∧ Read h u ∧ u.id = uid ∧ tok.email = u.email) ∨
    ∃ raw nonce ri tok u, call = .redeemMagicLink raw nonce ri ∧
      Redeemed h (hashToken raw) .magicLink tok ∧ Resolves h tok u ∧ u.id = uid := by
  cases hmay with
  | verifyEmail htok hu hid hemail => exact Or.inl ⟨_, _, _, rfl, htok, rfl, hu, hid, hemail⟩
  | redeemMagicLink htok hu => exact Or.inr ⟨_, _, _, _, _, rfl, htok, hu, rfl⟩
  | login hm | verifyPassword hm | reAuthenticate hm => cases hm

theorem MayMutate.of_disableUser {uid' : UUID} {reason : String} {m : Mutation}
    (hmay : MayMutate cfg (.disableUser uid reason) h uid' m) :
    uid' = uid ∧ ∃ now, m = .disable reason now := by
  cases hmay with
  | disableUser => exact ⟨rfl, _, rfl⟩

theorem MayMutate.enabled (hmay : MayMutate cfg call h uid (.enable now)) :
    call = .enableUser uid := by
  cases hmay with
  | enableUser => rfl
  | login hm | verifyPassword hm | reAuthenticate hm => cases hm

end

theorem MayCreate.newUser {call : Call} {h : Hist} {u : User} (hmay : MayCreate cfg call h u) :
    NewUser h u := by
  cases hmay with
  | register hnew | redeem hnew => exact hnew

/-- Every user has a proper ID. -/
theorem user_id_ne_nil (hv : Trace cfg {} trace w) {u : User} (hu : u ∈ w.users) : u.id ≠ .nil := by
  induction hv generalizing u with
  | nil => exact absurd hu (Store.Table.not_mem_empty u)
  | cons e past hpast hserve hallow hcall ih =>
    rcases (user_change hpast hserve hallow).row_before hu with ⟨-, hmay, -⟩ | ⟨row, hrow, hid, -⟩
    · obtain ⟨k, hk, -, hev⟩ := mem_history.mp hmay.newUser.id
      exact (World.serve_newV7 (Valid.served hpast hk hev)).1
    · rw [hid]
      exact ih hrow

end Sulis
