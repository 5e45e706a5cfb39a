-- SUMMARY: The last-passkey guard of the PostgreSQL store, in every interleaving of saves and guarded deletions.
import Mathlib.Data.Option.Basic
import Sulis.Postgres.Passkey
import Sulis.ReadCommitted.Run

/-!
# The last credential stays

Deletions of one user's credentials are serial, since each holds the user's advisory
lock from its first statement to its end. Saves take no lock, but all that a save can
do to a deletion is to add a row, and not the row that the deletion names.
-/

namespace Sulis.Postgres.Passkey

open ReadCommitted Sulis.Passkey Store

abbrev Cfg : Type := ReadCommitted.Config Credential LockKey Call Out

abbrev Sess : Type := ReadCommitted.Session Credential LockKey Call Out

abbrev Trace : Type := List (Moment Credential LockKey Call Out)

/-- Calls as the library makes them: a save brings new IDs, and a deletion names a
    credential only once its save has returned. Deletions keep the guard up. -/
def Issued (heap₀ : Heap Credential) (c : Cfg) : Action Call → Prop
  | .invoke (.saveCredential cred) =>
    (∀ t ∈ heap₀.rows, t.2.id ≠ cred.id ∧ t.2.credentialID ≠ cred.credentialID) ∧
      ∀ s ∈ c.sessions, match s.call with
        | .saveCredential other => other.id ≠ cred.id ∧ other.credentialID ≠ cred.credentialID
        | .deleteCredential _ id _ => id ≠ cred.id
  | .invoke (.deleteCredential _ id allowLast) =>
    allowLast = false ∧
      ∀ s ∈ c.sessions, match s.call with
        | .saveCredential cred => cred.id = id → s.stage.over
        | .deleteCredential _ _ _ => True
  | _ => True

/-- The user has a committed credential. -/
def HasCredential (heap : Heap Credential) (userID : UUID) : Prop :=
  ∃ t ∈ heap, t.2.userID = userID

/-- The named credential is the only committed one of the user. -/
def Only (heap : Heap Credential) (userID id : UUID) : Prop :=
  ∃ t ∈ heap, names userID id t.2 ∧ ∀ t' ∈ heap, t'.2.userID = userID → t' = t

/-- From the one heap to the other the named credential went, and nothing else. -/
def Removes (userID id : UUID) (pre post : Heap Credential) : Prop :=
  (∃ t ∈ pre, names userID id t.2) ∧ ∀ t, t ∈ post ↔ t ∈ pre ∧ ¬ names userID id t.2

/-- One step of the call removed the named credential, and no other step of it changed
    anything. -/
def Removed (trace : Trace) (i : Nat) (userID id : UUID) : Prop :=
  ∃ m ∈ trace, m.action.actor = some i ∧ Removes userID id m.pre.heap m.post.heap ∧
    ∀ m' ∈ trace, m'.action.actor = some i → m' = m ∨ m'.post.heap = m'.pre.heap

/-- From the step that took the lock to the end of the call, the named credential was
    not there. -/
def NeverThere (trace : Trace) (i : Nat) (userID id : UUID) : Prop :=
  ∀ m ∈ trace, ∀ s, m.post.sessions[i]? = some s → userLock .passkey userID ∈ s.held →
    ∀ t ∈ m.post.heap, ¬ names userID id t.2

/-- At some moment of the call the named credential was the user's only one. -/
def WasOnly (trace : Trace) (i : Nat) (userID id : UUID) : Prop :=
  ∃ m ∈ trace, (∃ s, m.pre.sessions[i]? = some s ∧ s.stage.over = false) ∧
    Only m.pre.heap userID id

/-- What a guarded deletion may return, and when. -/
def Truthful (trace : Trace) (i : Nat) (userID id : UUID) : Option Out → Prop
  | some (.ok ()) => Removed trace i userID id
  | some (.error .passkeyNotFound) => NeverThere trace i userID id
  | some (.error .lastCredential) => WasOnly trace i userID id
  | some (.error _) => False
  | none => True

/-! ## What is known of a session -/

/-- The user has a credential beside this tuple. -/
def Another (heap : Heap Credential) (userID : UUID) (tid : Nat) : Prop :=
  ∃ t ∈ heap, t.1 ≠ tid ∧ t.2.userID = userID

/-- How far a save has come. -/
inductive Saving (heap : Heap Credential) (cred : Credential) (s : Sess) : Prop
  | invoked (stage : s.stage = .invoked) (writes : s.writes = [])
  | begun (stage : s.stage = .ready (saveCredential cred)) (writes : s.writes = [])
  | placing (stage : s.stage = .placing cred (fun old => old.id = cred.id) (fun _ => cred)
        fun _ => .commit (.ok ())) (writes : s.writes = [])
  | placed {tid : Nat} (stage : s.stage = .ready (.commit (.ok ())))
      (writes : s.writes = [(tid, some cred)]) (new : ∀ r, (tid, r) ∉ heap)
  | ended (stage : s.stage.over)

/-- How far a deletion has come, and what it knows of the heap and of the run. -/
inductive Deleting (trace : Trace) (heap : Heap Credential) (i : Nat) (userID id : UUID)
    (s : Sess) : Prop
  | invoked (stage : s.stage = .invoked) (writes : s.writes = [])
  | begun (stage : s.stage = .ready (deleteCredential userID id false)) (writes : s.writes = [])
  | locked (stage : s.stage = .ready (.exec (.modify (deletable userID id false) (fun _ => none))
        (afterDelete userID id)))
      (writes : s.writes = []) (held : userLock .passkey userID ∈ s.held)
  | scanning {snapshot : List Credential} {todo : List Nat}
      (stage : s.stage = .scanning (deletable userID id false snapshot) (fun _ => none) todo []
        (afterDelete userID id))
      (writes : s.writes = []) (held : userLock .passkey userID ∈ s.held)
      (left : ∀ t ∈ heap, names userID id t.2 →
        (1 < countByUser snapshot userID → t.1 ∈ todo ∧ Another heap userID t.1) ∧
          (¬ 1 < countByUser snapshot userID → WasOnly trace i userID id))
  | hit {snapshot : List Credential} {todo : List Nat} {tid : Nat} {r : Credential}
      (stage : s.stage = .scanning (deletable userID id false snapshot) (fun _ => none) todo [r]
        (afterDelete userID id))
      (writes : s.writes = [(tid, none)]) (held : userLock .passkey userID ∈ s.held)
      (there : (tid, r) ∈ heap) (named : names userID id r) (another : Another heap userID tid)
  | deleted {tid : Nat} {r : Credential} (stage : s.stage = .ready (.commit (.ok ())))
      (writes : s.writes = [(tid, none)]) (held : userLock .passkey userID ∈ s.held)
      (there : (tid, r) ∈ heap) (named : names userID id r) (another : Another heap userID tid)
  | missed (stage : s.stage = .ready (.exec (.select (names userID id)) refusal))
      (writes : s.writes = []) (held : userLock .passkey userID ∈ s.held)
      (left : ∀ t ∈ heap, names userID id t.2 → WasOnly trace i userID id)
  | notFound (stage : s.stage = .ready (.rollback (.error .passkeyNotFound)))
      (held : userLock .passkey userID ∈ s.held)
      (gone : ∀ t ∈ heap, ¬ names userID id t.2)
  | last (stage : s.stage = .ready (.rollback (.error .lastCredential)))
      (held : userLock .passkey userID ∈ s.held) (only : WasOnly trace i userID id)
  | ended {out : Option Out} (stage : s.stage = .returned out)
      (truthful : Truthful trace i userID id out)

/-! ## What a step does to the heap -/

/-- All that a step can do to the committed rows. -/
inductive HeapStep (pre : Heap Credential) (s : Sess) : Heap Credential → Prop
  | same : HeapStep pre s pre
  | saved {cred : Credential} {tid : Nat} (call : s.call = .saveCredential cred)
      (pending : s.stage.over = false) (new : ∀ r, (tid, r) ∉ pre) :
      HeapStep pre s (pre.write (tid, some cred))
  | deleted {userID id : UUID} {tid : Nat} {r : Credential}
      (call : s.call = .deleteCredential userID id false)
      (held : userLock .passkey userID ∈ s.held) (there : (tid, r) ∈ pre)
      (named : names userID id r) (another : Another pre userID tid) :
      HeapStep pre s (pre.write (tid, none))

variable {heap heap' : Heap Credential} {s s' : Sess} {userID id : UUID} {trace : Trace} {c : Cfg}
  {i : Nat} {fresh : Nat} {cred : Credential}

theorem names_iff : names userID id cred ↔ cred.id = id ∧ cred.userID = userID := by
  simp [names]

theorem mem_write_some {tid : Nat} {t : Nat × Credential} (hnew : ∀ r, (tid, r) ∉ heap) :
    t ∈ heap.write (tid, some cred) ↔ t = (tid, cred) ∨ t ∈ heap := by
  obtain ⟨j, r⟩ := t
  rw [Heap.mem_write, Prod.mk.injEq, Option.some.injEq]
  constructor
  · rintro (⟨rfl, rfl⟩ | ⟨-, hmem⟩)
    · exact Or.inl ⟨rfl, rfl⟩
    · exact Or.inr hmem
  · rintro (⟨rfl, rfl⟩ | hmem)
    · exact Or.inl ⟨rfl, rfl⟩
    · exact Or.inr ⟨fun heq => hnew r (heq ▸ hmem), hmem⟩

theorem mem_write_none {tid : Nat} {t : Nat × Credential} :
    t ∈ heap.write (tid, none) ↔ t.1 ≠ tid ∧ t ∈ heap := by
  obtain ⟨j, r⟩ := t
  simp [Heap.mem_write]

/-- Whoever had a credential keeps one. -/
theorem HeapStep.hasCredential (h : HeapStep heap s heap') (hhas : HasCredential heap userID) :
    HasCredential heap' userID := by
  cases h with
  | same => exact hhas
  | saved _ _ hnew =>
    obtain ⟨t, ht, huser⟩ := hhas
    exact ⟨t, (mem_write_some hnew).mpr (Or.inr ht), huser⟩
  | @deleted owner id tid r _ _ _ hnamed hanother =>
    by_cases howner : owner = userID
    · subst howner
      obtain ⟨t, ht, hne, huser⟩ := hanother
      exact ⟨t, mem_write_none.mpr ⟨hne, ht⟩, huser⟩
    · obtain ⟨t, ht, huser⟩ := hhas
      refine ⟨t, mem_write_none.mpr ⟨?_, ht⟩, huser⟩
      rename_i hthere
      -- the tuple that goes belongs to another user
      rintro heq
      have htr : t = (tid, r) := Table.eq_of_mem ht hthere heq
      rw [htr] at huser
      exact howner ((names_iff.mp hnamed).2.symm.trans huser)

/-- Rows of a user stay while another session holds the user's lock. -/
theorem HeapStep.keeps (h : HeapStep heap s heap') (hfree : userLock .passkey userID ∉ s.held)
    {t : Nat × Credential} (ht : t ∈ heap) (huser : t.2.userID = userID) : t ∈ heap' := by
  cases h with
  | same => exact ht
  | saved _ _ hnew => exact (mem_write_some hnew).mpr (Or.inr ht)
  | @deleted owner id tid r _ hheld hthere hnamed _ =>
    refine mem_write_none.mpr ⟨?_, ht⟩
    intro heq
    have htr : t = (tid, r) := Table.eq_of_mem ht hthere heq
    obtain rfl : owner = userID := by
      rw [htr] at huser
      exact (names_iff.mp hnamed).2.symm.trans huser
    exact hfree hheld

/-- A credential that no pending save is about cannot appear. -/
theorem HeapStep.no_new (h : HeapStep heap s heap')
    (hpending : ∀ cred, s.call = .saveCredential cred → s.stage.over = false → cred.id ≠ id)
    {t : Nat × Credential} (ht : t ∈ heap') (hid : t.2.id = id) : t ∈ heap := by
  cases h with
  | same => exact ht
  | saved hcall hopen hnew =>
    rcases (mem_write_some hnew).mp ht with rfl | ht
    · exact absurd hid (hpending _ hcall hopen)
    · exact ht
  | deleted => exact (mem_write_none.mp ht).2

/-! ## Steps of other sessions -/

variable {m : Moment Credential LockKey Call Out}

theorem WasOnly.cons (h : WasOnly trace i userID id) : WasOnly (m :: trace) i userID id := by
  obtain ⟨m', hm', hrest⟩ := h
  exact ⟨m', List.mem_cons_of_mem m hm', hrest⟩

/-- What was said on returning stays true. -/
theorem Truthful.cons {out : Option Out} (h : Truthful trace i userID id out)
    (hactor : m.action.actor ≠ some i) (hheld : ∀ t, m.post.sessions[i]? = some t → t.held = []) :
    Truthful (m :: trace) i userID id out := by
  match out, h with
  | none, _ => trivial
  | some (.ok ()), h =>
    obtain ⟨m', hm', hi, hremoves, hrest⟩ := h
    refine ⟨m', List.mem_cons_of_mem m hm', hi, hremoves, ?_⟩
    intro m'' hm'' hi''
    rcases List.mem_cons.mp hm'' with rfl | hm''
    · exact absurd hi'' hactor
    · exact hrest m'' hm'' hi''
  | some (.error .passkeyNotFound), h =>
    intro m' hm' t ht hlock
    rcases List.mem_cons.mp hm' with rfl | hm'
    · rw [hheld t ht] at hlock
      cases hlock
    · exact h m' hm' t ht hlock
  | some (.error .lastCredential), h => exact WasOnly.cons h

theorem Another.mono {tid : Nat} (h : Another heap userID tid)
    (hgrow : ∀ t ∈ heap, t.2.userID = userID → t ∈ heap') : Another heap' userID tid := by
  obtain ⟨t, ht, hne, huser⟩ := h
  exact ⟨t, hgrow t ht huser, hne, huser⟩

theorem Deleting.frame (h : Deleting trace heap i userID id s)
    (hactor : m.action.actor ≠ some i) (hpost : ∀ t, m.post.sessions[i]? = some t → t = s)
    (hclosed : s.stage.isOpen = false → s.held = [])
    (hgrow : userLock .passkey userID ∈ s.held → ∀ t ∈ heap, t.2.userID = userID → t ∈ heap')
    (hold : ∀ t ∈ heap', names userID id t.2 → t ∈ heap) :
    Deleting (m :: trace) heap' i userID id s := by
  cases h with
  | invoked stage writes => exact .invoked stage writes
  | begun stage writes => exact .begun stage writes
  | locked stage writes held => exact .locked stage writes held
  | scanning stage writes held left =>
    refine .scanning stage writes held fun t ht hnamed => ?_
    obtain ⟨hmany, hone⟩ := left t (hold t ht hnamed) hnamed
    exact ⟨fun hcount => ⟨(hmany hcount).1, (hmany hcount).2.mono (hgrow held)⟩,
      fun hcount => (hone hcount).cons⟩
  | hit stage writes held there named another =>
    exact .hit stage writes held (hgrow held _ there (names_iff.mp named).2) named
      (another.mono (hgrow held))
  | deleted stage writes held there named another =>
    exact .deleted stage writes held (hgrow held _ there (names_iff.mp named).2) named
      (another.mono (hgrow held))
  | missed stage writes held left =>
    exact .missed stage writes held fun t ht hnamed => (left t (hold t ht hnamed) hnamed).cons
  | notFound stage held gone =>
    exact .notFound stage held fun t ht hnamed => gone t (hold t ht hnamed) hnamed
  | last stage held only => exact .last stage held only.cons
  | ended stage truthful =>
    refine .ended stage (truthful.cons hactor fun t ht => ?_)
    rw [hpost t ht]
    exact hclosed (by rw [stage]; rfl)

/-! ## Steps of a deletion -/

/-- Rows of the user that were there while the deletion held its lock are still there. -/
def Kept (trace : Trace) (heap : Heap Credential) (i : Nat) (userID : UUID) : Prop :=
  ∀ m ∈ trace, ∀ t, m.post.sessions[i]? = some t → userLock .passkey userID ∈ t.held →
    ∀ row ∈ m.post.heap, row.2.userID = userID → row ∈ heap

/-- IDs are unique. -/
def UniqueIDs (heap : Heap Credential) : Prop := ∀ t ∈ heap, ∀ t' ∈ heap, t.2.id = t'.2.id → t = t'

theorem removes_write {tid : Nat} {r : Credential} (hunique : UniqueIDs heap)
    (hthere : (tid, r) ∈ heap) (hnamed : names userID id r) :
    Removes userID id heap (heap.write (tid, none)) := by
  refine ⟨⟨_, hthere, hnamed⟩, fun t => ?_⟩
  rw [mem_write_none]
  constructor
  · rintro ⟨hne, ht⟩
    refine ⟨ht, fun hnamed' => hne ?_⟩
    have hid : t.2.id = r.id := (names_iff.mp hnamed').1.trans (names_iff.mp hnamed).1.symm
    rw [hunique t ht _ hthere hid]
  · rintro ⟨ht, hother⟩
    refine ⟨fun heq => hother ?_, ht⟩
    rwa [show t = (tid, r) from Table.eq_of_mem ht hthere heq]

theorem countByUser_visible :
    countByUser heap.visible userID =
      (heap.rows.filter fun t => decide (t.2.userID = userID)).length := by
  simp [countByUser, Heap.visible, List.filter_map, Function.comp_def]

/-- A user whose credentials are counted as more than one has another beside each. -/
theorem another_of_count {tid : Nat} (hcount : 1 < countByUser heap.visible userID) :
    Another heap userID tid := by
  rw [countByUser_visible] at hcount
  have hnodup : ((heap.rows.filter fun t => decide (t.2.userID = userID)).map Prod.fst).Nodup :=
    (List.filter_sublist.map Prod.fst).nodup heap.nodup
  have hmem : ∀ t ∈ heap.rows.filter fun t => decide (t.2.userID = userID),
      t ∈ heap ∧ t.2.userID = userID := by
    intro t ht
    obtain ⟨hrow, huser⟩ := List.mem_filter.mp ht
    exact ⟨hrow, of_decide_eq_true huser⟩
  match hrows : heap.rows.filter fun t => decide (t.2.userID = userID) with
  | [] | [_] => simp [hrows] at hcount
  | t :: t' :: rest =>
    rw [hrows] at hnodup hmem
    obtain ⟨ht, huser⟩ := hmem t (by simp)
    obtain ⟨ht', huser'⟩ := hmem t' (by simp)
    by_cases heq : t.1 = tid
    · refine ⟨t', ht', fun heq' => ?_, huser'⟩
      simp [heq, heq'] at hnodup
    · exact ⟨t, ht, heq, huser⟩

/-- A user whose credentials are counted as no more than one has only the one that is there. -/
theorem only_of_count {t : Nat × Credential} (hcount : ¬ 1 < countByUser heap.visible userID)
    (ht : t ∈ heap) (hnamed : names userID id t.2) : Only heap userID id := by
  rw [countByUser_visible] at hcount
  have hmem : ∀ t' ∈ heap, t'.2.userID = userID →
      t' ∈ heap.rows.filter fun t => decide (t.2.userID = userID) := by
    intro t' ht' huser
    exact List.mem_filter.mpr ⟨ht', by simpa using huser⟩
  refine ⟨t, ht, hnamed, fun t' ht' huser => ?_⟩
  have hrow := hmem t ht (names_iff.mp hnamed).2
  have hrow' := hmem t' ht' huser
  match hrows : heap.rows.filter fun t => decide (t.2.userID = userID) with
  | [] => simp [hrows] at hrow
  | [t₀] =>
    rw [hrows, List.mem_singleton] at hrow hrow'
    rw [hrow, hrow']
  | _ :: _ :: _ => simp [hrows] at hcount

theorem deletable_iff {snapshot : List Credential} :
    deletable userID id false snapshot cred ↔
      names userID id cred ∧ 1 < countByUser snapshot userID := by
  simp [deletable]

/-- One step of a deletion keeps what is known of it, and changes the heap as it may. -/
theorem Deleting.move {a : Action Call} (h : Deleting trace c.heap i userID id s)
    (hs : c.sessions[i]? = some s) (hcall : s.call = .deleteCredential userID id false)
    (hunique : UniqueIDs c.heap) (hchron : Chronicle trace c) (hkept : Kept trace c.heap i userID)
    (ha : a.actor = some i) (hmove : Moves client c i s s' heap fresh) :
    Deleting (⟨c, a, ⟨heap, fresh, c.sessions.set i s'⟩⟩ :: trace) heap i userID id s' ∧
      HeapStep c.heap s heap := by
  have hopen := hmove.not_over
  rcases hmove.follows with ⟨rfl, rfl, rfl⟩ | hfollows
  · exact ⟨.ended rfl trivial, .same⟩
  cases h with
  | invoked stage writes =>
    rw [stage] at hfollows
    obtain ⟨rfl, rfl, rfl⟩ := hfollows
    refine ⟨.begun ?_ writes, .same⟩
    simp only [client, hcall]
  | begun stage writes =>
    rw [stage] at hfollows
    obtain ⟨_, rfl, rfl, rfl⟩ := hfollows
    exact ⟨.locked rfl writes List.mem_cons_self, .same⟩
  | locked stage writes held =>
    rw [stage] at hfollows
    obtain ⟨rfl, rfl, rfl⟩ := hfollows
    refine ⟨.scanning rfl writes held fun t ht hnamed => ?_, .same⟩
    rw [ReadCommitted.Config.view_of_writes_nil writes]
    -- either the guard lets the row through, or it is the only one right now
    constructor
    · intro hcount
      refine ⟨Heap.mem_matching.mpr ⟨t.2, ht, ?_⟩, another_of_count hcount⟩
      exact deletable_iff.mpr ⟨hnamed, hcount⟩
    · intro hcount
      exact ⟨_, List.mem_cons_self, ⟨s, hs, hopen⟩, only_of_count hcount ht hnamed⟩
  | scanning stage writes held left =>
    rw [stage] at hfollows
    obtain ⟨rfl, rfl, hfollows⟩ := hfollows
    rcases hfollows with ⟨rfl, rfl⟩ | ⟨tid, htid, _, ⟨r, hrow, hp, rfl⟩ | ⟨hrow, rfl⟩⟩
    · refine ⟨.missed rfl writes held fun t ht hnamed => ?_, .same⟩
      obtain ⟨hmany, hone⟩ := left t ht hnamed
      refine (hone fun hcount => ?_).cons
      cases (hmany hcount).1
    · rw [ReadCommitted.Config.view_of_writes_nil writes] at hrow
      obtain ⟨hnamed, hcount⟩ := deletable_iff.mp hp
      refine ⟨.hit rfl ?_ held hrow hnamed ((left _ hrow hnamed).1 hcount).2, .same⟩
      rw [writes]
    · refine ⟨.scanning rfl writes held fun t ht hnamed => ?_, .same⟩
      obtain ⟨hmany, hone⟩ := left t ht hnamed
      refine ⟨fun hcount => ⟨?_, (hmany hcount).2⟩, fun hcount => (hone hcount).cons⟩
      refine (List.mem_erase_of_ne fun heq => ?_).mpr (hmany hcount).1
      rw [ReadCommitted.Config.view_of_writes_nil writes] at hrow
      exact hrow t.2 (heq ▸ ht) (deletable_iff.mpr ⟨hnamed, hcount⟩)
  | hit stage writes held there named another =>
    rw [stage] at hfollows
    obtain ⟨rfl, rfl, hfollows⟩ := hfollows
    rcases hfollows with ⟨rfl, rfl⟩ | ⟨tid, htid, _, ⟨r', hrow, hp, rfl⟩ | ⟨hrow, rfl⟩⟩
    · exact ⟨.deleted rfl writes held there named another, .same⟩
    · -- a second row would have the same ID
      rw [ReadCommitted.Config.view_of_writes_singleton writes] at hrow
      obtain ⟨hne, hrow⟩ := mem_write_none.mp hrow
      have hid := (names_iff.mp (deletable_iff.mp hp).1).1.trans (names_iff.mp named).1.symm
      exact absurd (congrArg Prod.fst (hunique _ hrow _ there hid)) hne
    · exact ⟨.hit rfl writes held there named another, .same⟩
  | deleted stage writes held there named another =>
    rw [stage] at hfollows
    obtain ⟨rfl, rfl, rfl⟩ := hfollows
    rw [ReadCommitted.Config.view_of_writes_singleton writes]
    refine ⟨.ended rfl ⟨_, List.mem_cons_self, ha, removes_write hunique there named, ?_⟩,
      .deleted hcall held there named another⟩
    intro m hm hactor
    rcases List.mem_cons.mp hm with rfl | hm
    · exact Or.inl rfl
    · right
      refine hchron.quiet i (fun t ht => ?_) m hm hactor
      obtain rfl := Option.some.inj (hs.symm.trans ht)
      exact hopen
  | missed stage writes held left =>
    rw [stage] at hfollows
    obtain ⟨rfl, rfl, rfl⟩ := hfollows
    rw [ReadCommitted.Config.view_of_writes_nil writes]
    refine ⟨?_, .same⟩
    cases hfound : c.heap.visible.filter (names userID id) with
    | nil =>
      refine .notFound rfl held fun t ht hnamed => ?_
      have hmem : t.2 ∈ c.heap.visible.filter (names userID id) :=
        List.mem_filter.mpr ⟨Heap.mem_visible.mpr ⟨t.1, ht⟩, hnamed⟩
      rw [hfound] at hmem
      cases hmem
    | cons cred rest =>
      have hmem : cred ∈ c.heap.visible.filter (names userID id) := by rw [hfound]; simp
      obtain ⟨hvisible, hnamed⟩ := List.mem_filter.mp hmem
      obtain ⟨tid, hthere⟩ := Heap.mem_visible.mp hvisible
      exact .last rfl held (left (tid, cred) hthere hnamed).cons
  | notFound stage held gone =>
    rw [stage] at hfollows
    obtain ⟨rfl, rfl, rfl⟩ := hfollows
    refine ⟨.ended rfl fun m hm t ht hlock row hrow hnamed => ?_, .same⟩
    rcases List.mem_cons.mp hm with rfl | hm
    · have hself := List.getElem?_set_self (a := s.ended (some (.error .passkeyNotFound)))
        (List.getElem?_eq_some_iff.mp hs).1
      obtain rfl := Option.some.inj (hself.symm.trans ht)
      cases hlock
    · exact gone row (hkept m hm t ht hlock row hrow (names_iff.mp hnamed).2) hnamed
  | last stage held only =>
    rw [stage] at hfollows
    obtain ⟨rfl, rfl, rfl⟩ := hfollows
    exact ⟨.ended rfl only.cons, .same⟩
  | ended stage =>
    rw [stage] at hfollows
    exact hfollows.elim

/-! ## Steps of a save -/

theorem Saving.frame (h : Saving heap cred s)
    (hlocked : ∀ tid ∈ s.locked, ∀ r, (tid, r) ∈ heap' → (tid, r) ∈ heap) : Saving heap' cred s := by
  cases h with
  | invoked stage writes => exact .invoked stage writes
  | begun stage writes => exact .begun stage writes
  | placing stage writes => exact .placing stage writes
  | @placed tid stage writes new =>
    refine .placed stage writes fun r hr => new r (hlocked tid ?_ r hr)
    simp [ReadCommitted.Session.locked, writes]
  | ended stage => exact .ended stage

/-- A row with a new ID is stored as a new tuple. -/
theorem Saving.move (h : Saving c.heap cred s) (hcall : s.call = .saveCredential cred)
    (hsound : c.Sound) (hpending : ∀ t ∈ c.heap, t.2.id ≠ cred.id)
    (hmove : Moves client c i s s' heap fresh) :
    Saving heap cred s' ∧ HeapStep c.heap s heap := by
  have hopen := hmove.not_over
  rcases hmove.follows with ⟨rfl, rfl, rfl⟩ | hfollows
  · exact ⟨.ended rfl, .same⟩
  cases h with
  | invoked stage writes =>
    rw [stage] at hfollows
    obtain ⟨rfl, rfl, rfl⟩ := hfollows
    refine ⟨.begun ?_ writes, .same⟩
    simp only [client, hcall]
  | begun stage writes =>
    rw [stage] at hfollows
    obtain ⟨rfl, rfl, ⟨hnone, -⟩ | ⟨row, hrow, rfl⟩⟩ := hfollows
    · cases hnone
    · obtain rfl := Option.some.inj hrow
      exact ⟨.placing rfl writes, .same⟩
  | placing stage writes =>
    rw [stage] at hfollows
    obtain ⟨tid, new, hlanding, _, _, rfl, rfl, rfl⟩ := hfollows
    rw [ReadCommitted.Config.view_of_writes_nil writes] at hlanding
    rcases landing_cases c.heap c.fresh cred (fun old => old.id = cred.id) (fun _ => cred) with
      ⟨t, ht, hid, _⟩ | ⟨_, heq⟩
    · exact absurd (of_decide_eq_true hid) (hpending t ht)
    · obtain ⟨rfl, rfl⟩ := Prod.mk.inj (hlanding.symm.trans heq)
      refine ⟨.placed rfl (by rw [writes]) fun r hr => ?_, .same⟩
      exact Nat.lt_irrefl _ (hsound.heapOld hr)
  | placed stage writes new =>
    rw [stage] at hfollows
    obtain ⟨rfl, rfl, rfl⟩ := hfollows
    rw [ReadCommitted.Config.view_of_writes_singleton writes]
    exact ⟨.ended rfl, .saved hcall hopen new⟩
  | ended stage =>
    rw [hopen] at stage
    cases stage

/-! ## Every run -/

structure Inv (heap₀ : Heap Credential) (trace : Trace) (c : Cfg) : Prop where
  sound : c.Sound
  chronicle : Chronicle trace c
  unique : UniqueIDs c.heap
  /-- Where the IDs come from. -/
  origin : ∀ t ∈ c.heap, (∃ t₀ ∈ heap₀.rows, t₀.2.id = t.2.id) ∨
    ∃ s ∈ c.sessions, ∃ cred, s.call = .saveCredential cred ∧ cred.id = t.2.id
  savesApart : ∀ {i j : Nat} {s t : Sess} {cred other : Credential}, i ≠ j →
    c.sessions[i]? = some s → c.sessions[j]? = some t → s.call = .saveCredential cred →
    t.call = .saveCredential other → cred.id ≠ other.id
  pending : ∀ {i : Nat} {s : Sess} {cred : Credential}, c.sessions[i]? = some s →
    s.call = .saveCredential cred → s.stage.over = false → ∀ t ∈ c.heap, t.2.id ≠ cred.id
  /-- No deletion names a credential that is being saved. -/
  named : ∀ {i j : Nat} {s t : Sess} {userID id : UUID} {allowLast : Bool} {cred : Credential},
    c.sessions[i]? = some s → c.sessions[j]? = some t →
    s.call = .deleteCredential userID id allowLast → t.call = .saveCredential cred →
    t.stage.over = false → cred.id ≠ id
  saving : ∀ {i : Nat} {s : Sess} {cred : Credential}, c.sessions[i]? = some s →
    s.call = .saveCredential cred → Saving c.heap cred s
  deleting : ∀ {i : Nat} {s : Sess} {userID id : UUID} {allowLast : Bool},
    c.sessions[i]? = some s → s.call = .deleteCredential userID id allowLast →
    allowLast = false ∧ Deleting trace c.heap i userID id s
  kept : ∀ {i : Nat} {s : Sess} {userID id : UUID} {allowLast : Bool}, c.sessions[i]? = some s →
    s.call = .deleteCredential userID id allowLast → s.stage.over = false →
    Kept trace c.heap i userID

theorem inv_start {heap₀ : Heap Credential} {fresh : Nat} (hold : ∀ t ∈ heap₀, t.1 < fresh)
    (hunique : UniqueIDs heap₀) : Inv heap₀ [] (.start heap₀ fresh) where
  sound := ReadCommitted.Config.sound_start hold
  chronicle := .start
  unique := hunique
  origin := fun t ht => Or.inl ⟨t, ht, rfl⟩
  savesApart := by intro i j s t cred other _ hs; cases hs
  pending := by intro i s cred hs; cases hs
  named := by intro i j s t userID id allowLast cred hs; cases hs
  saving := by intro i s cred hs; cases hs
  deleting := by intro i s userID id allowLast hs; cases hs
  kept := by intro i s userID id allowLast hs; cases hs

/-- What a session that moves does to the heap. -/
theorem Inv.heapStep {heap₀ : Heap Credential} (h : Inv heap₀ trace c)
    (hs : c.sessions[i]? = some s) (hmove : Moves client c i s s' heap fresh) :
    HeapStep c.heap s heap := by
  cases hcall : s.call with
  | saveCredential cred =>
    exact ((h.saving hs hcall).move hcall h.sound (h.pending hs hcall hmove.not_over) hmove).2
  | deleteCredential userID id allowLast =>
    obtain ⟨rfl, hdeleting⟩ := h.deleting hs hcall
    exact (hdeleting.move (a := .move i) hs hcall h.unique h.chronicle
      (h.kept hs hcall hmove.not_over) rfl hmove).2

theorem Inv.invoke {heap₀ : Heap Credential} {call : Call} (h : Inv heap₀ trace c)
    (hissued : Issued heap₀ c (.invoke call)) :
    Inv heap₀ (⟨c, .invoke call, c.invoked call⟩ :: trace) (c.invoked call) where
  sound := h.sound.invoke call
  chronicle := h.chronicle.invoke call
  unique := h.unique
  origin := by
    intro t ht
    rcases h.origin t ht with hold | ⟨s, hs, hsaved⟩
    · exact Or.inl hold
    · exact Or.inr ⟨s, List.mem_append_left _ hs, hsaved⟩
  savesApart := by
    intro i j s t cred other hne hs ht hcred hother
    rcases getElem?_concat_cases hs with hs' | ⟨rfl, rfl⟩
    · rcases getElem?_concat_cases ht with ht' | ⟨rfl, rfl⟩
      · exact h.savesApart hne hs' ht' hcred hother
      · obtain rfl : call = _ := hother
        have hfresh := hissued.2 s (List.mem_of_getElem? hs')
        rw [hcred] at hfresh
        exact hfresh.1
    · rcases getElem?_concat_cases ht with ht' | ⟨rfl, rfl⟩
      · obtain rfl : call = _ := hcred
        have hfresh := hissued.2 t (List.mem_of_getElem? ht')
        rw [hother] at hfresh
        exact hfresh.1.symm
      · exact absurd rfl hne
  pending := by
    intro i s cred hs hcred hopen t ht
    rcases getElem?_concat_cases hs with hs | ⟨rfl, rfl⟩
    · exact h.pending hs hcred hopen t ht
    · obtain rfl : call = _ := hcred
      rcases h.origin t ht with ⟨t₀, ht₀, hid⟩ | ⟨s, hs, other, hother, hid⟩
      · rw [← hid]
        exact (hissued.1 t₀ ht₀).1
      · have hfresh := hissued.2 s hs
        rw [hother] at hfresh
        rw [← hid]
        exact hfresh.1
  named := by
    intro i j s t userID id allowLast cred hs ht hcall hcred hopen
    rcases getElem?_concat_cases hs with hs' | ⟨rfl, rfl⟩
    · rcases getElem?_concat_cases ht with ht' | ⟨rfl, rfl⟩
      · exact h.named hs' ht' hcall hcred hopen
      · obtain rfl : call = _ := hcred
        have hfresh := hissued.2 s (List.mem_of_getElem? hs')
        rw [hcall] at hfresh
        exact fun heq => hfresh heq.symm
    · rcases getElem?_concat_cases ht with ht' | ⟨rfl, rfl⟩
      · obtain rfl : call = _ := hcall
        have hover := hissued.2 t (List.mem_of_getElem? ht')
        rw [hcred] at hover
        intro heq
        rw [hover heq] at hopen
        cases hopen
      · cases hcall.symm.trans hcred
  saving := by
    intro i s cred hs hcred
    rcases getElem?_concat_cases hs with hs | ⟨rfl, rfl⟩
    · exact h.saving hs hcred
    · exact .invoked rfl rfl
  deleting := by
    intro i s userID id allowLast hs hcall
    rcases getElem?_concat_cases hs with hs' | ⟨rfl, rfl⟩
    · obtain ⟨hguard, hdeleting⟩ := h.deleting hs' hcall
      refine ⟨hguard, hdeleting.frame (by simp [Action.actor]) ?_ ?_ (fun _ t ht _ => ht)
        (fun t ht _ => ht)⟩
      · intro t ht
        exact Option.some.inj (ht.symm.trans hs)
      · exact fun hopen => (h.sound.closed hs' hopen).2
    · obtain rfl : call = _ := hcall
      exact ⟨hissued.1, .invoked rfl rfl⟩
  kept := by
    intro i s userID id allowLast hs hcall hopen m hm t ht hlock row hrow huser
    rcases List.mem_cons.mp hm with rfl | hm
    · exact hrow
    · rcases getElem?_concat_cases hs with hs | ⟨rfl, rfl⟩
      · exact h.kept hs hcall hopen m hm t ht hlock row hrow huser
      · have hlt := (List.getElem?_eq_some_iff.mp ht).1
        exact absurd hlt (Nat.not_lt.mpr (h.chronicle.length m hm))

/-- The row that a save adds has an ID that is not there yet. -/
theorem HeapStep.unique {heap₀ : Heap Credential} (h : HeapStep c.heap s heap)
    (hinv : Inv heap₀ trace c) (hs : c.sessions[i]? = some s) : UniqueIDs heap := by
  cases h with
  | same => exact hinv.unique
  | saved hcall hopen hnew =>
    have hpending := hinv.pending hs hcall hopen
    intro t ht t' ht' hid
    rcases (mem_write_some hnew).mp ht with rfl | ht
    · rcases (mem_write_some hnew).mp ht' with rfl | ht'
      · rfl
      · exact absurd hid.symm (hpending t' ht')
    · rcases (mem_write_some hnew).mp ht' with rfl | ht'
      · exact absurd hid (hpending t ht)
      · exact hinv.unique t ht t' ht' hid
  | deleted =>
    intro t ht t' ht' hid
    exact hinv.unique t (mem_write_none.mp ht).2 t' (mem_write_none.mp ht').2 hid

theorem HeapStep.origin {heap₀ : Heap Credential} (h : HeapStep c.heap s heap)
    (hinv : Inv heap₀ trace c) (hs : c.sessions[i]? = some s) :
    ∀ t ∈ heap, (∃ t₀ ∈ heap₀.rows, t₀.2.id = t.2.id) ∨
      ∃ s ∈ c.sessions, ∃ cred, s.call = .saveCredential cred ∧ cred.id = t.2.id := by
  intro t ht
  cases h with
  | same => exact hinv.origin t ht
  | saved hcall _ hnew =>
    rcases (mem_write_some hnew).mp ht with rfl | ht
    · exact Or.inr ⟨s, List.mem_of_getElem? hs, _, hcall, rfl⟩
    · exact hinv.origin t ht
  | deleted => exact hinv.origin t (mem_write_none.mp ht).2

theorem Inv.move {heap₀ : Heap Credential} {a : Action Call} (h : Inv heap₀ trace c)
    (ha : a.actor = some i) (hs : c.sessions[i]? = some s)
    (hmove : Moves client c i s s' heap fresh) :
    Inv heap₀ (⟨c, a, ⟨heap, fresh, c.sessions.set i s'⟩⟩ :: trace)
      ⟨heap, fresh, c.sessions.set i s'⟩ where
  sound := h.sound.move hs hmove
  chronicle := h.chronicle.move ha hs hmove
  unique := (h.heapStep hs hmove).unique h hs
  origin := by
    intro t ht
    rcases (h.heapStep hs hmove).origin h hs t ht with hold | ⟨u, hu, cred, hcred, hid⟩
    · exact Or.inl hold
    · obtain ⟨j, hj⟩ := List.mem_iff_getElem?.mp hu
      obtain ⟨u', hu', hcall⟩ := hmove.after hs hj
      exact Or.inr ⟨u', List.mem_of_getElem? hu', cred, hcall.trans hcred, hid⟩
  savesApart := by
    intro j k t u cred other hne ht hu hcred hother
    obtain ⟨t₀, ht₀, hcall, -⟩ := hmove.before hs ht
    obtain ⟨u₀, hu₀, hcall', -⟩ := hmove.before hs hu
    exact h.savesApart hne ht₀ hu₀ (hcall.symm.trans hcred) (hcall'.symm.trans hother)
  pending := by
    intro j t cred ht hcred hopen row hrow hid
    rcases getElem?_set_cases ht with ⟨rfl, rfl⟩ | ⟨hne, ht'⟩
    · have hrow₀ : row ∈ c.heap := hmove.heap_of_open hopen ▸ hrow
      exact h.pending hs (hmove.call.symm.trans hcred) hmove.not_over row hrow₀ hid
    · refine h.pending ht' hcred hopen row ?_ hid
      refine (h.heapStep hs hmove).no_new (fun other hother _ => ?_) hrow hid
      exact h.savesApart (fun heq => hne heq.symm) hs ht' hother hcred
  named := by
    intro j k t u userID id allowLast cred ht hu hcall hcred hopen
    obtain ⟨t₀, ht₀, hcall₀, -⟩ := hmove.before hs ht
    obtain ⟨u₀, hu₀, hcall', hopen₀⟩ := hmove.before hs hu
    exact h.named ht₀ hu₀ (hcall₀.symm.trans hcall) (hcall'.symm.trans hcred) (hopen₀ hopen)
  saving := by
    intro j t cred ht hcred
    rcases getElem?_set_cases ht with ⟨rfl, rfl⟩ | ⟨hne, ht'⟩
    · have hcall := hmove.call.symm.trans hcred
      exact ((h.saving hs hcall).move hcall h.sound (h.pending hs hcall hmove.not_over) hmove).1
    · refine (h.saving ht' hcred).frame fun tid htid r hr => ?_
      rcases hmove.heap_eq with rfl | ⟨_, _, rfl, _⟩
      · exact hr
      · exact (h.sound.mem_view_of_locked hne hs ht' htid).mp hr
  deleting := by
    intro j t userID id allowLast ht hcall
    rcases getElem?_set_cases ht with ⟨rfl, rfl⟩ | ⟨hne, ht'⟩
    · have hcall₀ := hmove.call.symm.trans hcall
      obtain ⟨rfl, hdeleting⟩ := h.deleting hs hcall₀
      exact ⟨rfl, (hdeleting.move hs hcall₀ h.unique h.chronicle
        (h.kept hs hcall₀ hmove.not_over) ha hmove).1⟩
    · obtain ⟨hguard, hdeleting⟩ := h.deleting ht' hcall
      refine ⟨hguard, hdeleting.frame ?_ ?_ ?_ ?_ ?_⟩
      · exact fun hactor => hne (Option.some.inj (hactor.symm.trans ha))
      · exact fun u hu => Option.some.inj (hu.symm.trans ht)
      · exact fun hopen => (h.sound.closed ht' hopen).2
      · intro hlock row hrow huser
        exact (h.heapStep hs hmove).keeps (h.sound.locksApart hne ht' hs hlock) hrow huser
      · intro row hrow hnamed
        refine (h.heapStep hs hmove).no_new (fun cred hcred hopen => ?_) hrow (names_iff.mp hnamed).1
        exact h.named ht' hs hcall hcred hopen
  kept := by
    intro j t userID id allowLast ht hcall hopen m hm u hu hlock row hrow huser
    rcases List.mem_cons.mp hm with rfl | hold
    · exact hrow
    · obtain ⟨t₀, ht₀, hcall₀, hopen₀⟩ := hmove.before hs ht
      have hrow₀ := h.kept ht₀ (hcall₀.symm.trans hcall) (hopen₀ hopen) m hold u hu hlock row hrow huser
      have hlock₀ := h.chronicle.held j t₀ ht₀ (hopen₀ hopen) m hold u hu _ hlock
      rcases getElem?_set_cases ht with ⟨rfl, rfl⟩ | ⟨hne, ht'⟩
      · exact (hmove.heap_of_open hopen).symm ▸ hrow₀
      · obtain rfl := Option.some.inj (ht'.symm.trans ht₀)
        exact (h.heapStep hs hmove).keeps (h.sound.locksApart hne ht' hs hlock₀) hrow₀ huser

theorem Inv.steps {heap₀ : Heap Credential} {c' : Cfg} {a : Action Call} (h : Inv heap₀ trace c)
    (hissued : Issued heap₀ c a) (hstep : Steps client c a c') : Inv heap₀ (⟨c, a, c'⟩ :: trace) c' := by
  cases hstep with
  | invoke call => exact h.invoke hissued
  | move ha hs hmove => exact h.move ha hs hmove

/-- A step that keeps every user's hold on some credential. -/
theorem Inv.hasCredential_step {heap₀ : Heap Credential} {c' : Cfg} {a : Action Call}
    (h : Inv heap₀ trace c) (hstep : Steps client c a c') (hhas : HasCredential c.heap userID) :
    HasCredential c'.heap userID := by
  cases hstep with
  | invoke => exact hhas
  | move _ hs hmove => exact (h.heapStep hs hmove).hasCredential hhas

theorem inv_run {heap₀ : Heap Credential} (hold : ∀ t ∈ heap₀, t.1 < fresh)
    (hunique : UniqueIDs heap₀) (hrun : ReadCommitted.Run client (Issued heap₀) (.start heap₀ fresh) trace c) :
    Inv heap₀ trace c :=
  hrun.invariant (inv_start hold hunique) fun _ _ _ _ hinv hissued hstep => hinv.steps hissued hstep

/-- A user who had a credential at some moment of the run has one at its end. -/
theorem hasCredential_run {heap₀ : Heap Credential} (hold : ∀ t ∈ heap₀, t.1 < fresh)
    (hunique : UniqueIDs heap₀) (hrun : ReadCommitted.Run client (Issued heap₀) (.start heap₀ fresh) trace c) :
    ∀ m ∈ trace, HasCredential m.pre.heap userID → HasCredential c.heap userID := by
  induction hrun with
  | start => exact fun m hm => absurd hm List.not_mem_nil
  | step hrun hissued hstep ih =>
    intro m hm hhas
    have hinv := inv_run hold hunique hrun
    rcases List.mem_cons.mp hm with rfl | hm
    · exact hinv.hasCredential_step (steps_of_step hstep) hhas
    · exact hinv.hasCredential_step (steps_of_step hstep) (ih m hm hhas)

theorem Inv.returned {heap₀ : Heap Credential} {out : Option Out} (h : Inv heap₀ trace c)
    (hreturned : c.returned i = some (.deleteCredential userID id false, out)) :
    Truthful trace i userID id out := by
  obtain ⟨s, hs, hcall, hstage⟩ := ReadCommitted.Config.returned_eq_some.mp hreturned
  cases (h.deleting hs hcall).2 with
  | ended stage truthful =>
    obtain rfl := Stage.returned.inj (stage.symm.trans hstage)
    exact truthful
  | _ => cases hstage.symm.trans ‹s.stage = _›

/-- Whatever the saves and guarded deletions of any users do side by side: whoever has a
    credential keeps one, and each deletion returns what is true of the credential it
    names. -/
theorem last_credential_guarded {heap₀ : Heap Credential} {fresh : Nat} {trace : Trace} {c : Cfg}
    (hold : ∀ t ∈ heap₀, t.1 < fresh) (hunique : UniqueIDs heap₀)
    (hrun : ReadCommitted.Run client (Issued heap₀) (.start heap₀ fresh) trace c) :
    (∀ userID, ∀ m ∈ trace, HasCredential m.pre.heap userID → HasCredential c.heap userID) ∧
      ∀ (i : Nat) (userID id : UUID) (out : Out),
        c.returned i = some (.deleteCredential userID id false, some out) →
        (out = .ok () → Removed trace i userID id) ∧
          (out = .error .passkeyNotFound → NeverThere trace i userID id) ∧
          (out = .error .lastCredential → WasOnly trace i userID id) := by
  refine ⟨fun userID => hasCredential_run hold hunique hrun, ?_⟩
  intro i userID id out hreturned
  have htruthful := (inv_run hold hunique hrun).returned hreturned
  refine ⟨?_, ?_, ?_⟩
  · rintro rfl
    exact htruthful
  · rintro rfl
    exact htruthful
  · rintro rfl
    exact htruthful

/-! ## Two deletions that race -/

instance (heap₀ : Heap Credential) (c : Cfg) : (a : Action Call) → Decidable (Issued heap₀ c a)
  | .invoke (.saveCredential cred) =>
    haveI : ∀ s : Sess, Decidable (match s.call with
        | .saveCredential other => other.id ≠ cred.id ∧ other.credentialID ≠ cred.credentialID
        | .deleteCredential _ id _ => id ≠ cred.id) := fun s => by
      cases s.call <;> exact inferInstance
    inferInstanceAs (Decidable (_ ∧ _))
  | .invoke (.deleteCredential _ id _) =>
    haveI : ∀ s : Sess, Decidable (match s.call with
        | .saveCredential cred => cred.id = id → s.stage.over
        | .deleteCredential _ _ _ => True) := fun s => by
      cases s.call <;> exact inferInstance
    inferInstanceAs (Decidable (_ ∧ _))
  | .move _ | .take _ _ | .fail _ => .isTrue trivial

/-- A credential of one user. -/
def credential (id : UUID) (raw : UInt8) : Credential where
  id := id
  userID := 7#128
  credentialID := [raw]
  publicKey := []
  attestationType := "none"
  aaguid := []
  signCount := 0
  transports := []
  backupEligible := false
  backupState := false
  discoverable := true
  createdAt := 0

def oneCredential : Heap Credential := ⟨[(0, credential 1#128 1)], by decide⟩

/-- A second credential is saved, and both are deleted at once. -/
def bothDeleted : List (Action Call) :=
  [.invoke (.saveCredential (credential 2#128 2)), .move 0, .move 0, .move 0, .move 0,
    .invoke (.deleteCredential 7#128 1#128 false), .invoke (.deleteCredential 7#128 2#128 false),
    .move 1, .move 2, .move 1, .move 1, .take 1 0, .move 1, .move 1,
    .move 2, .move 2, .move 2, .move 2, .move 2]

set_option synthInstance.maxSize 256 in
theorem bothDeleted_run :
    ∃ trace c, ReadCommitted.Run client (Issued oneCredential) (.start oneCredential 1) trace c ∧
      (∃ m ∈ trace, ∃ t ∈ m.pre.heap.rows, t.2.userID = 7#128) ∧
        c.returned 1 = some (.deleteCredential 7#128 1#128 false, some (.ok ())) ∧
        c.returned 2 =
          some (.deleteCredential 7#128 2#128 false, some (.error .lastCredential)) :=
  Run.computed bothDeleted (by decide +kernel)

theorem last_credential_guarded_race :
    ∃ trace c, ReadCommitted.Run client (Issued oneCredential) (.start oneCredential 1) trace c ∧
      HasCredential c.heap 7#128 ∧ Removed trace 1 7#128 1#128 ∧ WasOnly trace 2 7#128 2#128 := by
  obtain ⟨trace, c, hrun, ⟨m, hm, hhas⟩, hfirst, hsecond⟩ := bothDeleted_run
  have hunique : UniqueIDs oneCredential := by
    intro t ht t' ht' _
    rw [List.mem_singleton.mp ht, List.mem_singleton.mp ht']
  obtain ⟨hkeeps, htruth⟩ := last_credential_guarded (by decide) hunique hrun
  exact ⟨trace, c, hrun, hkeeps 7#128 m hm hhas, (htruth 1 _ _ _ hfirst).1 rfl,
    (htruth 2 _ _ _ hsecond).2.2 rfl⟩

end Sulis.Postgres.Passkey
