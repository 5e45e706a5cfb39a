-- SUMMARY: How far each call of the PostgreSQL recovery-code store has come, and what its steps do.
import Sulis.Postgres.Recovery
import Sulis.ReadCommitted.Serial

/-!
# Steps of the recovery-code calls

What is known of a replacement, a consumption and a deletion at each of their
statements, and everything one step of them can do to the committed rows and to the log
of calls in order.
-/

namespace Sulis.Postgres.Recovery

open ReadCommitted Sulis.Recovery Store

abbrev Cfg : Type := ReadCommitted.Config CodeRow LockKey Call Out

abbrev Sess : Type := ReadCommitted.Session CodeRow LockKey Call Out

abbrev Log : Type := List (ReadCommitted.Entry Call Out)

/-! ## One call at a time -/

/-- The hashes that are committed for a user. -/
def codes (heap : Heap CodeRow) (userID : UUID) : Finset String :=
  ((heap.visible.filter (ownedBy userID)).map CodeRow.codeHash).toFinset

/-- What a call does to the codes of its user when it is alone. -/
def execute (codes : Finset String) : Call → Out × Finset String
  | .replaceCodes _ hashes => (.replaced, hashes.toFinset)
  | .consumeCode _ hash =>
    if hash ∈ codes then (.consumed (.ok (codes.erase hash).card), codes.erase hash)
    else (.consumed (.error .codeNotFound), codes)
  | .deleteCodes _ => (.deleted, ∅)

/-- The same call on the in-memory store. -/
def onMemstore (s : RecoveryStore) : Call → Out × RecoveryStore
  | .replaceCodes userID hashes => (.replaced, (s.replaceCodes userID hashes).2)
  | .consumeCode userID hash =>
    (.consumed (s.consumeCode userID hash).1, (s.consumeCode userID hash).2)
  | .deleteCodes userID => (.deleted, (s.deleteCodes userID).2)

/-- The calls that have returned, and the codes there are, are those of some order. -/
def Linearizable (userID : UUID) (heap₀ : Heap CodeRow) (c : Cfg) : Prop :=
  ∃ log : Log, Serial execute (codes heap₀ userID) log (codes c.heap userID) ∧ Records log c

/-! ## Runs -/

def Call.userID : Call → UUID
  | .replaceCodes userID _ | .consumeCode userID _ | .deleteCodes userID => userID

/-- The hashes that a call brings. -/
def Call.hashes : Call → List String
  | .replaceCodes _ hashes => hashes
  | _ => []

def Call.isReplace : Call → Bool
  | .replaceCodes _ _ => true
  | _ => false

/-- Calls for one user; every hash that a replacement brings is new. -/
def Issued (userID : UUID) (heap₀ : Heap CodeRow) (c : Cfg) : Action Call → Prop
  | .invoke call =>
    call.userID = userID ∧ call.hashes.Nodup ∧
      ∀ hash ∈ call.hashes, hash ∉ codes heap₀ userID ∧ ∀ s ∈ c.sessions, hash ∉ s.call.hashes
  | _ => True

/-- The next statement is a `DELETE`. -/
def atClear : Stage CodeRow LockKey Out → Bool
  | .ready (.exec (.modify _ _) _) => true
  | _ => false

/-- The `DELETE` has started, and the call is not over. -/
def pastClear : Stage CodeRow LockKey Out → Bool
  | .invoked | .returned _ | .ready (.exec (.modify _ _) _) => false
  | _ => true

/-- No replacement starts its `DELETE` while another one is past the start of its own. -/
def Spaced (c : Cfg) : Action Call → Prop
  | .move i =>
    ∀ s ∈ c.sessions[i]?, s.call.isReplace → atClear s.stage →
      ∀ t ∈ c.sessions, t.call.isReplace → pastClear t.stage = false
  | _ => True

def Orderly (userID : UUID) (heap₀ : Heap CodeRow) (c : Cfg) (a : Action Call) : Prop :=
  Issued userID heap₀ c a ∧ Spaced c a

/-- One call at a time is what the in-memory store does. -/
theorem onMemstore_eq_execute (store : RecoveryStore) (call : Call) :
    (onMemstore store call).1 = (execute (store.codes call.userID) call).1 ∧
      (onMemstore store call).2.codes call.userID = (execute (store.codes call.userID) call).2 := by
  cases call with
  | replaceCodes userID hashes =>
    refine ⟨rfl, ?_⟩
    simp [onMemstore, RecoveryStore.replaceCodes, RecoveryStore.codes_put, execute, Call.userID]
  | consumeCode userID hash =>
    simp only [onMemstore, RecoveryStore.consumeCode_eq, execute, Call.userID]
    by_cases hmem : hash ∈ store.codes userID
    · simp [hmem, RecoveryStore.codes_put]
    · simp [hmem]
  | deleteCodes userID =>
    refine ⟨rfl, ?_⟩
    simp [onMemstore, RecoveryStore.codes_erase, execute, Call.userID]

/-! ## What is known of a session -/

/-- Where a replacement that has cleared the rows stands: it has ended every committed row
    of the user, and stored a row for each of these hashes. -/
structure Filled (heap : Heap CodeRow) (userID : UUID) (stored : List String) (s : Sess) : Prop where
  writes : ∃ (news : List (Nat × String)) (olds : List (Write CodeRow)),
    s.writes = news.map (fun p => (p.1, some ⟨userID, p.2⟩)) ++ olds ∧
    (∀ w ∈ olds, w.2 = none) ∧ news.map Prod.snd = stored.reverse ∧
    ∀ t ∈ heap, t.2.userID = userID → t.1 ∈ olds.map Prod.fst
  once : s.locked.Nodup

/-- A scan has seen, or has yet to see, every committed row of the user. -/
def Covers (heap : Heap CodeRow) (userID : UUID) (todo : List Nat) (s : Sess) : Prop :=
  ∀ t ∈ heap, t.2.userID = userID → t.1 ∈ todo ∨ t.1 ∈ s.locked

/-- A scan of rows that are gone, since a replacement came first. -/
def Overtaken (heap : Heap CodeRow) (log : Log) (userID : UUID) (todo : List Nat)
    (s : Sess) : Prop :=
  s.writes = [] ∧ (∀ tid ∈ todo, ∀ r, (tid, r) ∈ heap → r.userID ≠ userID) ∧
    ∃ e ∈ log, e.call.isReplace

/-- How far a replacement has come. -/
inductive Replacing (heap : Heap CodeRow) (userID : UUID) (hashes : List String) (s : Sess) : Prop
  | invoked (stage : s.stage = .invoked) (writes : s.writes = [])
  | begun (stage : s.stage = .ready (replaceCodes userID hashes)) (writes : s.writes = [])
  | clearing {todo : List Nat} {hit : List CodeRow}
      (stage : s.stage = .scanning (ownedBy userID) (fun _ => none) todo hit
        fun _ => insertAll userID hashes)
      (covers : Covers heap userID todo s) (ended : ∀ w ∈ s.writes, w.2 = none)
      (once : s.locked.Nodup)
  | inserting {stored rest : List String} (stage : s.stage = .ready (insertAll userID rest))
      (split : hashes = stored ++ rest) (filled : Filled heap userID stored s)
  | placing {stored rest : List String} {hash : String} {set : CodeRow → CodeRow}
      (stage : s.stage = .placing ⟨userID, hash⟩ (fun _ => false) set
        fun _ => insertAll userID rest)
      (split : hashes = stored ++ hash :: rest) (filled : Filled heap userID stored s)
  | ended (stage : s.stage.over)

/-- How far a deletion has come. -/
inductive Clearing (heap : Heap CodeRow) (log : Log) (userID : UUID) (s : Sess) : Prop
  | invoked (stage : s.stage = .invoked) (writes : s.writes = [])
  | begun (stage : s.stage = .ready (deleteCodes userID)) (writes : s.writes = [])
  | scanning {todo : List Nat} {hit : List CodeRow}
      (stage : s.stage = .scanning (ownedBy userID) (fun _ => none) todo hit
        fun _ => .commit .deleted)
      (ended : ∀ w ∈ s.writes, w.2 = none)
      (there : ∀ tid ∈ s.locked, ∃ r, (tid, r) ∈ heap ∧ r.userID = userID)
      (sees : Covers heap userID todo s ∨ Overtaken heap log userID todo s)
  | scanned (stage : s.stage = .ready (.commit .deleted)) (ended : ∀ w ∈ s.writes, w.2 = none)
      (there : ∀ tid ∈ s.locked, ∃ r, (tid, r) ∈ heap ∧ r.userID = userID)
      (sees : Covers heap userID [] s ∨ Overtaken heap log userID [] s)
  | ended (stage : s.stage.over)

/-- A hash that no replacement under way brings, and none will. -/
def Old (heap₀ : Heap CodeRow) (c : Cfg) (userID : UUID) (hash : String) : Prop :=
  (hash ∈ codes heap₀ userID ∨ ∃ s ∈ c.sessions, hash ∈ s.call.hashes) ∧
    ∀ s ∈ c.sessions, s.stage.over = false → hash ∉ s.call.hashes

/-- A consumption has the row of its code. -/
structure Holds (heap : Heap CodeRow) (userID : UUID) (hash : String) (tid : Nat) (s : Sess) : Prop where
  writes : s.writes = [(tid, none)]
  there : (tid, ⟨userID, hash⟩) ∈ heap
  held : userLock .recovery userID ∈ s.held

/-- How far a consumption has come. It is in the log as soon as its code is known not to
    be there. -/
inductive Consuming (heap₀ : Heap CodeRow) (c : Cfg) (log : Log) (i : Nat) (userID : UUID)
    (hash : String) (s : Sess) : Prop
  | invoked (stage : s.stage = .invoked) (writes : s.writes = [])
      (unlogged : i ∉ log.map ReadCommitted.Entry.session)
  | begun (stage : s.stage = .ready (consumeCode userID hash)) (writes : s.writes = [])
      (unlogged : i ∉ log.map ReadCommitted.Entry.session)
  | locked (stage : s.stage = .ready (.exec (.modify (fun _ => isCode userID hash) (fun _ => none))
        (afterDelete userID)))
      (writes : s.writes = []) (held : userLock .recovery userID ∈ s.held)
      (unlogged : i ∉ log.map ReadCommitted.Entry.session)
  | searching {todo : List Nat}
      (stage : s.stage = .scanning (isCode userID hash) (fun _ => none) todo [] (afterDelete userID))
      (writes : s.writes = []) (held : userLock .recovery userID ∈ s.held)
      (unlogged : i ∉ log.map ReadCommitted.Entry.session) (old : Old heap₀ c userID hash)
      (left : ∀ t ∈ c.heap, t.2 = ⟨userID, hash⟩ → t.1 ∈ todo)
  | absent (stage : s.stage = .scanning (isCode userID hash) (fun _ => none) [] []
        (afterDelete userID))
      (writes : s.writes = [])
      (logged : ⟨i, s.call, .consumed (.error .codeNotFound)⟩ ∈ log)
  | hit {todo : List Nat} {r : CodeRow} {tid : Nat}
      (stage : s.stage = .scanning (isCode userID hash) (fun _ => none) todo [r]
        (afterDelete userID))
      (holds : Holds c.heap userID hash tid s) (unlogged : i ∉ log.map ReadCommitted.Entry.session)
  | counting {tid : Nat}
      (stage : s.stage = .ready (.exec (.select (ownedBy userID))
        fun rows => .commit (.consumed (.ok rows.length))))
      (holds : Holds c.heap userID hash tid s) (unlogged : i ∉ log.map ReadCommitted.Entry.session)
  | counted {tid n : Nat} (stage : s.stage = .ready (.commit (.consumed (.ok n))))
      (holds : Holds c.heap userID hash tid s) (unlogged : i ∉ log.map ReadCommitted.Entry.session)
      (count : n = ((codes c.heap userID).erase hash).card)
  | notFound (stage : s.stage = .ready (.rollback (.consumed (.error .codeNotFound))))
      (writes : s.writes = [])
      (logged : ⟨i, s.call, .consumed (.error .codeNotFound)⟩ ∈ log)
  | ended (stage : s.stage.over)

/-! ## Codes and rows -/

/-- The primary key, for one user. -/
def UniqueCodes (heap : Heap CodeRow) (userID : UUID) : Prop :=
  ∀ t ∈ heap, ∀ t' ∈ heap, t.2.userID = userID → t.2 = t'.2 → t = t'

variable {heap heap' heap₀ : Heap CodeRow} {userID : UUID} {hash : String} {c : Cfg} {log log' : Log}
  {s s' : Sess} {i fresh : Nat} {hashes : List String}

theorem ownedBy_iff {row : CodeRow} : ownedBy userID row ↔ row.userID = userID := by
  simp [ownedBy]

theorem isCode_iff {row : CodeRow} : isCode userID hash row ↔ row = ⟨userID, hash⟩ := by
  obtain ⟨u, h⟩ := row
  simp [isCode]

theorem mem_codes : hash ∈ codes heap userID ↔ ∃ tid, (tid, ⟨userID, hash⟩) ∈ heap := by
  simp only [codes, List.mem_toFinset, List.mem_map, List.mem_filter, Heap.mem_visible]
  constructor
  · rintro ⟨⟨u, h⟩, ⟨⟨tid, hmem⟩, howned⟩, rfl⟩
    obtain rfl := ownedBy_iff.mp howned
    exact ⟨tid, hmem⟩
  · rintro ⟨tid, hmem⟩
    exact ⟨_, ⟨⟨tid, hmem⟩, by simp [ownedBy]⟩, rfl⟩

theorem mem_codes_of_mem {t : Nat × CodeRow} (ht : t ∈ heap) (howned : t.2.userID = userID) :
    t.2.codeHash ∈ codes heap userID := by
  obtain ⟨tid, u, h⟩ := t
  obtain rfl : u = userID := howned
  exact mem_codes.mpr ⟨tid, ht⟩

/-- What `COUNT(*)` counts. -/
theorem length_owned (hunique : UniqueCodes heap userID) :
    (heap.visible.filter (ownedBy userID)).length = (codes heap userID).card := by
  have hnodup : ((heap.visible.filter (ownedBy userID)).map CodeRow.codeHash).Nodup := by
    simp only [Heap.visible, List.filter_map, List.map_map]
    refine List.Nodup.map_on ?_ (List.Nodup.filter _ (List.Nodup.of_map _ heap.nodup))
    intro t ht t' ht' heq
    obtain ⟨ht, howned⟩ := List.mem_filter.mp ht
    obtain ⟨ht', howned'⟩ := List.mem_filter.mp ht'
    refine hunique t ht t' ht' (ownedBy_iff.mp howned) ?_
    rw [CodeRow.mk.injEq]
    exact ⟨(ownedBy_iff.mp howned).trans (ownedBy_iff.mp howned').symm, heq⟩
  rw [codes, List.toFinset_card_of_nodup hnodup, List.length_map]

theorem codes_erase {tid : Nat} (hunique : UniqueCodes heap userID)
    (hthere : (tid, ⟨userID, hash⟩) ∈ heap) :
    codes (heap.write (tid, none)) userID = (codes heap userID).erase hash := by
  ext h
  rw [Finset.mem_erase, mem_codes, mem_codes]
  constructor
  · rintro ⟨tid', hmem⟩
    rw [Heap.mem_write] at hmem
    obtain ⟨-, hcontra⟩ | ⟨hne, hmem⟩ := hmem
    · cases hcontra
    · refine ⟨?_, tid', hmem⟩
      rintro rfl
      exact hne (congrArg Prod.fst (hunique _ hmem _ hthere rfl rfl))
  · rintro ⟨hne, tid', hmem⟩
    refine ⟨tid', Heap.mem_write.mpr (Or.inr ⟨?_, hmem⟩)⟩
    rintro rfl
    have heq := Table.eq_of_mem hmem hthere rfl
    simp only [Prod.mk.injEq, CodeRow.mk.injEq, true_and] at heq
    exact hne heq

theorem UniqueCodes.write_none {tid : Nat} (h : UniqueCodes heap userID) :
    UniqueCodes (heap.write (tid, none)) userID := by
  intro t ht t' ht'
  obtain ⟨j, r⟩ := t
  obtain ⟨j', r'⟩ := t'
  rw [Heap.mem_write] at ht ht'
  obtain ⟨-, hcontra⟩ | ⟨-, ht⟩ := ht
  · cases hcontra
  obtain ⟨-, hcontra⟩ | ⟨-, ht'⟩ := ht'
  · cases hcontra
  exact h _ ht _ ht'

/-! ## What a replacement leaves -/

theorem Filled.mem_view {stored : List String} {t : Nat × CodeRow}
    (h : Filled c.heap userID stored s) (howned : t.2.userID = userID) :
    t ∈ c.view s ↔ (t.1, some t.2) ∈ s.writes := by
  obtain ⟨news, olds, hwrites, -, -, hcovers⟩ := h.writes
  obtain ⟨tid, row⟩ := t
  refine (Heap.mem_overlay_of_nodup h.once).trans (or_iff_left ?_)
  rintro ⟨hnot, hmem⟩
  apply hnot
  rw [hwrites, List.map_append]
  exact List.mem_append_right _ (hcovers _ hmem howned)

/-- The codes are those that were stored. -/
theorem Filled.codes_view {stored : List String} (h : Filled c.heap userID stored s) :
    codes (c.view s) userID = stored.toFinset := by
  ext hash
  rw [mem_codes, List.mem_toFinset]
  obtain ⟨news, olds, hwrites, hended, hstored, -⟩ := h.writes
  rw [← List.mem_reverse, ← hstored]
  constructor
  · rintro ⟨tid, hmem⟩
    have hmem := (h.mem_view rfl).mp hmem
    rw [hwrites, List.mem_append] at hmem
    rcases hmem with hnew | hold
    · obtain ⟨p, hp, heq⟩ := List.mem_map.mp hnew
      simp only [Prod.mk.injEq, Option.some.injEq, CodeRow.mk.injEq, true_and] at heq
      exact List.mem_map.mpr ⟨p, hp, heq.2⟩
    · cases hended _ hold
  · intro hmem
    obtain ⟨p, hp, rfl⟩ := List.mem_map.mp hmem
    refine ⟨p.1, (h.mem_view rfl).mpr ?_⟩
    rw [hwrites]
    exact List.mem_append_left _ (List.mem_map.mpr ⟨p, hp, rfl⟩)

theorem Filled.unique_view {stored : List String} (h : Filled c.heap userID stored s)
    (hnodup : stored.Nodup) : UniqueCodes (c.view s) userID := by
  obtain ⟨news, olds, hwrites, hended, hstored, -⟩ := h.writes
  have hnew : ∀ t ∈ c.view s, t.2.userID = userID → (t.1, t.2.codeHash) ∈ news := by
    intro t ht howned
    have hmem := (h.mem_view howned).mp ht
    rw [hwrites, List.mem_append] at hmem
    rcases hmem with hnew | hold
    · obtain ⟨p, hp, heq⟩ := List.mem_map.mp hnew
      simp only [Prod.mk.injEq, Option.some.injEq] at heq
      rw [← heq.1, ← heq.2]
      exact hp
    · cases hended _ hold
  intro t ht t' ht' howned heq
  have hinj := List.inj_on_of_nodup_map (by rw [hstored]; exact List.nodup_reverse.mpr hnodup)
    (hnew t ht howned) (hnew t' ht' (heq ▸ howned)) (by rw [heq])
  exact Prod.ext (Prod.mk.inj hinj).1 heq

theorem Filled.nil (hcovers : Covers heap userID [] s) (hended : ∀ w ∈ s.writes, w.2 = none)
    (honce : s.locked.Nodup) : Filled heap userID [] s where
  writes := by
    refine ⟨[], s.writes, rfl, hended, rfl, fun t ht howned => ?_⟩
    rcases hcovers t ht howned with hmem | hmem
    · cases hmem
    · exact hmem
  once := honce

theorem Filled.store {stored : List String} {tid : Nat} {stage : Stage CodeRow LockKey Out}
    (h : Filled heap userID stored s) (hnew : tid ∉ s.locked) :
    Filled heap userID (stored ++ [hash])
      { s with stage := stage, writes := (tid, some ⟨userID, hash⟩) :: s.writes } where
  writes := by
    obtain ⟨news, olds, hwrites, hended, hstored, hcovers⟩ := h.writes
    refine ⟨(tid, hash) :: news, olds, ?_, hended, ?_, hcovers⟩
    · rw [hwrites, List.map_cons, List.cons_append]
    · rw [List.map_cons, hstored, List.reverse_append, List.reverse_singleton, List.singleton_append]
  once := List.nodup_cons.mpr ⟨hnew, h.once⟩

/-! ## Scans of a user's rows -/

variable {todo : List Nat} {tid : Nat} {stage : Stage CodeRow LockKey Out}

theorem covers_start (hwrites : s.writes = []) :
    Covers c.heap userID ((c.view s).matching (ownedBy userID)) { s with stage := stage } := by
  intro t ht howned
  rw [ReadCommitted.Config.view_of_writes_nil hwrites]
  exact Or.inl (Heap.mem_matching.mpr ⟨t.2, ht, ownedBy_iff.mpr howned⟩)

/-- A row that a scan of deletions can see is not one it has ended. -/
theorem notMem_locked_of_mem_view {r : CodeRow} (hended : ∀ w ∈ s.writes, w.2 = none)
    (hrow : (tid, r) ∈ c.view s) : tid ∉ s.locked :=
  fun hmem => Heap.notMem_overlay_of_ended hmem hended hrow

theorem Covers.hit (h : Covers heap userID todo s) :
    Covers heap userID (todo.erase tid)
      { s with stage := stage, writes := (tid, none) :: s.writes } := by
  intro t ht howned
  by_cases heq : t.1 = tid
  · exact Or.inr (List.mem_cons.mpr (Or.inl heq))
  · rcases h t ht howned with hmem | hmem
    · exact Or.inl ((List.mem_erase_of_ne heq).mpr hmem)
    · exact Or.inr (List.mem_cons_of_mem _ hmem)

theorem Covers.miss (h : Covers c.heap userID todo s)
    (hrow : ∀ r, (tid, r) ∈ c.view s → ¬ ownedBy userID r) :
    Covers c.heap userID (todo.erase tid) { s with stage := stage } := by
  intro t ht howned
  rcases h t ht howned with hmem | hmem
  · by_cases heq : t.1 = tid
    · by_cases hlocked : t.1 ∈ s.locked
      · exact Or.inr hlocked
      · have hview : t ∈ c.view s := (Heap.mem_overlay_of_notMem hlocked).mpr ht
        exact absurd (ownedBy_iff.mpr howned) (hrow t.2 (heq ▸ hview))
    · exact Or.inl ((List.mem_erase_of_ne heq).mpr hmem)
  · exact Or.inr hmem

/-! ## What a step does -/

/-- All that a step of a session can do to the committed rows and to the log. -/
inductive Effect (userID : UUID) (c : Cfg) (log : Log) (i : Nat) (s s' : Sess) :
    Heap CodeRow → Log → Prop
  | same : Effect userID c log i s s' c.heap log
  | absent {hash : String} (call : s.call = .consumeCode userID hash)
      (notThere : hash ∉ codes c.heap userID) (unlogged : i ∉ log.map ReadCommitted.Entry.session) :
      Effect userID c log i s s' c.heap (log ++ [⟨i, s.call, .consumed (.error .codeNotFound)⟩])
  | replaced {hashes : List String} (call : s.call = .replaceCodes userID hashes)
      (past : pastClear s.stage) (filled : Filled c.heap userID hashes s)
      (out : s'.stage = .returned (some .replaced)) :
      Effect userID c log i s s' (c.view s) (log ++ [⟨i, s.call, .replaced⟩])
  | consumed {hash : String} {tid n : Nat} (call : s.call = .consumeCode userID hash)
      (holds : Holds c.heap userID hash tid s) (unlogged : i ∉ log.map ReadCommitted.Entry.session)
      (count : n = ((codes c.heap userID).erase hash).card)
      (out : s'.stage = .returned (some (.consumed (.ok n)))) :
      Effect userID c log i s s' (c.heap.write (tid, none)) (log ++ [⟨i, s.call, .consumed (.ok n)⟩])
  | cleared (call : s.call = .deleteCodes userID) (covers : Covers c.heap userID [] s)
      (ended : ∀ w ∈ s.writes, w.2 = none) (out : s'.stage = .returned (some .deleted)) :
      Effect userID c log i s s' (c.view s) (log ++ [⟨i, s.call, .deleted⟩])
  | overtaken {before after : Log} {e : ReadCommitted.Entry Call Out} (call : s.call = .deleteCodes userID)
      (split : log = before ++ e :: after) (replace : e.call.isReplace)
      (out : s'.stage = .returned (some .deleted)) :
      Effect userID c log i s s' c.heap (before ++ ⟨i, s.call, .deleted⟩ :: e :: after)

theorem Replacing.move (log : Log) (h : Replacing c.heap userID hashes s)
    (hs : c.sessions[i]? = some s) (hcall : s.call = .replaceCodes userID hashes)
    (hsound : c.Sound) (hmove : Moves client c i s s' heap fresh) :
    ∃ log', Effect userID c log i s s' heap log' ∧ Replacing heap userID hashes s' ∧
      (∀ out, s'.stage = .returned (some out) → ⟨i, s'.call, out⟩ ∈ log') := by
  rcases hmove.follows with ⟨rfl, rfl, rfl⟩ | hfollows
  · exact ⟨log, .same, .ended rfl, fun out hout => nomatch hout⟩
  cases h with
  | invoked stage writes =>
    rw [stage] at hfollows
    obtain ⟨rfl, rfl, rfl⟩ := hfollows
    refine ⟨log, .same, .begun ?_ writes, fun out hout => nomatch hout⟩
    simp only [client, hcall]
  | begun stage writes =>
    rw [stage] at hfollows
    obtain ⟨rfl, rfl, rfl⟩ := hfollows
    refine ⟨log, .same, .clearing rfl (covers_start writes) ?_ ?_, fun out hout => nomatch hout⟩
    · simp [writes]
    · simp [ReadCommitted.Session.locked, writes]
  | clearing stage covers ended once =>
    rw [stage] at hfollows
    obtain ⟨rfl, rfl, ⟨rfl, rfl⟩ | ⟨tid, htid, _, ⟨r, hrow, hp, rfl⟩ | ⟨hrow, rfl⟩⟩⟩ := hfollows
    · exact ⟨log, .same, .inserting rfl rfl (.nil covers ended once), fun out hout => by cases hashes <;> cases hout⟩
    · refine ⟨log, .same, .clearing rfl covers.hit ?_ ?_, fun out hout => nomatch hout⟩
      · intro w hw
        rcases List.mem_cons.mp hw with rfl | hw
        · rfl
        · exact ended w hw
      · exact List.nodup_cons.mpr ⟨notMem_locked_of_mem_view ended hrow, once⟩
    · exact ⟨log, .same, .clearing rfl (covers.miss hrow) ended once, fun out hout => nomatch hout⟩
  | @inserting stored rest stage split filled =>
    rw [stage] at hfollows
    cases rest with
    | nil =>
      obtain ⟨rfl, rfl, rfl⟩ := hfollows
      rw [List.append_nil] at split
      subst split
      refine ⟨_, .replaced hcall (by rw [stage]; rfl) filled rfl, .ended rfl, fun out hout => ?_⟩
      obtain rfl := Option.some.inj (Stage.returned.inj hout)
      exact List.mem_append_right _ (List.mem_singleton.mpr rfl)
    | cons hash rest =>
      obtain ⟨rfl, rfl, ⟨hnone, -⟩ | ⟨row, hrow, rfl⟩⟩ := hfollows
      · cases hnone
      · obtain rfl := Option.some.inj hrow
        exact ⟨log, .same, .placing rfl split ⟨filled.writes, filled.once⟩, fun out hout => nomatch hout⟩
  | @placing stored rest hash set stage split filled =>
    rw [stage] at hfollows
    obtain ⟨tid, new, hlanding, _, _, rfl, rfl, rfl⟩ := hfollows
    rcases landing_cases (c.view s) c.fresh ⟨userID, hash⟩ (fun _ => false) set with
      ⟨_, _, hfalse, _⟩ | ⟨_, heq⟩
    · cases hfalse
    · obtain ⟨rfl, rfl⟩ := Prod.mk.inj (hlanding.symm.trans heq)
      refine ⟨log, .same, .inserting rfl (by simp [split]) (filled.store fun hmem => ?_),
        fun out hout => by cases rest <;> cases hout⟩
      exact Nat.lt_irrefl _ (hsound.known hs (Or.inl hmem))
  | ended stage =>
    rw [hmove.not_over] at stage
    cases stage

theorem Clearing.move (h : Clearing c.heap log userID s) (hcall : s.call = .deleteCodes userID)
    (hmove : Moves client c i s s' heap fresh) :
    ∃ log', Effect userID c log i s s' heap log' ∧ Clearing heap log' userID s' ∧
      (∀ out, s'.stage = .returned (some out) → ⟨i, s'.call, out⟩ ∈ log') := by
  rcases hmove.follows with ⟨rfl, rfl, rfl⟩ | hfollows
  · exact ⟨log, .same, .ended rfl, fun out hout => nomatch hout⟩
  cases h with
  | invoked stage writes =>
    rw [stage] at hfollows
    obtain ⟨rfl, rfl, rfl⟩ := hfollows
    refine ⟨log, .same, .begun ?_ writes, fun out hout => nomatch hout⟩
    simp only [client, hcall]
  | begun stage writes =>
    rw [stage] at hfollows
    obtain ⟨rfl, rfl, rfl⟩ := hfollows
    refine ⟨log, .same, .scanning rfl ?_ ?_ (Or.inl (covers_start writes)), fun out hout => nomatch hout⟩
    · simp [writes]
    · simp [ReadCommitted.Session.locked, writes]
  | scanning stage ended there sees =>
    rw [stage] at hfollows
    obtain ⟨rfl, rfl, ⟨rfl, rfl⟩ | ⟨tid, htid, _, ⟨r, hrow, hp, rfl⟩ | ⟨hrow, rfl⟩⟩⟩ := hfollows
    · exact ⟨log, .same, .scanned rfl ended there sees, fun out hout => nomatch hout⟩
    · have hfree := notMem_locked_of_mem_view ended hrow
      have hheap : (tid, r) ∈ c.heap := (Heap.mem_overlay_of_notMem hfree).mp hrow
      refine ⟨log, .same, .scanning rfl ?_ ?_ ?_, fun out hout => nomatch hout⟩
      · intro w hw
        rcases List.mem_cons.mp hw with rfl | hw
        · rfl
        · exact ended w hw
      · intro tid' htid'
        rcases List.mem_cons.mp htid' with rfl | htid'
        · exact ⟨r, hheap, ownedBy_iff.mp hp⟩
        · exact there tid' htid'
      · rcases sees with covers | ⟨_, hgone, _⟩
        · exact Or.inl covers.hit
        · exact absurd (ownedBy_iff.mp hp) (hgone tid htid r hheap)
    · refine ⟨log, .same, .scanning rfl ended there ?_, fun out hout => nomatch hout⟩
      rcases sees with covers | ⟨hwrites, hgone, hreplace⟩
      · exact Or.inl (covers.miss hrow)
      · exact Or.inr ⟨hwrites, fun tid' htid' => hgone tid' (List.mem_of_mem_erase htid'), hreplace⟩
  | scanned stage ended there sees =>
    rw [stage] at hfollows
    obtain ⟨rfl, rfl, rfl⟩ := hfollows
    rcases sees with covers | ⟨hwrites, -, e, he, hreplace⟩
    · refine ⟨_, .cleared hcall covers ended rfl, .ended rfl, fun out hout => ?_⟩
      obtain rfl := Option.some.inj (Stage.returned.inj hout)
      exact List.mem_append_right _ (List.mem_singleton.mpr rfl)
    · obtain ⟨before, after, rfl⟩ := List.append_of_mem he
      rw [ReadCommitted.Config.view_of_writes_nil hwrites]
      refine ⟨_, .overtaken hcall rfl hreplace rfl, .ended rfl, fun out hout => ?_⟩
      obtain rfl := Option.some.inj (Stage.returned.inj hout)
      exact List.mem_append_right _ List.mem_cons_self
  | ended stage =>
    rw [hmove.not_over] at stage
    cases stage

theorem Old.move (h : Old heap₀ c userID hash) (hs : c.sessions[i]? = some s)
    (hmove : Moves client c i s s' heap fresh) :
    Old heap₀ ⟨heap, fresh, c.sessions.set i s'⟩ userID hash := by
  obtain ⟨hused, hold⟩ := h
  constructor
  · rcases hused with hused | ⟨t, ht, hhash⟩
    · exact Or.inl hused
    · obtain ⟨j, hj⟩ := List.mem_iff_getElem?.mp ht
      obtain ⟨t', ht', hcall⟩ := hmove.after hs hj
      exact Or.inr ⟨t', List.mem_of_getElem? ht', hcall ▸ hhash⟩
  · intro t ht hopen
    obtain ⟨j, hj⟩ := List.mem_iff_getElem?.mp ht
    obtain ⟨t₀, ht₀, hcall, hopen₀⟩ := hmove.before hs hj
    rw [hcall]
    exact hold t₀ (List.mem_of_getElem? ht₀) (hopen₀ hopen)

theorem Consuming.move (h : Consuming heap₀ c log i userID hash s)
    (hs : c.sessions[i]? = some s) (hcall : s.call = .consumeCode userID hash)
    (hunique : UniqueCodes c.heap userID)
    (hold : hash ∈ codes c.heap userID → Old heap₀ c userID hash)
    (hmove : Moves client c i s s' heap fresh) :
    ∃ log', Effect userID c log i s s' heap log' ∧
      Consuming heap₀ ⟨heap, fresh, c.sessions.set i s'⟩ log' i userID hash s' ∧
      (∀ out, s'.stage = .returned (some out) → ⟨i, s'.call, out⟩ ∈ log') := by
  have hold' : Old heap₀ c userID hash → Old heap₀ ⟨heap, fresh, c.sessions.set i s'⟩ userID hash :=
    fun h => h.move hs hmove
  rcases hmove.follows with ⟨rfl, rfl, rfl⟩ | hfollows
  · exact ⟨log, .same, .ended rfl, fun out hout => nomatch hout⟩
  cases h with
  | invoked stage writes unlogged =>
    rw [stage] at hfollows
    obtain ⟨rfl, rfl, rfl⟩ := hfollows
    refine ⟨log, .same, .begun ?_ writes unlogged, fun out hout => nomatch hout⟩
    simp only [client, hcall]
  | begun stage writes unlogged =>
    rw [stage] at hfollows
    obtain ⟨_, rfl, rfl, rfl⟩ := hfollows
    exact ⟨log, .same, .locked rfl writes List.mem_cons_self unlogged, fun out hout => nomatch hout⟩
  | locked stage writes held unlogged =>
    rw [stage] at hfollows
    obtain ⟨rfl, rfl, rfl⟩ := hfollows
    by_cases hthere : hash ∈ codes c.heap userID
    · refine ⟨log, .same, .searching rfl writes held unlogged (hold' (hold hthere)) ?_,
        fun out hout => nomatch hout⟩
      intro t ht heq
      rw [ReadCommitted.Config.view_of_writes_nil writes]
      exact Heap.mem_matching.mpr ⟨t.2, ht, isCode_iff.mpr heq⟩
    · -- the snapshot does not have the code
      have hnone : (c.view s).matching (isCode userID hash) = [] := by
        rw [ReadCommitted.Config.view_of_writes_nil writes, List.eq_nil_iff_forall_not_mem]
        intro tid htid
        obtain ⟨r, hr, hcode⟩ := Heap.mem_matching.mp htid
        exact hthere (mem_codes.mpr ⟨tid, isCode_iff.mp hcode ▸ hr⟩)
      rw [hnone]
      exact ⟨_, .absent hcall hthere unlogged, .absent rfl writes
        (List.mem_append_right _ (List.mem_singleton.mpr rfl)), fun out hout => nomatch hout⟩
  | @searching todo stage writes held unlogged old left =>
    rw [stage] at hfollows
    obtain ⟨rfl, rfl, ⟨rfl, rfl⟩ | ⟨tid, htid, _, ⟨r, hrow, hp, rfl⟩ | ⟨hrow, rfl⟩⟩⟩ := hfollows
    · have hgone : hash ∉ codes c.heap userID := by
        intro hmem
        obtain ⟨tid, htid⟩ := mem_codes.mp hmem
        cases left _ htid rfl
      exact ⟨_, .absent hcall hgone unlogged, .notFound rfl writes
        (List.mem_append_right _ (List.mem_singleton.mpr rfl)), fun out hout => nomatch hout⟩
    · rw [ReadCommitted.Config.view_of_writes_nil writes] at hrow
      obtain rfl := isCode_iff.mp hp
      have hwrites : (tid, none) :: s.writes = [(tid, none)] := by rw [writes]
      exact ⟨log, .same, .hit rfl ⟨hwrites, hrow, held⟩ unlogged, fun out hout => nomatch hout⟩
    · refine ⟨log, .same, .searching rfl writes held unlogged (hold' old) ?_, fun out hout => nomatch hout⟩
      intro t ht heq
      refine (List.mem_erase_of_ne fun htid' => ?_).mpr (left t ht heq)
      rw [ReadCommitted.Config.view_of_writes_nil writes] at hrow
      exact hrow t.2 (htid' ▸ ht) (isCode_iff.mpr heq)
  | absent stage writes logged =>
    rw [stage] at hfollows
    obtain ⟨rfl, rfl, ⟨-, rfl⟩ | ⟨tid, htid, -⟩⟩ := hfollows
    · exact ⟨log, .same, .notFound rfl writes logged, fun out hout => nomatch hout⟩
    · cases htid
  | @hit todo r tid stage holds unlogged =>
    rw [stage] at hfollows
    obtain ⟨rfl, rfl, ⟨rfl, rfl⟩ | ⟨tid', htid', _, ⟨r', hrow, hp, rfl⟩ | ⟨hrow, rfl⟩⟩⟩ := hfollows
    · exact ⟨log, .same, .counting rfl ⟨holds.writes, holds.there, holds.held⟩ unlogged,
        fun out hout => nomatch hout⟩
    · -- there is no second row with this hash
      rw [ReadCommitted.Config.view_of_writes_singleton holds.writes, Heap.mem_write] at hrow
      obtain rfl := isCode_iff.mp hp
      obtain ⟨-, hnone⟩ | ⟨hne, hrow⟩ := hrow
      · cases hnone
      · exact absurd (congrArg Prod.fst (hunique _ hrow _ holds.there rfl rfl)) hne
    · exact ⟨log, .same, .hit rfl ⟨holds.writes, holds.there, holds.held⟩ unlogged,
        fun out hout => nomatch hout⟩
  | counting stage holds unlogged =>
    rw [stage] at hfollows
    obtain ⟨rfl, rfl, rfl⟩ := hfollows
    refine ⟨log, .same, .counted rfl ⟨holds.writes, holds.there, holds.held⟩ unlogged ?_,
      fun out hout => nomatch hout⟩
    rw [ReadCommitted.Config.view_of_writes_singleton holds.writes, length_owned hunique.write_none,
      codes_erase hunique holds.there]
  | counted stage holds unlogged count =>
    rw [stage] at hfollows
    obtain ⟨rfl, rfl, rfl⟩ := hfollows
    rw [ReadCommitted.Config.view_of_writes_singleton holds.writes]
    refine ⟨_, .consumed hcall holds unlogged count rfl, .ended rfl, fun out hout => ?_⟩
    obtain rfl := Option.some.inj (Stage.returned.inj hout)
    exact List.mem_append_right _ (List.mem_singleton.mpr rfl)
  | notFound stage writes logged =>
    rw [stage] at hfollows
    obtain ⟨rfl, rfl, rfl⟩ := hfollows
    refine ⟨log, .same, .ended rfl, fun out hout => ?_⟩
    obtain rfl := Option.some.inj (Stage.returned.inj hout)
    exact logged
  | ended stage =>
    rw [hmove.not_over] at stage
    cases stage

end Sulis.Postgres.Recovery
