-- SUMMARY: Which interleavings of the PostgreSQL recovery-code calls look like calls made one at a time.
import Sulis.Postgres.RecoverySteps

/-!
# The order of recovery-code calls

A replacement clears the rows of its snapshot. Two of them that overlap leave both new
sets behind, whoever comes first. While no replacement starts its `DELETE` during
another one, every call has a place in one order: a replacement, a consumption that
finds its code and a deletion have theirs at the commit, a consumption that does not
find its code at the moment the code was not there, and a deletion that a replacement
overtook just before that replacement.
-/

namespace Sulis.Postgres.Recovery

open ReadCommitted Sulis.Recovery Store

variable {heap heap' heap₀ : Heap CodeRow} {userID : UUID} {hash : String} {c : Cfg} {log log' : Log}
  {s s' t : Sess} {i j fresh : Nat} {hashes : List String}

/-! ## What a step means for the log -/

namespace Effect

theorem serial {codes₀ : Finset String} (h : Effect userID c log i s s' heap log')
    (hunique : UniqueCodes c.heap userID)
    (hserial : Serial execute codes₀ log (codes c.heap userID)) :
    Serial execute codes₀ log' (codes heap userID) := by
  cases h with
  | same => exact hserial
  | absent hcall hnot =>
    refine hserial.concat ?_
    simp only [execute, hcall, if_neg hnot]
  | replaced hcall _ hfilled _ =>
    refine hserial.concat ?_
    simp only [execute, hcall, hfilled.codes_view]
  | consumed hcall hholds _ hcount =>
    refine hserial.concat ?_
    have hmem := mem_codes.mpr ⟨_, hholds.there⟩
    simp only [execute, hcall, if_pos hmem, codes_erase hunique hholds.there, hcount]
  | cleared hcall hcovers hended _ =>
    have hempty : codes (c.view s) userID = ∅ := by
      refine Finset.eq_empty_of_forall_notMem fun hash hmem => ?_
      obtain ⟨tid, hview⟩ := mem_codes.mp hmem
      have hfree := notMem_locked_of_mem_view hended hview
      rcases hcovers _ ((Heap.mem_overlay_of_notMem hfree).mp hview) rfl with hnil | hlocked
      · cases hnil
      · exact hfree hlocked
    refine hserial.concat ?_
    simp only [execute, hcall, hempty]
  | @overtaken before after e hcall hsplit hreplace =>
    subst hsplit
    refine hserial.insert (fun codes => ?_) (fun codes => ?_)
    · simp only [execute, hcall]
    · -- a replacement does not look at what was there
      cases hec : e.call with
      | replaceCodes _ _ => rfl
      | consumeCode _ _ | deleteCodes _ => rw [hec] at hreplace; cases hreplace

/-- A step adds at most its own call to the log. -/
theorem perm (h : Effect userID c log i s s' heap log') :
    log' = log ∨ (∃ out, log'.Perm (⟨i, s.call, out⟩ :: log)) ∧
      (i ∉ log.map ReadCommitted.Entry.session ∨ ∀ hash, s.call ≠ .consumeCode userID hash) := by
  cases h with
  | same => exact Or.inl rfl
  | absent _ _ hunlogged | consumed _ _ hunlogged =>
    exact Or.inr ⟨⟨_, List.perm_append_singleton _ _⟩, Or.inl hunlogged⟩
  | replaced hcall | cleared hcall =>
    refine Or.inr ⟨⟨_, List.perm_append_singleton _ _⟩, Or.inr fun hash heq => ?_⟩
    cases hcall.symm.trans heq
  | overtaken hcall hsplit =>
    subst hsplit
    refine Or.inr ⟨⟨_, List.perm_middle⟩, Or.inr fun hash heq => ?_⟩
    cases hcall.symm.trans heq

theorem mem_of_mem {e : ReadCommitted.Entry Call Out} (h : Effect userID c log i s s' heap log') (he : e ∈ log) :
    e ∈ log' := by
  rcases h.perm with rfl | ⟨⟨out, hperm⟩, -⟩
  · exact he
  · exact hperm.mem_iff.mpr (List.mem_cons_of_mem _ he)

theorem mem_cases {e : ReadCommitted.Entry Call Out} (h : Effect userID c log i s s' heap log') (he : e ∈ log') :
    e ∈ log ∨ e.session = i ∧ e.call = s.call := by
  rcases h.perm with rfl | ⟨⟨out, hperm⟩, -⟩
  · exact Or.inl he
  · rcases List.mem_cons.mp (hperm.mem_iff.mp he) with rfl | he
    · exact Or.inr ⟨rfl, rfl⟩
    · exact Or.inl he

/-- What a step adds is what the call returns with it, or a code that is not there. -/
theorem out {e : ReadCommitted.Entry Call Out} (h : Effect userID c log i s s' heap log') (he : e ∈ log')
    (hnew : e ∉ log) : s'.stage = .returned (some e.out) ∨
      e.out = .consumed (.error .codeNotFound) ∧ ∃ hash, s.call = .consumeCode userID hash := by
  cases h with
  | same => exact absurd he hnew
  | absent hcall =>
    rcases List.mem_append.mp he with he | he
    · exact absurd he hnew
    · rw [List.mem_singleton.mp he]
      exact Or.inr ⟨rfl, _, hcall⟩
  | replaced _ _ _ hout | consumed _ _ _ _ hout | cleared _ _ _ hout =>
    rcases List.mem_append.mp he with he | he
    · exact absurd he hnew
    · rw [List.mem_singleton.mp he]
      exact Or.inl hout
  | overtaken _ hsplit _ hout =>
    subst hsplit
    rcases List.mem_append.mp he with he | he
    · exact absurd (List.mem_append_left _ he) hnew
    · rcases List.mem_cons.mp he with rfl | he
      · exact Or.inl hout
      · exact absurd (List.mem_append_right _ he) hnew

theorem unlogged_of_ne (h : Effect userID c log i s s' heap log') (hne : j ≠ i)
    (hj : j ∉ log.map ReadCommitted.Entry.session) : j ∉ log'.map ReadCommitted.Entry.session := by
  intro hmem
  obtain ⟨e, he, rfl⟩ := List.mem_map.mp hmem
  rcases h.mem_cases he with he | ⟨hi, -⟩
  · exact hj (List.mem_map.mpr ⟨e, he, rfl⟩)
  · exact hne hi

theorem nodup (h : Effect userID c log i s s' heap log') (hnodup : (log.map ReadCommitted.Entry.session).Nodup)
    (hfree : (∀ hash, s.call ≠ .consumeCode userID hash) → i ∉ log.map ReadCommitted.Entry.session) :
    (log'.map ReadCommitted.Entry.session).Nodup := by
  rcases h.perm with rfl | ⟨⟨out, hperm⟩, hunlogged⟩
  · exact hnodup
  · rw [(hperm.map ReadCommitted.Entry.session).nodup_iff, List.map_cons, List.nodup_cons]
    exact ⟨hunlogged.elim id hfree, hnodup⟩

/-! ## What a step means for the rows -/

/-- Only a replacement brings rows. -/
theorem rows (h : Effect userID c log i s s' heap log') :
    (∀ t ∈ heap, t.2.userID = userID → t ∈ c.heap) ∨
      ∃ hashes, s.call = .replaceCodes userID hashes ∧ pastClear s.stage ∧
        Filled c.heap userID hashes s ∧ heap = c.view s ∧ ⟨i, s.call, .replaced⟩ ∈ log' := by
  cases h with
  | same | absent | overtaken => exact Or.inl fun t ht _ => ht
  | replaced hcall hpast hfilled =>
    exact Or.inr ⟨_, hcall, hpast, hfilled, rfl, List.mem_append_right _ (List.mem_singleton.mpr rfl)⟩
  | consumed =>
    refine Or.inl fun t ht _ => ?_
    obtain ⟨-, hnone⟩ | ⟨-, ht⟩ := Heap.mem_write.mp ht
    · cases hnone
    · exact ht
  | cleared _ _ hended _ =>
    refine Or.inl fun t ht _ => ?_
    exact (Heap.mem_overlay_of_notMem (notMem_locked_of_mem_view hended ht)).mp ht

theorem mem_codes_cases (h : Effect userID c log i s s' heap log') (hmem : hash ∈ codes heap userID) :
    hash ∈ codes c.heap userID ∨ hash ∈ s.call.hashes := by
  rcases h.rows with hrows | ⟨hashes, hcall, -, hfilled, rfl, -⟩
  · obtain ⟨tid, htid⟩ := mem_codes.mp hmem
    exact Or.inl (mem_codes.mpr ⟨tid, hrows _ htid rfl⟩)
  · rw [hfilled.codes_view, List.mem_toFinset] at hmem
    rw [hcall]
    exact Or.inr hmem

theorem unique (h : Effect userID c log i s s' heap log') (hunique : UniqueCodes c.heap userID)
    (hnodup : s.call.hashes.Nodup) : UniqueCodes heap userID := by
  rcases h.rows with hrows | ⟨hashes, hcall, -, hfilled, rfl, -⟩
  · intro t ht t' ht' howned heq
    exact hunique t (hrows t ht howned) t' (hrows t' ht' (heq ▸ howned)) howned heq
  · rw [hcall] at hnodup
    exact hfilled.unique_view hnodup

/-- While a consumption has the row of its code, no other session changes the codes. -/
theorem codes_of_holds {tid : Nat} (h : Effect userID c log i s s' heap log') (hsound : c.Sound)
    (hne : j ≠ i) (hs : c.sessions[i]? = some s) (ht : c.sessions[j]? = some t)
    (hholds : Holds c.heap userID hash tid t) : codes heap userID = codes c.heap userID := by
  have hlocked : tid ∈ t.locked := by simp [ReadCommitted.Session.locked, hholds.writes]
  have hfree : tid ∉ s.locked := hsound.rowsApart hne ht hs hlocked
  cases h with
  | same | absent | overtaken => rfl
  | replaced _ _ hfilled =>
    obtain ⟨news, olds, hwrites, -, -, hcovers⟩ := hfilled.writes
    refine absurd ?_ hfree
    rw [ReadCommitted.Session.locked, hwrites, List.map_append]
    exact List.mem_append_right _ (hcovers _ hholds.there rfl)
  | consumed _ hother => exact absurd hother.held (hsound.locksApart hne ht hs hholds.held)
  | cleared _ hcovers =>
    rcases hcovers _ hholds.there rfl with hnil | hmem
    · cases hnil
    · exact absurd hmem hfree

end Effect

/-! ## Steps of other sessions -/

/-- The tuples that a scan has still to look at. -/
def todo (s : Sess) : List Nat :=
  match s.stage with
  | .scanning _ _ todo _ _ => todo
  | _ => []

theorem Covers.mono {todo : List Nat} (h : Covers heap userID todo s)
    (hrows : ∀ t ∈ heap', t.2.userID = userID → t ∈ heap) : Covers heap' userID todo s :=
  fun t ht howned => h t (hrows t ht howned) howned

theorem Filled.mono {stored : List String} (h : Filled heap userID stored s)
    (hrows : ∀ t ∈ heap', t.2.userID = userID → t ∈ heap) : Filled heap' userID stored s where
  writes := by
    obtain ⟨news, olds, hwrites, hended, hstored, hcovers⟩ := h.writes
    exact ⟨news, olds, hwrites, hended, hstored, fun t ht howned => hcovers t (hrows t ht howned) howned⟩
  once := h.once

theorem pastClear_insertAll {rest : List String} : pastClear (.ready (insertAll userID rest)) := by
  cases rest <;> rfl

theorem Replacing.frame (h : Replacing heap userID hashes s)
    (hrows : pastClear s.stage → ∀ t ∈ heap', t.2.userID = userID → t ∈ heap) :
    Replacing heap' userID hashes s := by
  cases h with
  | invoked stage writes => exact .invoked stage writes
  | begun stage writes => exact .begun stage writes
  | clearing stage covers ended once =>
    exact .clearing stage (covers.mono (hrows (by rw [stage]; rfl))) ended once
  | inserting stage split filled =>
    exact .inserting stage split (filled.mono (hrows (by rw [stage]; exact pastClear_insertAll)))
  | placing stage split filled =>
    exact .placing stage split (filled.mono (hrows (by rw [stage]; rfl)))
  | ended stage => exact .ended stage

/-- A replacement has come in between. -/
structure Overtakes (heap heap' : Heap CodeRow) (log' : Log) (userID : UUID) (s : Sess) : Prop where
  /-- It has every row of the user, so the session has none. -/
  taken : ∀ t ∈ heap, t.2.userID = userID → t.1 ∉ s.locked
  unseen : ∀ t ∈ heap', t.2.userID = userID → t.1 ∉ todo s
  logged : ∃ e ∈ log', e.call.isReplace

theorem Overtaken.frame {left : List Nat} (h : Overtaken heap log userID left s)
    (hleft : ∀ tid ∈ left, tid ∈ todo s) (hlog : ∀ e ∈ log, e ∈ log')
    (hrows : (∀ t ∈ heap', t.2.userID = userID → t ∈ heap) ∨ Overtakes heap heap' log' userID s) :
    Overtaken heap' log' userID left s := by
  obtain ⟨hwrites, hgone, e, he, hreplace⟩ := h
  refine ⟨hwrites, fun tid htid r hr howned => ?_, e, hlog e he, hreplace⟩
  rcases hrows with hrows | hovertakes
  · exact hgone tid htid r (hrows _ hr howned) howned
  · exact hovertakes.unseen _ hr howned (hleft tid htid)

/-- What a scan sees after a step of another session. -/
theorem sees_frame {left : List Nat} (h : Covers heap userID left s ∨ Overtaken heap log userID left s)
    (hleft : ∀ tid ∈ left, tid ∈ todo s)
    (hthere : ∀ tid ∈ s.locked, ∃ r, (tid, r) ∈ heap ∧ r.userID = userID)
    (hlog : ∀ e ∈ log, e ∈ log')
    (hrows : (∀ t ∈ heap', t.2.userID = userID → t ∈ heap) ∨ Overtakes heap heap' log' userID s) :
    Covers heap' userID left s ∨ Overtaken heap' log' userID left s := by
  rcases h with covers | overtaken
  · rcases hrows with hrows | hovertakes
    · exact Or.inl (covers.mono hrows)
    · refine Or.inr ⟨?_, fun tid htid r hr howned => ?_, hovertakes.logged⟩
      · -- whatever the session had locked, the replacement would have had to wait for
        have hnone : s.locked = [] := by
          refine List.eq_nil_iff_forall_not_mem.mpr fun tid htid => ?_
          obtain ⟨r, hr, howned⟩ := hthere tid htid
          exact hovertakes.taken _ hr howned htid
        exact List.map_eq_nil_iff.mp hnone
      · exact hovertakes.unseen _ hr howned (hleft tid htid)
  · exact Or.inr (overtaken.frame hleft hlog hrows)

theorem Clearing.frame (h : Clearing heap log userID s)
    (hlocked : ∀ tid ∈ s.locked, ∀ r, (tid, r) ∈ heap → (tid, r) ∈ heap')
    (hlog : ∀ e ∈ log, e ∈ log')
    (hrows : (∀ t ∈ heap', t.2.userID = userID → t ∈ heap) ∨ Overtakes heap heap' log' userID s) :
    Clearing heap' log' userID s := by
  have hstay : (∀ tid ∈ s.locked, ∃ r, (tid, r) ∈ heap ∧ r.userID = userID) →
      ∀ tid ∈ s.locked, ∃ r, (tid, r) ∈ heap' ∧ r.userID = userID := by
    intro hthere tid htid
    obtain ⟨r, hr, howned⟩ := hthere tid htid
    exact ⟨r, hlocked tid htid r hr, howned⟩
  cases h with
  | invoked stage writes => exact .invoked stage writes
  | begun stage writes => exact .begun stage writes
  | scanning stage ended there sees =>
    refine .scanning stage ended (hstay there) (sees_frame sees ?_ there hlog hrows)
    intro tid htid
    rw [todo, stage]
    exact htid
  | scanned stage ended there sees =>
    exact .scanned stage ended (hstay there) (sees_frame sees (by simp) there hlog hrows)
  | ended stage => exact .ended stage

theorem Holds.frame {tid : Nat} (h : Holds heap userID hash tid s)
    (hlocked : ∀ tid ∈ s.locked, ∀ r, (tid, r) ∈ heap → (tid, r) ∈ heap') :
    Holds heap' userID hash tid s where
  writes := h.writes
  there := hlocked tid (by simp [ReadCommitted.Session.locked, h.writes]) _ h.there
  held := h.held

theorem Consuming.frame {c' : Cfg} (h : Consuming heap₀ c log i userID hash s)
    (hlocked : ∀ tid ∈ s.locked, ∀ r, (tid, r) ∈ c.heap → (tid, r) ∈ c'.heap)
    (hlog : ∀ e ∈ log, e ∈ log')
    (hunlogged : i ∉ log.map ReadCommitted.Entry.session → i ∉ log'.map ReadCommitted.Entry.session)
    (hold : Old heap₀ c userID hash → Old heap₀ c' userID hash)
    (hnew : Old heap₀ c userID hash → ∀ t ∈ c'.heap, t.2 = ⟨userID, hash⟩ → t ∈ c.heap)
    (hcodes : ∀ tid, Holds c.heap userID hash tid s → codes c'.heap userID = codes c.heap userID) :
    Consuming heap₀ c' log' i userID hash s := by
  cases h with
  | invoked stage writes unlogged => exact .invoked stage writes (hunlogged unlogged)
  | begun stage writes unlogged => exact .begun stage writes (hunlogged unlogged)
  | locked stage writes held unlogged => exact .locked stage writes held (hunlogged unlogged)
  | searching stage writes held unlogged old left =>
    exact .searching stage writes held (hunlogged unlogged) (hold old)
      fun t ht heq => left t (hnew old t ht heq) heq
  | absent stage writes logged => exact .absent stage writes (hlog _ logged)
  | hit stage holds unlogged => exact .hit stage (holds.frame hlocked) (hunlogged unlogged)
  | counting stage holds unlogged => exact .counting stage (holds.frame hlocked) (hunlogged unlogged)
  | counted stage holds unlogged count =>
    refine .counted stage (holds.frame hlocked) (hunlogged unlogged) ?_
    rw [hcodes _ holds]
    exact count
  | notFound stage writes logged => exact .notFound stage writes (hlog _ logged)
  | ended stage => exact .ended stage

/-! ## New tuples -/

/-- Scans only end rows, and inserts land on new tuples. -/
structure Plain (s : Sess) : Prop where
  scan : ∀ {p : CodeRow → Bool} {set : CodeRow → Option CodeRow} {left : List Nat}
    {hit : List CodeRow} {next : List CodeRow → Step}, s.stage = .scanning p set left hit next →
    ∀ r, set r = none
  place : ∀ {row : CodeRow} {target : CodeRow → Bool} {set : CodeRow → CodeRow}
    {next : List CodeRow → Step}, s.stage = .placing row target set next → ∀ r, ¬ target r

theorem plain_of_ready {script : Step} (h : s.stage = .ready script) : Plain s where
  scan := by intro p set left hit next hstage; cases h.symm.trans hstage
  place := by intro row target set next hstage; cases h.symm.trans hstage

theorem plain_of_closed (h : s.stage.isOpen = false) : Plain s where
  scan := by intro p set left hit next hstage; rw [hstage] at h; cases h
  place := by intro row target set next hstage; rw [hstage] at h; cases h

theorem plain_of_scanning {p : CodeRow → Bool} {left : List Nat} {hit : List CodeRow}
    {next : List CodeRow → Step} (h : s.stage = .scanning p (fun _ => none) left hit next) :
    Plain s where
  scan := by intro p set left hit next hstage; cases h.symm.trans hstage; exact fun _ => rfl
  place := by intro row target set next hstage; cases h.symm.trans hstage

theorem plain_of_placing {row : CodeRow} {set : CodeRow → CodeRow} {next : List CodeRow → Step}
    (h : s.stage = .placing row (fun _ => false) set next) : Plain s where
  scan := by intro p set left hit next hstage; cases h.symm.trans hstage
  place := by intro row target set next hstage; cases h.symm.trans hstage; simp

theorem isOpen_of_over (h : s.stage.over) : s.stage.isOpen = false := by
  cases hstage : s.stage with
  | returned out => rfl
  | _ => rw [hstage] at h; cases h

theorem Replacing.plain (h : Replacing heap userID hashes s) : Plain s := by
  cases h with
  | invoked stage => exact plain_of_closed (by rw [stage]; rfl)
  | begun stage => exact plain_of_ready stage
  | clearing stage => exact plain_of_scanning stage
  | inserting stage => exact plain_of_ready stage
  | placing stage => exact plain_of_placing stage
  | ended stage => exact plain_of_closed (isOpen_of_over stage)

theorem Clearing.plain (h : Clearing heap log userID s) : Plain s := by
  cases h with
  | invoked stage => exact plain_of_closed (by rw [stage]; rfl)
  | begun stage => exact plain_of_ready stage
  | scanning stage => exact plain_of_scanning stage
  | scanned stage => exact plain_of_ready stage
  | ended stage => exact plain_of_closed (isOpen_of_over stage)

theorem Consuming.plain (h : Consuming heap₀ c log i userID hash s) : Plain s := by
  cases h with
  | invoked stage => exact plain_of_closed (by rw [stage]; rfl)
  | begun stage => exact plain_of_ready stage
  | locked stage => exact plain_of_ready stage
  | searching stage => exact plain_of_scanning stage
  | absent stage => exact plain_of_scanning stage
  | hit stage => exact plain_of_scanning stage
  | counting stage => exact plain_of_ready stage
  | counted stage => exact plain_of_ready stage
  | notFound stage => exact plain_of_ready stage
  | ended stage => exact plain_of_closed (isOpen_of_over stage)

theorem Plain.writes {tid : Nat} {r : CodeRow} (h : Plain s)
    (hmove : Moves client c i s s' heap fresh) (hmem : (tid, some r) ∈ s'.writes) :
    (tid, some r) ∈ s.writes ∨ tid = c.fresh ∧ heap = c.heap ∧ fresh = c.fresh + 1 := by
  cases hmove with
  | hit hstage =>
    rw [h.scan hstage] at hmem
    rcases List.mem_cons.mp hmem with heq | hmem
    · cases heq
    · exact Or.inl hmem
  | @place row target set _ _ _ hstage hlanding =>
    rcases List.mem_cons.mp hmem with heq | hmem
    · rcases landing_cases (c.view s) c.fresh row target set with ⟨_, _, htarget, _⟩ | ⟨_, hnew⟩
      · exact absurd htarget (h.place hstage _)
      · obtain ⟨rfl, -⟩ := Prod.mk.inj (hlanding.symm.trans hnew)
        exact Or.inr ⟨(Prod.mk.inj heq).1, rfl, rfl⟩
    · exact Or.inl hmem
  | commit | rollback | fail => cases hmem
  | _ => exact Or.inl hmem

/-- A scan takes its tuples from what the session sees. -/
theorem todo_of_moves {tid : Nat} (hmove : Moves client c i s s' heap fresh) (hmem : tid ∈ todo s') :
    tid ∈ todo s ∨ ∃ r, (tid, r) ∈ c.view s := by
  cases hmove with
  | scan hstage =>
    obtain ⟨r, hr, -⟩ := Heap.mem_matching.mp hmem
    exact Or.inr ⟨r, hr⟩
  | hit hstage | miss hstage =>
    left
    rw [todo, hstage]
    exact List.mem_of_mem_erase hmem
  | _ => cases hmem

theorem knows_of_todo {tid : Nat} (h : tid ∈ todo s) : s.knows tid := by
  rw [todo] at h
  split at h
  · rename_i hstage
    exact Or.inr ⟨_, _, _, _, _, hstage, h⟩
  · cases h

/-! ## Every run -/

structure Inv (userID : UUID) (heap₀ : Heap CodeRow) (c : Cfg) (log : Log) : Prop where
  sound : c.Sound
  mine : ∀ s ∈ c.sessions, s.call.userID = userID
  unique : UniqueCodes c.heap userID
  distinct : ∀ s ∈ c.sessions, s.call.hashes.Nodup
  hashesApart : ∀ {i j : Nat} {s t : Sess}, i ≠ j → c.sessions[i]? = some s → c.sessions[j]? = some t →
    ∀ hash ∈ s.call.hashes, hash ∉ t.call.hashes
  /-- What a replacement under way brings is not there yet. -/
  pending : ∀ s ∈ c.sessions, s.stage.over = false → ∀ hash ∈ s.call.hashes,
    hash ∉ codes c.heap userID
  origin : ∀ hash ∈ codes c.heap userID,
    hash ∈ codes heap₀ userID ∨ ∃ s ∈ c.sessions, hash ∈ s.call.hashes
  /-- One replacement at a time is past the start of its `DELETE`. -/
  alone : ∀ {i j : Nat} {s t : Sess}, i ≠ j → c.sessions[i]? = some s → c.sessions[j]? = some t →
    s.call.isReplace → t.call.isReplace → pastClear s.stage → pastClear t.stage = false
  newborn : ∀ {i : Nat} {s : Sess} {tid : Nat} {r : CodeRow}, c.sessions[i]? = some s →
    (tid, some r) ∈ s.writes → ∀ r', (tid, r') ∉ c.heap
  unseen : ∀ {i j : Nat} {s t : Sess} {tid : Nat} {r : CodeRow}, i ≠ j → c.sessions[i]? = some s →
    c.sessions[j]? = some t → (tid, some r) ∈ s.writes → tid ∉ todo t
  replacing : ∀ {i : Nat} {s : Sess} {hashes : List String}, c.sessions[i]? = some s →
    s.call = .replaceCodes userID hashes → Replacing c.heap userID hashes s
  consuming : ∀ {i : Nat} {s : Sess} {hash : String}, c.sessions[i]? = some s →
    s.call = .consumeCode userID hash → Consuming heap₀ c log i userID hash s
  clearing : ∀ {i : Nat} {s : Sess}, c.sessions[i]? = some s → s.call = .deleteCodes userID →
    Clearing c.heap log userID s
  serial : Serial execute (codes heap₀ userID) log (codes c.heap userID)
  nodup : (log.map ReadCommitted.Entry.session).Nodup
  returned : ∀ {i : Nat} {s : Sess} {out : Out}, c.sessions[i]? = some s →
    s.stage = .returned (some out) → ⟨i, s.call, out⟩ ∈ log
  logged : ∀ e ∈ log, ∃ s, c.sessions[e.session]? = some s ∧ s.call = e.call ∧
    (s.stage = .returned (some e.out) ∨
      e.out = .consumed (.error .codeNotFound) ∧ ∃ hash, s.call = .consumeCode userID hash)

theorem inv_start {fresh : Nat} (hold : ∀ t ∈ heap₀, t.1 < fresh)
    (hunique : UniqueCodes heap₀ userID) : Inv userID heap₀ (.start heap₀ fresh) [] where
  sound := ReadCommitted.Config.sound_start hold
  mine := by intro s hs; cases hs
  unique := hunique
  distinct := by intro s hs; cases hs
  hashesApart := by intro i j s t _ hs; cases hs
  pending := by intro s hs; cases hs
  origin := fun hash hmem => Or.inl hmem
  alone := by intro i j s t _ hs; cases hs
  newborn := by intro i s tid r hs; cases hs
  unseen := by intro i j s t tid r _ hs; cases hs
  replacing := by intro i s hashes hs; cases hs
  consuming := by intro i s hash hs; cases hs
  clearing := by intro i s hs; cases hs
  serial := rfl
  nodup := List.nodup_nil
  returned := by intro i s out hs; cases hs
  logged := by intro e he; cases he

theorem Inv.plain (h : Inv userID heap₀ c log) (hs : c.sessions[i]? = some s) : Plain s := by
  have hmine := h.mine s (List.mem_of_getElem? hs)
  cases hcall : s.call with
  | replaceCodes u hashes =>
    rw [hcall] at hmine
    obtain rfl : u = userID := hmine
    exact (h.replacing hs hcall).plain
  | consumeCode u hash =>
    rw [hcall] at hmine
    obtain rfl : u = userID := hmine
    exact (h.consuming hs hcall).plain
  | deleteCodes u =>
    rw [hcall] at hmine
    obtain rfl : u = userID := hmine
    exact (h.clearing hs hcall).plain

/-- A hash that is there is brought by nobody any more. -/
theorem Inv.old (h : Inv userID heap₀ c log) (hmem : hash ∈ codes c.heap userID) :
    Old heap₀ c userID hash :=
  ⟨h.origin hash hmem, fun s hs hopen hhash => h.pending s hs hopen hash hhash hmem⟩

/-- Only consumptions are in the log before they are over. -/
theorem Inv.unlogged (h : Inv userID heap₀ c log) (hs : c.sessions[i]? = some s)
    (hopen : s.stage.over = false) (hcall : ∀ hash, s.call ≠ .consumeCode userID hash) :
    i ∉ log.map ReadCommitted.Entry.session := by
  intro hmem
  obtain ⟨e, he, rfl⟩ := List.mem_map.mp hmem
  obtain ⟨t, ht, -, hstage | ⟨-, hash, hconsume⟩⟩ := h.logged e he
  · obtain rfl := Option.some.inj (hs.symm.trans ht)
    rw [hstage] at hopen
    cases hopen
  · obtain rfl := Option.some.inj (hs.symm.trans ht)
    exact hcall hash hconsume

/-- A step of a session: what it does, and what is known of the session then. -/
theorem Inv.effect (h : Inv userID heap₀ c log) (hs : c.sessions[i]? = some s)
    (hmove : Moves client c i s s' heap fresh) :
    ∃ log', Effect userID c log i s s' heap log' ∧
      (∀ hashes, s.call = .replaceCodes userID hashes → Replacing heap userID hashes s') ∧
      (∀ hash, s.call = .consumeCode userID hash →
        Consuming heap₀ ⟨heap, fresh, c.sessions.set i s'⟩ log' i userID hash s') ∧
      (s.call = .deleteCodes userID → Clearing heap log' userID s') ∧
      (∀ out, s'.stage = .returned (some out) → ⟨i, s'.call, out⟩ ∈ log') := by
  have hmine := h.mine s (List.mem_of_getElem? hs)
  cases hcall : s.call with
  | replaceCodes u hashes =>
    rw [hcall] at hmine
    obtain rfl : u = userID := hmine
    obtain ⟨log', heffect, hknown, hout⟩ :=
      (h.replacing hs hcall).move log hs hcall h.sound hmove
    refine ⟨log', heffect, ?_, by simp, by simp, hout⟩
    intro hashes' heq
    obtain rfl := (Call.replaceCodes.inj heq).2
    exact hknown
  | consumeCode u hash =>
    rw [hcall] at hmine
    obtain rfl : u = userID := hmine
    obtain ⟨log', heffect, hknown, hout⟩ := (h.consuming hs hcall).move hs hcall h.unique h.old hmove
    refine ⟨log', heffect, by simp, ?_, by simp, hout⟩
    intro hash' heq
    obtain rfl := (Call.consumeCode.inj heq).2
    exact hknown
  | deleteCodes u =>
    rw [hcall] at hmine
    obtain rfl : u = userID := hmine
    obtain ⟨log', heffect, hknown, hout⟩ := (h.clearing hs hcall).move (i := i) hcall hmove
    exact ⟨log', heffect, by simp, by simp, fun _ => hknown, hout⟩

/-! ## A call comes in -/

theorem Old.invoke {call : Call} (h : Old heap₀ c userID hash)
    (hissued : Issued userID heap₀ c (.invoke call)) :
    Old heap₀ (c.invoked call) userID hash := by
  obtain ⟨hused, hold⟩ := h
  constructor
  · rcases hused with hused | ⟨t, ht, hhash⟩
    · exact Or.inl hused
    · exact Or.inr ⟨t, List.mem_append_left _ ht, hhash⟩
  · intro t ht hopen
    rcases List.mem_append.mp ht with ht | ht
    · exact hold t ht hopen
    · obtain rfl := List.mem_singleton.mp ht
      intro hhash
      obtain ⟨hnew, hnew'⟩ := hissued.2.2 hash hhash
      rcases hused with hused | ⟨u, hu, hhash'⟩
      · exact hnew hused
      · exact hnew' u hu hhash'

theorem Inv.invoke {call : Call} (h : Inv userID heap₀ c log)
    (hissued : Issued userID heap₀ c (.invoke call)) : Inv userID heap₀ (c.invoked call) log where
  sound := h.sound.invoke call
  mine := by
    intro s hs
    rcases List.mem_append.mp hs with hs | hs
    · exact h.mine s hs
    · obtain rfl := List.mem_singleton.mp hs
      exact hissued.1
  unique := h.unique
  distinct := by
    intro s hs
    rcases List.mem_append.mp hs with hs | hs
    · exact h.distinct s hs
    · obtain rfl := List.mem_singleton.mp hs
      exact hissued.2.1
  hashesApart := by
    intro i j s t hne hs ht hash hhash hhash'
    rcases getElem?_concat_cases hs with hs' | ⟨rfl, rfl⟩
    · rcases getElem?_concat_cases ht with ht' | ⟨rfl, rfl⟩
      · exact h.hashesApart hne hs' ht' hash hhash hhash'
      · exact (hissued.2.2 hash hhash').2 s (List.mem_of_getElem? hs') hhash
    · rcases getElem?_concat_cases ht with ht' | ⟨rfl, rfl⟩
      · exact (hissued.2.2 hash hhash).2 t (List.mem_of_getElem? ht') hhash'
      · exact hne rfl
  pending := by
    intro s hs hopen hash hhash hmem
    rcases List.mem_append.mp hs with hs | hs
    · exact h.pending s hs hopen hash hhash hmem
    · obtain rfl := List.mem_singleton.mp hs
      obtain ⟨hnew, hnew'⟩ := hissued.2.2 hash hhash
      rcases h.origin hash hmem with hused | ⟨u, hu, hhash'⟩
      · exact hnew hused
      · exact hnew' u hu hhash'
  origin := by
    intro hash hmem
    rcases h.origin hash hmem with hused | ⟨u, hu, hhash⟩
    · exact Or.inl hused
    · exact Or.inr ⟨u, List.mem_append_left _ hu, hhash⟩
  alone := by
    intro i j s t hne hs ht hr hr' hpast
    rcases getElem?_concat_cases hs with hs' | ⟨rfl, rfl⟩
    · rcases getElem?_concat_cases ht with ht' | ⟨rfl, rfl⟩
      · exact h.alone hne hs' ht' hr hr' hpast
      · rfl
    · cases hpast
  newborn := by
    intro i s tid r hs hmem
    rcases getElem?_concat_cases hs with hs' | ⟨rfl, rfl⟩
    · exact h.newborn hs' hmem
    · cases hmem
  unseen := by
    intro i j s t tid r hne hs ht hmem
    rcases getElem?_concat_cases hs with hs' | ⟨rfl, rfl⟩
    · rcases getElem?_concat_cases ht with ht' | ⟨rfl, rfl⟩
      · exact h.unseen hne hs' ht' hmem
      · exact List.not_mem_nil
    · cases hmem
  replacing := by
    intro i s hashes hs hcall
    rcases getElem?_concat_cases hs with hs | ⟨rfl, rfl⟩
    · exact h.replacing hs hcall
    · exact .invoked rfl rfl
  consuming := by
    intro i s hash hs hcall
    rcases getElem?_concat_cases hs with hs | ⟨rfl, rfl⟩
    · refine (h.consuming hs hcall).frame (fun _ _ _ hr => hr) (fun _ he => he) id
        (fun hold => hold.invoke hissued) (fun _ _ ht _ => ht) (fun _ _ => rfl)
    · refine .invoked rfl rfl fun hmem => ?_
      obtain ⟨e, he, heq⟩ := List.mem_map.mp hmem
      obtain ⟨t, ht, -⟩ := h.logged e he
      exact absurd (List.getElem?_eq_some_iff.mp ht).1 (by omega)
  clearing := by
    intro i s hs hcall
    rcases getElem?_concat_cases hs with hs | ⟨rfl, rfl⟩
    · exact h.clearing hs hcall
    · exact .invoked rfl rfl
  serial := h.serial
  nodup := h.nodup
  returned := by
    intro i s out hs hstage
    rcases getElem?_concat_cases hs with hs | ⟨rfl, rfl⟩
    · exact h.returned hs hstage
    · cases hstage
  logged := by
    intro e he
    obtain ⟨s, hs, hrest⟩ := h.logged e he
    exact ⟨s, (List.getElem?_append_left (List.getElem?_eq_some_iff.mp hs).1).trans hs, hrest⟩

/-! ## A session moves -/

/-- What others have locked stays as it is. -/
theorem Inv.locked_stay (h : Inv userID heap₀ c log) (hs : c.sessions[i]? = some s)
    (hmove : Moves client c i s s' heap fresh) (hne : j ≠ i) (ht : c.sessions[j]? = some t)
    {tid : Nat} (htid : tid ∈ t.locked) (r : CodeRow) : (tid, r) ∈ heap ↔ (tid, r) ∈ c.heap := by
  rcases hmove.heap_eq with rfl | ⟨_, _, rfl, _⟩
  · exact Iff.rfl
  · exact h.sound.mem_view_of_locked hne hs ht htid

theorem mem_locked_of_mem_writes {tid : Nat} {o : Option CodeRow} (h : (tid, o) ∈ s.writes) :
    tid ∈ s.locked :=
  List.mem_map.mpr ⟨_, h, rfl⟩

/-- A replacement that ends has every row of its user. -/
theorem Filled.mem_locked {stored : List String} {row : Nat × CodeRow}
    (h : Filled heap userID stored s) (hrow : row ∈ heap) (howned : row.2.userID = userID) :
    row.1 ∈ s.locked := by
  obtain ⟨news, olds, hwrites, -, -, hcovers⟩ := h.writes
  rw [ReadCommitted.Session.locked, hwrites, List.map_append]
  exact List.mem_append_right _ (hcovers row hrow howned)

theorem Inv.newborn_move (h : Inv userID heap₀ c log) (hs : c.sessions[i]? = some s)
    (hmove : Moves client c i s s' heap fresh) {tid : Nat} {r : CodeRow}
    (ht : (c.sessions.set i s')[j]? = some t) (hmem : (tid, some r) ∈ t.writes) :
    ∀ r', (tid, r') ∉ heap := by
  intro r' hr'
  rcases getElem?_set_cases ht with ⟨rfl, rfl⟩ | ⟨hne, ht'⟩
  · rcases (h.plain hs).writes hmove hmem with hmem' | ⟨rfl, rfl, -⟩
    · rcases hmove.heap_eq with rfl | ⟨_, _, _, rfl⟩
      · exact h.newborn hs hmem' r' hr'
      · cases hmem
    · exact Nat.lt_irrefl _ (h.sound.heapOld hr')
  · rw [h.locked_stay hs hmove hne ht' (mem_locked_of_mem_writes hmem)] at hr'
    exact h.newborn ht' hmem r' hr'

theorem Inv.unseen_move (h : Inv userID heap₀ c log) (hs : c.sessions[i]? = some s)
    (hmove : Moves client c i s s' heap fresh) {k tid : Nat} {r : CodeRow} {u : Sess} (hne : j ≠ k)
    (ht : (c.sessions.set i s')[j]? = some t) (hu : (c.sessions.set i s')[k]? = some u)
    (hmem : (tid, some r) ∈ t.writes) : tid ∉ todo u := by
  intro htodo
  rcases getElem?_set_cases ht with ⟨rfl, rfl⟩ | ⟨hji, ht'⟩
  · rcases getElem?_set_cases hu with ⟨rfl, rfl⟩ | ⟨_, hu'⟩
    · exact hne rfl
    · rcases (h.plain hs).writes hmove hmem with hmem | ⟨rfl, -, -⟩
      · exact h.unseen hne hs hu' hmem htodo
      · exact Nat.lt_irrefl _ (h.sound.known hu' (knows_of_todo htodo))
  · rcases getElem?_set_cases hu with ⟨rfl, rfl⟩ | ⟨_, hu'⟩
    · rcases todo_of_moves hmove htodo with htodo | ⟨r', hr'⟩
      · exact h.unseen hne ht' hs hmem htodo
      · -- a tuple that another session has stored is not among the rows this one sees
        rw [h.sound.mem_view_of_locked hji hs ht' (mem_locked_of_mem_writes hmem)] at hr'
        exact h.newborn ht' hmem r' hr'
    · exact h.unseen hne ht' hu' hmem htodo

theorem Inv.clearing_frame (h : Inv userID heap₀ c log) (hs : c.sessions[i]? = some s)
    (hmove : Moves client c i s s' heap fresh) (heffect : Effect userID c log i s s' heap log')
    (hne : j ≠ i) (ht : c.sessions[j]? = some t) (hcall : t.call = .deleteCodes userID) :
    Clearing heap log' userID t := by
  refine (h.clearing ht hcall).frame
    (fun tid htid r hr => (h.locked_stay hs hmove hne ht htid r).mpr hr)
    (fun e he => heffect.mem_of_mem he) ?_
  rcases heffect.rows with hrows | ⟨hashes, hreplace, -, hfilled, rfl, hlogged⟩
  · exact Or.inl hrows
  · refine Or.inr ⟨fun row hrow howned hlocked => ?_, fun row hrow howned => ?_, _, hlogged, ?_⟩
    · exact h.sound.rowsApart hne ht hs hlocked (hfilled.mem_locked hrow howned)
    · exact h.unseen hne.symm hs ht ((hfilled.mem_view howned).mp hrow)
    · rw [hreplace]
      rfl

theorem Inv.replacing_frame (h : Inv userID heap₀ c log) (hs : c.sessions[i]? = some s)
    (heffect : Effect userID c log i s s' heap log') (hne : j ≠ i) (ht : c.sessions[j]? = some t)
    (hcall : t.call = .replaceCodes userID hashes) : Replacing heap userID hashes t := by
  refine (h.replacing ht hcall).frame fun hpast => ?_
  rcases heffect.rows with hrows | ⟨hashes', hreplace, hpast', -⟩
  · exact hrows
  · have hlate := h.alone hne.symm hs ht (by rw [hreplace]; rfl) (by rw [hcall]; rfl) hpast'
    rw [hpast] at hlate
    cases hlate

theorem Inv.consuming_frame (h : Inv userID heap₀ c log) (hs : c.sessions[i]? = some s)
    (hmove : Moves client c i s s' heap fresh) (heffect : Effect userID c log i s s' heap log')
    (hne : j ≠ i) (ht : c.sessions[j]? = some t) (hcall : t.call = .consumeCode userID hash) :
    Consuming heap₀ ⟨heap, fresh, c.sessions.set i s'⟩ log' j userID hash t := by
  refine (h.consuming ht hcall).frame
    (fun tid htid r hr => (h.locked_stay hs hmove hne ht htid r).mpr hr)
    (fun e he => heffect.mem_of_mem he) (heffect.unlogged_of_ne hne)
    (fun hold => hold.move hs hmove) ?_
    (fun tid hholds => heffect.codes_of_holds h.sound hne hs ht hholds)
  intro hold row hrow heq
  rcases heffect.rows with hrows | ⟨hashes, hreplace, -, hfilled, rfl, -⟩
  · exact hrows row hrow (by rw [heq])
  · -- the new rows have hashes that the consumption does not ask for
    have hmem := mem_codes_of_mem hrow (show row.2.userID = userID by rw [heq])
    rw [hfilled.codes_view, List.mem_toFinset, heq] at hmem
    refine absurd ?_ (hold.2 s (List.mem_of_getElem? hs) hmove.not_over)
    rw [hreplace]
    exact hmem

theorem Inv.pending_move (h : Inv userID heap₀ c log) (hs : c.sessions[i]? = some s)
    (hmove : Moves client c i s s' heap fresh) (heffect : Effect userID c log i s s' heap log')
    (ht : (c.sessions.set i s')[j]? = some t) (hopen : t.stage.over = false)
    (hhash : hash ∈ t.call.hashes) : hash ∉ codes heap userID := by
  intro hmem
  rcases getElem?_set_cases ht with ⟨rfl, rfl⟩ | ⟨hne, ht'⟩
  · rw [hmove.heap_of_open hopen] at hmem
    rw [hmove.call] at hhash
    exact h.pending s (List.mem_of_getElem? hs) hmove.not_over hash hhash hmem
  · rcases heffect.mem_codes_cases hmem with hmem | hbrought
    · exact h.pending t (List.mem_of_getElem? ht') hopen hash hhash hmem
    · exact h.hashesApart hne ht' hs hash hhash hbrought

theorem Inv.alone_move (h : Inv userID heap₀ c log) (hs : c.sessions[i]? = some s)
    (hmove : Moves client c i s s' heap fresh)
    (hspaced : s.call.isReplace → pastClear s'.stage → pastClear s.stage = false →
      ∀ t ∈ c.sessions, t.call.isReplace → pastClear t.stage = false)
    {k : Nat} {u : Sess} (hne : j ≠ k) (ht : (c.sessions.set i s')[j]? = some t)
    (hu : (c.sessions.set i s')[k]? = some u) (hr : t.call.isReplace) (hr' : u.call.isReplace)
    (hpast : pastClear t.stage) : pastClear u.stage = false := by
  -- whoever is past the start was before, or has just passed it with all the others before it
  rcases getElem?_set_cases ht with ⟨rfl, rfl⟩ | ⟨_, ht'⟩
  · rcases getElem?_set_cases hu with ⟨rfl, rfl⟩ | ⟨_, hu'⟩
    · exact absurd rfl hne
    · rw [hmove.call] at hr
      cases hbefore : pastClear s.stage with
      | true => exact h.alone hne hs hu' hr hr' hbefore
      | false => exact hspaced hr hpast hbefore u (List.mem_of_getElem? hu') hr'
  · rcases getElem?_set_cases hu with ⟨rfl, rfl⟩ | ⟨_, hu'⟩
    · rw [hmove.call] at hr'
      have hbefore := h.alone hne ht' hs hr hr' hpast
      by_contra hpast'
      have hlate := hspaced hr' (by simpa using hpast') hbefore t (List.mem_of_getElem? ht') hr
      rw [hpast] at hlate
      cases hlate
    · exact h.alone hne ht' hu' hr hr' hpast

theorem Inv.logged_move (h : Inv userID heap₀ c log) (hs : c.sessions[i]? = some s)
    (hmove : Moves client c i s s' heap fresh) (heffect : Effect userID c log i s s' heap log')
    {e : ReadCommitted.Entry Call Out} (he : e ∈ log') :
    ∃ t, (c.sessions.set i s')[e.session]? = some t ∧ t.call = e.call ∧
      (t.stage = .returned (some e.out) ∨
        e.out = .consumed (.error .codeNotFound) ∧ ∃ hash, t.call = .consumeCode userID hash) := by
  have hself := List.getElem?_set_self (a := s') (List.getElem?_eq_some_iff.mp hs).1
  by_cases hold : e ∈ log
  · obtain ⟨t, ht, hcall, hstatus⟩ := h.logged e hold
    by_cases hei : e.session = i
    · rw [hei] at ht ⊢
      obtain rfl := Option.some.inj (hs.symm.trans ht)
      refine ⟨s', hself, hmove.call.trans hcall, ?_⟩
      rcases hstatus with hstage | ⟨hout, hash, hconsume⟩
      · have hopen := hmove.not_over
        rw [hstage] at hopen
        cases hopen
      · exact Or.inr ⟨hout, hash, hmove.call.trans hconsume⟩
    · exact ⟨t, (List.getElem?_set_ne fun heq => hei heq.symm).trans ht, hcall, hstatus⟩
  · obtain ⟨hei, hcall⟩ := (heffect.mem_cases he).resolve_left hold
    rw [hei]
    refine ⟨s', hself, hmove.call.trans hcall.symm, ?_⟩
    rcases heffect.out he hold with hstage | ⟨hout, hash, hconsume⟩
    · exact Or.inl hstage
    · exact Or.inr ⟨hout, hash, hmove.call.trans hconsume⟩

/-- A step that keeps the replacements apart keeps all that is known. -/
theorem Inv.move (h : Inv userID heap₀ c log) (hs : c.sessions[i]? = some s)
    (hmove : Moves client c i s s' heap fresh)
    (hspaced : s.call.isReplace → pastClear s'.stage → pastClear s.stage = false →
      ∀ t ∈ c.sessions, t.call.isReplace → pastClear t.stage = false) :
    ∃ log', Inv userID heap₀ ⟨heap, fresh, c.sessions.set i s'⟩ log' := by
  obtain ⟨log', heffect, hreplacing, hconsuming, hclearing, hout⟩ := h.effect hs hmove
  have hbefore : ∀ t ∈ c.sessions.set i s', ∃ t₀ ∈ c.sessions, t.call = t₀.call := by
    intro t ht
    obtain ⟨j, hj⟩ := List.mem_iff_getElem?.mp ht
    obtain ⟨t₀, ht₀, hcall, -⟩ := hmove.before hs hj
    exact ⟨t₀, List.mem_of_getElem? ht₀, hcall⟩
  refine ⟨log', ?_⟩
  constructor
  case sound => exact h.sound.move hs hmove
  case mine =>
    intro t ht
    obtain ⟨t₀, ht₀, hcall⟩ := hbefore t ht
    rw [hcall]
    exact h.mine t₀ ht₀
  case unique => exact heffect.unique h.unique (h.distinct s (List.mem_of_getElem? hs))
  case distinct =>
    intro t ht
    obtain ⟨t₀, ht₀, hcall⟩ := hbefore t ht
    rw [hcall]
    exact h.distinct t₀ ht₀
  case hashesApart =>
    intro j k t u hne ht hu
    obtain ⟨t₀, ht₀, hcall, -⟩ := hmove.before hs ht
    obtain ⟨u₀, hu₀, hcall', -⟩ := hmove.before hs hu
    rw [hcall, hcall']
    exact h.hashesApart hne ht₀ hu₀
  case pending =>
    intro t ht hopen hash hhash
    obtain ⟨j, hj⟩ := List.mem_iff_getElem?.mp ht
    exact h.pending_move hs hmove heffect hj hopen hhash
  case origin =>
    intro hash hmem
    have hused : hash ∈ codes heap₀ userID ∨ ∃ t ∈ c.sessions, hash ∈ t.call.hashes := by
      rcases heffect.mem_codes_cases hmem with hmem | hbrought
      · exact h.origin hash hmem
      · exact Or.inr ⟨s, List.mem_of_getElem? hs, hbrought⟩
    rcases hused with hused | ⟨t, ht, hhash⟩
    · exact Or.inl hused
    · obtain ⟨j, hj⟩ := List.mem_iff_getElem?.mp ht
      obtain ⟨t', ht', hcall⟩ := hmove.after hs hj
      exact Or.inr ⟨t', List.mem_of_getElem? ht', hcall ▸ hhash⟩
  case alone => exact fun hne ht hu hr hr' => h.alone_move hs hmove hspaced hne ht hu hr hr'
  case newborn => exact fun ht hmem => h.newborn_move hs hmove ht hmem
  case unseen => exact fun hne ht hu hmem => h.unseen_move hs hmove hne ht hu hmem
  case replacing =>
    intro j t hashes ht hcall
    rcases getElem?_set_cases ht with ⟨rfl, rfl⟩ | ⟨hne, ht'⟩
    · exact hreplacing hashes (hmove.call.symm.trans hcall)
    · exact h.replacing_frame hs heffect hne ht' hcall
  case consuming =>
    intro j t hash ht hcall
    rcases getElem?_set_cases ht with ⟨rfl, rfl⟩ | ⟨hne, ht'⟩
    · exact hconsuming hash (hmove.call.symm.trans hcall)
    · exact h.consuming_frame hs hmove heffect hne ht' hcall
  case clearing =>
    intro j t ht hcall
    rcases getElem?_set_cases ht with ⟨rfl, rfl⟩ | ⟨hne, ht'⟩
    · exact hclearing (hmove.call.symm.trans hcall)
    · exact h.clearing_frame hs hmove heffect hne ht' hcall
  case serial => exact heffect.serial h.unique h.serial
  case nodup => exact heffect.nodup h.nodup (h.unlogged hs hmove.not_over)
  case returned =>
    intro j t out ht hstage
    rcases getElem?_set_cases ht with ⟨rfl, rfl⟩ | ⟨_, ht'⟩
    · exact hout out hstage
    · exact heffect.mem_of_mem (h.returned ht' hstage)
  case logged => exact fun e he => h.logged_move hs hmove heffect he

/-- A replacement passes the start of its `DELETE` with a statement of its own. -/
theorem atClear_of_moves (hcall : s.call = .replaceCodes userID hashes)
    (hmove : Moves client c i s s' heap fresh) (hpast : pastClear s'.stage)
    (hbefore : pastClear s.stage = false) : atClear s.stage := by
  rcases hmove.follows with ⟨rfl, -, -⟩ | hfollows
  · cases hpast
  · match hstage : s.stage with
    | .invoked =>
      rw [hstage] at hfollows
      obtain ⟨rfl, -, -⟩ := hfollows
      simp only [client, hcall] at hpast
      cases hpast
    | .returned _ =>
      rw [hstage] at hfollows
      exact hfollows.elim
    | .ready (.exec (.modify _ _) _) => rfl
    | .ready (.commit _) | .ready (.rollback _) | .ready .abort | .ready (.exec (.lock _) _)
    | .ready (.exec (.select _) _) | .ready (.exec (.insert _ _ _) _) | .scanning _ _ _ _ _
    | .placing _ _ _ _ =>
      rw [hstage] at hbefore
      cases hbefore

theorem Inv.steps {c' : Cfg} {a : Action Call} (h : Inv userID heap₀ c log)
    (horderly : Orderly userID heap₀ c a) (hstep : Steps client c a c') :
    ∃ log', Inv userID heap₀ c' log' := by
  cases hstep with
  | invoke call => exact ⟨log, h.invoke horderly.1⟩
  | @move a i s s' heap fresh ha hs hmove hkind =>
    refine h.move hs hmove fun hreplace hpast hbefore => ?_
    have hat : atClear s.stage := by
      cases hcall : s.call with
      | replaceCodes u hashes => exact atClear_of_moves hcall hmove hpast hbefore
      | consumeCode _ _ | deleteCodes _ => rw [hcall] at hreplace; cases hreplace
    rcases hkind with rfl | ⟨p, set, left, hit, next, hstage⟩ | rfl
    · exact horderly.2 s hs hreplace hat
    · rw [hstage] at hat
      cases hat
    · cases hpast

theorem inv_run {trace : List (Moment CodeRow LockKey Call Out)} (hold : ∀ t ∈ heap₀, t.1 < fresh)
    (hunique : UniqueCodes heap₀ userID)
    (hrun : ReadCommitted.Run client (Orderly userID heap₀) (.start heap₀ fresh) trace c) :
    ∃ log, Inv userID heap₀ c log :=
  hrun.invariant (I := fun _ c => ∃ log, Inv userID heap₀ c log) ⟨[], inv_start hold hunique⟩
    fun _ _ _ _ ⟨_, hinv⟩ horderly hstep => hinv.steps horderly hstep

/-- The log without the consumptions that have not returned what they found. -/
theorem Inv.linearizable (h : Inv userID heap₀ c log) : Linearizable userID heap₀ c := by
  let keep : ReadCommitted.Entry Call Out → Bool := fun e => c.returned e.session = some (e.call, some e.out)
  refine ⟨log.filter keep, h.serial.filter keep ?_, ?_, ?_⟩
  · intro e he hdrop codes hout
    obtain ⟨s, hs, hcall, hstage | ⟨hnone, hash, hconsume⟩⟩ := h.logged e he
    · have hreturned := ReadCommitted.Config.returned_eq_some.mpr ⟨s, hs, hcall, hstage⟩
      simp [keep, hreturned] at hdrop
    · rw [hcall] at hconsume
      rw [hconsume, hnone] at hout
      rw [hconsume]
      by_cases hmem : hash ∈ codes
      · simp [execute, hmem] at hout
      · simp [execute, hmem]
  · exact (List.filter_sublist.map ReadCommitted.Entry.session).nodup h.nodup
  · intro i call out
    rw [List.mem_filter]
    constructor
    · rintro ⟨-, hkeep⟩
      exact of_decide_eq_true hkeep
    · intro hreturned
      obtain ⟨s, hs, rfl, hstage⟩ := ReadCommitted.Config.returned_eq_some.mp hreturned
      exact ⟨h.returned hs hstage, decide_eq_true hreturned⟩

/-- While no replacement starts its `DELETE` during another one, the calls for a user are
    those of some order, whatever else they do side by side. -/
theorem linearizable_of_orderly {userID : UUID} {heap₀ : Heap CodeRow} {fresh : Nat}
    {trace : List (Moment CodeRow LockKey Call Out)} {c : Cfg}
    (hold : ∀ t ∈ heap₀, t.1 < fresh) (hunique : UniqueCodes heap₀ userID)
    (hrun : ReadCommitted.Run client (Orderly userID heap₀) (.start heap₀ fresh) trace c) :
    Linearizable userID heap₀ c := by
  obtain ⟨log, hinv⟩ := inv_run hold hunique hrun
  exact hinv.linearizable

/-! ## Runs of a user who has one code -/

instance (userID : UUID) (heap₀ : Heap CodeRow) (c : Cfg) :
    (a : Action Call) → Decidable (Issued userID heap₀ c a)
  | .invoke _ => inferInstanceAs (Decidable (_ ∧ _ ∧ _))
  | .move _ | .take _ _ | .fail _ => .isTrue trivial

instance (c : Cfg) : (a : Action Call) → Decidable (Spaced c a)
  | .move i =>
    match hs : c.sessions[i]? with
    | none => .isTrue fun s hs' => by cases hs.symm.trans hs'
    | some s =>
      decidable_of_iff (s.call.isReplace → atClear s.stage →
          ∀ t ∈ c.sessions, t.call.isReplace → pastClear t.stage = false) (by
        simp only [Spaced, hs, Option.mem_some_iff, forall_eq'])
  | .invoke _ | .take _ _ | .fail _ => .isTrue trivial

instance (userID : UUID) (heap₀ : Heap CodeRow) (c : Cfg) (a : Action Call) :
    Decidable (Orderly userID heap₀ c a) :=
  inferInstanceAs (Decidable (_ ∧ _))

def oneCode : Heap CodeRow := ⟨[(0, ⟨7#128, "old"⟩)], by decide⟩

theorem oneCode_unique : UniqueCodes oneCode 7#128 := by
  intro t ht t' ht' _ _
  rw [List.mem_singleton.mp ht, List.mem_singleton.mp ht']

/-- The second `DELETE` starts before the first replacement commits, and waits for the row
    that the first has ended. -/
def twoReplacements : List (Action Call) :=
  [.invoke (.replaceCodes 7#128 ["a"]), .invoke (.replaceCodes 7#128 ["b"]),
    .move 0, .move 0, .take 0 0, .move 1, .move 1, .move 0, .move 0, .move 0, .move 0,
    .take 1 0, .move 1, .move 1, .move 1, .move 1]

theorem twoReplacements_run :
    ∃ trace c, ReadCommitted.Run client (Issued 7#128 oneCode) (.start oneCode 1) trace c ∧
      c.returned 0 = some (.replaceCodes 7#128 ["a"], some .replaced) ∧
        c.returned 1 = some (.replaceCodes 7#128 ["b"], some .replaced) ∧
        c.sessions.length = 2 ∧ codes c.heap 7#128 = {"a", "b"} :=
  Run.computed twoReplacements (by decide +kernel)

/-- Both sets of codes are valid afterwards. -/
theorem overlapping_replacements_mix :
    ∃ trace c, ReadCommitted.Run client (Issued 7#128 oneCode) (.start oneCode 1) trace c ∧
      c.returned 0 = some (.replaceCodes 7#128 ["a"], some .replaced) ∧
        c.returned 1 = some (.replaceCodes 7#128 ["b"], some .replaced) ∧
        codes c.heap 7#128 = {"a", "b"} ∧ ¬ Linearizable 7#128 oneCode c := by
  obtain ⟨trace, c, hrun, hfirst, hsecond, hlength, hcodes⟩ := twoReplacements_run
  refine ⟨trace, c, hrun, hfirst, hsecond, hcodes, ?_⟩
  rintro ⟨log, hserial, hrecords⟩
  -- the last of the two calls in the order decides
  rw [hcodes] at hserial
  rcases Records.eq_pair hrecords hlength hfirst hsecond with rfl | rfl
  · have hset : ["b"].toFinset = {"a", "b"} := hserial.2.2
    exact absurd hset (by decide)
  · have hset : ["a"].toFinset = {"a", "b"} := hserial.2.2
    exact absurd hset (by decide)

/-- A code is used while its set is replaced: the replacement waits. Another one has begun
    too, and starts its `DELETE` when the first is over. -/
def usedWhileReplaced : List (Action Call) :=
  [.invoke (.replaceCodes 7#128 ["a"]), .invoke (.consumeCode 7#128 "old"),
    .invoke (.replaceCodes 7#128 ["b"]), .move 0, .move 2, .move 1, .move 1,
    .move 1, .take 1 0, .move 0, .move 1, .move 1, .move 1, .take 0 0, .move 0, .move 0, .move 0, .move 0,
    .move 2, .take 2 1, .move 2, .move 2, .move 2, .move 2]

theorem usedWhileReplaced_run :
    ∃ trace c, ReadCommitted.Run client (Orderly 7#128 oneCode) (.start oneCode 1) trace c ∧
      c.returned 0 = some (.replaceCodes 7#128 ["a"], some .replaced) ∧
        c.returned 1 = some (.consumeCode 7#128 "old", some (.consumed (.ok 0))) ∧
        c.returned 2 = some (.replaceCodes 7#128 ["b"], some .replaced) ∧
        codes c.heap 7#128 = {"b"} :=
  Run.computed usedWhileReplaced (by decide +kernel)

theorem linearizable_of_orderly_usedWhileReplaced :
    ∃ trace c, ReadCommitted.Run client (Orderly 7#128 oneCode) (.start oneCode 1) trace c ∧
      c.returned 0 = some (.replaceCodes 7#128 ["a"], some .replaced) ∧
        c.returned 1 = some (.consumeCode 7#128 "old", some (.consumed (.ok 0))) ∧
        c.returned 2 = some (.replaceCodes 7#128 ["b"], some .replaced) ∧
        codes c.heap 7#128 = {"b"} ∧ Linearizable 7#128 oneCode c := by
  obtain ⟨trace, c, hrun, hfirst, hsecond, hthird, hcodes⟩ := usedWhileReplaced_run
  exact ⟨trace, c, hrun, hfirst, hsecond, hthird, hcodes,
    linearizable_of_orderly (by decide) oneCode_unique hrun⟩

end Sulis.Postgres.Recovery
