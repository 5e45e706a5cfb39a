-- SUMMARY: What a transaction comes to when nothing else runs, and the rules to reason about it statement by statement.
import Sulis.ReadCommitted.Run

/-!
# A transaction alone

`Alone` runs a transaction to its end with no other session in between. The rules take
its statements one after the other, from what the transaction sees to what comes next.
-/

namespace ReadCommitted

open Store

variable {ρ κ α : Type}

/-- From a stage, with what is committed and what the transaction sees: what it can return,
    and what is committed then. -/
inductive Alone (heap : Heap ρ) : Heap ρ → Stage ρ κ α → α → Heap ρ → Prop
  | commit {view : Heap ρ} {out : α} : Alone heap view (.ready (.commit out)) out view
  | rollback {view : Heap ρ} {out : α} : Alone heap view (.ready (.rollback out)) out heap
  | select {view heap' : Heap ρ} {out : α} {p : ρ → Bool} {next : List ρ → Script ρ κ α}
      (h : Alone heap view (.ready (next (view.visible.filter p))) out heap') :
      Alone heap view (.ready (.exec (.select p) next)) out heap'
  | scan {view heap' : Heap ρ} {out : α} {p : List ρ → ρ → Bool} {set : ρ → Option ρ}
      {next : List ρ → Script ρ κ α}
      (h : Alone heap view
        (.scanning (p view.visible) set (view.matching (p view.visible)) [] next) out heap') :
      Alone heap view (.ready (.exec (.modify p set) next)) out heap'
  | hit {view heap' : Heap ρ} {out : α} {p : ρ → Bool} {set : ρ → Option ρ} {todo : List Nat}
      {hit : List ρ} {next : List ρ → Script ρ κ α} {id : Nat} {r : ρ}
      (hid : id ∈ todo) (hrow : (id, r) ∈ view) (hp : p r)
      (h : Alone heap (view.write (id, set r)) (.scanning p set (todo.erase id) (hit ++ [r]) next)
        out heap') :
      Alone heap view (.scanning p set todo hit next) out heap'
  | miss {view heap' : Heap ρ} {out : α} {p : ρ → Bool} {set : ρ → Option ρ} {todo : List Nat}
      {hit : List ρ} {next : List ρ → Script ρ κ α} {id : Nat}
      (hid : id ∈ todo) (hrow : ∀ r, (id, r) ∈ view → ¬ p r)
      (h : Alone heap view (.scanning p set (todo.erase id) hit next) out heap') :
      Alone heap view (.scanning p set todo hit next) out heap'
  | scanned {view heap' : Heap ρ} {out : α} {p : ρ → Bool} {set : ρ → Option ρ} {hit : List ρ}
      {next : List ρ → Script ρ κ α} (h : Alone heap view (.ready (next hit)) out heap') :
      Alone heap view (.scanning p set [] hit next) out heap'
  | skip {view heap' : Heap ρ} {out : α} {new : List ρ → Option ρ} {target : ρ → ρ → Bool}
      {set : ρ → ρ → ρ} {next : List ρ → Script ρ κ α} (hnew : new view.visible = none)
      (h : Alone heap view (.ready (next [])) out heap') :
      Alone heap view (.ready (.exec (.insert new target set) next)) out heap'
  | insert {view heap' : Heap ρ} {out : α} {new : List ρ → Option ρ} {target : ρ → ρ → Bool}
      {set : ρ → ρ → ρ} {next : List ρ → Script ρ κ α} {row : ρ}
      (hnew : new view.visible = some row)
      (h : Alone heap view (.placing row (target row) (fun r => set r row) next) out heap') :
      Alone heap view (.ready (.exec (.insert new target set) next)) out heap'
  | place {view heap' : Heap ρ} {out : α} {row : ρ} {target : ρ → Bool} {set : ρ → ρ}
      {next : List ρ → Script ρ κ α} {fresh id : Nat} {new : ρ} (hfresh : ∀ r, (fresh, r) ∉ view)
      (hlanding : landing view fresh row target set = (id, new))
      (h : Alone heap (view.write (id, some new)) (.ready (next [new])) out heap') :
      Alone heap view (.placing row target set next) out heap'

namespace Alone

variable {heap view heap' : Heap ρ} {out : α} {next : List ρ → Script ρ κ α}

theorem of_commit {out' : α} (h : Alone heap view (.ready (.commit out') : Stage ρ κ α) out heap') :
    out = out' ∧ heap' = view := by
  cases h
  exact ⟨rfl, rfl⟩

theorem of_rollback {out' : α} (h : Alone heap view (.ready (.rollback out') : Stage ρ κ α) out heap') :
    out = out' ∧ heap' = heap := by
  cases h
  exact ⟨rfl, rfl⟩

theorem not_abort (h : Alone heap view (.ready .abort : Stage ρ κ α) out heap') : False := by
  cases h

theorem of_select {p : ρ → Bool}
    (h : Alone heap view (.ready (.exec (.select p) next)) out heap') :
    Alone heap view (.ready (next (view.visible.filter p))) out heap' := by
  cases h
  assumption

/-! ## Rows that there is at most one of -/

end Alone

/-- The row that passes a test, if there is one; there is no other. -/
def Heap.Only (h : Heap ρ) (p : ρ → Bool) : Option ρ → Prop
  | none => ∀ t ∈ h, ¬ p t.2
  | some r => p r ∧ ∃ id, (id, r) ∈ h ∧ ∀ t ∈ h, p t.2 → t.1 = id

namespace Heap.Only

variable {h h' : Heap ρ} {p q : ρ → Bool} {o o' : Option ρ} {id : Nat} {r : ρ}

theorem filter_visible (honly : h.Only p o) : h.visible.filter p = o.toList := by
  cases o with
  | none =>
    refine List.filter_eq_nil_iff.mpr fun r hr => ?_
    obtain ⟨id, hmem⟩ := Heap.mem_visible.mp hr
    exact honly _ hmem
  | some r =>
    obtain ⟨hp, id, hmem, hone⟩ := honly
    have hrows : h.rows.filter (fun t => p t.2) = [(id, r)] := by
      have hnodup : (h.rows.filter fun t => p t.2).Nodup := List.Nodup.of_map Prod.fst
        (Heap.nodup_matching h p)
      refine List.perm_singleton.mp ((List.perm_ext_iff_of_nodup hnodup (List.nodup_singleton _)).mpr
        fun t => ?_)
      rw [List.mem_filter, List.mem_singleton]
      constructor
      · rintro ⟨ht, hpt⟩
        exact Table.eq_of_mem ht hmem (hone t ht hpt)
      · rintro rfl
        exact ⟨hmem, hp⟩
    rw [Heap.visible, List.filter_map]
    change List.map Prod.snd (h.rows.filter fun t => p t.2) = _
    rw [hrows]
    rfl

/-- Only the rows that pass the test matter. -/
theorem congr (honly : h.Only p o) (hsame : ∀ id r, p r → ((id, r) ∈ h' ↔ (id, r) ∈ h)) :
    h'.Only p o := by
  cases o with
  | none => exact fun t ht hpt => honly t ((hsame t.1 t.2 hpt).mp ht) hpt
  | some r =>
    obtain ⟨hp, id, hmem, hone⟩ := honly
    exact ⟨hp, id, (hsame id r hp).mpr hmem, fun t ht hpt => hone t ((hsame t.1 t.2 hpt).mp ht) hpt⟩

theorem eq_of_mem (honly : h.Only p o) (hmem : (id, r) ∈ h) (hp : p r) : o = some r := by
  cases o with
  | none => exact absurd hp (honly _ hmem)
  | some r' =>
    obtain ⟨-, id', hmem', hone⟩ := honly
    obtain rfl := hone _ hmem hp
    rw [(Prod.mk.inj (Table.eq_of_mem hmem hmem' rfl)).2]

/-- A write to the one tuple that may pass the test. -/
theorem write_same (hone : ∀ t ∈ h, p t.2 → t.1 = id) (hp : ∀ r, o = some r → p r) :
    (h.write (id, o)).Only p o := by
  cases o with
  | none =>
    rintro ⟨j, r⟩ ht hpt
    obtain ⟨-, hnone⟩ | ⟨hne, hmem⟩ := Heap.mem_write.mp ht
    · cases hnone
    · exact hne (hone _ hmem hpt)
  | some r =>
    refine ⟨hp r rfl, id, Heap.mem_write.mpr (Or.inl ⟨rfl, rfl⟩), ?_⟩
    rintro ⟨j, r'⟩ ht hpt
    obtain ⟨rfl, -⟩ | ⟨hne, hmem⟩ := Heap.mem_write.mp ht
    · rfl
    · exact hone _ hmem hpt

/-- A write to a tuple that does not pass the test, before or after. -/
theorem write_other (honly : h.Only p o) (hold : ∀ r, (id, r) ∈ h → ¬ p r)
    (hnew : ∀ r, o' = some r → ¬ p r) : (h.write (id, o')).Only p o := by
  refine honly.congr fun j r hr => ?_
  rw [Heap.mem_write]
  constructor
  · rintro (⟨-, rfl⟩ | ⟨-, hmem⟩)
    · exact absurd hr (hnew r rfl)
    · exact hmem
  · intro hmem
    refine Or.inr ⟨?_, hmem⟩
    rintro rfl
    exact hold r hmem hr

end Heap.Only

namespace Alone

variable {heap view heap' : Heap ρ} {out : α} {next : List ρ → Script ρ κ α}
variable {p q : ρ → Bool} {o : Option ρ}

/-- An `UPDATE` or a `DELETE` that can affect one row only, and affects none. -/
theorem of_modify_none {set : ρ → Option ρ}
    (h : Alone heap view (.ready (.exec (.modify (fun _ => q) set) next)) out heap')
    (honly : view.Only p o) (hq : ∀ r, q r → p r) (hno : ∀ r, o = some r → ¬ q r) :
    Alone heap view (.ready (next [])) out heap' := by
  have hempty : view.matching q = [] := by
    refine List.eq_nil_iff_forall_not_mem.mpr fun id hid => ?_
    obtain ⟨r, hr, hqr⟩ := Heap.mem_matching.mp hid
    exact hno r (honly.eq_of_mem hr (hq r hqr)) hqr
  cases h with
  | scan h =>
    rw [hempty] at h
    cases h with
    | hit hid => cases hid
    | miss hid => cases hid
    | scanned h => exact h

/-- One that affects the row there is. -/
theorem of_modify_some {set : ρ → Option ρ} {r : ρ}
    (h : Alone heap view (.ready (.exec (.modify (fun _ => q) set) next)) out heap')
    (honly : view.Only p (some r)) (hq : ∀ r, q r → p r) (hr : q r) :
    ∃ id, (id, r) ∈ view ∧ (∀ t ∈ view, p t.2 → t.1 = id) ∧
      Alone heap (view.write (id, set r)) (.ready (next [r])) out heap' := by
  obtain ⟨hp, id, hmem, hone⟩ := honly
  refine ⟨id, hmem, hone, ?_⟩
  cases h with
  | scan h =>
    rw [Heap.matching_eq_singleton hmem hr fun t ht hqt => hone t ht (hq _ hqt)] at h
    cases h with
    | hit hid hrow _ h =>
      obtain rfl := List.mem_singleton.mp hid
      obtain rfl := (Prod.mk.inj (Table.eq_of_mem hrow hmem rfl)).2
      rw [List.erase_cons_head] at h
      cases h with
      | hit hid => cases hid
      | miss hid => cases hid
      | scanned h => exact h
    | miss hid hrow =>
      obtain rfl := List.mem_singleton.mp hid
      exact absurd hr (hrow r hmem)

section

variable {new : List ρ → Option ρ} {target : ρ → ρ → Bool} {set : ρ → ρ → ρ}

/-- An `INSERT` of nothing. -/
theorem of_insert_none (h : Alone heap view (.ready (.exec (.insert new target set) next)) out heap')
    (hnew : new view.visible = none) : Alone heap view (.ready (next [])) out heap' := by
  cases h with
  | skip _ h => exact h
  | insert hnew' => cases hnew.symm.trans hnew'

/-- An `INSERT` that replaces the row in its way, if there is one. -/
theorem of_upsert {row : ρ} (h : Alone heap view (.ready (.exec (.insert new target set) next)) out heap')
    (hnew : new view.visible = some row) (htarget : ∀ r, target row r ↔ p r)
    (hset : ∀ r, p r → set r row = row) (honly : view.Only p o) :
    ∃ id, (∀ t ∈ view, p t.2 → t.1 = id) ∧ (∀ r, (id, r) ∈ view → p r) ∧
      Alone heap (view.write (id, some row)) (.ready (next [row])) out heap' := by
  cases h with
  | skip hnew' => cases hnew.symm.trans hnew'
  | @insert _ _ _ _ _ _ _ row' hnew' h =>
    obtain rfl := Option.some.inj (hnew.symm.trans hnew')
    cases h with
    | @place _ _ _ _ _ _ _ fresh tid _ hfresh hlanding h =>
      rcases landing_cases view fresh row (target row) (fun r => set r row) with
        ⟨⟨tid', r⟩, ht, hhit, heq⟩ | ⟨hno, heq⟩
      · have hp := (htarget r).mp hhit
        obtain ⟨rfl, rfl⟩ := Prod.mk.inj (hlanding.symm.trans heq)
        rw [hset r hp] at h
        obtain rfl := honly.eq_of_mem ht hp
        obtain ⟨-, tid'', hmem', hone⟩ := honly
        obtain rfl : tid = tid'' := hone _ ht hp
        refine ⟨tid, hone, fun r' hr' => ?_, h⟩
        obtain rfl := (Prod.mk.inj (Table.eq_of_mem hr' ht rfl)).2
        exact hp
      · obtain ⟨rfl, rfl⟩ := Prod.mk.inj (hlanding.symm.trans heq)
        refine ⟨_, fun t ht hpt => absurd ((htarget t.2).mpr hpt) (hno t ht), ?_, h⟩
        exact fun r hr => absurd hr (hfresh r)

end

end Alone

end ReadCommitted
