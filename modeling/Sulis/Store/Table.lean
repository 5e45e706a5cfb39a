-- SUMMARY: Finite tables of rows with a unique key, the shape of a Go map from IDs to rows.
import Mathlib.Data.List.Basic
import Mathlib.Data.List.Nodup
import Mathlib.Data.List.Permutation

/-!
# Keyed tables

A table is a list of rows in which no two share a key. The order of the rows
carries no meaning. A loop that stops at the first row passing a test may stop at
any of them, since a Go map is iterated in no fixed order: `pick` takes the
order as an argument, and so does `list`, which collects all of them.
-/

namespace Store

variable {κ ρ : Type}

structure Table (key : ρ → κ) where
  rows : List ρ
  nodup : (rows.map key).Nodup

namespace Table

variable {key : ρ → κ}

def empty : Table key := ⟨[], List.nodup_nil⟩

instance : Membership ρ (Table key) := ⟨fun t r => r ∈ t.rows⟩

instance (t : Table key) (r : ρ) [DecidableEq ρ] : Decidable (r ∈ t) :=
  inferInstanceAs (Decidable (r ∈ t.rows))

theorem mem_def {t : Table key} {r : ρ} : r ∈ t ↔ r ∈ t.rows := Iff.rfl

/-- A row satisfying a test: the one that comes first in iteration order `order`. -/
def pick (t : Table key) (p : ρ → Bool) (order : Nat) : Option ρ :=
  let found := t.rows.filter p
  found[order % found.length]?

/-- The rows satisfying a test, in iteration order `order`. -/
def list (t : Table key) (p : ρ → Bool) (order : Nat) : List ρ :=
  let orders := (t.rows.filter p).permutations'
  orders[order % orders.length]?.getD []

/-- Keep the rows that pass a test. -/
def filter (t : Table key) (p : ρ → Bool) : Table key :=
  ⟨t.rows.filter p, (List.filter_sublist.map key).nodup t.nodup⟩

@[simp] theorem not_mem_empty (r : ρ) : ¬ r ∈ (empty : Table key) := by
  simp [mem_def, empty]

@[simp] theorem mem_filter {t : Table key} {p : ρ → Bool} {r : ρ} :
    r ∈ t.filter p ↔ r ∈ t ∧ p r := by
  simp [mem_def, filter]

theorem eq_of_mem {t : Table key} {r r' : ρ} (hr : r ∈ t) (hr' : r' ∈ t) (h : key r = key r') :
    r = r' :=
  List.inj_on_of_nodup_map t.nodup hr hr' h

theorem pick_eq_some {t : Table key} {p : ρ → Bool} {order : Nat} {r : ρ}
    (h : t.pick p order = some r) : r ∈ t ∧ p r :=
  List.mem_filter.mp (List.mem_of_getElem? h)

theorem pick_eq_none {t : Table key} {p : ρ → Bool} {order : Nat} :
    t.pick p order = none ↔ ∀ r ∈ t, ¬ p r := by
  simp only [pick, List.getElem?_eq_none_iff]
  constructor
  · intro h r hr hp
    have hpos : 0 < (t.rows.filter p).length :=
      List.length_pos_of_mem (List.mem_filter.mpr ⟨hr, hp⟩)
    exact absurd (Nat.mod_lt order hpos) (Nat.not_lt.mpr h)
  · intro h
    have hnil : t.rows.filter p = [] := List.filter_eq_nil_iff.mpr h
    simp [hnil]

/-- Where at most one row passes the test, the order does not matter. -/
theorem pick_eq_of_unique {t : Table key} {p : ρ → Bool}
    (hunique : ∀ r ∈ t, ∀ r' ∈ t, p r → p r' → r = r') (order order' : Nat) :
    t.pick p order = t.pick p order' := by
  cases hpick : t.pick p order with
  | none => exact (pick_eq_none.mpr (pick_eq_none.mp hpick)).symm
  | some r =>
    obtain ⟨hr, hp⟩ := pick_eq_some hpick
    cases hpick' : t.pick p order' with
    | none => exact absurd hp (pick_eq_none.mp hpick' r hr)
    | some r' =>
      obtain ⟨hr', hp'⟩ := pick_eq_some hpick'
      rw [hunique r hr r' hr' hp hp']

theorem mem_list {t : Table key} {p : ρ → Bool} {order : Nat} {r : ρ}
    (h : r ∈ t.list p order) : r ∈ t ∧ p r := by
  simp only [list] at h
  cases ho : (t.rows.filter p).permutations'[order % (t.rows.filter p).permutations'.length]? with
  | none => simp [ho] at h
  | some l =>
    rw [ho, Option.getD_some] at h
    have hperm := List.mem_permutations'.mp (List.mem_of_getElem? ho)
    exact List.mem_filter.mp (hperm.mem_iff.mp h)

/-- An iteration visits each row once. -/
theorem list_perm (t : Table key) (p : ρ → Bool) (order : Nat) : (t.list p order).Perm (t.rows.filter p) := by
  have hpos : 0 < (t.rows.filter p).permutations'.length :=
    List.length_pos_of_mem (List.mem_permutations'.mpr (List.Perm.refl _))
  have hlt := Nat.mod_lt order hpos
  rw [list, List.getElem?_eq_getElem hlt, Option.getD_some]
  exact List.mem_permutations'.mp (List.getElem_mem hlt)

variable [DecidableEq κ]

/-- The row stored under a key. -/
def get? (t : Table key) (k : κ) : Option ρ := t.rows.find? (fun r => key r = k)

/-- Remove the row stored under a key, if there is one. -/
def erase (t : Table key) (k : κ) : Table key := t.filter (fun r => key r ≠ k)

/-- Store a row under its key, replacing what was there. -/
def put (t : Table key) (r : ρ) : Table key where
  rows := r :: (t.erase (key r)).rows
  nodup := by
    simp only [List.map_cons, List.nodup_cons]
    refine ⟨?_, (t.erase (key r)).nodup⟩
    simp [erase, filter]

@[simp] theorem mem_erase {t : Table key} {k : κ} {r : ρ} :
    r ∈ t.erase k ↔ r ∈ t ∧ key r ≠ k := by
  simp [erase]

@[simp] theorem mem_put {t : Table key} {r r' : ρ} :
    r' ∈ t.put r ↔ r' = r ∨ r' ∈ t ∧ key r' ≠ key r := by
  rw [mem_def, put, List.mem_cons, ← mem_def, mem_erase]

theorem get?_eq_some {t : Table key} {k : κ} {r : ρ} :
    t.get? k = some r ↔ r ∈ t ∧ key r = k := by
  constructor
  · intro h
    exact ⟨List.mem_of_find?_eq_some h, by simpa using List.find?_some h⟩
  · rintro ⟨hr, rfl⟩
    cases hg : t.get? (key r) with
    | none =>
      have := List.find?_eq_none.mp hg r hr
      simp at this
    | some r' =>
      have hr' := List.mem_of_find?_eq_some hg
      have hk : key r' = key r := by simpa using List.find?_some hg
      rw [eq_of_mem hr' hr hk]

theorem get?_eq_none {t : Table key} {k : κ} : t.get? k = none ↔ ∀ r ∈ t, key r ≠ k := by
  simp [get?, List.find?_eq_none, mem_def]

theorem get?_put {t : Table key} {r : ρ} {k : κ} :
    (t.put r).get? k = if key r = k then some r else t.get? k := by
  split
  · rename_i h
    rw [get?_eq_some]
    exact ⟨mem_put.mpr (Or.inl rfl), h⟩
  · rename_i h
    cases hg : t.get? k with
    | none =>
      rw [get?_eq_none] at hg ⊢
      intro r' hr'
      rcases mem_put.mp hr' with rfl | ⟨hr', _⟩
      · exact h
      · exact hg r' hr'
    | some r' =>
      rw [get?_eq_some] at hg ⊢
      refine ⟨mem_put.mpr (Or.inr ⟨hg.1, ?_⟩), hg.2⟩
      rw [hg.2]
      exact fun heq => h heq.symm

theorem get?_erase_of_ne {t : Table key} {k k' : κ} (h : k ≠ k') : (t.erase k).get? k' = t.get? k' := by
  cases hg : t.get? k' with
  | none =>
    rw [get?_eq_none] at hg ⊢
    exact fun r hr => hg r (mem_erase.mp hr).1
  | some r =>
    rw [get?_eq_some] at hg ⊢
    exact ⟨mem_erase.mpr ⟨hg.1, fun heq => h (heq.symm.trans hg.2)⟩, hg.2⟩

theorem get?_erase_self {t : Table key} {k : κ} : (t.erase k).get? k = none :=
  get?_eq_none.mpr fun _ hr => (mem_erase.mp hr).2

/-- A row in front of the others. -/
theorem rows_perm_cons {t : Table key} {r : ρ} (hr : r ∈ t) :
    t.rows.Perm (r :: (t.erase (key r)).rows) := by
  have hnodup : t.rows.Nodup := List.Nodup.of_map key t.nodup
  have hnot : r ∉ (t.erase (key r)).rows := fun hmem => (mem_erase.mp hmem).2 rfl
  refine (List.perm_ext_iff_of_nodup hnodup ?_).mpr fun r' => ?_
  · exact List.nodup_cons.mpr ⟨hnot, List.Nodup.of_map key (t.erase (key r)).nodup⟩
  · rw [List.mem_cons]
    constructor
    · intro hr'
      by_cases heq : key r' = key r
      · exact Or.inl (eq_of_mem hr' hr heq)
      · exact Or.inr (mem_erase.mpr ⟨hr', heq⟩)
    · rintro (rfl | hr')
      · exact hr
      · exact (mem_erase.mp hr').1

/-- Two tables with the same rows find the same. -/
theorem get?_congr {t t' : Table key} (h : ∀ r, r ∈ t ↔ r ∈ t') (k : κ) : t.get? k = t'.get? k := by
  cases hg : t'.get? k with
  | none =>
    rw [get?_eq_none] at hg ⊢
    exact fun r hr => hg r ((h r).mp hr)
  | some r =>
    rw [get?_eq_some] at hg ⊢
    exact ⟨(h r).mpr hg.1, hg.2⟩

theorem rows_put {t : Table key} {r : ρ} : (t.put r).rows = r :: (t.erase (key r)).rows := rfl

theorem rows_put_of_fresh {t : Table key} {r : ρ} (hfresh : ∀ r' ∈ t, key r' ≠ key r) :
    (t.put r).rows = r :: t.rows := by
  have herase : (t.erase (key r)).rows = t.rows :=
    List.filter_eq_self.mpr fun r' hr' => decide_eq_true (hfresh r' hr')
  rw [rows_put, herase]

theorem get?_put_of_ne {t : Table key} {r : ρ} {k : κ} (h : key r ≠ k) :
    (t.put r).get? k = t.get? k := by
  rw [get?_put, if_neg h]

end Table

end Store
