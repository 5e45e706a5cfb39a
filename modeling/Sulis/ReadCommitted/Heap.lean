-- SUMMARY: Stored tuples, the writes of an open transaction, and what the two look like laid over each other.
import Sulis.Store.Table

/-!
# Tuples and pending writes

A tuple keeps its identity through all versions of its row, and no later tuple gets
it again. What a transaction has written so far is a list of writes, newest first.
-/

namespace ReadCommitted

open Store

variable {ρ : Type}

/-- Rows under the identity of their tuple. -/
abbrev Heap (ρ : Type) : Type := Table (Prod.fst : Nat × ρ → Nat)

/-- A new version of a tuple, or its end. -/
abbrev Write (ρ : Type) : Type := Nat × Option ρ

namespace Heap

/-- The row of a tuple. -/
def row? (h : Heap ρ) (id : Nat) : Option ρ := (h.get? id).map Prod.snd

/-- The rows, which is all that a statement can see. -/
def visible (h : Heap ρ) : List ρ := h.rows.map Prod.snd

/-- The tuples whose rows pass a test. -/
def matching (h : Heap ρ) (p : ρ → Bool) : List Nat :=
  (h.rows.filter (fun t => p t.2)).map Prod.fst

def write (h : Heap ρ) : Write ρ → Heap ρ
  | (id, some r) => h.put (id, r)
  | (id, none) => h.erase id

/-- The heap as it is after some writes, the oldest of which comes last. -/
def overlay (h : Heap ρ) (ws : List (Write ρ)) : Heap ρ := ws.foldr (fun w h => h.write w) h

/-- The part of a heap that passes a test. -/
def within (h : Heap ρ) (scope : ρ → Bool) : Heap ρ := h.filter (fun t => scope t.2)

variable {h h' : Heap ρ} {id : Nat} {r : ρ} {w : Write ρ} {ws : List (Write ρ)} {p scope : ρ → Bool}

theorem row?_eq_some : h.row? id = some r ↔ (id, r) ∈ h := by
  rw [row?, Option.map_eq_some_iff]
  constructor
  · rintro ⟨t, ht, rfl⟩
    obtain ⟨hmem, rfl⟩ := Table.get?_eq_some.mp ht
    exact hmem
  · intro hmem
    exact ⟨(id, r), Table.get?_eq_some.mpr ⟨hmem, rfl⟩, rfl⟩

theorem row?_eq_none : h.row? id = none ↔ ∀ r, (id, r) ∉ h := by
  rw [Option.eq_none_iff_forall_ne_some]
  simp only [ne_eq, row?_eq_some]

theorem mem_visible : r ∈ h.visible ↔ ∃ id, (id, r) ∈ h := by
  simp [visible, Table.mem_def]

theorem mem_matching : id ∈ h.matching p ↔ ∃ r, (id, r) ∈ h ∧ p r := by
  simp [matching, Table.mem_def]

theorem nodup_matching (h : Heap ρ) (p : ρ → Bool) : (h.matching p).Nodup :=
  (List.filter_sublist.map Prod.fst).nodup h.nodup

/-- A test that one row passes. -/
theorem matching_eq_singleton (hmem : (id, r) ∈ h) (hp : p r)
    (honly : ∀ t ∈ h, p t.2 → t.1 = id) : h.matching p = [id] := by
  refine List.perm_singleton.mp ?_
  refine (List.perm_ext_iff_of_nodup (nodup_matching h p) (List.nodup_singleton id)).mpr fun j => ?_
  rw [mem_matching, List.mem_singleton]
  constructor
  · rintro ⟨r', hr', hp'⟩
    exact honly _ hr' hp'
  · rintro rfl
    exact ⟨r, hmem, hp⟩

@[simp] theorem mem_within : (id, r) ∈ h.within scope ↔ (id, r) ∈ h ∧ scope r := by
  simp [within]

theorem visible_within : (h.within scope).visible = h.visible.filter scope := by
  simp [visible, within, Table.filter, List.filter_map, Function.comp_def]

/-! ## Writes -/

theorem mem_write {o : Option ρ} {j : Nat} :
    (id, r) ∈ h.write (j, o) ↔ id = j ∧ o = some r ∨ id ≠ j ∧ (id, r) ∈ h := by
  cases o with
  | none => simp [write, and_comm]
  | some r' =>
    simp only [write, Table.mem_put, Prod.mk.injEq, Option.some.injEq]
    tauto

theorem overlay_nil : h.overlay [] = h := rfl

theorem overlay_cons : h.overlay (w :: ws) = (h.overlay ws).write w := rfl

/-- A tuple that is not written looks as before. -/
theorem mem_overlay_of_notMem (hid : id ∉ ws.map Prod.fst) :
    (id, r) ∈ h.overlay ws ↔ (id, r) ∈ h := by
  induction ws with
  | nil => rfl
  | cons w ws ih =>
    obtain ⟨j, o⟩ := w
    obtain ⟨hne, hnot⟩ := not_or.mp (mt List.mem_cons.mpr hid)
    rw [overlay_cons, mem_write, ih hnot]
    simp [show id ≠ j from hne]

/-- What was written last is what there is. -/
theorem mem_overlay_of_lookup {o : Option ρ} (hlook : ws.lookup id = some o) :
    (id, r) ∈ h.overlay ws ↔ o = some r := by
  induction ws with
  | nil => cases hlook
  | cons w ws ih =>
    obtain ⟨j, o'⟩ := w
    rw [overlay_cons, mem_write]
    rw [List.lookup_cons] at hlook
    by_cases hij : id = j
    · subst hij
      rw [beq_self_eq_true] at hlook
      simp [Option.some.inj hlook]
    · rw [beq_false_of_ne hij] at hlook
      simp [hij, ih hlook]

theorem lookup_isSome_iff : (ws.lookup id).isSome ↔ id ∈ ws.map Prod.fst := by
  induction ws with
  | nil => simp
  | cons w ws ih =>
    obtain ⟨j, o⟩ := w
    rw [List.lookup_cons]
    by_cases hij : id = j
    · simp [hij]
    · rw [beq_false_of_ne hij]
      simp [hij, ih]

/-- Where every tuple is written at most once: a row is there if it was written, or if it
    was there and is not written. -/
theorem mem_overlay_of_nodup (hnodup : (ws.map Prod.fst).Nodup) :
    (id, r) ∈ h.overlay ws ↔ (id, some r) ∈ ws ∨ id ∉ ws.map Prod.fst ∧ (id, r) ∈ h := by
  induction ws with
  | nil => simp [overlay_nil]
  | cons w ws ih =>
    obtain ⟨j, o⟩ := w
    obtain ⟨hj, hnodup⟩ := List.nodup_cons.mp hnodup
    rw [overlay_cons, mem_write, ih hnodup]
    by_cases hid : id = j
    · subst hid
      have hnot : ∀ o', (id, o') ∉ ws := fun o' hmem => hj (List.mem_map.mpr ⟨_, hmem, rfl⟩)
      simp [hnot, eq_comm]
    · simp [hid]

/-- A tuple that every write to it ends is gone. -/
theorem notMem_overlay_of_ended (hid : id ∈ ws.map Prod.fst) (hend : ∀ w ∈ ws, w.2 = none) :
    (id, r) ∉ h.overlay ws := by
  obtain ⟨o, hlook⟩ := Option.isSome_iff_exists.mp (lookup_isSome_iff.mpr hid)
  rw [mem_overlay_of_lookup hlook]
  have hmem : (id, o) ∈ ws := by
    obtain ⟨l₁, l₂, rfl, _⟩ := List.lookup_eq_some_iff.mp hlook
    simp
  have ho : o = none := hend _ hmem
  simp [ho]

/-! ## Writes and parts of a heap -/

theorem write_within (hscope : ∀ r, w.2 = some r → scope r) :
    (h.write w).within scope = (h.within scope).write w := by
  obtain ⟨j, o⟩ := w
  cases o with
  | none => simp [write, within, Table.erase, Table.filter, List.filter_filter, Bool.and_comm]
  | some r =>
    have hr : scope r := hscope r rfl
    simp [write, within, Table.put, Table.erase, Table.filter, List.filter_filter, Bool.and_comm, hr]

theorem overlay_within (hscope : ∀ w ∈ ws, ∀ r, w.2 = some r → scope r) :
    (h.overlay ws).within scope = (h.within scope).overlay ws := by
  induction ws with
  | nil => rfl
  | cons w ws ih =>
    rw [overlay_cons, write_within (hscope w List.mem_cons_self),
      ih (fun w' hw' => hscope w' (List.mem_cons_of_mem w hw')), overlay_cons]

/-- Writes outside of a part leave it alone. -/
theorem write_within_of_outside (hold : ∀ r, (w.1, r) ∈ h → ¬ scope r)
    (hnew : ∀ r, w.2 = some r → ¬ scope r) : (h.write w).within scope = h.within scope := by
  obtain ⟨j, o⟩ := w
  have herase : (h.write (j, none)).within scope = h.within scope := by
    simp only [write, within, Table.erase, Table.filter, Table.mk.injEq, List.filter_filter]
    refine List.filter_congr fun t ht => ?_
    by_cases hj : t.1 = j
    · obtain ⟨j', r⟩ := t
      obtain rfl : j' = j := hj
      simp [hold r ht]
    · simp [hj]
  cases o with
  | none => exact herase
  | some r =>
    rw [← herase]
    have hr : ¬ scope r := hnew r rfl
    simp [write, within, Table.put, Table.filter, hr]

theorem overlay_within_of_outside (hold : ∀ w ∈ ws, ∀ r, (w.1, r) ∈ h → ¬ scope r)
    (hnew : ∀ w ∈ ws, ∀ r, w.2 = some r → ¬ scope r) :
    (h.overlay ws).within scope = h.within scope := by
  induction ws with
  | nil => rfl
  | cons w ws ih =>
    have ih := ih (fun w' hw' => hold w' (List.mem_cons_of_mem w hw'))
      (fun w' hw' => hnew w' (List.mem_cons_of_mem w hw'))
    rw [overlay_cons, write_within_of_outside _ (hnew w List.mem_cons_self), ih]
    intro r hr hscope
    -- what the older writes left at this tuple is in the part only if it was there before
    have hmem : (w.1, r) ∈ (h.overlay ws).within scope := mem_within.mpr ⟨hr, hscope⟩
    rw [ih] at hmem
    exact hold w List.mem_cons_self r (mem_within.mp hmem).1 hscope

end Heap

end ReadCommitted
