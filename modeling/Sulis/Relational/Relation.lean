-- SUMMARY: SQL tables with their unique constraints, statements on them, and what they do to rows that encode something else.
import Sulis.Store.Table

/-!
# Relations

A relation is a bag of rows no two of which conflict. A statement that would break that
is refused and changes nothing. Statements run one after the other.

`Encodes` says that the rows of a relation are those of a keyed table in another form,
and there is a rule for each statement.
-/

namespace Relational

open Store

variable {ρ α κ : Type}

/-- The rows of a table whose unique indexes say which two rows conflict. -/
structure Relation (conflict : ρ → ρ → Bool) where
  rows : List ρ
  distinct : rows.Pairwise fun a b => conflict a b = false

namespace Relation

variable {conflict : ρ → ρ → Bool} (t : Relation conflict)

def empty : Relation conflict := ⟨[], List.Pairwise.nil⟩

/-- `SELECT … WHERE p` -/
def select (p : ρ → Bool) : List ρ := t.rows.filter p

/-- `INSERT`; `none` is a violated constraint. -/
def insert (row : ρ) : Option (Relation conflict) :=
  if h : ∀ r ∈ t.rows, conflict row r = false then
    some ⟨row :: t.rows, List.pairwise_cons.mpr ⟨h, t.distinct⟩⟩
  else none

/-- `DELETE … WHERE p` -/
def delete (p : ρ → Bool) : Relation conflict := ⟨t.rows.filter (!p ·), t.distinct.filter _⟩

/-- `UPDATE … SET … WHERE p`; `none` is a violated constraint. -/
def update (p : ρ → Bool) (set : ρ → ρ) : Option (Relation conflict) :=
  if h : (t.rows.map fun r => if p r then set r else r).Pairwise fun a b => conflict a b = false then
    some ⟨_, h⟩
  else none

/-- `INSERT … ON CONFLICT DO UPDATE SET …` -/
def upsert (row : ρ) (set : ρ → ρ → ρ) : Option (Relation conflict) :=
  if t.rows.any (conflict row) then t.update (conflict row) (set · row) else t.insert row

end Relation

/-! ## Rows in another form -/

/-- The rows are those of a keyed table, each in the form it has here. -/
def Encodes [DecidableEq κ] {key : α → κ} {conflict : ρ → ρ → Bool} (enc : α → ρ) (m : Table key)
    (t : Relation conflict) : Prop :=
  t.rows.Perm (m.rows.map enc)

section

variable [DecidableEq κ] {key : α → κ} {conflict : ρ → ρ → Bool} {enc : α → ρ} {m : Table key}
  {t t' : Relation conflict} {p : ρ → Bool} {set : ρ → ρ} {a a' : α}

theorem Encodes.empty : Encodes enc (Table.empty : Table key) (Relation.empty : Relation conflict) :=
  List.Perm.nil

theorem Encodes.mem_iff (h : Encodes enc m t) {r : ρ} : r ∈ t.rows ↔ ∃ a ∈ m, enc a = r := by
  rw [List.Perm.mem_iff h, List.mem_map]
  rfl

theorem Encodes.mem (h : Encodes enc m t) (ha : a ∈ m) : enc a ∈ t.rows := h.mem_iff.mpr ⟨a, ha, rfl⟩

/-! ### Reading -/

theorem Encodes.select (h : Encodes enc m t) :
    (t.select p).Perm ((m.rows.filter fun a => p (enc a)).map enc) := by
  have hfilter := List.Perm.filter p h
  rwa [List.filter_map] at hfilter

theorem Encodes.select_eq_nil (h : Encodes enc m t) (hnone : ∀ a ∈ m, ¬ p (enc a)) : t.select p = [] := by
  refine List.filter_eq_nil_iff.mpr fun r hr => ?_
  obtain ⟨a, ha, rfl⟩ := h.mem_iff.mp hr
  exact hnone a ha

theorem Encodes.select_eq_singleton (h : Encodes enc m t) (ha : a ∈ m) (hp : p (enc a))
    (honly : ∀ b ∈ m, p (enc b) → b = a) : t.select p = [enc a] := by
  have hrows : (m.rows.filter fun b => p (enc b)).Perm [a] := by
    have hnodup : (m.rows.filter fun b => p (enc b)).Nodup := (List.Nodup.of_map key m.nodup).filter _
    refine (List.perm_ext_iff_of_nodup hnodup (List.nodup_singleton a)).mpr fun b => ?_
    rw [List.mem_filter, List.mem_singleton]
    constructor
    · rintro ⟨hb, hpb⟩
      exact honly b hb hpb
    · rintro rfl
      exact ⟨ha, hp⟩
  exact List.perm_singleton.mp (h.select.trans (hrows.map enc))

/-- What is found under a key. -/
theorem Encodes.select_get? {k : κ} (h : Encodes enc m t) (hp : ∀ a ∈ m, p (enc a) ↔ key a = k) :
    t.select p = (m.get? k).toList.map enc := by
  cases hget : m.get? k with
  | none =>
    exact h.select_eq_nil fun a ha hpa => Table.get?_eq_none.mp hget a ha ((hp a ha).mp hpa)
  | some a =>
    obtain ⟨ha, hkey⟩ := Table.get?_eq_some.mp hget
    refine h.select_eq_singleton ha ((hp a ha).mpr hkey) fun b hb hpb => ?_
    exact Table.eq_of_mem hb ha (((hp b hb).mp hpb).trans hkey.symm)

/-- What is found by a test that one row at most passes. -/
theorem Encodes.select_pick {q : α → Bool} {order : Nat} (h : Encodes enc m t)
    (hp : ∀ a ∈ m, p (enc a) ↔ q a) (honly : ∀ a ∈ m, ∀ b ∈ m, q a → q b → b = a) :
    t.select p = (m.pick q order).toList.map enc := by
  cases hpick : m.pick q order with
  | none => exact h.select_eq_nil fun a ha hpa => Table.pick_eq_none.mp hpick a ha ((hp a ha).mp hpa)
  | some a =>
    obtain ⟨ha, hq⟩ := Table.pick_eq_some hpick
    exact h.select_eq_singleton ha ((hp a ha).mpr hq) fun b hb hpb => honly a ha b hb hq ((hp b hb).mp hpb)

/-- Two rows of a relation are not in conflict. -/
theorem Encodes.apart (hsymm : ∀ x y, conflict x y = conflict y x) (h : Encodes enc m t) (ha : a ∈ m)
    (hb : a' ∈ m) (hne : a' ≠ a) : conflict (enc a) (enc a') = false := by
  have hrows := (List.Perm.pairwise_iff (fun hxy => by rwa [hsymm])
    (List.Perm.trans h ((Table.rows_perm_cons ha).map enc))).mp t.distinct
  have hmem : a' ∈ m.erase (key a) :=
    Table.mem_erase.mpr ⟨hb, fun heq => hne (Table.eq_of_mem hb ha heq)⟩
  exact (List.pairwise_cons.mp hrows).1 _ (List.mem_map_of_mem hmem)

/-! ### Writing -/

/-- A row that is in nobody's way is stored. -/
theorem Encodes.insert (h : Encodes enc m t) (hfresh : ∀ b ∈ m, key b ≠ key a)
    (hfree : ∀ b ∈ m, conflict (enc a) (enc b) = false) :
    ∃ t', t.insert (enc a) = some t' ∧ Encodes enc (m.put a) t' := by
  have hrows : ∀ r ∈ t.rows, conflict (enc a) r = false := by
    intro r hr
    obtain ⟨b, hb, rfl⟩ := h.mem_iff.mp hr
    exact hfree b hb
  refine ⟨_, dif_pos hrows, ?_⟩
  unfold Encodes
  rw [Table.rows_put_of_fresh hfresh]
  exact List.Perm.cons _ h

theorem Encodes.insert_eq_none (h : Encodes enc m t) (hb : a' ∈ m) (hconflict : conflict (enc a) (enc a')) :
    t.insert (enc a) = none := by
  refine dif_neg fun hrows => ?_
  rw [hrows _ (h.mem hb)] at hconflict
  cases hconflict

theorem Encodes.delete {q : α → Bool} (h : Encodes enc m t) (hq : ∀ a ∈ m, q a = !p (enc a)) :
    Encodes enc (m.filter q) (t.delete p) := by
  have hfilter := List.Perm.filter (!p ·) h
  rw [List.filter_map] at hfilter
  have hrows : m.rows.filter q = m.rows.filter ((!p ·) ∘ enc) :=
    List.filter_congr fun a ha => hq a ha
  exact hfilter.trans (by rw [← hrows]; rfl)

/-- An update that finds nothing changes nothing. -/
theorem Encodes.update_none (h : Encodes enc m t) (hnone : ∀ a ∈ m, ¬ p (enc a)) :
    t.update p set = some t := by
  have hmap : (t.rows.map fun r => if p r then set r else r) = t.rows := by
    refine (List.map_congr_left fun r hr => ?_).trans (List.map_id _)
    obtain ⟨a, ha, rfl⟩ := h.mem_iff.mp hr
    rw [if_neg (hnone a ha), id]
  unfold Relation.update
  simp only [hmap]
  rw [dif_pos t.distinct]

/-- What an update of one row leaves. -/
theorem Encodes.map_one (h : Encodes enc m t) (ha : a ∈ m) (hp : ∀ b ∈ m, p (enc b) ↔ b = a)
    (hset : set (enc a) = enc a') (hkey : key a' = key a) :
    (t.rows.map fun r => if p r then set r else r).Perm ((m.put a').rows.map enc) := by
  have hperm := (List.Perm.trans h ((Table.rows_perm_cons ha).map enc)).map
    fun r => if p r then set r else r
  have hrest : ((m.erase (key a)).rows.map enc).map (fun r => if p r then set r else r) =
      (m.erase (key a)).rows.map enc := by
    rw [List.map_map]
    refine List.map_congr_left fun b hb => ?_
    obtain ⟨hb, hne⟩ := Table.mem_erase.mp hb
    have hnot : ¬ p (enc b) := fun hpb => hne (congrArg key ((hp b hb).mp hpb))
    simp [hnot]
  have hhead : p (enc a) := (hp a ha).mpr rfl
  rw [List.map_cons, List.map_cons, hrest, if_pos hhead, hset] at hperm
  have hput : (m.put a').rows = a' :: (m.erase (key a)).rows := by rw [Table.rows_put, hkey]
  rwa [hput, List.map_cons]

/-- An update of one row. -/
theorem Encodes.update (hsymm : ∀ x y, conflict x y = conflict y x) (h : Encodes enc m t) (ha : a ∈ m)
    (hp : ∀ b ∈ m, p (enc b) ↔ b = a) (hset : set (enc a) = enc a') (hkey : key a' = key a)
    (hfree : ∀ b ∈ m, b ≠ a → conflict (enc a') (enc b) = false) :
    ∃ t', t.update p set = some t' ∧ Encodes enc (m.put a') t' := by
  have hmap := h.map_one ha hp hset hkey
  have hdistinct : (t.rows.map fun r => if p r then set r else r).Pairwise
      fun a b => conflict a b = false := by
    refine (hmap.pairwise_iff fun hxy => by rwa [hsymm]).mpr ?_
    have hold := (List.Perm.pairwise_iff (fun hxy => by rwa [hsymm])
      (List.Perm.trans h ((Table.rows_perm_cons ha).map enc))).mp t.distinct
    have hput : (m.put a').rows = a' :: (m.erase (key a)).rows := by rw [Table.rows_put, hkey]
    rw [hput, List.map_cons, List.pairwise_cons]
    refine ⟨fun r hr => ?_, (List.pairwise_cons.mp hold).2⟩
    obtain ⟨b, hb, rfl⟩ := List.mem_map.mp hr
    obtain ⟨hb, hne⟩ := Table.mem_erase.mp hb
    exact hfree b hb fun heq => hne (congrArg key heq)
  exact ⟨_, dif_pos hdistinct, hmap⟩

/-- An update of one row that leaves the columns of the unique indexes alone. -/
theorem Encodes.restamp (hsymm : ∀ x y, conflict x y = conflict y x) (h : Encodes enc m t) (ha : a ∈ m)
    (hp : ∀ b ∈ m, p (enc b) ↔ b = a) (hset : set (enc a) = enc a') (hkey : key a' = key a)
    (hindex : ∀ r, conflict (enc a') r = conflict (enc a) r) :
    ∃ t', t.update p set = some t' ∧ Encodes enc (m.put a') t' := by
  refine h.update hsymm ha hp hset hkey fun b hb hne => ?_
  rw [hindex]
  exact h.apart hsymm ha hb hne

/-- An update that would put two rows in conflict. -/
theorem Encodes.update_eq_none (hsymm : ∀ x y, conflict x y = conflict y x) (h : Encodes enc m t)
    (ha : a ∈ m) (hp : ∀ b ∈ m, p (enc b) ↔ b = a) (hset : set (enc a) = enc a')
    (hkey : key a' = key a) {b : α} (hb : b ∈ m) (hne : b ≠ a) (hconflict : conflict (enc a') (enc b)) :
    t.update p set = none := by
  refine dif_neg fun hdistinct => ?_
  have hpair := ((h.map_one ha hp hset hkey).pairwise_iff fun hxy => by rwa [hsymm]).mp hdistinct
  have hput : (m.put a').rows = a' :: (m.erase (key a)).rows := by rw [Table.rows_put, hkey]
  rw [hput, List.map_cons, List.pairwise_cons] at hpair
  have hmem : b ∈ m.erase (key a) :=
    Table.mem_erase.mpr ⟨hb, fun heq => hne (Table.eq_of_mem hb ha heq)⟩
  rw [hpair.1 _ (List.mem_map_of_mem hmem)] at hconflict
  cases hconflict

/-- An insertion that replaces the row under the same key, where rows conflict by that key. -/
theorem Encodes.upsert {set : ρ → ρ → ρ} (h : Encodes enc m t)
    (hconflict : ∀ x y, conflict (enc x) (enc y) ↔ key y = key x)
    (hsymm : ∀ x y, conflict x y = conflict y x)
    (hset : ∀ b, key b = key a → set (enc b) (enc a) = enc a) :
    ∃ t', t.upsert (enc a) set = some t' ∧ Encodes enc (m.put a) t' := by
  unfold Relation.upsert
  by_cases hthere : ∃ b ∈ m, key b = key a
  · obtain ⟨b, hb, hkey⟩ := hthere
    have hany : t.rows.any (conflict (enc a)) :=
      List.any_eq_true.mpr ⟨enc b, h.mem hb, (hconflict a b).mpr hkey⟩
    rw [if_pos hany]
    refine Encodes.update hsymm h hb (fun b' hb' => ?_) (hset b hkey) hkey.symm fun b' hb' hne => ?_
    · rw [hconflict a b', ← hkey]
      exact ⟨fun heq => Table.eq_of_mem hb' hb heq, fun heq => by rw [heq]⟩
    · rw [Bool.eq_false_iff, ne_eq, hconflict a b', ← hkey]
      exact fun heq => hne (Table.eq_of_mem hb' hb heq)
  · have hfree : ∀ b ∈ m, conflict (enc a) (enc b) = false := by
      intro b hb
      rw [Bool.eq_false_iff, ne_eq, hconflict a b]
      exact fun heq => hthere ⟨b, hb, heq⟩
    have hany : ¬ t.rows.any (conflict (enc a)) := by
      rw [List.any_eq_true]
      rintro ⟨r, hr, hcon⟩
      obtain ⟨b, hb, rfl⟩ := h.mem_iff.mp hr
      rw [hfree b hb] at hcon
      cases hcon
    rw [if_neg hany]
    exact h.insert (fun b hb heq => hthere ⟨b, hb, heq⟩) hfree

end

/-! ## Valid rows -/

/-- The rows are those of a keyed table, all of which are of the kind that has a form here. -/
structure Mirrors [DecidableEq κ] {key : α → κ} {conflict : ρ → ρ → Bool} (enc : α → ρ)
    (Valid : α → Prop) (m : Table key) (t : Relation conflict) : Prop where
  encodes : Encodes enc m t
  valid : ∀ a ∈ m, Valid a

section

variable [DecidableEq κ] {key : α → κ} {conflict : ρ → ρ → Bool} {enc : α → ρ} {Valid : α → Prop}
  {m : Table key} {t t' : Relation conflict} {p : ρ → Bool} {a : α}

theorem Mirrors.empty :
    Mirrors enc Valid (Table.empty : Table key) (Relation.empty : Relation conflict) :=
  ⟨Encodes.empty, fun a ha => absurd ha (Table.not_mem_empty a)⟩

theorem Mirrors.put (h : Mirrors enc Valid m t) (ht : Encodes enc (m.put a) t') (ha : Valid a) :
    Mirrors enc Valid (m.put a) t' := by
  refine ⟨ht, fun b hb => ?_⟩
  rcases Table.mem_put.mp hb with rfl | ⟨hb, -⟩
  · exact ha
  · exact h.valid b hb

theorem Mirrors.delete {q : α → Bool} (h : Mirrors enc Valid m t) (hq : ∀ a ∈ m, q a = !p (enc a)) :
    Mirrors enc Valid (m.filter q) (t.delete p) :=
  ⟨h.encodes.delete hq, fun a ha => h.valid a (Table.mem_filter.mp ha).1⟩

/-- A deletion by key. -/
theorem Mirrors.erase {k : κ} (h : Mirrors enc Valid m t) (hp : ∀ a ∈ m, p (enc a) ↔ key a = k) :
    Mirrors enc Valid (m.erase k) (t.delete p) := by
  refine h.delete fun a ha => ?_
  rw [Bool.eq_iff_iff, decide_eq_true_eq, Bool.not_eq_true', ← Bool.not_eq_true, hp a ha]

end

end Relational
