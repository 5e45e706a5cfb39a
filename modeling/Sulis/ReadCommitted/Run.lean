-- SUMMARY: Runs of any number of database sessions, and what holds in every one of them.
import Sulis.ReadCommitted.Moves

/-!
# Runs

No two sessions have written the same tuple, no two hold the same advisory lock, and
identities are given out once.
-/

namespace ReadCommitted

open Store

variable {ρ κ γ α : Type}
variable {client : Client ρ κ γ α} {c c' : Config ρ κ γ α} {i j : Nat} {s s' t : Session ρ κ γ α}

/-! ## What every run keeps -/

/-- The identities that are in use by a session. -/
def Session.knows (s : Session ρ κ γ α) (id : Nat) : Prop :=
  id ∈ s.locked ∨ ∃ p set todo hit next, s.stage = .scanning p set todo hit next ∧ id ∈ todo

structure Config.Sound (c : Config ρ κ γ α) : Prop where
  rowsApart : ∀ {i j : Nat} {s t : Session ρ κ γ α} {id : Nat}, i ≠ j → c.sessions[i]? = some s →
    c.sessions[j]? = some t → id ∈ s.locked → id ∉ t.locked
  locksApart : ∀ {i j : Nat} {s t : Session ρ κ γ α} {k : κ}, i ≠ j → c.sessions[i]? = some s →
    c.sessions[j]? = some t → k ∈ s.held → k ∉ t.held
  heapOld : ∀ {id : Nat} {r : ρ}, (id, r) ∈ c.heap → id < c.fresh
  known : ∀ {i : Nat} {s : Session ρ κ γ α} {id : Nat}, c.sessions[i]? = some s → s.knows id →
    id < c.fresh
  /-- Nothing is locked or held outside of a transaction. -/
  closed : ∀ {i : Nat} {s : Session ρ κ γ α}, c.sessions[i]? = some s → s.stage.isOpen = false →
    s.writes = [] ∧ s.held = []

theorem Config.Sound.view_old {id : Nat} {r : ρ} (h : c.Sound) (hs : c.sessions[i]? = some s)
    (hmem : (id, r) ∈ c.view s) : id < c.fresh := by
  by_cases hid : id ∈ s.locked
  · exact h.known hs (Or.inl hid)
  · exact h.heapOld ((Heap.mem_overlay_of_notMem hid).mp hmem)

/-- Where an `INSERT` lands is either a tuple it can see or a new one. -/
theorem landing_cases (view : Heap ρ) (fresh : Nat) (row : ρ) (target : ρ → Bool) (set : ρ → ρ) :
    (∃ t ∈ view, target t.2 ∧ landing view fresh row target set = (t.1, set t.2)) ∨
      (∀ t ∈ view, ¬ target t.2) ∧ landing view fresh row target set = (fresh, row) := by
  unfold landing
  split
  · rename_i t ht
    exact Or.inl ⟨t, List.mem_of_find?_eq_some ht, by simpa using List.find?_some ht, rfl⟩
  · rename_i hnone
    exact Or.inr ⟨fun t ht => by simpa using List.find?_eq_none.mp hnone t ht, rfl⟩

theorem Moves.knows {heap : Heap ρ} {fresh id : Nat} (hsound : c.Sound)
    (hs : c.sessions[i]? = some s) (h : Moves client c i s s' heap fresh) (hid : s'.knows id) :
    id < fresh := by
  have hle := h.fresh_le
  cases h with
  | scan hstage =>
    rcases hid with hid | ⟨p, set, todo, hit, next, heq, hid⟩
    · exact hsound.known hs (Or.inl hid)
    · cases heq
      obtain ⟨r, hr, _⟩ := Heap.mem_matching.mp hid
      exact hsound.view_old hs hr
  | hit hstage hid' =>
    rcases hid with hid | ⟨p, set, todo, hit, next, heq, hid⟩
    · rcases List.mem_cons.mp hid with rfl | hid
      · exact hsound.known hs (Or.inr ⟨_, _, _, _, _, hstage, hid'⟩)
      · exact hsound.known hs (Or.inl hid)
    · cases heq
      exact hsound.known hs (Or.inr ⟨_, _, _, _, _, hstage, List.mem_of_mem_erase hid⟩)
  | miss hstage =>
    rcases hid with hid | ⟨p, set, todo, hit, next, heq, hid⟩
    · exact hsound.known hs (Or.inl hid)
    · cases heq
      exact hsound.known hs (Or.inr ⟨_, _, _, _, _, hstage, List.mem_of_mem_erase hid⟩)
  | @place row target set _ _ _ hstage hlanding =>
    rcases hid with hid | ⟨p, set, todo, hit, next, heq, hid⟩
    · rcases List.mem_cons.mp hid with rfl | hid
      · rcases landing_cases (c.view s) c.fresh row target set with ⟨t, ht, -, heq⟩ | ⟨-, heq⟩
        · obtain ⟨rfl, rfl⟩ := Prod.mk.inj (hlanding.symm.trans heq)
          exact Nat.lt_succ_of_lt (hsound.view_old hs ht)
        · obtain ⟨rfl, rfl⟩ := Prod.mk.inj (hlanding.symm.trans heq)
          exact Nat.lt_succ_self _
      · exact Nat.lt_succ_of_lt (hsound.known hs (Or.inl hid))
    · cases heq
  | commit | rollback | fail =>
    rcases hid with hid | ⟨p, set, todo, hit, next, heq, hid⟩
    · cases hid
    · cases heq
  | _ =>
    rcases hid with hid | ⟨p, set, todo, hit, next, heq, hid⟩
    · exact hsound.known hs (Or.inl hid)
    · cases heq

theorem Moves.closed {heap : Heap ρ} {fresh : Nat} (h : Moves client c i s s' heap fresh)
    (hopen : s'.stage.isOpen = false) : s'.writes = [] ∧ s'.held = [] := by
  cases h with
  | commit | rollback | fail => exact ⟨rfl, rfl⟩
  | _ => cases hopen

/-- What sessions have for themselves stays apart, if a session gains only what is free. -/
theorem apart_set {β : Type} {has : Session ρ κ γ α → List β} {l : List (Session ρ κ γ α)}
    (hapart : ∀ {a b : Nat} {t u : Session ρ κ γ α} {x : β}, a ≠ b → l[a]? = some t →
      l[b]? = some u → x ∈ has t → x ∉ has u)
    (hs : l[i]? = some s)
    (hgain : ∀ x ∈ has s', x ∈ has s ∨ ∀ j t, j ≠ i → l[j]? = some t → x ∉ has t)
    {a b : Nat} {t u : Session ρ κ γ α} {x : β} (hne : a ≠ b) (ht : (l.set i s')[a]? = some t)
    (hu : (l.set i s')[b]? = some u) (hx : x ∈ has t) : x ∉ has u := by
  rcases getElem?_set_cases ht with ⟨rfl, rfl⟩ | ⟨hai, ht'⟩
  · rcases getElem?_set_cases hu with ⟨rfl, rfl⟩ | ⟨hbi, hu'⟩
    · exact absurd rfl hne
    · rcases hgain x hx with hx | hfree
      · exact hapart hne hs hu' hx
      · exact hfree b u hbi hu'
  · rcases getElem?_set_cases hu with ⟨rfl, rfl⟩ | ⟨_, hu'⟩
    · intro hx'
      rcases hgain x hx' with hx' | hfree
      · exact hapart hne ht' hs hx hx'
      · exact hfree a t hai ht' hx
    · exact hapart hne ht' hu' hx

theorem Config.Sound.move {heap : Heap ρ} {fresh : Nat} (hsound : c.Sound)
    (hs : c.sessions[i]? = some s) (h : Moves client c i s s' heap fresh) :
    Config.Sound ⟨heap, fresh, c.sessions.set i s'⟩ where
  rowsApart := apart_set hsound.rowsApart hs fun _ hid => h.locked hid
  locksApart := apart_set hsound.locksApart hs fun _ hk => h.held hk
  heapOld := by
    intro id r hmem
    refine lt_of_lt_of_le ?_ h.fresh_le
    rcases h.heap_eq with rfl | ⟨out, -, rfl, -⟩
    · exact hsound.heapOld hmem
    · exact hsound.view_old hs hmem
  known := by
    intro j t id ht hid
    rcases getElem?_set_cases ht with ⟨rfl, rfl⟩ | ⟨_, ht⟩
    · exact h.knows hsound hs hid
    · exact lt_of_lt_of_le (hsound.known ht hid) h.fresh_le
  closed := by
    intro j t ht hopen
    rcases getElem?_set_cases ht with ⟨rfl, rfl⟩ | ⟨_, ht⟩
    · exact h.closed hopen
    · exact hsound.closed ht hopen

theorem Config.Sound.invoke (hsound : c.Sound) (call : γ) :
    (c.invoked call).Sound where
  rowsApart := by
    intro a b t u id hne ht hu hid
    rcases getElem?_concat_cases ht with ht | ⟨rfl, rfl⟩
    · rcases getElem?_concat_cases hu with hu | ⟨rfl, rfl⟩
      · exact hsound.rowsApart hne ht hu hid
      · exact List.not_mem_nil
    · cases hid
  locksApart := by
    intro a b t u k hne ht hu hk
    rcases getElem?_concat_cases ht with ht | ⟨rfl, rfl⟩
    · rcases getElem?_concat_cases hu with hu | ⟨rfl, rfl⟩
      · exact hsound.locksApart hne ht hu hk
      · exact List.not_mem_nil
    · cases hk
  heapOld := hsound.heapOld
  known := by
    intro j t id ht hid
    rcases getElem?_concat_cases ht with ht | ⟨rfl, rfl⟩
    · exact hsound.known ht hid
    · rcases hid with hid | ⟨p, set, todo, hit, next, heq, hid⟩
      · cases hid
      · cases heq
  closed := by
    intro j t ht hopen
    rcases getElem?_concat_cases ht with ht | ⟨rfl, rfl⟩
    · exact hsound.closed ht hopen
    · exact ⟨rfl, rfl⟩

/-- A database at rest. -/
def Config.start (heap : Heap ρ) (fresh : Nat) : Config ρ κ γ α := ⟨heap, fresh, []⟩

theorem Config.sound_start {heap : Heap ρ} {fresh : Nat} (h : ∀ t ∈ heap, t.1 < fresh) :
    (Config.start heap fresh : Config ρ κ γ α).Sound where
  rowsApart := by intro i j s t id _ hs; cases hs
  locksApart := by intro i j s t k _ hs; cases hs
  heapOld := fun hmem => h _ hmem
  known := by intro i s id hs; cases hs
  closed := by intro i s hs; cases hs

/-- What another session has locked, a commit leaves as it is. -/
theorem Config.Sound.mem_view_of_locked {id : Nat} {r : ρ} (hsound : c.Sound) (hne : j ≠ i)
    (hs : c.sessions[i]? = some s) (ht : c.sessions[j]? = some t) (hid : id ∈ t.locked) :
    (id, r) ∈ c.view s ↔ (id, r) ∈ c.heap :=
  Heap.mem_overlay_of_notMem (hsound.rowsApart hne ht hs hid)

/-! ## Runs -/

/-- One step of a run. -/
structure Moment (ρ κ γ α : Type) where
  pre : Config ρ κ γ α
  action : Action γ
  post : Config ρ κ γ α

section

variable [DecidableEq κ]

/-- A run whose steps meet a condition, with its steps, newest first. -/
inductive Run (client : Client ρ κ γ α) (ok : Config ρ κ γ α → Action γ → Prop)
    (c₀ : Config ρ κ γ α) : List (Moment ρ κ γ α) → Config ρ κ γ α → Prop
  | start : Run client ok c₀ [] c₀
  | step {trace : List (Moment ρ κ γ α)} {c c' : Config ρ κ γ α} {a : Action γ}
      (hrun : Run client ok c₀ trace c) (hok : ok c a) (hstep : client.step c a = some c') :
      Run client ok c₀ (⟨c, a, c'⟩ :: trace) c'

variable {ok : Config ρ κ γ α → Action γ → Prop} {c₀ : Config ρ κ γ α}
  {trace : List (Moment ρ κ γ α)}

section

variable [∀ c a, Decidable (ok c a)]

/-- Takes the actions one after the other, as long as each is possible and meets the
    condition. -/
def Client.exec (client : Client ρ κ γ α) (ok : Config ρ κ γ α → Action γ → Prop)
    [∀ c a, Decidable (ok c a)] :
    List (Moment ρ κ γ α) × Config ρ κ γ α → List (Action γ) →
      Option (List (Moment ρ κ γ α) × Config ρ κ γ α)
  | done, [] => some done
  | (trace, c), a :: rest =>
    if ok c a then
      match client.step c a with
      | some c' => client.exec ok (⟨c, a, c'⟩ :: trace, c') rest
      | none => none
    else none

theorem Run.exec {actions : List (Action γ)} {trace' : List (Moment ρ κ γ α)}
    (hrun : Run client ok c₀ trace c) (h : client.exec ok (trace, c) actions = some (trace', c')) :
    Run client ok c₀ trace' c' := by
  induction actions generalizing trace c with
  | nil =>
    cases h
    exact hrun
  | cons a rest ih =>
    rw [Client.exec] at h
    split at h
    · rename_i ha
      split at h
      · rename_i c'' hstep
        exact ih (hrun.step ha hstep) h
      · cases h
    · cases h

/-- A run that can be computed, with what can be checked about it. -/
theorem Run.computed {P : List (Moment ρ κ γ α) → Config ρ κ γ α → Prop}
    [∀ trace c, Decidable (P trace c)] (actions : List (Action γ))
    (h : (client.exec ok ([], c₀) actions).any (fun done => decide (P done.1 done.2)) = true) :
    ∃ trace c, Run client ok c₀ trace c ∧ P trace c := by
  obtain ⟨⟨trace, c⟩, hexec, hP⟩ := (Option.any_eq_true _ _).mp h
  exact ⟨trace, c, Run.start.exec hexec, of_decide_eq_true hP⟩

end

/-- An invariant of the steps holds in every run. -/
theorem Run.invariant {I : List (Moment ρ κ γ α) → Config ρ κ γ α → Prop}
    (hstart : I [] c₀)
    (hstep : ∀ trace c a c', I trace c → ok c a → Steps client c a c' → I (⟨c, a, c'⟩ :: trace) c')
    (hrun : Run client ok c₀ trace c) : I trace c := by
  induction hrun with
  | start => exact hstart
  | step hrun hok h ih => exact hstep _ _ _ _ ih hok (steps_of_step h)

end

/-! ## What a run remembers of a session -/

structure Chronicle (trace : List (Moment ρ κ γ α)) (c : Config ρ κ γ α) : Prop where
  /-- Sessions are added at the end, and none goes. -/
  length : ∀ m ∈ trace, m.post.sessions.length ≤ c.sessions.length
  /-- Only the step that a session ends with can change the heap. -/
  quiet : ∀ i : Nat, (∀ s, c.sessions[i]? = some s → s.stage.over = false) →
    ∀ m ∈ trace, m.action.actor = some i → m.post.heap = m.pre.heap
  /-- Advisory locks are held to the end. -/
  held : ∀ (i : Nat) (s : Session ρ κ γ α), c.sessions[i]? = some s → s.stage.over = false →
    ∀ m ∈ trace, ∀ s' : Session ρ κ γ α, m.post.sessions[i]? = some s' → ∀ k ∈ s'.held, k ∈ s.held

theorem Moves.held_mono {heap : Heap ρ} {fresh : Nat} (h : Moves client c i s s' heap fresh)
    (hopen : s'.stage.over = false) : ∀ k ∈ s.held, k ∈ s'.held := by
  intro k hk
  cases h with
  | lock => exact List.mem_cons_of_mem _ hk
  | commit | rollback | fail => cases hopen
  | _ => exact hk

variable {trace : List (Moment ρ κ γ α)}

theorem Chronicle.start : Chronicle [] c where
  length := by simp
  quiet := by simp
  held := by simp

theorem Chronicle.invoke (h : Chronicle trace c) (call : γ) :
    Chronicle (⟨c, .invoke call, c.invoked call⟩ :: trace)
      (c.invoked call) where
  length := by
    intro m hm
    rcases List.mem_cons.mp hm with rfl | hm
    · exact le_refl _
    · exact (h.length m hm).trans (by simp)
  quiet := by
    intro i hopen m hm hactor
    rcases List.mem_cons.mp hm with rfl | hm
    · rfl
    · refine h.quiet i (fun s hs => hopen s ?_) m hm hactor
      exact List.getElem?_append_left (List.getElem?_eq_some_iff.mp hs).1 ▸ hs
  held := by
    intro i s hs hopen m hm s' hs' k hk
    rcases List.mem_cons.mp hm with rfl | hm
    · obtain rfl := Option.some.inj (hs.symm.trans hs')
      exact hk
    · rcases getElem?_concat_cases hs with hs | ⟨rfl, rfl⟩
      · exact h.held i s hs hopen m hm s' hs' k hk
      · have hlt := (List.getElem?_eq_some_iff.mp hs').1
        exact absurd hlt (Nat.not_lt.mpr (h.length m hm))

theorem Chronicle.move {a : Action γ} {heap : Heap ρ} {fresh : Nat} (h : Chronicle trace c)
    (ha : a.actor = some j) (hs : c.sessions[j]? = some s) (hmove : Moves client c j s s' heap fresh) :
    Chronicle (⟨c, a, ⟨heap, fresh, c.sessions.set j s'⟩⟩ :: trace)
      ⟨heap, fresh, c.sessions.set j s'⟩ where
  length := by
    intro m hm
    rcases List.mem_cons.mp hm with rfl | hm
    · exact le_refl _
    · simpa using h.length m hm
  quiet := by
    intro i hopen m hm hactor
    rcases List.mem_cons.mp hm with rfl | hm
    · rcases hmove.heap_eq with rfl | ⟨out, -, -, rfl⟩
      · rfl
      · obtain rfl := Option.some.inj (ha.symm.trans hactor)
        have hover := hopen _ (List.getElem?_set_self (List.getElem?_eq_some_iff.mp hs).1)
        cases hover
    · refine h.quiet i (fun t ht => ?_) m hm hactor
      by_cases hij : i = j
      · subst hij
        obtain rfl := Option.some.inj (hs.symm.trans ht)
        exact hmove.not_over
      · exact hopen t (ht ▸ List.getElem?_set_ne (fun heq => hij heq.symm))
  held := by
    intro i t ht hopen m hm s'' hs'' k hk
    rcases List.mem_cons.mp hm with rfl | hold
    · obtain rfl := Option.some.inj (ht.symm.trans hs'')
      exact hk
    · rcases getElem?_set_cases ht with ⟨rfl, rfl⟩ | ⟨_, ht'⟩
      · exact hmove.held_mono hopen k (h.held i s hs hmove.not_over m hold s'' hs'' k hk)
      · exact h.held i t ht' hopen m hold s'' hs'' k hk

end ReadCommitted
