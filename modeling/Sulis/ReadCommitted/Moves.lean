-- SUMMARY: Everything one step of a database session can do.
import Sulis.ReadCommitted.Session

/-!
# Steps

`Moves` lists what a session can do next, and `Follows` says the same by the stage it
is in.
-/

namespace ReadCommitted

open Store

variable {ρ κ γ α : Type}
variable {client : Client ρ κ γ α} {c c' : Config ρ κ γ α} {i j : Nat} {s s' t : Session ρ κ γ α}

/-! ## One step -/

/-- A session that has returned. -/
def Session.ended (s : Session ρ κ γ α) (out : Option α) : Session ρ κ γ α :=
  { s with stage := .returned out, writes := [], held := [] }

/-- What a session makes of itself, of the heap and of the next identity. -/
inductive Moves (client : Client ρ κ γ α) (c : Config ρ κ γ α) (i : Nat) (s : Session ρ κ γ α) :
    Session ρ κ γ α → Heap ρ → Nat → Prop
  | begin (h : s.stage = .invoked) :
      Moves client c i s { s with stage := .ready (client.body s.call) } c.heap c.fresh
  | lock {k : κ} {next : List ρ → Script ρ κ α} (h : s.stage = .ready (.exec (.lock k) next))
      (free : ∀ j t, j ≠ i → c.sessions[j]? = some t → k ∉ t.held) :
      Moves client c i s { s with stage := .ready (next []), held := k :: s.held } c.heap c.fresh
  | select {p : ρ → Bool} {next : List ρ → Script ρ κ α}
      (h : s.stage = .ready (.exec (.select p) next)) :
      Moves client c i s { s with stage := .ready (next ((c.view s).visible.filter p)) }
        c.heap c.fresh
  | scan {p : List ρ → ρ → Bool} {set : ρ → Option ρ} {next : List ρ → Script ρ κ α}
      (h : s.stage = .ready (.exec (.modify p set) next)) :
      Moves client c i s
        { s with
          stage := .scanning (p (c.view s).visible) set
            ((c.view s).matching (p (c.view s).visible)) [] next }
        c.heap c.fresh
  | hit {p : ρ → Bool} {set : ρ → Option ρ} {todo : List Nat} {hit : List ρ}
      {next : List ρ → Script ρ κ α} {id : Nat} {r : ρ}
      (h : s.stage = .scanning p set todo hit next) (hid : id ∈ todo)
      (free : ∀ j t, j ≠ i → c.sessions[j]? = some t → id ∉ t.locked)
      (hrow : (id, r) ∈ c.view s) (hp : p r) :
      Moves client c i s
        { s with
          stage := .scanning p set (todo.erase id) (hit ++ [r]) next
          writes := (id, set r) :: s.writes }
        c.heap c.fresh
  | miss {p : ρ → Bool} {set : ρ → Option ρ} {todo : List Nat} {hit : List ρ}
      {next : List ρ → Script ρ κ α} {id : Nat}
      (h : s.stage = .scanning p set todo hit next) (hid : id ∈ todo)
      (free : ∀ j t, j ≠ i → c.sessions[j]? = some t → id ∉ t.locked)
      (hrow : ∀ r, (id, r) ∈ c.view s → ¬ p r) :
      Moves client c i s { s with stage := .scanning p set (todo.erase id) hit next }
        c.heap c.fresh
  | scanned {p : ρ → Bool} {set : ρ → Option ρ} {hit : List ρ} {next : List ρ → Script ρ κ α}
      (h : s.stage = .scanning p set [] hit next) :
      Moves client c i s { s with stage := .ready (next hit) } c.heap c.fresh
  | skip {new : List ρ → Option ρ} {target : ρ → ρ → Bool} {set : ρ → ρ → ρ}
      {next : List ρ → Script ρ κ α} (h : s.stage = .ready (.exec (.insert new target set) next))
      (hnew : new (c.view s).visible = none) :
      Moves client c i s { s with stage := .ready (next []) } c.heap c.fresh
  | insert {new : List ρ → Option ρ} {target : ρ → ρ → Bool} {set : ρ → ρ → ρ}
      {next : List ρ → Script ρ κ α} {row : ρ}
      (h : s.stage = .ready (.exec (.insert new target set) next))
      (hnew : new (c.view s).visible = some row) :
      Moves client c i s
        { s with stage := .placing row (target row) (fun r => set r row) next } c.heap c.fresh
  | place {row : ρ} {target : ρ → Bool} {set : ρ → ρ} {next : List ρ → Script ρ κ α} {id : Nat}
      {new : ρ} (h : s.stage = .placing row target set next)
      (hlanding : landing (c.view s) c.fresh row target set = (id, new))
      (free : ∀ j t, j ≠ i → c.sessions[j]? = some t → id ∉ t.locked)
      (hunique : ∀ t ∈ c.view s, t.1 = id ∨ ¬ client.conflict new t.2) :
      Moves client c i s
        { s with stage := .ready (next [new]), writes := (id, some new) :: s.writes }
        c.heap (c.fresh + 1)
  | commit {out : α} (h : s.stage = .ready (.commit out)) :
      Moves client c i s (s.ended (some out))
        (c.view s) c.fresh
  | rollback {out : α} (h : s.stage = .ready (.rollback out)) :
      Moves client c i s (s.ended (some out))
        c.heap c.fresh
  | fail (h : s.stage.over = false) :
      Moves client c i s (s.ended none)
        c.heap c.fresh

theorem Config.view_of_writes_nil (hwrites : s.writes = []) : c.view s = c.heap := by
  rw [view, hwrites, Heap.overlay_nil]

theorem Config.view_of_writes_singleton {w : Write ρ} (hwrites : s.writes = [w]) :
    c.view s = c.heap.write w := by
  rw [view, hwrites, Heap.overlay_cons, Heap.overlay_nil]

theorem Stage.out?_eq_some {stage : Stage ρ κ α} {out : Option α} :
    stage.out? = some out ↔ stage = .returned out := by
  cases stage <;> simp [Stage.out?]

theorem Config.returned_eq_some {call : γ} {out : Option α} :
    c.returned i = some (call, out) ↔
      ∃ s, c.sessions[i]? = some s ∧ s.call = call ∧ s.stage = .returned out := by
  simp only [returned, Option.bind_eq_some_iff, Option.map_eq_some_iff, Prod.mk.injEq,
    Stage.out?_eq_some]
  constructor
  · rintro ⟨s, hs, out', hout, hcall, rfl⟩
    exact ⟨s, hs, hcall, hout⟩
  · rintro ⟨s, hs, hcall, hout⟩
    exact ⟨s, hs, out, hout, hcall, rfl⟩

theorem Config.others_eq_true {p : Session ρ κ γ α → Bool} :
    c.others i p ↔ ∀ j t, j ≠ i → c.sessions[j]? = some t → p t := by
  simp only [Config.others, List.all_eq_true, List.mem_range, Bool.or_eq_true, decide_eq_true_eq]
  constructor
  · intro h j t hne ht
    have hj : j < c.sessions.length := (List.getElem?_eq_some_iff.mp ht).1
    simpa [hne, ht] using h j hj
  · intro h j hj
    by_cases hne : j = i
    · exact Or.inl hne
    · right
      rw [List.getElem?_eq_getElem hj]
      exact h j _ hne (List.getElem?_eq_getElem hj)

theorem Config.rowFree_eq_true {id : Nat} :
    c.rowFree i id ↔ ∀ j t, j ≠ i → c.sessions[j]? = some t → id ∉ t.locked := by
  simp [rowFree, others_eq_true]

theorem Config.lockFree_eq_true [DecidableEq κ] {k : κ} :
    c.lockFree i k ↔ ∀ j t, j ≠ i → c.sessions[j]? = some t → k ∉ t.held := by
  simp [lockFree, others_eq_true]

/-- The session that an action is of. -/
def Action.actor : Action γ → Option Nat
  | .invoke _ => none
  | .move i => some i
  | .take i _ => some i
  | .fail i => some i

/-- A step is a call that comes in or a move of one session. -/
inductive Steps (client : Client ρ κ γ α) (c : Config ρ κ γ α) :
    Action γ → Config ρ κ γ α → Prop
  | invoke (call : γ) :
      Steps client c (.invoke call) (c.invoked call)
  | move {a : Action γ} {i : Nat} {s s' : Session ρ κ γ α} {heap : Heap ρ} {fresh : Nat}
      (ha : a.actor = some i)
      (hs : c.sessions[i]? = some s) (hmove : Moves client c i s s' heap fresh)
      (hkind : a = .move i ∨ (∃ p set todo hit next, s.stage = .scanning p set todo hit next) ∨
        s' = s.ended none) :
      Steps client c a ⟨heap, fresh, c.sessions.set i s'⟩

section

variable [DecidableEq κ]

theorem moves_of_statement {next : List ρ → Script ρ κ α} {stmt : Stmt ρ κ}
    (hstage : s.stage = .ready (.exec stmt next))
    (h : Client.statement c i s next stmt = some c') :
    ∃ s', Moves client c i s s' c'.heap c'.fresh ∧ c'.sessions = c.sessions.set i s' := by
  cases stmt with
  | lock k =>
    simp only [Client.statement] at h
    split at h
    · rename_i hfree
      cases h
      exact ⟨_, .lock hstage (Config.lockFree_eq_true.mp hfree), rfl⟩
    · cases h
  | select p =>
    cases h
    exact ⟨_, .select hstage, rfl⟩
  | modify p set =>
    cases h
    exact ⟨_, .scan hstage, rfl⟩
  | insert new target set =>
    simp only [Client.statement] at h
    split at h
    · rename_i hnew
      cases h
      exact ⟨_, .skip hstage hnew, rfl⟩
    · rename_i row hnew
      cases h
      exact ⟨_, .insert hstage hnew, rfl⟩

theorem moves_of_move (h : client.move c i s = some c') :
    ∃ s', Moves client c i s s' c'.heap c'.fresh ∧ c'.sessions = c.sessions.set i s' := by
  unfold Client.move at h
  split at h
  case h_1 hstage => cases h; exact ⟨_, .begin hstage, rfl⟩
  case h_2 out hstage => cases h; exact ⟨_, .commit hstage, rfl⟩
  case h_3 out hstage => cases h; exact ⟨_, .rollback hstage, rfl⟩
  case h_4 hstage => cases h; exact ⟨_, .fail (by rw [hstage]; rfl), rfl⟩
  case h_5 stmt next hstage => exact moves_of_statement hstage h
  case h_6 hstage => cases h; exact ⟨_, .scanned hstage, rfl⟩
  case h_7 => cases h
  case h_8 row target set next hstage =>
    simp only [Client.place] at h
    split at h
    · rename_i hok
      cases h
      exact ⟨_, .place hstage rfl (Config.rowFree_eq_true.mp hok.1) hok.2.2.2, rfl⟩
    · cases h
  case h_9 => cases h

omit [DecidableEq κ] in
theorem scanning_of_take {id : Nat} (h : Client.take c i s id = some c') :
    ∃ p set todo hit next, s.stage = .scanning p set todo hit next := by
  unfold Client.take at h
  split at h
  · exact ⟨_, _, _, _, _, ‹s.stage = _›⟩
  · cases h

omit [DecidableEq κ] in
theorem moves_of_take {id : Nat} (h : Client.take c i s id = some c') :
    ∃ s', Moves client c i s s' c'.heap c'.fresh ∧ c'.sessions = c.sessions.set i s' := by
  unfold Client.take at h
  split at h
  · rename_i p set todo hit next hstage
    split at h
    · rename_i hok
      have hfree := Config.rowFree_eq_true.mp hok.2
      split at h
      · rename_i r hrow
        split at h
        · rename_i hp
          cases h
          exact ⟨_, .hit hstage hok.1 hfree (Heap.row?_eq_some.mp hrow) hp, rfl⟩
        · rename_i hp
          cases h
          refine ⟨_, .miss hstage hok.1 hfree ?_, rfl⟩
          intro r' hr'
          obtain rfl := Option.some.inj (hrow.symm.trans (Heap.row?_eq_some.mpr hr'))
          exact hp
      · rename_i hrow
        cases h
        refine ⟨_, .miss hstage hok.1 hfree ?_, rfl⟩
        exact fun r hr => absurd hr (Heap.row?_eq_none.mp hrow r)
    · cases h
  · cases h

theorem steps_of_step {a : Action γ} (h : client.step c a = some c') : Steps client c a c' := by
  cases a with
  | invoke call => cases h; exact .invoke call
  | move i =>
    obtain ⟨s, hs, hmove⟩ := Option.bind_eq_some_iff.mp h
    obtain ⟨s', hmoves, hsessions⟩ := moves_of_move hmove
    obtain ⟨heap, fresh, sessions⟩ := c'
    obtain rfl : sessions = _ := hsessions
    exact .move rfl hs hmoves (Or.inl rfl)
  | take i id =>
    obtain ⟨s, hs, hmove⟩ := Option.bind_eq_some_iff.mp h
    obtain ⟨s', (hmoves : Moves client _ _ _ _ _ _), hsessions⟩ := moves_of_take hmove
    have hscan := scanning_of_take hmove
    obtain ⟨heap, fresh, sessions⟩ := c'
    obtain rfl : sessions = _ := hsessions
    exact .move rfl hs hmoves (Or.inr (Or.inl hscan))
  | fail i =>
    obtain ⟨s, hs, hmove⟩ := Option.bind_eq_some_iff.mp h
    split at hmove
    · cases hmove
    · rename_i hover
      cases hmove
      exact .move rfl hs (.fail (by simpa using hover)) (Or.inr (Or.inr rfl))

end

/-- The same by the stage that a session is in, when it does not fail. -/
def Follows (client : Client ρ κ γ α) (c : Config ρ κ γ α) (i : Nat) (s s' : Session ρ κ γ α)
    (heap : Heap ρ) (fresh : Nat) : Stage ρ κ α → Prop
  | .invoked => s' = { s with stage := .ready (client.body s.call) } ∧ heap = c.heap ∧ fresh = c.fresh
  | .ready (.commit out) => s' = s.ended (some out) ∧ heap = c.view s ∧ fresh = c.fresh
  | .ready (.rollback out) => s' = s.ended (some out) ∧ heap = c.heap ∧ fresh = c.fresh
  | .ready .abort => False
  | .ready (.exec (.lock k) next) =>
    (∀ j t, j ≠ i → c.sessions[j]? = some t → k ∉ t.held) ∧
      s' = { s with stage := .ready (next []), held := k :: s.held } ∧ heap = c.heap ∧ fresh = c.fresh
  | .ready (.exec (.select p) next) =>
    s' = { s with stage := .ready (next ((c.view s).visible.filter p)) } ∧ heap = c.heap ∧
      fresh = c.fresh
  | .ready (.exec (.modify p set) next) =>
    s' = { s with
        stage := .scanning (p (c.view s).visible) set
          ((c.view s).matching (p (c.view s).visible)) [] next } ∧
      heap = c.heap ∧ fresh = c.fresh
  | .ready (.exec (.insert new target set) next) =>
    heap = c.heap ∧ fresh = c.fresh ∧
      (new (c.view s).visible = none ∧ s' = { s with stage := .ready (next []) } ∨
        ∃ row, new (c.view s).visible = some row ∧
          s' = { s with stage := .placing row (target row) (fun r => set r row) next })
  | .scanning p set todo hit next =>
    heap = c.heap ∧ fresh = c.fresh ∧
      (todo = [] ∧ s' = { s with stage := .ready (next hit) } ∨
        ∃ id ∈ todo, (∀ j t, j ≠ i → c.sessions[j]? = some t → id ∉ t.locked) ∧
          ((∃ r, (id, r) ∈ c.view s ∧ p r ∧
              s' = { s with
                stage := .scanning p set (todo.erase id) (hit ++ [r]) next
                writes := (id, set r) :: s.writes }) ∨
            (∀ r, (id, r) ∈ c.view s → ¬ p r) ∧
              s' = { s with stage := .scanning p set (todo.erase id) hit next }))
  | .placing row target set next =>
    ∃ id new, landing (c.view s) c.fresh row target set = (id, new) ∧
      (∀ j t, j ≠ i → c.sessions[j]? = some t → id ∉ t.locked) ∧
      (∀ t ∈ c.view s, t.1 = id ∨ ¬ client.conflict new t.2) ∧
      s' = { s with stage := .ready (next [new]), writes := (id, some new) :: s.writes } ∧
      heap = c.heap ∧ fresh = c.fresh + 1
  | .returned _ => False

namespace Moves

variable {heap : Heap ρ} {fresh id : Nat} {k : κ}

theorem follows (h : Moves client c i s s' heap fresh) :
    s' = s.ended none ∧ heap = c.heap ∧ fresh = c.fresh ∨
      Follows client c i s s' heap fresh s.stage := by
  cases h with
  | fail => exact Or.inl ⟨rfl, rfl, rfl⟩
  | begin hstage => right; rw [hstage]; exact ⟨rfl, rfl, rfl⟩
  | lock hstage free => right; rw [hstage]; exact ⟨free, rfl, rfl, rfl⟩
  | select hstage => right; rw [hstage]; exact ⟨rfl, rfl, rfl⟩
  | scan hstage => right; rw [hstage]; exact ⟨rfl, rfl, rfl⟩
  | hit hstage hid free hrow hp =>
    right; rw [hstage]
    exact ⟨rfl, rfl, Or.inr ⟨_, hid, free, Or.inl ⟨_, hrow, hp, rfl⟩⟩⟩
  | miss hstage hid free hrow =>
    right; rw [hstage]
    exact ⟨rfl, rfl, Or.inr ⟨_, hid, free, Or.inr ⟨hrow, rfl⟩⟩⟩
  | scanned hstage => right; rw [hstage]; exact ⟨rfl, rfl, Or.inl ⟨rfl, rfl⟩⟩
  | skip hstage hnew => right; rw [hstage]; exact ⟨rfl, rfl, Or.inl ⟨hnew, rfl⟩⟩
  | insert hstage hnew => right; rw [hstage]; exact ⟨rfl, rfl, Or.inr ⟨_, hnew, rfl⟩⟩
  | place hstage hlanding free hunique =>
    right; rw [hstage]
    exact ⟨_, _, hlanding, free, hunique, rfl, rfl, rfl⟩
  | commit hstage => right; rw [hstage]; exact ⟨rfl, rfl, rfl⟩
  | rollback hstage => right; rw [hstage]; exact ⟨rfl, rfl, rfl⟩

theorem call (h : Moves client c i s s' heap fresh) : s'.call = s.call := by
  cases h <;> rfl

/-- Only a commit changes the heap. -/
theorem heap_eq (h : Moves client c i s s' heap fresh) :
    heap = c.heap ∨ ∃ out, s.stage = .ready (.commit out) ∧ heap = c.view s ∧
      s' = s.ended (some out) := by
  cases h with
  | commit hstage => exact Or.inr ⟨_, hstage, rfl, rfl⟩
  | _ => exact Or.inl rfl

/-- A session that goes on has not changed the heap. -/
theorem heap_of_open (h : Moves client c i s s' heap fresh) (hopen : s'.stage.over = false) :
    heap = c.heap := by
  rcases h.heap_eq with heq | ⟨out, -, -, rfl⟩
  · exact heq
  · cases hopen

theorem fresh_le (h : Moves client c i s s' heap fresh) : c.fresh ≤ fresh := by
  cases h with
  | place => exact Nat.le_succ _
  | _ => exact le_refl _

/-- A tuple is locked only while nobody else has it. -/
theorem locked (h : Moves client c i s s' heap fresh) (hid : id ∈ s'.locked) :
    id ∈ s.locked ∨ ∀ j t, j ≠ i → c.sessions[j]? = some t → id ∉ t.locked := by
  cases h with
  | hit _ _ free =>
    rcases List.mem_cons.mp hid with rfl | hid
    · exact Or.inr free
    · exact Or.inl hid
  | place _ _ free =>
    rcases List.mem_cons.mp hid with rfl | hid
    · exact Or.inr free
    · exact Or.inl hid
  | commit | rollback | fail => cases hid
  | _ => exact Or.inl hid

theorem held (h : Moves client c i s s' heap fresh) (hk : k ∈ s'.held) :
    k ∈ s.held ∨ ∀ j t, j ≠ i → c.sessions[j]? = some t → k ∉ t.held := by
  cases h with
  | lock _ free =>
    rcases List.mem_cons.mp hk with rfl | hk
    · exact Or.inr free
    · exact Or.inl hk
  | commit | rollback | fail => cases hk
  | _ => exact Or.inl hk

/-- A session that is over stays as it is. -/
theorem not_over (h : Moves client c i s s' heap fresh) : s.stage.over = false := by
  cases h with
  | fail hover => exact hover
  | _ => rename_i hstage; simp_all [Stage.over]

end Moves

/-! ## Sessions after a step -/

theorem getElem?_set_cases {l : List (Session ρ κ γ α)} (ht : (l.set i s')[j]? = some t) :
    j = i ∧ t = s' ∨ j ≠ i ∧ l[j]? = some t := by
  rw [List.getElem?_set] at ht
  split at ht
  · rename_i heq
    split at ht
    · exact Or.inl ⟨heq.symm, (Option.some.inj ht).symm⟩
    · cases ht
  · rename_i hne
    exact Or.inr ⟨fun h => hne h.symm, ht⟩

theorem getElem?_concat_cases {l : List (Session ρ κ γ α)} (ht : (l ++ [s'])[j]? = some t) :
    l[j]? = some t ∨ j = l.length ∧ t = s' := by
  rw [List.getElem?_append] at ht
  split at ht
  · exact Or.inl ht
  · rename_i hlen
    have hj : j - l.length = 0 := by
      by_contra hne
      rw [List.getElem?_eq_none (by simp; omega)] at ht
      cases ht
    rw [hj] at ht
    exact Or.inr ⟨by omega, (Option.some.inj ht).symm⟩

/-- A session before a step of another or of its own. -/
theorem Moves.before {heap : Heap ρ} {fresh : Nat} (hmove : Moves client c i s s' heap fresh)
    (hs : c.sessions[i]? = some s) (ht : (c.sessions.set i s')[j]? = some t) :
    ∃ t₀, c.sessions[j]? = some t₀ ∧ t.call = t₀.call ∧
      (t.stage.over = false → t₀.stage.over = false) := by
  rcases getElem?_set_cases ht with ⟨rfl, rfl⟩ | ⟨_, ht⟩
  · exact ⟨s, hs, hmove.call, fun _ => hmove.not_over⟩
  · exact ⟨t, ht, rfl, id⟩

/-- A session after a step of another or of its own. -/
theorem Moves.after {heap : Heap ρ} {fresh : Nat} (hmove : Moves client c i s s' heap fresh)
    (hs : c.sessions[i]? = some s) (ht : c.sessions[j]? = some t) :
    ∃ t', (c.sessions.set i s')[j]? = some t' ∧ t'.call = t.call := by
  by_cases hij : j = i
  · subst hij
    obtain rfl := Option.some.inj (hs.symm.trans ht)
    exact ⟨s', List.getElem?_set_self (List.getElem?_eq_some_iff.mp hs).1, hmove.call⟩
  · exact ⟨t, (List.getElem?_set_ne fun heq => hij heq.symm).trans ht, rfl⟩

end ReadCommitted
