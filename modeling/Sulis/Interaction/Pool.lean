-- SUMMARY: Interleaved runs of many programs over one world, their traces, and the rules that carry path proofs to runs.
import Sulis.Interaction.Path

/-!
# Interleaved runs

A `System` is a world that serves calls and a family of bodies that make them.
A configuration holds the world, the threads and the trace of every call served
so far, most recent first. Any thread may take the next step, so a run at the
granularity of single calls is a list of actions.

`Valid` is what a run looks like to somebody who no longer knows the programs:
each entry of the trace was served by the world it found, and was allowed by the
discipline of its call at the history of its own thread.
-/

namespace Interaction

structure System (S : Sig) where
  World : Type
  Choice : Type
  /-- The answer to a call and the world after it. `none` marks a choice the
      environment cannot make. -/
  serve : World → (op : S.Op) → Choice → Option (S.Res op × World)
  Call : Type
  Out : Call → Type
  body : (c : Call) → Prog S (Out c)

namespace System

variable {S : Sig} (Y : System S)

/-- The answers that some world can give. -/
def Legal (op : S.Op) (r : S.Res op) : Prop :=
  ∃ w ch w', Y.serve w op ch = some (r, w')

/-- One served call: who made it, on behalf of which invocation, and the worlds
    around it. -/
structure Entry where
  tid : Nat
  call : Y.Call
  op : S.Op
  choice : Y.Choice
  res : S.Res op
  pre : Y.World
  post : Y.World

structure Thread where
  call : Y.Call
  rest : Prog S (Y.Out call)

structure Config where
  world : Y.World
  threads : List Y.Thread
  trace : List Y.Entry

inductive Action
  | invoke (c : Y.Call)
  | step (i : Nat) (ch : Y.Choice)

variable {Y}

def Entry.event (e : Y.Entry) : Event S := ⟨e.op, e.res⟩

/-- The calls of one thread, most recent first. -/
def history (i : Nat) (trace : List Y.Entry) : List (Event S) :=
  (trace.filter (fun e => e.tid = i)).map Entry.event

@[simp] theorem history_nil (i : Nat) : history i ([] : List Y.Entry) = [] := rfl

theorem history_cons_self (e : Y.Entry) (trace : List Y.Entry) :
    history e.tid (e :: trace) = e.event :: history e.tid trace := by
  simp [history]

theorem history_cons_of_ne {i : Nat} {e : Y.Entry} (h : e.tid ≠ i) (trace : List Y.Entry) :
    history i (e :: trace) = history i trace := by
  simp [history, h]

theorem history_append (i : Nat) (later past : List Y.Entry) :
    history i (later ++ past) = history i later ++ history i past := by
  simp [history]

theorem history_suffix {past trace : List Y.Entry} (h : past <:+ trace) (i : Nat) :
    history i past <:+ history i trace := by
  obtain ⟨later, rfl⟩ := h
  rw [history_append]
  exact List.suffix_append _ _

theorem mem_history {i : Nat} {trace : List Y.Entry} {ev : Event S} :
    ev ∈ history i trace ↔ ∃ e ∈ trace, e.tid = i ∧ e.event = ev := by
  simp [history, and_assoc]

theorem history_eq_nil {i : Nat} {trace : List Y.Entry} (h : ∀ e ∈ trace, e.tid ≠ i) :
    history i trace = [] := by
  simp only [history, List.map_eq_nil_iff, List.filter_eq_nil_iff, decide_eq_true_eq]
  exact h

/-- A call in the middle of a thread's history is an entry in the middle of the
    trace, with the same past. -/
theorem history_split {i : Nat} {trace : List Y.Entry} {h₁ h₂ : List (Event S)} {ev : Event S}
    (h : history i trace = h₁ ++ ev :: h₂) :
    ∃ later e past, trace = later ++ e :: past ∧ e.tid = i ∧ e.event = ev ∧
      history i later = h₁ ∧ history i past = h₂ := by
  induction trace generalizing h₁ with
  | nil => simp at h
  | cons a trace ih =>
    by_cases ha : a.tid = i
    · subst ha
      rw [history_cons_self] at h
      cases h₁ with
      | nil =>
        simp only [List.nil_append, List.cons.injEq] at h
        exact ⟨[], a, trace, rfl, rfl, h.1, rfl, h.2⟩
      | cons b h₁ =>
        simp only [List.cons_append, List.cons.injEq] at h
        obtain ⟨later, e, past, rfl, he, hev, hl, hp⟩ := ih h.2
        refine ⟨a :: later, e, past, rfl, he, hev, ?_, hp⟩
        rw [history_cons_self, hl, h.1]
    · rw [history_cons_of_ne ha] at h
      obtain ⟨later, e, past, rfl, he, hev, hl, hp⟩ := ih h
      refine ⟨a :: later, e, past, rfl, he, hev, ?_, hp⟩
      rw [history_cons_of_ne ha, hl]

/-! ## Running -/

/-- A fresh system: no thread has been started. -/
def Config.start (w : Y.World) : Y.Config := ⟨w, [], []⟩

def Config.act (c : Y.Config) : Y.Action → Option Y.Config
  | .invoke call => some { c with threads := c.threads ++ [⟨call, Y.body call⟩] }
  | .step i ch =>
    match c.threads[i]? with
    | some ⟨call, .call op k⟩ =>
      match Y.serve c.world op ch with
      | some (r, w) =>
        some
          { world := w
            threads := c.threads.set i ⟨call, k r⟩
            trace := ⟨i, call, op, ch, r, c.world, w⟩ :: c.trace }
      | none => none
    | _ => none

def Config.run (c : Y.Config) : List Y.Action → Option Y.Config
  | [] => some c
  | a :: as => (c.act a).bind (fun c' => c'.run as)

/-- Thread `i` runs `call` and has returned `out`. -/
def Config.Returned (c : Y.Config) (i : Nat) (call : Y.Call) (out : Y.Out call) : Prop :=
  c.threads[i]? = some ⟨call, .ret out⟩

/-- Every thread has returned. -/
def Config.Quiescent (c : Y.Config) : Prop :=
  ∀ t ∈ c.threads, t.rest.value?.isSome

theorem Config.act_step {c c' : Y.Config} {i : Nat} {ch : Y.Choice}
    (h : c.act (.step i ch) = some c') :
    ∃ call op k r w, c.threads[i]? = some ⟨call, .call op k⟩ ∧
      Y.serve c.world op ch = some (r, w) ∧
      c' =
        { world := w
          threads := c.threads.set i ⟨call, k r⟩
          trace := ⟨i, call, op, ch, r, c.world, w⟩ :: c.trace } := by
  simp only [Config.act] at h
  split at h
  · rename_i call op k ht
    split at h
    · rename_i r w hs
      exact ⟨call, op, k, r, w, ht, hs, (Option.some.inj h).symm⟩
    · cases h
  · cases h

theorem Config.run_append {c : Y.Config} {as bs : List Y.Action} :
    c.run (as ++ bs) = (c.run as).bind (fun c' => c'.run bs) := by
  induction as generalizing c with
  | nil => rfl
  | cons a as ih =>
    simp only [List.cons_append, Config.run]
    cases c.act a with
    | none => rfl
    | some c₁ => exact ih

/-- The invariant rule: what every action keeps holds at the end of every run. -/
theorem Config.run_induction {P : Y.Config → Prop}
    (hact : ∀ c a c', P c → c.act a = some c' → P c') {c c' : Y.Config} {as : List Y.Action}
    (hc : P c) (h : c.run as = some c') : P c' := by
  induction as generalizing c with
  | nil => cases h; exact hc
  | cons a as ih =>
    simp only [Config.run, Option.bind_eq_some_iff] at h
    obtain ⟨c₁, h₁, h₂⟩ := h
    exact ih (hact c a c₁ hc h₁) h₂

/-! ## What a run leaves in the trace -/

/-- A trace from `w₀` to the given world: every entry was served by the world it
    found and allowed, for its call, by what its own thread had done before. -/
inductive Valid (J : Y.Call → List (Event S) → S.Op → Prop) (w₀ : Y.World) :
    List Y.Entry → Y.World → Prop
  | nil : Valid J w₀ [] w₀
  | cons (e : Y.Entry) (past : List Y.Entry) (hpast : Valid J w₀ past e.pre)
      (hserve : Y.serve e.pre e.op e.choice = some (e.res, e.post))
      (hallow : J e.call (history e.tid past) e.op)
      (hcall : ∀ e' ∈ past, e'.tid = e.tid → e'.call = e.call) :
      Valid J w₀ (e :: past) e.post

section Sound

variable {J : Y.Call → List (Event S) → S.Op → Prop}
  {Q : (c : Y.Call) → List (Event S) → Y.Out c → Prop} {w₀ : Y.World}

theorem Valid.past {later past : List Y.Entry} {w : Y.World}
    (h : Valid J w₀ (later ++ past) w) : ∃ w', Valid J w₀ past w' := by
  induction later generalizing w with
  | nil => exact ⟨w, h⟩
  | cons e later ih =>
    cases h with
    | cons _ _ hpast _ _ _ => exact ih hpast

/-- An entry in the middle of a valid trace has everything the rule for `cons`
    asked of it. -/
theorem Valid.entry {later past : List Y.Entry} {e : Y.Entry} {w : Y.World}
    (h : Valid J w₀ (later ++ e :: past) w) :
    Valid J w₀ past e.pre ∧ Y.serve e.pre e.op e.choice = some (e.res, e.post) ∧
      J e.call (history e.tid past) e.op ∧ ∀ e' ∈ past, e'.tid = e.tid → e'.call = e.call := by
  obtain ⟨w', h'⟩ := h.past
  cases h' with
  | cons _ _ hpast hserve hallow hcall => exact ⟨hpast, hserve, hallow, hcall⟩

/-- The trace up to and including an entry leads to the world after it. -/
theorem Valid.upto {later past : List Y.Entry} {e : Y.Entry} {w : Y.World}
    (h : Valid J w₀ (later ++ e :: past) w) : Valid J w₀ (e :: past) e.post := by
  obtain ⟨hpast, hserve, hallow, hcall⟩ := h.entry
  exact .cons e past hpast hserve hallow hcall

theorem Entry.event_of_op {e : Y.Entry} {op : S.Op} (hop : e.op = op) :
    ∃ r : S.Res op, e.event = ⟨op, r⟩ := by
  subst hop
  exact ⟨e.res, rfl⟩

theorem Entry.served {e : Y.Entry} {op : S.Op} {r : S.Res op} (hev : e.event = ⟨op, r⟩)
    (hserve : Y.serve e.pre e.op e.choice = some (e.res, e.post)) :
    Y.serve e.pre op e.choice = some (r, e.post) := by
  obtain ⟨tid, call, op', choice, res, pre, post⟩ := e
  cases hev
  exact hserve

/-- A call in the middle of a valid trace was allowed where it was made. -/
theorem Valid.allowed {later past : List Y.Entry} {e : Y.Entry} {w : Y.World}
    (h : Valid J w₀ (later ++ e :: past) w) {op : S.Op} {r : S.Res op} (hev : e.event = ⟨op, r⟩) :
    J e.call (history e.tid past) op := by
  have hop : e.op = op := congrArg Sigma.fst hev
  rw [← hop]
  exact h.entry.2.2.1

/-- A call in the history of a thread was served in the worlds of its entry. -/
theorem Valid.served {trace : List Y.Entry} {w : Y.World} (h : Valid J w₀ trace w) {e : Y.Entry}
    (he : e ∈ trace) {op : S.Op} {r : S.Res op} (hev : e.event = ⟨op, r⟩) :
    Y.serve e.pre op e.choice = some (r, e.post) := by
  obtain ⟨later, past, rfl⟩ := List.append_of_mem he
  exact Entry.served hev h.entry.2.1

/-- A thread makes all its calls on behalf of one invocation. -/
theorem Valid.call_eq {trace : List Y.Entry} {w : Y.World} (h : Valid J w₀ trace w) {e e' : Y.Entry}
    (he : e ∈ trace) (he' : e' ∈ trace) (htid : e.tid = e'.tid) : e.call = e'.call := by
  induction h with
  | nil => cases he
  | cons a past hpast hserve hallow hcall ih =>
    rcases List.mem_cons.mp he with rfl | hep
    · rcases List.mem_cons.mp he' with rfl | hep'
      · rfl
      · exact (hcall e' hep' htid.symm).symm
    · rcases List.mem_cons.mp he' with rfl | hep'
      · exact hcall e hep htid
      · exact ih hep hep'

/-- The world only moves through the entries of the trace, so what every entry
    keeps still holds at the end. -/
theorem Valid.world_induction {P : Y.World → Prop} {later past : List Y.Entry} {w w' : Y.World}
    (hpast : Valid J w₀ past w') (h : Valid J w₀ (later ++ past) w) (hP : P w')
    (hstep : ∀ l₁ l₂ e, later = l₁ ++ e :: l₂ → Valid J w₀ (l₂ ++ past) e.pre →
      Y.serve e.pre e.op e.choice = some (e.res, e.post) →
      J e.call (history e.tid (l₂ ++ past)) e.op → P e.pre → P e.post) : P w := by
  induction later generalizing w with
  | nil =>
    simp only [List.nil_append] at h
    cases hpast with
    | nil => cases h; exact hP
    | cons => cases h; exact hP
  | cons e later ih =>
    cases h with
    | cons _ _ hpre hserve hallow _ =>
      refine hstep [] later e rfl hpre hserve hallow (ih hpre ?_)
      intro l₁ l₂ e' heq
      exact hstep (e :: l₁) l₂ e' (by rw [heq]; rfl)

/-- Two places in one list are the same, or one of them comes after the other. -/
theorem append_cons_cases {α : Type} {l l' p p' : List α} {a a' : α}
    (h : l ++ a :: p = l' ++ a' :: p') :
    (l = l' ∧ a = a' ∧ p = p') ∨ (∃ mid, p = mid ++ a' :: p') ∨ ∃ mid, p' = mid ++ a :: p := by
  rcases List.append_eq_append_iff.mp h with ⟨mid, hl, hp⟩ | ⟨mid, hl, hp⟩
  · cases mid with
    | nil =>
      simp only [List.append_nil, List.nil_append, List.cons.injEq] at hl hp
      exact Or.inl ⟨hl.symm, hp.1, hp.2⟩
    | cons x mid =>
      simp only [List.cons_append, List.cons.injEq] at hp
      exact Or.inr (Or.inl ⟨mid, hp.2⟩)
  · cases mid with
    | nil =>
      simp only [List.append_nil, List.nil_append, List.cons.injEq] at hl hp
      exact Or.inl ⟨hl, hp.1.symm, hp.2.symm⟩
    | cons x mid =>
      simp only [List.cons_append, List.cons.injEq] at hp
      exact Or.inr (Or.inr ⟨mid, hp.2⟩)

/-- A kind of call that a thread does not make again is made once by each thread. -/
theorem event_once {P : Event S → Prop} {trace : List Y.Entry}
    (hnot : ∀ later e past, trace = later ++ e :: past → P e.event →
      ∀ ev ∈ history e.tid past, ¬ P ev) {i : Nat} {ev ev' : Event S} (h : ev ∈ history i trace)
    (h' : ev' ∈ history i trace) (hP : P ev) (hP' : P ev') : ev = ev' := by
  obtain ⟨e, he, rfl, rfl⟩ := mem_history.mp h
  obtain ⟨e', he', htid, rfl⟩ := mem_history.mp h'
  obtain ⟨l, p, htrace⟩ := List.append_of_mem he
  obtain ⟨l', p', htrace'⟩ := List.append_of_mem he'
  rcases append_cons_cases (htrace.symm.trans htrace') with h | ⟨mid, hp⟩ | ⟨mid, hp⟩
  · rw [h.2.1]
  · exact absurd hP' (hnot l e p htrace hP _ (mem_history.mpr ⟨e', by rw [hp]; simp, htid, rfl⟩))
  · exact absurd hP (hnot l' e' p' htrace' hP' _
      (mem_history.mpr ⟨e, by rw [hp]; simp, htid.symm, rfl⟩))

/-- A supply of values the world never hands out twice. -/
structure Supply (Y : System S) (V : Type) where
  used : Y.World → List V
  drawn? : Event S → Option V
  draws : ∀ {w ch op r w'}, Y.serve w op ch = some (r, w') →
    used w' = (drawn? ⟨op, r⟩).toList ++ used w ∧ ∀ v, drawn? ⟨op, r⟩ = some v → v ∉ used w

theorem Valid.used_eq {V : Type} (P : Supply Y V) {trace : List Y.Entry} {w : Y.World}
    (h : Valid J w₀ trace w) :
    P.used w = trace.filterMap (fun e => P.drawn? e.event) ++ P.used w₀ := by
  induction h with
  | nil => rfl
  | cons e past _ hserve _ _ ih =>
    rw [(P.draws hserve).1, ih, List.filterMap_cons]
    show (P.drawn? e.event).toList ++ _ = _
    cases P.drawn? e.event with
    | none => rfl
    | some v => rfl

theorem Valid.used {V : Type} (P : Supply Y V) {trace : List Y.Entry} {w : Y.World}
    (h : Valid J w₀ trace w) {e : Y.Entry} (he : e ∈ trace) {v : V}
    (hv : P.drawn? e.event = some v) : v ∈ P.used w := by
  rw [h.used_eq P]
  exact List.mem_append_left _ (List.mem_filterMap.mpr ⟨e, he, hv⟩)

theorem Valid.used_start {V : Type} (P : Supply Y V) {trace : List Y.Entry} {w : Y.World}
    (h : Valid J w₀ trace w) {v : V} (hv : v ∈ P.used w₀) : v ∈ P.used w := by
  rw [h.used_eq P]
  exact List.mem_append_right _ hv

theorem Valid.used_nodup {V : Type} (P : Supply Y V) {trace : List Y.Entry} {w : Y.World}
    (h : Valid J w₀ trace w) (hstart : (P.used w₀).Nodup) : (P.used w).Nodup := by
  induction h with
  | nil => exact hstart
  | cons e past _ hserve _ _ ih =>
    obtain ⟨hused, hfresh⟩ := P.draws hserve
    rw [hused]
    cases hdrawn : P.drawn? ⟨e.op, e.res⟩ with
    | none => exact ih
    | some v => exact List.nodup_cons.mpr ⟨hfresh v hdrawn, ih⟩

private theorem Valid.handed_not_after {V : Type} (P : Supply Y V) {trace : List Y.Entry} {w : Y.World}
    (h : Valid J w₀ trace w) {later past : List Y.Entry} {e e' : Y.Entry}
    (htrace : trace = later ++ e :: past) (he' : e' ∈ past) {v : V} (hv : P.drawn? e.event = some v)
    (hv' : P.drawn? e'.event = some v) : False := by
  subst htrace
  obtain ⟨hpast, hserve, _⟩ := h.entry
  exact (P.draws hserve).2 v hv (hpast.used P he' hv')

/-- What a supply handed out, it handed out at one place of the trace. -/
theorem Valid.handed_once {V : Type} (P : Supply Y V) {trace : List Y.Entry} {w : Y.World}
    (h : Valid J w₀ trace w) {later later' past past' : List Y.Entry} {e e' : Y.Entry}
    (htrace : trace = later ++ e :: past) (htrace' : trace = later' ++ e' :: past') {v : V}
    (hv : P.drawn? e.event = some v) (hv' : P.drawn? e'.event = some v) :
    later = later' ∧ e = e' ∧ past = past' := by
  rcases append_cons_cases (htrace.symm.trans htrace') with h' | ⟨mid, hp⟩ | ⟨mid, hp⟩
  · exact h'
  · exact (h.handed_not_after P htrace (by rw [hp]; simp) hv hv').elim
  · exact (h.handed_not_after P htrace' (by rw [hp]; simp) hv' hv).elim

/-- Two calls made with the same value are the same call, if neither was made
    between the other one and the draw of the value. -/
theorem Valid.handed_place {V : Type} (P : Supply Y V) {trace : List Y.Entry} {w : Y.World}
    (hv : Valid J w₀ trace w) {later later' past past' : List Y.Entry} {g g' : Y.Entry}
    (htrace : trace = later ++ g :: past) (htrace' : trace = later' ++ g' :: past')
    {A A' h₀ h₀' : List (Event S)} {d d' : Event S} {v : V}
    (hh : history g.tid past = A ++ d :: h₀) (hh' : history g'.tid past' = A' ++ d' :: h₀')
    (hd : P.drawn? d = some v) (hd' : P.drawn? d' = some v) (hA : ∀ ev ∈ A, ev ≠ g'.event)
    (hA' : ∀ ev ∈ A', ev ≠ g.event) : later = later' ∧ g = g' ∧ past = past' := by
  -- If the second call were older, it would lie between the draw and the first.
  have older {later past past' : List Y.Entry} {g g' : Y.Entry} {A A' h₀ h₀' : List (Event S)}
      {d d' : Event S} (htrace : trace = later ++ g :: past)
      (hh : history g.tid past = A ++ d :: h₀) (hh' : history g'.tid past' = A' ++ d' :: h₀')
      (hd : P.drawn? d = some v) (hd' : P.drawn? d' = some v) (hA : ∀ ev ∈ A, ev ≠ g'.event) {mid : List Y.Entry}
      (hpast : past = mid ++ g' :: past') : False := by
    obtain ⟨l, k, p, hk, hktid, hkev, hl, _⟩ := history_split hh
    obtain ⟨l', k', p', hk', hktid', hkev', _, _⟩ := history_split hh'
    have hplace := hv.handed_once P
      (show trace = (later ++ g :: l) ++ k :: p by rw [htrace, hk]; simp)
      (show trace = (later ++ g :: (mid ++ g' :: l')) ++ k' :: p' by
        rw [htrace, hpast, hk']; simp) (hkev ▸ hd) (hkev' ▸ hd')
    have hl' : l = mid ++ g' :: l' := by
      have := List.append_cancel_left hplace.1
      simpa using this
    have htid : g'.tid = g.tid := by rw [← hktid', ← hktid, hplace.2.1]
    refine hA g'.event ?_ rfl
    rw [← hl, hl', ← htid]
    exact mem_history.mpr ⟨g', by simp, rfl, rfl⟩
  rcases append_cons_cases (htrace.symm.trans htrace') with h | ⟨mid, hp⟩ | ⟨mid, hp⟩
  · exact h
  · exact (older htrace hh hh' hd hd' hA hp).elim
  · exact (older htrace' hh' hh hd' hd hA' hp).elim

/-- What a configuration knows about its past: the trace is valid, its entries
    belong to the threads, and each thread still follows its discipline. -/
structure Config.Sound (J : Y.Call → List (Event S) → S.Op → Prop)
    (Q : (c : Y.Call) → List (Event S) → Y.Out c → Prop) (w₀ : Y.World) (c : Y.Config) : Prop where
  valid : Valid J w₀ c.trace c.world
  owner : ∀ e ∈ c.trace, ∃ t, c.threads[e.tid]? = some t ∧ t.call = e.call
  along : ∀ (i : Nat) (t : Y.Thread), c.threads[i]? = some t →
    t.rest.Along ⟨Y.Legal, J t.call⟩ (Q t.call) (history i c.trace)

theorem Config.sound_start : (Config.start w₀).Sound J Q w₀ where
  valid := .nil
  owner := by intro e he; cases he
  along := by intro i t ht; simp [Config.start] at ht

theorem Config.Sound.invoke (hbody : ∀ call, (Y.body call).Along ⟨Y.Legal, J call⟩ (Q call) [])
    {c : Y.Config} (hc : c.Sound J Q w₀) (call : Y.Call) :
    Config.Sound J Q w₀ { c with threads := c.threads ++ [⟨call, Y.body call⟩] } where
  valid := hc.valid
  owner := by
    intro e he
    obtain ⟨t, ht, hcall⟩ := hc.owner e he
    exact ⟨t, by rw [List.getElem?_append_left (List.getElem?_eq_some_iff.mp ht).1]; exact ht, hcall⟩
  along := by
    intro i t ht
    rcases Nat.lt_or_ge i c.threads.length with hi | hi
    · rw [List.getElem?_append_left hi] at ht
      exact hc.along i t ht
    · -- The new thread has made no call: every entry belongs to an older one.
      have hnone : history i c.trace = [] := by
        refine history_eq_nil (fun e he heq => ?_)
        obtain ⟨t', ht', _⟩ := hc.owner e he
        have := (List.getElem?_eq_some_iff.mp ht').1
        omega
      rw [List.getElem?_append_right hi] at ht
      have hi' : i - c.threads.length = 0 := by
        have := (List.getElem?_eq_some_iff.mp ht).1
        simpa using this
      rw [hi'] at ht
      simp only [List.getElem?_cons_zero, Option.some.injEq] at ht
      subst ht
      simp only [hnone]
      exact hbody call

theorem Config.Sound.step {c : Y.Config} (hc : c.Sound J Q w₀) {i : Nat} {ch : Y.Choice}
    {call : Y.Call} {op : S.Op} {k : S.Res op → Prog S (Y.Out call)} {r : S.Res op} {w : Y.World}
    (ht : c.threads[i]? = some ⟨call, .call op k⟩) (hs : Y.serve c.world op ch = some (r, w)) :
    Config.Sound J Q w₀
      { world := w
        threads := c.threads.set i ⟨call, k r⟩
        trace := ⟨i, call, op, ch, r, c.world, w⟩ :: c.trace } := by
  have hi : i < c.threads.length := (List.getElem?_eq_some_iff.mp ht).1
  have halong := hc.along i _ ht
  constructor
  · refine Valid.cons ⟨i, call, op, ch, r, c.world, w⟩ c.trace hc.valid hs halong.1 ?_
    intro e' he' htid
    obtain ⟨t, ht', hcall⟩ := hc.owner e' he'
    simp only at htid
    rw [htid, ht, Option.some.injEq] at ht'
    subst ht'
    exact hcall.symm
  · intro e he
    by_cases hti : e.tid = i
    · refine ⟨⟨call, k r⟩, by simp only [hti, List.getElem?_set_self hi], ?_⟩
      rcases List.mem_cons.mp he with rfl | he
      · rfl
      · obtain ⟨t, ht', hcall⟩ := hc.owner e he
        rw [hti, ht, Option.some.injEq] at ht'
        subst ht'
        exact hcall
    · rcases List.mem_cons.mp he with rfl | he
      · exact absurd rfl hti
      · obtain ⟨t, ht', hcall⟩ := hc.owner e he
        exact ⟨t, by rw [List.getElem?_set_ne (Ne.symm hti)]; exact ht', hcall⟩
  · intro j t htj
    by_cases hj : i = j
    · subst hj
      rw [List.getElem?_set_self hi, Option.some.injEq] at htj
      subst htj
      have := halong.2 r ⟨_, _, _, hs⟩
      rw [show i = (Entry.mk i call op ch r c.world w : Y.Entry).tid from rfl, history_cons_self]
      exact this
    · rw [List.getElem?_set_ne hj] at htj
      rw [history_cons_of_ne (by exact hj)]
      exact hc.along j t htj

/-- Path proofs of the bodies hold along every interleaved run. -/
theorem Config.Sound.run (hbody : ∀ call, (Y.body call).Along ⟨Y.Legal, J call⟩ (Q call) [])
    {c c' : Y.Config} {as : List Y.Action} (hc : c.Sound J Q w₀) (h : c.run as = some c') :
    c'.Sound J Q w₀ := by
  refine Config.run_induction (P := Config.Sound J Q w₀) ?_ hc h
  intro c a c' hc hact
  cases a with
  | invoke call =>
    simp only [Config.act, Option.some.injEq] at hact
    subst hact
    exact hc.invoke hbody call
  | step i ch =>
    obtain ⟨call, op, k, r, w, ht, hs, rfl⟩ := Config.act_step hact
    exact hc.step ht hs

theorem Config.Sound.bounded {c : Y.Config} (hc : c.Sound J Q w₀) :
    ∀ e ∈ c.trace, e.tid < c.threads.length := by
  intro e he
  obtain ⟨t, ht, _⟩ := hc.owner e he
  exact (List.getElem?_eq_some_iff.mp ht).1

/-- Where a thread has returned, its postcondition holds of its history. -/
theorem Config.Sound.returned {c : Y.Config} (hc : c.Sound J Q w₀) {i : Nat} {call : Y.Call}
    {out : Y.Out call} (h : c.Returned i call out) : Q call (history i c.trace) out :=
  (hc.along i _ h).value rfl

end Sound

/-! ## How configurations grow -/

theorem Config.Returned.act {c c' : Y.Config} {a : Y.Action} {i : Nat} {call : Y.Call}
    {out : Y.Out call} (h : c.Returned i call out) (hact : c.act a = some c') :
    c'.Returned i call out := by
  have hi : i < c.threads.length := (List.getElem?_eq_some_iff.mp h).1
  cases a with
  | invoke call' =>
    simp only [Config.act, Option.some.injEq] at hact
    subst hact
    simp only [Config.Returned, List.getElem?_append_left hi]
    exact h
  | step j ch =>
    obtain ⟨call', op, k, r, w, ht, hs, rfl⟩ := Config.act_step hact
    have hne : j ≠ i := by
      rintro rfl
      rw [h] at ht
      simp only [Option.some.injEq, Thread.mk.injEq] at ht
      obtain ⟨rfl, hheq⟩ := ht
      cases hheq
    simp only [Config.Returned, List.getElem?_set_ne hne]
    exact h

/-- The call an action starts a thread for. -/
def Action.invoked? : Y.Action → Option Y.Call
  | .invoke call => some call
  | .step _ _ => none

/-- Threads are numbered in the order they were started in. -/
theorem Config.run_calls {c c' : Y.Config} {as : List Y.Action} (hrun : c.run as = some c') :
    c'.threads.map Thread.call = c.threads.map Thread.call ++ as.filterMap Action.invoked? := by
  induction as generalizing c with
  | nil => cases hrun; simp
  | cons a as ih =>
    simp only [Config.run, Option.bind_eq_some_iff] at hrun
    obtain ⟨c₁, hact, hrest⟩ := hrun
    rw [ih hrest]
    cases a with
    | invoke call =>
      simp only [Config.act, Option.some.injEq] at hact
      subst hact
      simp [Action.invoked?]
    | step i ch =>
      obtain ⟨call, op, k, r, w, ht, hs, rfl⟩ := Config.act_step hact
      have hcalls : (c.threads.set i ⟨call, k r⟩).map Thread.call = c.threads.map Thread.call := by
        refine List.ext_getElem? (fun j => ?_)
        rw [List.getElem?_map, List.getElem?_map, List.getElem?_set]
        split
        · rename_i hij
          subst hij
          rw [if_pos (List.getElem?_eq_some_iff.mp ht).1, ht]
          rfl
        · rfl
      rw [hcalls, List.filterMap_cons_none rfl]

/-- The calls of a run are those that were invoked in it. -/
theorem Config.mem_calls {c : Y.Config} {as : List Y.Action}
    (hrun : (Config.start w₀).run as = some c) {call : Y.Call} :
    call ∈ c.threads.map Thread.call ↔ .invoke call ∈ as := by
  rw [Config.run_calls hrun]
  refine List.mem_filterMap.trans ⟨?_, fun h => ⟨_, h, rfl⟩⟩
  rintro ⟨a, ha, hinvoked⟩
  cases a with
  | invoke call' => cases hinvoked; exact ha
  | step i ch => cases hinvoked

/-- A run only adds to the trace, and no thread that had returned adds anything. -/
theorem Config.run_trace {c c' : Y.Config} {as : List Y.Action} (hrun : c.run as = some c') :
    ∃ later, c'.trace = later ++ c.trace ∧
      ∀ e ∈ later, ∀ call out, ¬ c.Returned e.tid call out := by
  induction as generalizing c with
  | nil => cases hrun; exact ⟨[], rfl, by simp⟩
  | cons a as ih =>
    simp only [Config.run, Option.bind_eq_some_iff] at hrun
    obtain ⟨c₁, h₁, h₂⟩ := hrun
    obtain ⟨later, htrace, hlater⟩ := ih h₂
    have hkeep : ∀ e ∈ later, ∀ call out, ¬ c.Returned e.tid call out :=
      fun e he call out hret => hlater e he call out (hret.act h₁)
    cases a with
    | invoke call =>
      simp only [Config.act, Option.some.injEq] at h₁
      subst h₁
      exact ⟨later, htrace, hkeep⟩
    | step i ch =>
      obtain ⟨call, op, k, r, w, ht, hs, rfl⟩ := Config.act_step h₁
      refine ⟨later ++ [⟨i, call, op, ch, r, c.world, w⟩], by simp [htrace], ?_⟩
      intro e he call' out hret
      rcases List.mem_append.mp he with he | he
      · exact hkeep e he call' out hret
      · simp only [List.mem_singleton] at he
        subst he
        rw [Config.Returned, ht] at hret
        simp only [Option.some.injEq, Thread.mk.injEq] at hret
        obtain ⟨rfl, hheq⟩ := hret
        cases hheq

theorem Config.Quiescent.returned {c : Y.Config} (hc : c.Quiescent) {i : Nat}
    (hi : i < c.threads.length) : ∃ call out, c.Returned i call out := by
  have hmem : c.threads[i] ∈ c.threads := List.getElem_mem hi
  obtain ⟨out, hout⟩ := Option.isSome_iff_exists.mp (hc _ hmem)
  refine ⟨c.threads[i].call, out, ?_⟩
  rw [Config.Returned, List.getElem?_eq_getElem hi, ← Prog.value?_eq_some hout]

/-- After a quiescent configuration, only threads started later are active. -/
theorem Config.Quiescent.run_trace {c c' : Y.Config} {as : List Y.Action} (hc : c.Quiescent)
    (hrun : c.run as = some c') :
    ∃ later, c'.trace = later ++ c.trace ∧ ∀ e ∈ later, c.threads.length ≤ e.tid := by
  obtain ⟨later, htrace, hlater⟩ := Config.run_trace hrun
  refine ⟨later, htrace, fun e he => ?_⟩
  by_contra hlt
  obtain ⟨call, out, hret⟩ := hc.returned (Nat.lt_of_not_le hlt)
  exact hlater e he call out hret

/-- Whatever happened before a quiescent configuration comes before the calls of
    threads started later. -/
theorem Config.Quiescent.suffix_past {c c' : Y.Config} {as : List Y.Action} (hc : c.Quiescent)
    (hbound : ∀ e ∈ c.trace, e.tid < c.threads.length) (hrun : c.run as = some c')
    {l p : List Y.Entry} {d : Y.Entry} (htrace : c'.trace = l ++ d :: p)
    (hd : c.threads.length ≤ d.tid) : c.trace <:+ p := by
  obtain ⟨later, htrace', _⟩ := hc.run_trace hrun
  rcases List.append_eq_append_iff.mp (htrace'.symm.trans htrace) with ⟨mid, _, hpast⟩ | ⟨mid, _, hp⟩
  · have := hbound d (by rw [hpast]; simp)
    omega
  · cases mid with
    | nil =>
      have := hbound d (by rw [← List.nil_append c.trace, ← hp]; simp)
      omega
    | cons x mid =>
      simp only [List.cons_append, List.cons.injEq] at hp
      exact ⟨mid, hp.2.symm⟩

/-- After a call of a thread started later, only such threads make calls. -/
theorem Config.Quiescent.le_of_mem_later {c c' : Y.Config} {as : List Y.Action} (hc : c.Quiescent)
    (hbound : ∀ e ∈ c.trace, e.tid < c.threads.length) (hrun : c.run as = some c')
    {l p : List Y.Entry} {d : Y.Entry} (htrace : c'.trace = l ++ d :: p)
    (hd : c.threads.length ≤ d.tid) : ∀ e ∈ l, c.threads.length ≤ e.tid := by
  intro e he
  obtain ⟨later, htrace', hlater⟩ := hc.run_trace hrun
  obtain ⟨mid, hmid⟩ := hc.suffix_past hbound hrun htrace hd
  refine hlater e ?_
  have heq : later ++ c.trace = (l ++ d :: mid) ++ c.trace := by
    rw [← htrace', htrace, ← hmid]; simp
  rw [List.append_cancel_right heq]
  exact List.mem_append_left _ he

/-- A run that can be computed, with what can be checked about where it ends. -/
theorem computed {α : Type} {o : Option α} {P : α → Prop} [DecidablePred P]
    (h : o.any (fun a => decide (P a)) = true) : ∃ a, o = some a ∧ P a := by
  obtain ⟨a, ha, hP⟩ := (Option.any_eq_true _ _).mp h
  exact ⟨a, ha, of_decide_eq_true hP⟩

end System

end Interaction
