-- SUMMARY: Sequential runs whose limiter is a given state machine: each call is let through or refused as that machine decides.
import Sulis.Discipline.Screening
import Sulis.Interaction.Sequential
import Sulis.Model.Limiter

/-!
# Runs under a limiter

The limiter is part of the environment, so a run says what it answered. `Obeys`
says that the answers are those of a given limiter, started in a given state, with
every question of the `i`-th operation asked at that operation's time. In a
sequential run this decides which operations are screened out.
-/

namespace Sulis

open Interaction Interaction.System

variable [Platform] {cfg : Config} (L : Limiter) (times : Nat → Time)

namespace Limiter

/-- The state of the limiter after a trace. -/
def after (s₀ : L.State) : List (Entry cfg) → L.State
  | [] => s₀
  | e :: past =>
    match e.op with
    | .allow key => (L.allow (after s₀ past) key (times e.tid)).2
    | _ => after s₀ past

/-- Every question to the limiter got the limiter's answer. -/
def Obeys (s₀ : L.State) (trace : List (Entry cfg)) : Prop :=
  ∀ later e past, trace = later ++ e :: past → ∀ key r, e.event = ⟨.allow key, r⟩ →
    r = (L.allow (L.after times s₀ past) key (times e.tid)).1

/-- `Obeys`, to be computed. -/
def obeyed (s₀ : L.State) : List (Entry cfg) → Bool
  | [] => true
  | e :: past =>
    obeyed s₀ past &&
      match e.event with
      | ⟨.allow key, r⟩ => r = (L.allow (L.after times s₀ past) key (times e.tid)).1
      | _ => true

/-- Ask about one key after the other, up to the first refusal. -/
def screen (now : Time) : L.State → List String → Bool × L.State
  | s, [] => (true, s)
  | s, key :: keys =>
    match L.allow s key now with
    | (.ok _, s') => screen now s' keys
    | (.error _, s') => (false, s')

/-- Questions with their answers, most recent first, as the limiter gives them. -/
def Replays (now : Time) (s : L.State) : List (String × Except Err Unit) → L.State → Prop
  | [], s' => s' = s
  | (key, r) :: rest, s' => ∃ s₁, Replays now s rest s₁ ∧ L.allow s₁ key now = (r, s')

variable {L times}

theorem Obeys.suffix {s₀ : L.State} {later past : List (Entry cfg)}
    (h : L.Obeys times s₀ (later ++ past)) : L.Obeys times s₀ past :=
  fun later' e past' heq => h (later ++ later') e past' (by rw [heq]; simp)

theorem obeys_of_obeyed {s₀ : L.State} {trace : List (Entry cfg)}
    (h : L.obeyed times s₀ trace = true) : L.Obeys times s₀ trace := by
  induction trace with
  | nil => exact fun later e past heq => absurd heq (by simp)
  | cons e trace ih =>
    rw [obeyed, Bool.and_eq_true] at h
    intro later e' past heq key r hev
    cases later with
    | nil =>
      simp only [List.nil_append, List.cons.injEq] at heq
      obtain ⟨rfl, rfl⟩ := heq
      have hlast := h.2
      rw [hev] at hlast
      exact of_decide_eq_true hlast
    | cons a later =>
      simp only [List.cons_append, List.cons.injEq] at heq
      exact ih h.1 later e' past heq.2 key r hev

/-- Entries of one operation replay their questions. -/
theorem Obeys.replays {s₀ : L.State} {own past : List (Entry cfg)} {i : Nat}
    (hown : ∀ e ∈ own, e.tid = i) (h : L.Obeys times s₀ (own ++ past)) :
    L.Replays (times i) (L.after times s₀ past) (asks (own.map Entry.event))
      (L.after times s₀ (own ++ past)) := by
  induction own with
  | nil => exact rfl
  | cons e own ih =>
    have hprev := ih (fun e' he' => hown e' (List.mem_cons_of_mem _ he')) (Obeys.suffix (show L.Obeys times s₀ ([e] ++ (own ++ past)) from h))
    have htid := hown e List.mem_cons_self
    obtain ⟨tid, call, op, ch, r, pre, post⟩ := e
    cases op with
    | allow key =>
      have hr := h [] _ (own ++ past) rfl key r rfl
      refine ⟨_, hprev, ?_⟩
      rw [hr, show times i = times tid by rw [← htid]]
      rfl
    | _ => exact hprev

omit [Platform] in
theorem screen_ok {now : Time} {s s' : L.State} {key : String} {keys : List String}
    (h : L.allow s key now = (.ok (), s')) :
    L.screen now s (key :: keys) = L.screen now s' keys := by
  rw [screen, h]

omit [Platform] in
theorem screen_append {now : Time} {s s₁ : L.State} {keys rest : List String}
    (h : L.screen now s keys = (true, s₁)) :
    L.screen now s (keys ++ rest) = L.screen now s₁ rest := by
  induction keys generalizing s with
  | nil => cases h; rfl
  | cons key keys ih =>
    simp only [List.cons_append, screen] at h ⊢
    split at h
    · exact ih h
    · cases h

omit [Platform] in
/-- Questions that were let through screen nobody out. -/
theorem Replays.screen {now : Time} {s s' : L.State} {keys : List String}
    (h : L.Replays now s (keys.map (·, Except.ok ())).reverse s') :
    L.screen now s keys = (true, s') := by
  induction keys using List.reverseRecOn generalizing s' with
  | nil => cases h; rfl
  | append_singleton keys key ih =>
    rw [List.map_append, List.reverse_append] at h
    obtain ⟨s₁, h₁, hallow⟩ := h
    rw [screen_append (ih h₁), Limiter.screen, hallow]
    rfl

omit [Platform] in
/-- A refused question screens the operation out. -/
theorem Replays.screen_refused {now : Time} {s s' : L.State} {let_ rest : List String} {key : String}
    {err : Err}
    (h : L.Replays now s ((key, .error err) :: (let_.map (·, Except.ok ())).reverse) s') :
    L.screen now s (let_ ++ key :: rest) = (false, s') := by
  obtain ⟨s₁, h₁, hallow⟩ := h
  rw [screen_append h₁.screen, Limiter.screen, hallow]

end Limiter

variable {L times}

/-- What screening makes of an operation decides its outcome, and how it leaves the
    limiter. -/
theorem Screened.decided {α : Type} {keys : List String} {V : Option Err → Prop} {r : Except Err α}
    {s₀ : L.State} {own past : List (Entry cfg)} {i : Nat} (hown : ∀ e ∈ own, e.tid = i)
    (hobeys : L.Obeys times s₀ (own ++ past)) (hs : Screened keys V (own.map Entry.event) r) :
    (L.screen (times i) (L.after times s₀ past) keys =
        (true, L.after times s₀ (own ++ past)) ∧ V (errorOf r)) ∨
      (L.screen (times i) (L.after times s₀ past) keys =
        (false, L.after times s₀ (own ++ past)) ∧ errorOf r = some .rateLimited) := by
  have hreplays := hobeys.replays hown
  rcases hs with ⟨hasks, hV⟩ | ⟨let_, key, rest, err, rfl, hasks, herr⟩
  · rw [hasks] at hreplays
    exact Or.inl ⟨hreplays.screen, hV⟩
  · rw [hasks] at hreplays
    exact Or.inr ⟨hreplays.screen_refused, herr⟩

/-! ## Calls by outsiders -/

/-- The four operations are called one after the other, by anybody, under a limiter. -/
structure Visited (L : Limiter) (times : Nat → Time) (s₀ : L.State) (w₀ : World)
    (bs : List (Call × List Choice)) (c : Run cfg) : Prop where
  run : (Config.start w₀).runBlocks bs = some c
  outside : ∀ b ∈ bs, b.1.screen? ≠ none
  obeys : L.Obeys times s₀ c.trace

namespace Visited

variable {s₀ : L.State} {w₀ : World} {bs : List (Call × List Choice)} {c : Run cfg}

theorem sequential (hp : Visited L times s₀ w₀ bs c) : c.Sequential :=
  (Config.sequential_start _).runBlocks hp.run

theorem invoked (hp : Visited L times s₀ w₀ bs c) :
    c.threads.map Thread.call = bs.map Prod.fst := by
  simpa [Config.start] using Config.runBlocks_calls hp.run

/-- Every entry belongs to one of the calls. -/
theorem entry_call (hp : Visited L times s₀ w₀ bs c) {e : Entry cfg} (he : e ∈ c.trace) :
    e.call ∈ bs.map Prod.fst ∧ e.call.screen? ≠ none := by
  obtain ⟨as, hrun⟩ := Config.runBlocks_run hp.run
  obtain ⟨t, ht, hcall⟩ := (run_sound hrun).owner e he
  have hmem : e.call ∈ bs.map Prod.fst := by
    rw [← hp.invoked, ← hcall]
    exact List.mem_map_of_mem (List.mem_of_getElem? ht)
  obtain ⟨b, hb, hbcall⟩ := List.mem_map.mp hmem
  exact ⟨hmem, hbcall ▸ hp.outside b hb⟩

theorem returned (hp : Visited L times s₀ w₀ bs c) {i : Nat} {b : Call × List Choice}
    (hb : bs[i]? = some b) : ∃ out : Except Err b.1.Ret, c.Returned i b.1 out :=
  Config.runBlocks_returned hp.run hb

variable {G : Call → (op : Op) → op.Res → Prop} {V : Call → Option Err → Prop}

/-- What the programs do when they are answered as `G` has it, the calls of the run
    have done if they were. -/
theorem screened (hp : Visited L times s₀ w₀ bs c)
    (hprogram : ∀ call : Call, call.screen? ≠ none →
      Prog.Results (Service.answering (G call)) (call.program cfg) []
        (Screened (call.keys cfg) (V call)))
    (hG : ∀ e ∈ c.trace, G e.call e.op e.res) {i : Nat} {b : Call × List Choice}
    (hb : bs[i]? = some b) {out : Except Err b.1.Ret} (hret : c.Returned i b.1 out) :
    Screened (b.1.keys cfg) (V b.1) (history i c.trace) out := by
  obtain ⟨as, hrun⟩ := Config.runBlocks_run hp.run
  have hsound : c.Sound (fun _ _ _ => True) (fun (call : Call) h (out : Except Err call.Ret) =>
      (∀ ev ∈ h, G call ev.1 ev.2) → call.screen? ≠ none →
        Screened (call.keys cfg) (V call) h out) w₀ := by
    refine Config.sound_start.run (fun call => ?_) hrun
    by_cases hnone : call.screen? = none
    · exact Prog.along_trivial (fun _ _ => trivial) (fun _ _ _ h => absurd hnone h) []
    · refine Prog.Along.mono (Prog.Along.assuming (fun _ _ => trivial)
        (hprogram call hnone).along) ?_
      exact fun _ _ _ h hans _ => h hans
  refine hsound.returned hret (fun ev hev => ?_) (hp.outside b (List.mem_of_getElem? hb))
  obtain ⟨e, he, htid, rfl⟩ := mem_history.mp hev
  have hans := hG e he
  rwa [run_call hrun hret he htid] at hans

/-- The limiter decides one call after the other. -/
theorem decided (hp : Visited L times s₀ w₀ bs c) {keys : List String} {V : Option Err → Prop}
    {α : Type} {r : Except Err α} {i : Nat} (hs : Screened keys V (history i c.trace) r) :
    (L.screen (times i) (L.after times s₀ (c.before i)) keys =
        (true, L.after times s₀ (c.before (i + 1))) ∧ V (errorOf r)) ∨
      (L.screen (times i) (L.after times s₀ (c.before i)) keys =
        (false, L.after times s₀ (c.before (i + 1))) ∧ errorOf r = some .rateLimited) := by
  obtain ⟨later, htrace, -⟩ := hp.sequential.split_at i
  have hobeys : L.Obeys times s₀ (c.own i ++ c.before i) :=
    Limiter.Obeys.suffix (show L.Obeys times s₀ (later ++ _) from htrace ▸ hp.obeys)
  rw [hp.sequential.before_succ]
  rw [Config.history_own] at hs
  exact hs.decided (fun e he => Config.own_tid he) hobeys

end Visited

end Sulis
