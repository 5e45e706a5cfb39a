-- SUMMARY: Runs in which every invocation finishes before the next one starts, and how their traces split.
import Sulis.Interaction.Pool

/-!
# Sequential runs

A block is one invocation run to its end with nothing in between. A sequential
run is a list of blocks, so its trace falls apart into what happened before a
given invocation, during it, and after it.
-/

namespace Interaction.System

variable {S : Sig} {Y : System S}

/-- Invoke a call and let it run to its end. `none` if the choices do not bring
    it there. -/
def Config.block (c : Y.Config) (call : Y.Call) (chs : List Y.Choice) : Option Y.Config :=
  (c.run (.invoke call :: chs.map (.step c.threads.length))).bind
    (fun c' => if c'.threads.all (fun t => t.rest.value?.isSome) then some c' else none)

def Config.runBlocks (c : Y.Config) : List (Y.Call × List Y.Choice) → Option Y.Config
  | [] => some c
  | (call, chs) :: bs => (c.block call chs).bind (fun c' => c'.runBlocks bs)

/-- Everything has returned, and the calls of different threads do not overlap. -/
structure Config.Sequential (c : Y.Config) : Prop where
  quiescent : c.Quiescent
  sorted : c.trace.Pairwise (fun newer older => older.tid ≤ newer.tid)
  bounded : ∀ e ∈ c.trace, e.tid < c.threads.length

theorem Config.sequential_start (w : Y.World) : (Config.start w).Sequential where
  quiescent := by intro t ht; cases ht
  sorted := .nil
  bounded := by intro e he; cases he

/-- Steps of one thread add only entries of that thread. -/
theorem Config.run_steps {c c' : Y.Config} {i : Nat} {chs : List Y.Choice}
    (h : c.run (chs.map (.step i)) = some c') :
    c'.threads.length = c.threads.length ∧
      ∃ own, c'.trace = own ++ c.trace ∧ ∀ e ∈ own, e.tid = i := by
  induction chs generalizing c with
  | nil => cases h; exact ⟨rfl, [], rfl, by simp⟩
  | cons ch chs ih =>
    simp only [List.map_cons, Config.run, Option.bind_eq_some_iff] at h
    obtain ⟨c₁, h₁, h₂⟩ := h
    obtain ⟨hlen, own, htrace, hown⟩ := ih h₂
    obtain ⟨call, op, k, r, w, ht, hs, rfl⟩ := Config.act_step h₁
    refine ⟨by rw [hlen]; simp, own ++ [⟨i, call, op, ch, r, c.world, w⟩], by simp [htrace], ?_⟩
    intro e he
    rcases List.mem_append.mp he with he | he
    · exact hown e he
    · simp only [List.mem_singleton] at he
      rw [he]

/-- A block is a run, adds one thread, and adds entries of that thread only. -/
theorem Config.block_eq_some {c c' : Y.Config} {call : Y.Call} {chs : List Y.Choice}
    (h : c.block call chs = some c') :
    c.run (.invoke call :: chs.map (.step c.threads.length)) = some c' ∧ c'.Quiescent ∧
      c'.threads.length = c.threads.length + 1 ∧
      ∃ own, c'.trace = own ++ c.trace ∧ ∀ e ∈ own, e.tid = c.threads.length := by
  simp only [Config.block, Option.bind_eq_some_iff, Option.ite_none_right_eq_some] at h
  obtain ⟨c₁, hrun, hret, hc⟩ := h
  cases hc
  refine ⟨hrun, fun t ht => List.all_eq_true.mp hret t ht, ?_⟩
  simp only [Config.run, Config.act, Option.bind_some] at hrun
  obtain ⟨hlen, hown⟩ := Config.run_steps hrun
  exact ⟨by rw [hlen]; simp, hown⟩

theorem Config.Sequential.block {c c' : Y.Config} {call : Y.Call} {chs : List Y.Choice}
    (hc : c.Sequential) (h : c.block call chs = some c') : c'.Sequential := by
  obtain ⟨_, hq, hlen, own, htrace, hown⟩ := Config.block_eq_some h
  refine ⟨hq, ?_, ?_⟩
  · rw [htrace, List.pairwise_append]
    refine ⟨?_, hc.sorted, ?_⟩
    · refine List.Pairwise.imp_of_mem ?_ (List.pairwise_of_forall (fun _ _ => trivial))
      intro a b ha hb _
      rw [hown a ha, hown b hb]
    · intro a ha b hb
      rw [hown a ha]
      exact Nat.le_of_lt (hc.bounded b hb)
  · intro e he
    rw [htrace] at he
    rcases List.mem_append.mp he with he | he
    · rw [hown e he]; omega
    · have := hc.bounded e he; omega

/-- Sequential runs are runs. -/
theorem Config.runBlocks_run {c c' : Y.Config} {bs : List (Y.Call × List Y.Choice)}
    (h : c.runBlocks bs = some c') : ∃ as, c.run as = some c' := by
  induction bs generalizing c with
  | nil => cases h; exact ⟨[], rfl⟩
  | cons b bs ih =>
    simp only [Config.runBlocks, Option.bind_eq_some_iff] at h
    obtain ⟨c₁, h₁, h₂⟩ := h
    obtain ⟨as, has⟩ := ih h₂
    refine ⟨(.invoke b.1 :: b.2.map (.step c.threads.length)) ++ as, ?_⟩
    rw [Config.run_append, (Config.block_eq_some h₁).1]
    exact has

theorem Config.Sequential.runBlocks {c c' : Y.Config} {bs : List (Y.Call × List Y.Choice)}
    (hc : c.Sequential) (h : c.runBlocks bs = some c') : c'.Sequential := by
  induction bs generalizing c with
  | nil => cases h; exact hc
  | cons b bs ih =>
    simp only [Config.runBlocks, Option.bind_eq_some_iff] at h
    obtain ⟨c₁, h₁, h₂⟩ := h
    exact ih (hc.block h₁) h₂

private theorem sorted_split {trace : List Y.Entry}
    (h : trace.Pairwise (fun newer older => older.tid ≤ newer.tid)) (i : Nat) :
    ∃ later own past, trace = later ++ (own ++ past) ∧ (∀ e ∈ later, i < e.tid) ∧
      (∀ e ∈ own, e.tid = i) ∧ ∀ e ∈ past, e.tid < i := by
  induction trace with
  | nil => exact ⟨[], [], [], rfl, by simp, by simp, by simp⟩
  | cons e trace ih =>
    obtain ⟨hhead, htail⟩ := List.pairwise_cons.mp h
    obtain ⟨later, own, past, rfl, hlater, hown, hpast⟩ := ih htail
    rcases Nat.lt_trichotomy e.tid i with hlt | heq | hgt
    · refine ⟨[], [], e :: (later ++ (own ++ past)), rfl, by simp, by simp, ?_⟩
      intro e' he'
      rcases List.mem_cons.mp he' with rfl | he'
      · exact hlt
      · exact Nat.lt_of_le_of_lt (hhead e' he') hlt
    · have hnil : later = [] := by
        refine List.eq_nil_iff_forall_not_mem.mpr (fun e' he' => ?_)
        have h₁ := hhead e' (List.mem_append_left _ he')
        have h₂ := hlater e' he'
        omega
      subst hnil
      refine ⟨[], e :: own, past, rfl, by simp, ?_, hpast⟩
      intro e' he'
      rcases List.mem_cons.mp he' with rfl | he'
      · exact heq
      · exact hown e' he'
    · refine ⟨e :: later, own, past, rfl, ?_, hown, hpast⟩
      intro e' he'
      rcases List.mem_cons.mp he' with rfl | he'
      · exact hgt
      · exact hlater e' he'

/-- The trace of a sequential run splits at every invocation. -/
theorem Config.Sequential.split {c : Y.Config} (hc : c.Sequential) (i : Nat) :
    ∃ later own past, c.trace = later ++ (own ++ past) ∧ (∀ e ∈ later, i < e.tid) ∧
      (∀ e ∈ own, e.tid = i) ∧ ∀ e ∈ past, e.tid < i :=
  sorted_split hc.sorted i

/-- Calls of earlier threads come earlier. -/
theorem Config.Sequential.mem_past {c : Y.Config} (hc : c.Sequential) {later past : List Y.Entry}
    {e e' : Y.Entry} (htrace : c.trace = later ++ e' :: past) (he : e ∈ c.trace)
    (hlt : e.tid < e'.tid) : e ∈ past := by
  have hsorted := hc.sorted
  rw [htrace] at he hsorted
  rcases List.mem_append.mp he with he | he
  · have := (List.pairwise_append.mp hsorted).2.2 e he e' List.mem_cons_self
    omega
  · rcases List.mem_cons.mp he with rfl | he
    · omega
    · exact he

/-- Calls of later threads come later. -/
theorem Config.Sequential.mem_later {c : Y.Config} (hc : c.Sequential) {later past : List Y.Entry}
    {e e' : Y.Entry} (htrace : c.trace = later ++ e' :: past) (he : e ∈ c.trace)
    (hlt : e'.tid < e.tid) : e ∈ later := by
  have hsorted := (List.pairwise_append.mp (htrace ▸ hc.sorted)).2.1
  rw [htrace] at he
  rcases List.mem_append.mp he with he | he
  · exact he
  · rcases List.mem_cons.mp he with rfl | he
    · omega
    · have := (List.pairwise_cons.mp hsorted).1 e he
      omega

theorem Config.Sequential.le_of_mem_later {c : Y.Config} (hc : c.Sequential)
    {later past : List Y.Entry} {e e' : Y.Entry} (htrace : c.trace = later ++ e' :: past)
    (he : e ∈ later) : e'.tid ≤ e.tid :=
  (List.pairwise_append.mp (htrace ▸ hc.sorted)).2.2 e he e' List.mem_cons_self

/-! ## One invocation at a time -/

/-- The calls of one thread, and those of the threads before it. -/
def Config.own (c : Y.Config) (i : Nat) : List Y.Entry := c.trace.filter (fun e => e.tid = i)

def Config.before (c : Y.Config) (i : Nat) : List Y.Entry := c.trace.filter (fun e => e.tid < i)

theorem Config.own_tid {c : Y.Config} {i : Nat} {e : Y.Entry} (he : e ∈ c.own i) : e.tid = i := by
  simpa using (List.mem_filter.mp he).2

theorem Config.history_own (c : Y.Config) (i : Nat) :
    history i c.trace = (c.own i).map Entry.event := rfl

theorem Config.before_zero (c : Y.Config) : c.before 0 = [] := by
  simp [Config.before]

/-- The trace of a sequential run, seen from one invocation. -/
theorem Config.Sequential.split_at {c : Y.Config} (hc : c.Sequential) (i : Nat) :
    ∃ later, c.trace = later ++ (c.own i ++ c.before i) ∧ ∀ e ∈ later, i < e.tid := by
  obtain ⟨later, own, past, htrace, hlater, hown, hpast⟩ := hc.split i
  have hown' : c.own i = own := by
    rw [Config.own, htrace, List.filter_append, List.filter_append,
      List.filter_eq_nil_iff.mpr (fun e he => by simpa using (hlater e he).ne'),
      List.filter_eq_self.mpr (fun e he => by simpa using hown e he),
      List.filter_eq_nil_iff.mpr (fun e he => by simpa using (hpast e he).ne)]
    simp
  have hbefore : c.before i = past := by
    rw [Config.before, htrace, List.filter_append, List.filter_append,
      List.filter_eq_nil_iff.mpr (fun e he => by simpa using (hlater e he).le),
      List.filter_eq_nil_iff.mpr (fun e he => by simpa using (hown e he).ge),
      List.filter_eq_self.mpr (fun e he => by simpa using hpast e he)]
    simp
  exact ⟨later, by rw [hown', hbefore, htrace], hlater⟩

theorem Config.Sequential.before_succ {c : Y.Config} (hc : c.Sequential) (i : Nat) :
    c.before (i + 1) = c.own i ++ c.before i := by
  obtain ⟨later, htrace, hlater⟩ := hc.split_at i
  have hpast : ∀ e ∈ c.own i ++ c.before i, e.tid < i + 1 := by
    intro e he
    rcases List.mem_append.mp he with he | he
    · rw [Config.own_tid he]; omega
    · have : e.tid < i := by simpa using (List.mem_filter.mp he).2
      omega
  rw [Config.before, htrace, List.filter_append,
    List.filter_eq_nil_iff.mpr (fun e he => by simpa using Nat.succ_le_of_lt (hlater e he)),
    List.filter_eq_self.mpr (fun e he => by simpa using hpast e he), List.nil_append]

theorem Config.run_steps_calls {c c' : Y.Config} {i : Nat} {chs : List Y.Choice}
    (h : c.run (chs.map (.step i)) = some c') :
    c'.threads.map Thread.call = c.threads.map Thread.call := by
  induction chs generalizing c with
  | nil => cases h; rfl
  | cons ch chs ih =>
    simp only [List.map_cons, Config.run, Option.bind_eq_some_iff] at h
    obtain ⟨c₁, h₁, h₂⟩ := h
    obtain ⟨call, op, k, r, w, ht, hs, rfl⟩ := Config.act_step h₁
    rw [ih h₂, List.map_set]
    refine List.ext_getElem? (fun j => ?_)
    rcases eq_or_ne i j with rfl | hne
    · obtain ⟨hlt, heq⟩ := List.getElem?_eq_some_iff.mp ht
      simp [hlt, heq]
    · rw [List.getElem?_set_ne hne]

/-- A sequential run invokes the calls of its blocks, in that order. -/
theorem Config.runBlocks_calls {c c' : Y.Config} {bs : List (Y.Call × List Y.Choice)}
    (h : c.runBlocks bs = some c') :
    c'.threads.map Thread.call = c.threads.map Thread.call ++ bs.map Prod.fst := by
  induction bs generalizing c with
  | nil => cases h; simp
  | cons b bs ih =>
    simp only [Config.runBlocks, Option.bind_eq_some_iff] at h
    obtain ⟨c₁, h₁, h₂⟩ := h
    have hrun := (Config.block_eq_some h₁).1
    simp only [Config.run, Config.act, Option.bind_some] at hrun
    rw [ih h₂, Config.run_steps_calls hrun]
    simp

/-- Each of them has returned. -/
theorem Config.runBlocks_returned {w₀ : Y.World} {c : Y.Config} {bs : List (Y.Call × List Y.Choice)}
    (h : (Config.start w₀).runBlocks bs = some c) {i : Nat} {b : Y.Call × List Y.Choice}
    (hb : bs[i]? = some b) : ∃ out : Y.Out b.1, c.Returned i b.1 out := by
  have hcalls : (c.threads.map Thread.call)[i]? = some b.1 := by
    rw [Config.runBlocks_calls h]
    simp [Config.start, hb]
  obtain ⟨t, ht, hcall⟩ := Option.map_eq_some_iff.mp (List.getElem?_map ▸ hcalls)
  have hquiet := ((Config.sequential_start w₀).runBlocks h).quiescent
  obtain ⟨call, out, hret⟩ := hquiet.returned (List.getElem?_eq_some_iff.mp ht).1
  rw [hret] at ht
  cases ht
  cases hcall
  exact ⟨out, hret⟩

end Interaction.System
