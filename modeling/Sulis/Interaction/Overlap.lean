-- SUMMARY: Two invocations that run at the same time, with nothing else going on.
import Sulis.Interaction.Pool

/-!
# Two overlapping invocations

From a configuration in which everything has returned, two invocations are
started, and their calls interleave in any order until both have returned.
-/

namespace Interaction.System

variable {S : Sig} {Y : System S}

/-- The first invocation becomes thread `c.threads.length`, the second the one
    after it. -/
structure Config.Overlap (c c' : Y.Config) (call call' : Y.Call) : Prop where
  before : c.Quiescent
  after : c'.Quiescent
  order : ∃ order : List (Nat × Y.Choice),
    c.run (.invoke call :: .invoke call' :: order.map (fun s => .step s.1 s.2)) = some c'

theorem Config.run_order {c c' : Y.Config} {order : List (Nat × Y.Choice)}
    (h : c.run (order.map (fun s => .step s.1 s.2)) = some c') :
    c'.threads.length = c.threads.length := by
  induction order generalizing c with
  | nil => cases h; rfl
  | cons s order ih =>
    simp only [List.map_cons, Config.run, Option.bind_eq_some_iff] at h
    obtain ⟨c₁, h₁, h₂⟩ := h
    obtain ⟨call, op, k, r, w, _, _, rfl⟩ := Config.act_step h₁
    simpa using ih h₂

theorem Config.Overlap.run {c c' : Y.Config} {call call' : Y.Call} (h : c.Overlap c' call call') :
    ∃ as, c.run as = some c' := by
  obtain ⟨order, hrun⟩ := h.order
  exact ⟨_, hrun⟩

theorem Config.Overlap.threads {c c' : Y.Config} {call call' : Y.Call}
    (h : c.Overlap c' call call') : c'.threads.length = c.threads.length + 2 := by
  obtain ⟨order, hrun⟩ := h.order
  simp only [Config.run, Config.act, Option.bind_some] at hrun
  simpa using Config.run_order hrun

end Interaction.System
