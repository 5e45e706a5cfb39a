-- SUMMARY: Two environments that answer alike in every state a run reaches drive the system alike.
import Sulis.Interaction.Pool

/-!
# Choices that make no difference

A choice of the environment may hold more than a call looks at. Where two choices
are answered alike in every configuration that has some invariant, a run can be
repeated with the other choices: the world and the threads go through the same
states, and only the choices recorded in the trace differ.
-/

namespace Interaction.System

variable {S : Sig} {Y : System S}

/-- The same action, up to the choice of the environment. -/
inductive Action.Alike (R : Y.Choice → Y.Choice → Prop) : Y.Action → Y.Action → Prop
  | invoke (call : Y.Call) : Alike R (.invoke call) (.invoke call)
  | step (i : Nat) {ch ch' : Y.Choice} (h : R ch ch') : Alike R (.step i ch) (.step i ch')

/-- The same configuration, up to what the trace recorded. -/
structure Config.SameState (c c' : Y.Config) : Prop where
  world : c'.world = c.world
  threads : c'.threads = c.threads

variable {R : Y.Choice → Y.Choice → Prop}

theorem Config.act_alike {c c' d : Y.Config} {a a' : Y.Action}
    (hserve : ∀ op ch ch', R ch ch' → Y.serve c.world op ch' = Y.serve c.world op ch)
    (hsame : c.SameState d) (ha : Action.Alike R a a') (hact : c.act a = some c') :
    ∃ d', d.act a' = some d' ∧ c'.SameState d' := by
  cases ha with
  | invoke call =>
    cases hact
    exact ⟨_, rfl, hsame.world, by simp only [hsame.threads]⟩
  | @step i ch ch' h =>
    obtain ⟨call, op, k, r, w, ht, hs, rfl⟩ := Config.act_step hact
    refine ⟨⟨w, d.threads.set i ⟨call, k r⟩, ⟨i, call, op, ch', r, d.world, w⟩ :: d.trace⟩, ?_,
      rfl, by simp only [hsame.threads]⟩
    have hs' : Y.serve d.world op ch' = some (r, w) := by
      rw [hsame.world, hserve op ch ch' h, hs]
    simp only [Config.act, hsame.threads, ht, hs']

/-- The run goes the same way with the other choices. -/
theorem Config.run_alike {P : Y.Config → Prop}
    (hP : ∀ c a c', P c → c.act a = some c' → P c')
    (hserve : ∀ c, P c → ∀ op ch ch', R ch ch' →
      Y.serve c.world op ch' = Y.serve c.world op ch)
    {as as' : List Y.Action} (has : List.Forall₂ (Action.Alike R) as as') {c c' d : Y.Config}
    (hc : P c) (hsame : c.SameState d) (hrun : c.run as = some c') :
    ∃ d', d.run as' = some d' ∧ c'.SameState d' := by
  induction has generalizing c d with
  | nil =>
    cases hrun
    exact ⟨d, rfl, hsame⟩
  | cons ha _ ih =>
    simp only [Config.run, Option.bind_eq_some_iff] at hrun
    obtain ⟨c₁, hact, hrun⟩ := hrun
    obtain ⟨d₁, hact', hsame'⟩ := Config.act_alike (hserve c hc) hsame ha hact
    obtain ⟨d', hrun', hsame''⟩ := ih (hP _ _ _ hc hact) hsame' hrun
    refine ⟨d', ?_, hsame''⟩
    simp only [Config.run, hact', Option.bind_some, hrun']

end Interaction.System
