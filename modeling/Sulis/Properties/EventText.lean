-- SUMMARY: Security events consist of declared labels, except for the method a caller vouches for.
import Sulis.Discipline.Labels
import Sulis.Properties.Scenario

/-!
# The texts of events

In every run, whatever is stored and whatever the callers pass in, the metadata of an
event are declared labels or the method that the reporting operation itself was given. A
method is an open string, so that one is the caller's text.
-/

namespace Sulis

open Interaction Interaction.Prog Interaction.System

section

variable [Platform] {cfg : Config} {w₀ : World} {as : List (system cfg).Action} {c : Run cfg}

theorem run_discreet (hrun : (Config.start w₀).run as = some c) :
    c.Sound (fun (call : Call) _ op => Op.Discreet call.method? op) (fun _ _ _ => True) w₀ := by
  refine Config.sound_start.run (fun call => ?_) hrun
  exact Along.mono ((Service.program_discreet call).along (fun _ _ hop => hop) [])
    (fun _ _ _ _ => trivial)

/-- Whoever acts in a run was invoked in it. -/
theorem call_invoked (hrun : (Config.start w₀).run as = some c) {e : Entry cfg}
    (he : e ∈ c.trace) : .invoke e.call ∈ as := by
  obtain ⟨t, ht, hcall⟩ := (run_discreet hrun).owner e he
  rw [← hcall]
  exact (Config.mem_calls hrun).mp (List.mem_map_of_mem (List.mem_of_getElem? ht))

theorem emitted_labels (hrun : (Config.start w₀).run as = some c) {e : Entry cfg}
    (he : e ∈ c.trace) {event : SecurityEvent} (hop : e.op = .emit event) :
    Labels (Call.method? e.call) event.metadata := by
  obtain ⟨later, past, htrace⟩ := List.append_of_mem he
  have hvalid := (run_discreet hrun).valid
  rw [htrace] at hvalid
  have hdiscreet := hvalid.entry.2.2.1
  rw [hop] at hdiscreet
  exact hdiscreet

/-- An event is made of labels exactly if it does not report an undeclared method that its
    operation was given, and nothing else in it can fail to be one. So in a run in which no
    operation is given such a method, all events are. -/
theorem events_labelled (hrun : (Config.start w₀).run as = some c) :
    (∀ e ∈ c.trace, ∀ event, e.op = .emit event →
      (Labelled event ↔
        ∀ m ∈ Call.method? e.call, (.method, m.name) ∈ event.metadata → m ∈ declaredMethods) ∧
      event.kind.text ∈ eventKindLabels ∧ ∀ p ∈ event.metadata, p.1.text ∈ metadataKeyLabels ∧
        (p.2 ∈ p.1.labels ∨ p.1 = .method ∧ ∃ m ∈ Call.method? e.call, p.2 = m.name)) ∧
    ((∀ call, .invoke call ∈ as → ∀ m ∈ Call.method? call, m ∈ declaredMethods) →
      ∀ e ∈ c.trace, ∀ event, e.op = .emit event → Labelled event) := by
  have hiff : ∀ e ∈ c.trace, ∀ event, e.op = .emit event → (Labelled event ↔
      ∀ m ∈ Call.method? e.call, (.method, m.name) ∈ event.metadata → m ∈ declaredMethods) := by
    intro e he event hop
    refine ⟨fun h m _ hp => declared_of_label (h.value _ hp), fun h => ?_⟩
    refine ⟨event.kind.text_mem, fun p _ => p.1.text_mem, fun ⟨key, value⟩ hp => ?_⟩
    rcases emitted_labels hrun he hop _ hp with hlabel | ⟨hkey, m, hm, hname⟩
    · exact hlabel
    · simp only at hkey hname
      subst hkey hname
      exact List.mem_map_of_mem (h m hm hp)
  refine ⟨fun e he event hop => ⟨hiff e he event hop, event.kind.text_mem, fun p hp => ?_⟩, ?_⟩
  · exact ⟨p.1.text_mem, emitted_labels hrun he hop p hp⟩
  · intro hdeclared e he event hop
    exact (hiff e he event hop).mpr
      (fun m hm _ => hdeclared e.call (call_invoked hrun he) m hm)

end

section

open Scenario

attribute [local instance] plain

/-- Events are reported, and an address need not be verified. -/
def reportingConfig : Config := { config with eventSink := true, requireVerifiedEmail := false }

/-- An account is registered, and its owner gets a session for another method. -/
def vouchedFor (method : AuthMethod) : Option (Run reportingConfig) :=
  (Run.empty reportingConfig).runBlocks (blocks 0
    [(.register "a" [1] {}, 12), (.issueSessionUnchecked (ident 2) method, 9)])

/-- The metadata of everything that was reported, most recent first, and by whom. -/
def reported (c : Run reportingConfig) : List (Call × List (MetadataKey × String)) :=
  c.trace.filterMap (fun e =>
    match e.op with
    | .emit event => some (e.call, event.metadata)
    | _ => none)

theorem reported_emitted {c : Run reportingConfig} {call : Call}
    {metadata : List (MetadataKey × String)} (h : (call, metadata) ∈ reported c) :
    ∃ e ∈ c.trace, e.call = call ∧ ∃ event, e.op = .emit event ∧ event.metadata = metadata := by
  obtain ⟨e, he, hsome⟩ := List.mem_filterMap.mp h
  split at hsome
  · rename_i event hop
    simp only [Option.some.injEq, Prod.mk.injEq] at hsome
    exact ⟨e, he, hsome.1, event, hop, hsome.2⟩
  · cases hsome

/-- Whatever a caller names as the method is what the sink gets. -/
theorem callers_text_reported :
    ∃ as c, (Run.empty reportingConfig).run as = some c ∧
      ∃ e ∈ c.trace, e.call = .issueSessionUnchecked (ident 2) ⟨"hunter2"⟩ ∧
        ∃ event, e.op = .emit event ∧ event.metadata = [(.method, "hunter2")] ∧
          ¬ Labelled event := by
  obtain ⟨c, hplay, hreported⟩ := computed (o := vouchedFor ⟨"hunter2"⟩)
    (P := fun c => (.issueSessionUnchecked (ident 2) ⟨"hunter2"⟩, [(.method, "hunter2")]) ∈
      reported c) (by decide +kernel)
  obtain ⟨as, hrun⟩ := Config.runBlocks_run hplay
  obtain ⟨e, he, hcall, event, hop, hmeta⟩ := reported_emitted hreported
  refine ⟨as, c, hrun, e, he, hcall, event, hop, hmeta, fun hlabelled => ?_⟩
  have hvalue := hlabelled.value (.method, "hunter2") (by rw [hmeta]; exact List.mem_cons_self)
  revert hvalue
  decide

theorem events_labelled_vouched :
    ∃ as c, (Run.empty reportingConfig).run as = some c ∧
      (.issueSessionUnchecked (ident 2) .passkey, [(.method, "passkey")]) ∈ reported c ∧
      ∀ e ∈ c.trace, ∀ event, e.op = .emit event → Labelled event := by
  obtain ⟨c, hplay, hreported⟩ := computed (o := vouchedFor .passkey)
    (P := fun c =>
      (.issueSessionUnchecked (ident 2) .passkey, [(.method, "passkey")]) ∈ reported c ∧
      ∀ call ∈ c.threads.map Thread.call, ∀ m ∈ Call.method? call, m ∈ declaredMethods)
    (by decide +kernel)
  obtain ⟨as, hrun⟩ := Config.runBlocks_run hplay
  refine ⟨as, c, hrun, hreported.1, (events_labelled hrun).2 (fun call hinvoked => ?_)⟩
  exact hreported.2 call ((Config.mem_calls hrun).mpr hinvoked)

end

end Sulis
