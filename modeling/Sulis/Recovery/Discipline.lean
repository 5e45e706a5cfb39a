-- SUMMARY: What an operation of package recovery must have done before each call to its store, and what its success says.
import Sulis.Recovery.Service

/-!
# The discipline of package `recovery`

Codes are stored by the operation that has just drawn them, and looked up once by the operation
they were given to.
-/

namespace Sulis.Recovery

open Interaction Interaction.Prog Interaction.System

/-- A value was drawn. -/
def drawEvent (b : Bytes) : Interaction.Event iface := ⟨.randRead codeBytes, b⟩

/-- The operation has drawn these values and done nothing else. -/
def Drew (h : Hist) (bs : List Bytes) : Prop :=
  h = (bs.map drawEvent).reverse ∧ ∀ b ∈ bs, b.length = codeBytes

/-- The call looks a code up. -/
def Looks : Op → Prop
  | .consumeCode _ _ => True
  | _ => False

section

variable [Unicode]

/-- What an operation must have done before it makes a call. -/
def Justified (call : Call) (h : Hist) : Op → Prop
  | .replaceCodes userID hashes => call.request = .generate userID ∧
      ∃ bs, Drew h bs ∧ hashes = (bs.map generateCode).map hashCode
  | .consumeCode userID hash =>
    (∃ code, call.request = .consume userID code ∧ hash = hashCode code) ∧ ∀ ev ∈ h, ¬ Looks ev.1
  | .deleteCodes userID => call.request = .disable userID
  | _ => True

/-- What a success says about the calls an operation has made. -/
def Outcome : (call : Call) → Hist → call.request.Ret → Prop
  | ⟨_, .generate userID⟩, h, codes => ∃ bs h₀, Drew h₀ bs ∧ codes = bs.map generateCode ∧
      h = ⟨.replaceCodes userID (codes.map hashCode), .ok ()⟩ :: h₀
  | ⟨_, .consume userID code⟩, h, remaining =>
    ⟨.consumeCode userID (hashCode code), .ok remaining⟩ ∈ h
  | _, _, _ => True

/-- The rules of the package for one operation. -/
abbrev rules (call : Call) : Discipline iface := ⟨(system).Legal, Justified call⟩

variable {call : Call} {h : Hist} {α : Type}

omit [Unicode] in
theorem reported_eq_ok {r : Except Err α} {a : α} (h : reported r = .ok a) : r = .ok a := by
  cases r with
  | ok b => cases h; rfl
  | error err => cases h

theorem drawn_length {n : Nat} {b : Bytes} (h : (system).Legal (.randRead n) b) : b.length = n := by
  obtain ⟨w, ch, w', hserve⟩ := h
  simp only [World.serve, Option.ite_none_left_eq_some, not_or, not_not, Option.some.injEq,
    Prod.mk.injEq] at hserve
  obtain ⟨⟨hlen, -⟩, rfl, -⟩ := hserve
  exact hlen

theorem generateCodes_yields {n : Nat} :
    Yields (rules call) (Service.generateCodes n) h
      (fun h' codes => ∃ bs : List Bytes, h' = (bs.map drawEvent).reverse ++ h ∧
        (∀ b ∈ bs, b.length = codeBytes) ∧ codes = bs.map generateCode) := by
  induction n generalizing h with
  | zero => exact yields_pure ⟨[], rfl, by simp, rfl⟩
  | succ n ih =>
    refine yields_bind (R := fun h' b => h' = ⟨.randRead _, b⟩ :: h ∧ (system).Legal (.randRead _) b)
      (yields_lift ⟨trivial, fun _ hr => ⟨rfl, hr⟩⟩) (fun b h₁ _ hb => ?_)
    obtain ⟨rfl, hlegal⟩ := hb
    refine yields_bind ih (fun codes h₂ _ hcodes => ?_)
    obtain ⟨bs, rfl, hlen, rfl⟩ := hcodes
    refine yields_pure ⟨b :: bs, by simp [drawEvent], ?_, rfl⟩
    exact List.forall_mem_cons.mpr ⟨drawn_length hlegal, hlen⟩

theorem generate_yields {s : Service} {userID : UUID} :
    Yields (rules ⟨s, .generate userID⟩) (s.generate userID) []
      (Outcome ⟨s, .generate userID⟩) := by
  refine yields_bind generateCodes_yields (fun codes h₁ _ hcodes => ?_)
  obtain ⟨bs, rfl, hlen, rfl⟩ := hcodes
  have hdrew : Drew ((bs.map drawEvent).reverse ++ []) bs := ⟨List.append_nil _, hlen⟩
  refine yields_bind (yields_request (rules _) (.replaceCodes userID _) _ ⟨rfl, bs, hdrew, rfl⟩)
    (fun _ h₂ _ hr => ?_)
  obtain ⟨r, rfl, hr⟩ := hr
  cases reported_eq_ok hr
  exact yields_pure ⟨bs, _, hdrew, rfl, rfl⟩

theorem emit_yields {s : Service} {event : Event} :
    Yields (rules call) (s.emit event) h (fun h' _ => h <:+ h') := by
  refine yields_ite (fun _ => ?_) (fun _ => yields_pure (List.suffix_refl h))
  refine yields_bind (yields_query (rules _) .now trivial) (fun now h₁ hs₁ _ => ?_)
  exact (yields_query (rules _) (.emit _) trivial).mono (fun h' _ hs _ => hs₁.trans hs)

theorem allow_yields {s : Service} {key : String} (hh : ∀ ev ∈ h, ¬ Looks ev.1) :
    Yields (rules call) (s.allow key) h (fun h' _ => ∀ ev ∈ h', ¬ Looks ev.1) := by
  refine yields_ite (fun _ => ?_) (fun _ => yields_pure hh)
  refine yields_bind (yields_query (rules _) (.allow _) trivial) (fun allowed h₁ _ hr => ?_)
  obtain ⟨rfl, -⟩ := hr
  refine yields_ite (fun _ => yields_pure ?_) (fun _ => yields_throw)
  exact List.forall_mem_cons.mpr ⟨id, hh⟩

theorem consume_yields {s : Service} {userID : UUID} {code : String} :
    Yields (rules ⟨s, .consume userID code⟩) (s.consume userID code) []
      (Outcome ⟨s, .consume userID code⟩) := by
  refine yields_bind (yields_onError (allow_yields (by simp))
    (fun _ _ _ => emit_yields.mono (fun _ _ _ _ => trivial))) (fun _ h₁ _ hh => ?_)
  have hop : Justified ⟨s, .consume userID code⟩ h₁ (.consumeCode userID (hashCode code)) :=
    ⟨⟨code, rfl, rfl⟩, hh⟩
  refine yields_bind (yields_request (rules _) _ _ hop).attempt (fun x h₂ _ hx => ?_)
  cases x with
  | error err =>
    refine yields_ite (fun _ => ?_) (fun _ => yields_throw)
    exact yields_bind emit_yields (fun _ _ _ _ => yields_throw)
  | ok remaining =>
    obtain ⟨r, rfl, hr⟩ := hx remaining rfl
    cases reported_eq_ok hr
    refine yields_bind emit_yields (fun _ h₃ _ hs₃ => ?_)
    have hdid := hs₃.subset List.mem_cons_self
    refine yields_ite (fun _ => ?_) (fun _ => yields_pure hdid)
    exact yields_bind emit_yields (fun _ h₄ _ hs₄ => yields_pure (hs₄.subset hdid))

theorem program_yields (call : Call) :
    Yields (rules call) call.program [] (Outcome call) := by
  obtain ⟨s, request⟩ := call
  cases request with
  | generate userID => exact generate_yields
  | consume userID code => exact consume_yields
  | remaining userID =>
    exact (yields_request (rules _) (.countCodes userID) _ trivial).mono fun _ _ _ _ => trivial
  | disable userID =>
    have hop : Justified ⟨s, .disable userID⟩ [] (.deleteCodes userID) := rfl
    exact (yields_request (rules _) (.deleteCodes userID) _ hop).mono fun _ _ _ _ => trivial

/-- A trace in which every call was made for a reason. -/
abbrev Trace (w₀ : World) (trace : List Entry) (w : World) : Prop :=
  Valid (Y := system) Justified w₀ trace w

theorem run_sound {w₀ : World} {as : List (system).Action} {c : Run}
    (hrun : (Config.start w₀).run as = some c) :
    c.Sound Justified (fun (call : Call) h (out : Except ServiceErr call.request.Ret) =>
      ∀ a, out = .ok a → Outcome call h a) w₀ :=
  Config.sound_start.run (fun call => (program_yields call).along) hrun

end

end Sulis.Recovery
