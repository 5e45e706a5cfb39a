-- SUMMARY: What rotating, revoking, stepping up and validating a session do to its row, and which sessions they hand out.
import Sulis.Discipline.System

/-!
# Rotating a session

Four operations work on a session that exists. A rotation carries what it was given
over to one new row; a step-up writes to the row it was given once the password has
matched; the other two only remove rows or mark them as seen.
-/

namespace Sulis

open Interaction Interaction.Prog Interaction.System

def Call.Rotates : Call → Prop
  | .refreshSession _ | .revokeSession .. | .reAuthenticate .. | .validateSession _ => True
  | _ => False

/-- What a rotation carries over. -/
structure Carried (s s' : Session) : Prop where
  userID : s'.userID = s.userID
  method : s'.method = s.method
  createdAt : s'.createdAt = s.createdAt
  authenticatedAt : s'.authenticatedAt = s.authenticatedAt

theorem Carried.refl (s : Session) : Carried s s := ⟨rfl, rfl, rfl, rfl⟩

/-- The operation has not stored a session yet. -/
def Uncreated (h : Hist) : Prop := ∀ s r, ¬ Did h (.createSession s) r

/-- Calls that neither store a session nor write down a proof. -/
def Op.Idle : Op → Prop
  | .createSession _ => False
  | .updateAuthenticatedAt .. => False
  | _ => True

theorem uncreated_nil : Uncreated [] := fun _ _ h => absurd h List.not_mem_nil

theorem Uncreated.grows {h h' : Hist} (hu : Uncreated h)
    (hg : Prog.Grows (S := iface) Op.Idle h h') : Uncreated h' :=
  fun s r hd => (hg.mem hd).elim id (hu s r)

variable [Platform]

/-- What one of the four operations must have done before it stores a session or
    writes down a proof. -/
def Rotating (cfg : Config) (call : Call) (h : Hist) : Op → Prop
  | .createSession s => call.Rotates → ∃ old, call = .refreshSession old ∧ Carried old s ∧ Uncreated h
  | .updateAuthenticatedAt id at_ => call.Rotates → ∃ old password ri u,
      call = .reAuthenticate old password ri ∧ id = old.id ∧ Did h .now at_ ∧
        Compared cfg h password u true ∧ u.id = old.userID
  | _ => True

/-- What the four operations hand out, or leave behind, when they succeed. -/
def Handed : (c : Call) → Hist → c.Ret → Prop
  | .refreshSession _, h, (s, _) => Did h (.createSession s) (.ok ())
  | .reAuthenticate old _ _, h, s =>
    Did h (.updateAuthenticatedAt old.id s.authenticatedAt) (.ok ()) ∧
      s = { old with authenticatedAt := s.authenticatedAt }
  | .validateSession _, h, (s, _) =>
    ∃ hash row, Did h (.getSessionByTokenHash hash) (.ok row) ∧ s.id = row.id ∧ Carried row s
  | .revokeSession userID sessionID, h, _ => Did h (.deleteSession userID sessionID) (.ok ())
  | _, _, _ => True

namespace Service

variable {cfg : Config} {call : Call} {h : Hist}

/-- The rules of this module. -/
abbrev rotation (cfg : Config) (call : Call) : Discipline iface :=
  ⟨(system cfg).Legal, Rotating cfg call⟩

theorem idle_allowed (h : Hist) (op : Op) (hop : op.Idle) : Rotating cfg call h op := by
  cases op with
  | createSession | updateAuthenticatedAt => exact hop.elim
  | _ => trivial

theorem idle_yields {α : Type} {p : M α} (hp : Calls Op.Idle p) :
    Yields (rotation cfg call) p h (fun h' _ => Prog.Grows (S := iface) Op.Idle h h') :=
  Only.yields idle_allowed hp h

/-- A call whose success is remembered. -/
theorem did_yields {op : Op} {α : Type} {k : op.Res → Except Err α} (hop : Rotating cfg call h op) :
    Yields (rotation cfg call) (request (.call op (fun r => .ret (k r)))) h
      (fun h' a => ∃ r, h' = ⟨op, r⟩ :: h ∧ k r = .ok a) :=
  yields_call hop (fun r _ => yields_ret (fun _ ha => ⟨r, rfl, ha⟩))

omit [Platform] in
theorem emit_idle {e : SecurityEvent} : Calls Op.Idle (emit cfg e) :=
  emit_only trivial (fun _ => trivial)

theorem refreshSession_rotates (old : Session) :
    Yields (rotation cfg (.refreshSession old)) (refreshSession cfg old) []
      (Handed (.refreshSession old)) := by
  refine yields_bind (idle_yields (only_request trivial)) (fun _ h₁ _ hg₁ => ?_)
  refine yields_bind (idle_yields (only_request trivial)) (fun u h₂ _ hg₂ => ?_)
  refine yields_bind (idle_yields (accountStatus_only trivial trivial)) (fun _ h₃ _ hg₃ => ?_)
  refine yields_bind (idle_yields (only_ite only_throw only_pure)) (fun _ h₄ _ hg₄ => ?_)
  refine yields_bind (idle_yields (only_bind (only_query trivial)
    (fun _ => only_pure))) (fun token h₅ _ hg₅ => ?_)
  refine yields_bind (idle_yields (only_query trivial)) (fun now h₆ _ hg₆ => ?_)
  refine yields_bind (idle_yields (only_query trivial)) (fun id h₇ _ hg₇ => ?_)
  have hnone : Uncreated h₇ := ((((((uncreated_nil.grows hg₁).grows hg₂).grows hg₃).grows
    hg₄).grows hg₅).grows hg₆).grows hg₇
  refine yields_bind (did_yields (fun _ => ⟨old, rfl, ⟨rfl, rfl, rfl, rfl⟩, hnone⟩)) ?_
  rintro ⟨⟩ h₈ _ ⟨r, rfl, rfl⟩
  exact yields_bind (idle_yields emit_idle)
    (fun _ h₉ hs₉ _ => yields_pure (did_cons_self.mono hs₉))

theorem revokeSession_rotates (userID sessionID : UUID) :
    Yields (rotation cfg (.revokeSession userID sessionID)) (revokeSession cfg userID sessionID) []
      (Handed (.revokeSession userID sessionID)) := by
  refine yields_bind (did_yields trivial) ?_
  rintro ⟨⟩ h₁ _ ⟨r, rfl, rfl⟩
  exact (idle_yields emit_idle).mono (fun h₂ _ hs₂ _ => did_cons_self.mono hs₂)

theorem acceptReauth_rotates {old : Session} {u : User} {password : Bytes} {legacyForm : Bool}
    {ri : RequestInfo} (hu : Compared cfg h password u true) (hid : u.id = old.userID) :
    Yields (rotation cfg (.reAuthenticate old password ri))
      (acceptReauth cfg old u password legacyForm ri) h
      (Handed (.reAuthenticate old password ri)) := by
  refine yields_bind (idle_yields (only_onlyIf emit_idle)) (fun _ h₁ hs₁ _ => ?_)
  refine yields_bind (idle_yields (only_onlyIf (rehashPassword_only (fun _ => trivial) trivial trivial
    (fun _ => trivial) (fun _ => trivial)))) (fun _ h₂ hs₂ _ => ?_)
  refine yields_bind (R := fun h' t => h' = ⟨.now, t⟩ :: h₂)
    (yields_lift ⟨trivial, fun t _ => rfl⟩) ?_
  rintro now h₃ hs₃ rfl
  refine yields_bind (did_yields (fun _ => ⟨old, password, ri, u, rfl, rfl, did_cons_self,
    hu.mono (hs₁.trans (hs₂.trans hs₃)), hid⟩)) ?_
  rintro ⟨⟩ h₄ _ ⟨r, rfl, rfl⟩
  exact yields_bind (idle_yields emit_idle)
    (fun _ h₅ hs₅ _ => yields_pure ⟨did_cons_self.mono hs₅, rfl⟩)

theorem reAuthenticate_rotates (old : Session) (password : Bytes) (ri : RequestInfo) :
    Yields (rotation cfg (.reAuthenticate old password ri)) (reAuthenticate cfg old password ri) []
      (Handed (.reAuthenticate old password ri)) := by
  have hallow {key : String} : Calls Op.Idle (allow cfg key ri) :=
    allow_only trivial trivial (fun _ => trivial)
  have hfailed {reason : String} :
      Calls Op.Idle (emitReauthFailed cfg old ri reason) :=
    only_ite emit_idle emit_idle
  refine yields_bind (R := fun h' u => Read h' u ∧ u.id = old.userID) (.intro ⟨trivial, ?_⟩) ?_
  · rintro r ⟨w, ch, w', hserve⟩ u rfl
    have hid := (World.serve_getUserByID hserve).2.1
    exact ⟨Or.inl (hid.symm ▸ did_cons_self), hid⟩
  rintro u h₁ _ ⟨hread, hid⟩
  refine yields_bind (idle_yields (only_ite only_pure hallow)) (fun _ h₂ hs₂ _ => ?_)
  refine yields_bind (idle_yields hallow) (fun _ h₃ hs₃ _ => ?_)
  refine yields_bind (idle_yields (only_onError (accountStatus_only trivial trivial)
    (fun _ => hfailed))) (fun _ h₄ hs₄ _ => ?_)
  refine yields_ite (fun _ => ?_) (fun _ => ?_)
  · exact yields_bind (idle_yields hfailed) (fun _ _ _ _ => yields_throw)
  · split
    · exact yields_throw
    · exact yields_bind (idle_yields hfailed) (fun _ _ _ _ => yields_throw)
    · rename_i legacyForm hmatch
      exact acceptReauth_rotates ⟨hread.mono (hs₂.trans (hs₃.trans hs₄)), legacyForm, hmatch⟩ hid

theorem touch_rotates {s : Session} {now : Time} :
    Yields (rotation cfg call) (touch cfg s now) h (fun _ s' => s'.id = s.id ∧ Carried s s') := by
  refine yields_ite (fun _ => ?_) (fun _ => yields_pure ⟨rfl, .refl s⟩)
  refine yields_bind (idle_yields (only_attempt (only_request trivial)))
    (fun r h₁ _ _ => ?_)
  cases r with
  | ok x => exact yields_pure ⟨rfl, rfl, rfl, rfl, rfl⟩
  | error err => exact yields_pure ⟨rfl, .refl s⟩

theorem validateSession_rotates (token : String) :
    Yields (rotation cfg (.validateSession token)) (validateSession cfg token) []
      (Handed (.validateSession token)) := by
  have hend {kind : EventKind} {s : Session} {reason : String} {α : Type} {Q : Hist → α → Prop}
      {h : Hist} :
      Yields (rotation cfg (.validateSession token)) (endSession cfg kind s reason) h Q :=
    yields_bind (idle_yields (only_attempt (only_request trivial)))
      (fun _ _ _ _ => yields_bind (idle_yields emit_idle) (fun _ _ _ _ => yields_throw))
  refine yields_bind (did_yields trivial) ?_
  rintro s h₁ _ ⟨r, rfl, rfl⟩
  refine yields_bind (idle_yields (only_query trivial)) (fun now h₂ hs₂ _ => ?_)
  refine yields_ite (fun _ => hend) (fun _ => yields_ite (fun _ => hend) (fun _ => ?_))
  refine yields_bind (idle_yields (only_request trivial)) (fun u h₃ hs₃ _ => ?_)
  refine yields_bind (idle_yields (only_query trivial)) (fun _ h₄ hs₄ _ => ?_)
  refine yields_ite (fun _ => yields_throw) (fun _ => ?_)
  refine yields_bind touch_rotates (fun s' h₅ hs₅ hs' => yields_pure ?_)
  exact ⟨_, s, did_cons_self.mono (hs₂.trans (hs₃.trans (hs₄.trans hs₅))), hs'⟩

theorem program_rotates (call : Call) (hcall : call.Rotates) :
    Yields (rotation cfg call) (call.program cfg) [] (Handed call) := by
  cases call with
  | refreshSession old => exact refreshSession_rotates old
  | revokeSession userID sessionID => exact revokeSession_rotates userID sessionID
  | reAuthenticate old password ri => exact reAuthenticate_rotates old password ri
  | validateSession token => exact validateSession_rotates token
  | _ => exact hcall.elim

end Service

/-- Every run keeps to these rules, as far as the four operations are concerned. -/
theorem run_rotation {cfg : Config} {w₀ : World} {as : List (system cfg).Action} {c : Run cfg}
    (h : (Config.start w₀).run as = some c) :
    c.Sound (Rotating cfg) (fun (call : Call) h (out : Except Err call.Ret) =>
      call.Rotates → ∀ a, out = .ok a → Handed call h a) w₀ := by
  refine Config.sound_start.run (fun call => ?_) h
  by_cases hcall : call.Rotates
  · exact Along.mono (Service.program_rotates call hcall).along (fun _ _ _ hq _ => hq)
  · refine along_trivial (fun h op => ?_) (fun _ _ hr => absurd hr hcall) []
    cases op with
    | createSession | updateAuthenticatedAt => exact fun hr => absurd hr hcall
    | _ => trivial

end Sulis
