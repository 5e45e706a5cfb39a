-- SUMMARY: What an operation of package totp must have done before each write, and what its success says about its calls.
import Sulis.Totp.Service

/-!
# The discipline of package `totp`

An enrollment is stored right after its ID was drawn. A code is only accepted against
a copy of the credential that the operation has read, and for the time step whose
code it is.
-/

namespace Sulis.Totp

open Interaction Interaction.Prog Interaction.System

/-- The operation stores a new enrollment, under an ID it has just drawn. -/
def NewCredential (h : Hist) (cred : Credential) : Prop :=
  ∃ h₀, h = ⟨.now, cred.createdAt⟩ :: ⟨.newV7, cred.id⟩ :: h₀

variable [Digest]

/-- The code is that of the time step, for the secret behind what is stored. -/
def Matched (s : Service) (h : Hist) (stored code : String) (counter : Nat) : Prop :=
  ∃ plainSecret now, s.decryptSecret stored = .ok plainSecret ∧ Did h .now now ∧
    matchCode s.cfg plainSecret code now = some counter

theorem Matched.mono {s : Service} {h h' : Hist} {stored code : String} {counter : Nat}
    (hm : Matched s h stored code counter) (hs : h <:+ h') : Matched s h' stored code counter := by
  obtain ⟨plainSecret, now, hplain, hnow, hmatch⟩ := hm
  exact ⟨plainSecret, now, hplain, hnow.mono hs, hmatch⟩

/-- The operation confirms this pending enrollment. -/
def Confirms (call : Call) (h : Hist) (userID id : UUID) (counter : Nat) : Prop :=
  ∃ code p, call.request = .confirmEnrollment userID code ∧ p.id = id ∧
    Did h (.getPendingTOTP userID) (.ok p) ∧ Matched call.service h p.secret code counter

/-- The operation accepts a code for this copy of the active credential. -/
def Validates (call : Call) (h : Hist) (cred : Credential) : Prop :=
  ∃ userID code old, call.request = .validate userID code ∧
    cred = { old with lastUsedCounter := cred.lastUsedCounter } ∧
    Did h (.getActiveTOTP userID) (.ok old) ∧
    Matched call.service h old.secret code cred.lastUsedCounter

/-- What an operation must have done before it makes a call. -/
def Justified (call : Call) (h : Hist) : Op → Prop
  | .enrollPending cred =>
    NewCredential h cred ∧ ∃ accountName, call.request = .enroll cred.userID accountName
  | .replacePending cred =>
    NewCredential h cred ∧ ∃ accountName, call.request = .replaceEnrollment cred.userID accountName
  | .confirmEnrollment userID id counter => Confirms call h userID id counter
  | .saveTOTP cred => Validates call h cred
  | .deleteTOTP userID => call.request = .unenroll userID
  | _ => True

/-- What success says about the calls an operation has made. -/
def Outcome (call : Call) (h : Hist) : Prop :=
  match call.request with
  | .confirmEnrollment userID _ => ∃ id counter cred,
      Did h (.confirmEnrollment userID id counter) (.ok cred) ∧ Confirms call h userID id counter
  | .validate _ _ => ∃ cred, Did h (.saveTOTP cred) (.ok ()) ∧ Validates call h cred
  | .unenroll userID => Did h (.deleteTOTP userID) (.ok ())
  | _ => True

theorem Confirms.mono {call : Call} {h h' : Hist} {userID id : UUID} {counter : Nat}
    (hc : Confirms call h userID id counter) (hs : h <:+ h') :
    Confirms call h' userID id counter := by
  obtain ⟨code, p, hcall, hid, hread, hmatch⟩ := hc
  exact ⟨code, p, hcall, hid, hread.mono hs, hmatch.mono hs⟩

theorem Validates.mono {call : Call} {h h' : Hist} {cred : Credential}
    (hv : Validates call h cred) (hs : h <:+ h') : Validates call h' cred := by
  obtain ⟨userID, code, old, hcall, hcred, hread, hmatch⟩ := hv
  exact ⟨userID, code, old, hcall, hcred, hread.mono hs, hmatch.mono hs⟩

/-! ## The operations follow it -/

/-- The rules of the package for one operation. -/
abbrev rules (call : Call) : Discipline iface := ⟨(system).Legal, Justified call⟩

variable {call : Call} {h : Hist} {α : Type}

/-- A call after which the operation goes on, also after an error. -/
theorem attempt_yields {op : Op} {k : op.Res → Except Err α} (hop : Justified call h op) :
    Yields (rules call) (attempt (request (.call op (fun r => .ret (k r))))) h
      (fun h' x => ∃ r, h' = ⟨op, r⟩ :: h ∧ k r = x) :=
  yields_lift ⟨hop, fun r _ => ⟨r, rfl, rfl⟩⟩

theorem allow_yields {s : Service} {key : String} :
    Yields (rules call) (s.allow key) h (fun _ _ => True) := by
  refine yields_ite (fun _ => ?_) (fun _ => yields_pure trivial)
  refine yields_bind (attempt_yields trivial) (fun x _ _ _ => ?_)
  cases x with
  | ok => exact yields_pure trivial
  | error => exact yields_throw

theorem encryptSecret_yields {s : Service} {secret : String} :
    Yields (rules call) (s.encryptSecret secret) h (fun _ _ => True) := by
  unfold Service.encryptSecret
  split
  · exact yields_pure trivial
  · refine yields_bind (yields_query (rules _) _ trivial) (fun nonce _ _ _ => ?_)
    split
    · exact yields_pure trivial
    · exact yields_throw

theorem enroll_yields {s : Service} {userID : UUID} {accountName : String} {forceReplace : Bool}
    (hcall : call.request = if forceReplace then .replaceEnrollment userID accountName
      else .enroll userID accountName) :
    Yields (rules call) (s.enroll userID accountName forceReplace) h (fun _ _ => True) := by
  refine yields_bind (yields_query (rules _) _ trivial) (fun secretBytes h₁ _ _ => ?_)
  refine yields_bind encryptSecret_yields (fun storedSecret h₂ _ _ => ?_)
  refine yields_bind (yields_query (rules _) _ trivial) (fun drawn h₃ _ hid => ?_)
  refine yields_bind (yields_query (rules _) _ trivial) (fun createdAt h₄ _ hnow => ?_)
  subst hid hnow
  cases forceReplace with
  | true =>
    exact yields_bind (yields_request (rules _) (.replacePending _) id ⟨⟨h₂, rfl⟩, accountName, hcall⟩)
      (fun _ _ _ _ => yields_pure trivial)
  | false =>
    exact yields_bind (yields_request (rules _) (.enrollPending _) id ⟨⟨h₂, rfl⟩, accountName, hcall⟩)
      (fun _ _ _ _ => yields_pure trivial)

theorem decryptSecret_yields {r : Except Err α} :
    Yields (rules call) (liftExcept r) h (fun h' a => h' = h ∧ r = .ok a) :=
  yields_ret (fun _ ha => ⟨rfl, ha⟩)

theorem confirmEnrollment_yields {s : Service} {userID : UUID} {code : String} :
    Yields (rules ⟨s, .confirmEnrollment userID code⟩) (s.confirmEnrollment userID code) h
      (fun h' _ => Outcome ⟨s, .confirmEnrollment userID code⟩ h') := by
  refine yields_bind allow_yields (fun _ h₁ _ _ => ?_)
  refine yields_bind (attempt_yields trivial) (fun x h₂ _ hx => ?_)
  obtain ⟨r, rfl, rfl⟩ := hx
  cases r with
  | error => exact yields_throw
  | ok p =>
    refine yields_bind decryptSecret_yields (fun plainSecret h₃ _ hplain => ?_)
    obtain ⟨rfl, hplain⟩ := hplain
    refine yields_bind (yields_query (rules _) _ trivial) (fun now h₄ _ hnow => ?_)
    subst hnow
    split
    · exact yields_throw
    · rename_i counter hmatch
      have hconfirms : Confirms ⟨s, .confirmEnrollment userID code⟩
          (⟨.now, now⟩ :: ⟨.getPendingTOTP userID, .ok p⟩ :: h₁) userID p.id counter :=
        ⟨code, p, rfl, rfl, List.mem_cons_of_mem _ List.mem_cons_self, plainSecret, now, hplain,
          did_cons_self, hmatch⟩
      refine yields_bind (attempt_yields hconfirms) (fun x h₅ hs hx => ?_)
      obtain ⟨r, rfl, rfl⟩ := hx
      cases r with
      | error => exact yields_throw
      | ok cred => exact yields_pure ⟨p.id, counter, cred, did_cons_self, hconfirms.mono hs⟩

theorem validate_yields {s : Service} {userID : UUID} {code : String} :
    Yields (rules ⟨s, .validate userID code⟩) (s.validate userID code) h
      (fun h' _ => Outcome ⟨s, .validate userID code⟩ h') := by
  refine yields_bind allow_yields (fun _ h₁ _ _ => ?_)
  refine yields_bind (attempt_yields trivial) (fun x h₂ _ hx => ?_)
  obtain ⟨r, rfl, rfl⟩ := hx
  cases r with
  | error =>
    refine yields_bind (attempt_yields trivial) (fun x _ _ _ => ?_)
    cases x with
    | ok => exact yields_throw
    | error => exact yields_throw
  | ok old =>
    refine yields_bind decryptSecret_yields (fun plainSecret h₃ _ hplain => ?_)
    obtain ⟨rfl, hplain⟩ := hplain
    refine yields_bind (yields_query (rules _) _ trivial) (fun now h₄ _ hnow => ?_)
    subst hnow
    split
    · exact yields_throw
    · rename_i counter hmatch
      refine yields_ite (fun _ => yields_throw) (fun _ => ?_)
      have hvalidates : Validates ⟨s, .validate userID code⟩
          (⟨.now, now⟩ :: ⟨.getActiveTOTP userID, .ok old⟩ :: h₁)
          { old with lastUsedCounter := counter } :=
        ⟨userID, code, old, rfl, rfl, List.mem_cons_of_mem _ List.mem_cons_self, plainSecret, now,
          hplain, did_cons_self, hmatch⟩
      refine (yields_request (rules _) (.saveTOTP _) id hvalidates).mono (fun h' _ hs hr => ?_)
      obtain ⟨r, rfl, hok⟩ := hr
      cases hok
      exact ⟨_, did_cons_self, hvalidates.mono hs⟩

theorem program_yields (call : Call) :
    Yields (rules call) call.program [] (fun h _ => Outcome call h) := by
  obtain ⟨s, request⟩ := call
  cases request with
  | enroll userID accountName => exact enroll_yields rfl
  | replaceEnrollment userID accountName => exact enroll_yields rfl
  | confirmEnrollment userID code => exact confirmEnrollment_yields
  | validate userID code => exact validate_yields
  | unenroll userID =>
    have hop : Justified ⟨s, .unenroll userID⟩ [] (.deleteTOTP userID) := rfl
    refine (yields_request (rules _) (.deleteTOTP userID) id hop).mono (fun h' _ _ hr => ?_)
    obtain ⟨r, rfl, hok⟩ := hr
    cases hok
    exact List.mem_cons_self

/-! ## Runs follow it -/

/-- A trace in which every call was made for a reason. -/
abbrev Trace (w₀ : World) (trace : List Entry) (w : World) : Prop :=
  Valid (Y := system) Justified w₀ trace w

theorem run_sound {w₀ : World} {as : List (system).Action} {c : Run}
    (hrun : (Config.start w₀).run as = some c) :
    c.Sound Justified (fun (call : Call) h (out : Except Err call.request.Ret) =>
      ∀ a, out = .ok a → Outcome call h) w₀ :=
  Config.sound_start.run (fun call => (program_yields call).along) hrun

end Sulis.Totp
