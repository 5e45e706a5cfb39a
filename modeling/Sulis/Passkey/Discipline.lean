-- SUMMARY: What an operation of package passkey must have done before each write, and what the success of a login says about its calls.
import Sulis.Passkey.Service

/-!
# The discipline of package `passkey`

A credential is stored right after its ID was drawn. A login writes back what
go-webauthn let through against the credentials that the login had read.
-/

namespace Sulis.Passkey

open Interaction Interaction.Prog Interaction.System

/-- The operation stores a new credential, under an ID it has just drawn. -/
def NewCredential (h : Hist) (cred : Credential) : Prop :=
  ∃ h₀, h = ⟨.now, cred.createdAt⟩ :: ⟨.newV7, cred.id⟩ :: h₀

/-- The login wrote something back, and read its result under the same raw ID. -/
def WroteBack (h : Hist) (cred : Credential) : Prop :=
  ∃ credentialID signCount backupState lastUsedAt,
    Did h (.updateCredentialAfterLogin credentialID signCount backupState lastUsedAt) (.ok ()) ∧
    Did h (.getCredentialByID credentialID) (.ok cred)

variable [WebAuthn]

/-- The operation is a login of user `userID`: it has read `creds` for that user, and
    go-webauthn let the assertion through against them. -/
inductive Login (call : Call) (h : Hist) :
    (userID : UUID) → (creds : List Credential) → ParsedAssertion → (returned : WaCredential) → Prop
  | identified {user : User} {ceremonyID : UUID} {body : Bytes} {creds : List Credential}
      {session : WebAuthn.SessionData} {assertion : ParsedAssertion} {now : Time}
      {returned : WaCredential}
      (hcall : call.request = .finishLoginResponse user ceremonyID body)
      (hread : Did h (.getCredentialsByUserID user.id) (.ok creds))
      (hparse : WebAuthn.parseCredentialRequestResponseBytes body = .ok assertion)
      (hvalid : WebAuthn.validateLogin call.service.wa (webauthnUser user creds) session assertion
        now = .ok returned) :
      Login call h user.id creds assertion returned
  | discoverable {ceremonyID : UUID} {body : Bytes} {cred : Credential}
      {session : WebAuthn.SessionData} {assertion : ParsedAssertion} {now : Time}
      {returned : WaCredential}
      (hcall : call.request = .finishDiscoverableLoginResponse ceremonyID body)
      (hread : Did h (.getCredentialByID assertion.rawID) (.ok cred))
      (hhandle : uuidBytes cred.userID = assertion.userHandle)
      (hparse : WebAuthn.parseCredentialRequestResponseBytes body = .ok assertion)
      (hvalid : WebAuthn.validateDiscoverableLogin call.service.wa
        (webauthnUser { id := cred.userID } [cred]) session assertion now = .ok returned) :
      Login call h cred.userID [cred] assertion returned

theorem Login.mono {call : Call} {h h' : Hist} {userID : UUID} {creds : List Credential}
    {assertion : ParsedAssertion} {returned : WaCredential}
    (hl : Login call h userID creds assertion returned) (hs : h <:+ h') :
    Login call h' userID creds assertion returned := by
  cases hl with
  | identified hcall hread hparse hvalid => exact .identified hcall (hread.mono hs) hparse hvalid
  | discoverable hcall hread hhandle hparse hvalid =>
    exact .discoverable hcall (hread.mono hs) hhandle hparse hvalid

/-- What an operation must have done before it makes a call. -/
def Justified (call : Call) (h : Hist) : Op → Prop
  | .saveCredential cred =>
    NewCredential h cred ∧
      ∃ user body, call.request = .finishRegistrationResponse user body ∧ cred.userID = user.id
  | .updateCredentialAfterLogin credentialID signCount backupState _ =>
    ∃ userID creds assertion returned, Login call h userID creds assertion returned ∧
      returned.cloneWarning = false ∧ credentialID = returned.id ∧
      signCount = returned.signCount ∧ backupState = returned.backupState
  | .deleteCredential userID id allowLast => call.request = .deleteCredential userID id allowLast
  | .deleteCredentialsByUserID userID => call.request = .deleteCredentialsByUserID userID
  | .renameCredential userID id name => call.request = .renameCredential userID id name
  | _ => True

/-- What the success of a login says about the calls it has made. -/
def Outcome : (call : Call) → Hist → call.request.Ret → Prop
  | ⟨_, .finishLoginResponse ..⟩, h, cred => WroteBack h cred
  | ⟨_, .finishDiscoverableLoginResponse ..⟩, h, cred => WroteBack h cred
  | _, _, _ => True

/-- The rules of the package for one operation. -/
abbrev rules (call : Call) : Discipline iface := ⟨(system).Legal, Justified call⟩

variable {call : Call} {h : Hist} {α : Type} {s : Service}

/-! ## Single calls -/

theorem liftExcept_yields {r : Except Err α} :
    Yields (rules call) (liftExcept r) h (fun h' a => h' = h ∧ r = .ok a) :=
  yields_ret (fun _ ha => ⟨rfl, ha⟩)

theorem emit_yields {e : Event} : Yields (rules call) (s.emit e) h (fun _ _ => True) := by
  refine yields_ite (fun _ => ?_) (fun _ => yields_pure trivial)
  refine yields_bind (yields_query (rules _) .now trivial) (fun now h' _ _ => ?_)
  exact (yields_query (rules _) (.emit _) trivial).mono (fun _ _ _ _ => trivial)

/-- What only fails needs nothing of what it leaves behind. -/
theorem reject_yields {e : Event} {err : Err} {Q : Hist → α → Prop} :
    Yields (rules call) (s.reject e err) h Q :=
  yields_bind emit_yields (fun _ _ _ _ => yields_throw)

/-- A computation whose failure is reported. -/
theorem checked_yields {r : Except Err α} {handler : Err → M α}
    (hh : ∀ err h' (Q : Hist → α → Prop), Yields (rules call) (handler err) h' Q) :
    Yields (rules call) (recover (liftExcept r) handler) h (fun h' a => h' = h ∧ r = .ok a) :=
  yields_recover liftExcept_yields (fun err h' _ => hh err h' _)

/-- A call whose failure is reported. -/
theorem reported_yields (op : Op) (k : op.Res → Except Err α) {handler : Err → M α}
    (hop : Justified call h op)
    (hh : ∀ err h' (Q : Hist → α → Prop), Yields (rules call) (handler err) h' Q) :
    Yields (rules call) (recover (request (.call op (fun r => .ret (k r)))) handler) h
      (fun h' a => ∃ r, h' = ⟨op, r⟩ :: h ∧ k r = .ok a) :=
  yields_recover (yields_request (rules _) op k hop) (fun err h' _ => hh err h' _)

/-! ## The steps of a ceremony -/

theorem checkUser_yields {user : User} :
    Yields (rules call) (Service.checkUser user) h (fun _ _ => True) :=
  yields_ite (fun _ => yields_throw) (fun _ => yields_pure trivial)

theorem checkCeremonyBodySize_yields {body : Bytes} :
    Yields (rules call) (s.checkCeremonyBodySize body) h (fun _ _ => True) :=
  yields_ite (fun _ => yields_throw) (fun _ => yields_pure trivial)

theorem loadCredentials_yields {userID : UUID} :
    Yields (rules call) (s.loadCredentials userID) h
      (fun h' creds => Did h' (.getCredentialsByUserID userID) (.ok creds)) := by
  refine (reported_yields (.getCredentialsByUserID userID) id trivial
    (fun _ _ _ => reject_yields)).mono (fun h' creds _ hr => ?_)
  obtain ⟨r, rfl, rfl⟩ := hr
  exact did_cons_self

theorem keepSession_yields {userID : UUID} {key : String} {session : WebAuthn.SessionData} :
    Yields (rules call) (s.keepSession userID key session) h (fun _ _ => True) := by
  refine yields_bind (checked_yields (fun _ _ _ => yields_throw)) (fun data h' _ _ => ?_)
  exact (reported_yields (.saveChallenge key data) id trivial (fun _ _ _ => reject_yields)).mono
    (fun _ _ _ _ => trivial)

theorem takeSession_yields {userID : UUID} {expired rejected : EventKind} {key : String} :
    Yields (rules call) (s.takeSession userID expired rejected key) h (fun _ _ => True) := by
  refine yields_bind (reported_yields (.consumeChallenge key) id trivial
    (fun _ _ _ => reject_yields)) (fun data h' _ _ => ?_)
  exact (checked_yields (fun _ _ _ => reject_yields)).mono (fun _ _ _ _ => trivial)

theorem finishLoginCredential_yields {userID : UUID} {creds : List Credential}
    {assertion : ParsedAssertion} {returned : WaCredential}
    (hlogin : Login call h userID creds assertion returned) :
    Yields (rules call) (s.finishLoginCredential userID returned) h WroteBack := by
  refine yields_ite (fun _ => reject_yields) (fun hwarning => ?_)
  refine yields_bind (yields_query (rules _) .now trivial) (fun now h₁ hs _ => ?_)
  have hjustified : Justified call h₁ (.updateCredentialAfterLogin returned.id returned.signCount
      returned.backupState now) :=
    ⟨userID, creds, assertion, returned, hlogin.mono hs, eq_false_of_ne_true hwarning, rfl, rfl, rfl⟩
  refine yields_bind (reported_yields (.updateCredentialAfterLogin ..) id hjustified
    (fun _ _ _ => reject_yields)) (fun u h₂ _ hupdate => ?_)
  refine yields_bind (reported_yields (.getCredentialByID returned.id) id trivial
    (fun _ _ _ => reject_yields)) (fun cred h₃ _ hread => ?_)
  obtain ⟨r, rfl, rfl⟩ := hupdate
  obtain ⟨r, rfl, rfl⟩ := hread
  refine yields_bind emit_yields (fun _ h₄ hs _ => yields_pure ?_)
  exact ⟨returned.id, returned.signCount, returned.backupState, now,
    Did.mono (List.mem_cons_of_mem _ did_cons_self) hs, did_cons_self.mono hs⟩

/-! ## The operations follow it -/

theorem beginRegistration_yields {user : User} :
    Yields (rules call) (s.beginRegistration user) h (fun _ _ => True) := by
  refine yields_bind checkUser_yields (fun _ h₁ _ _ => ?_)
  refine yields_bind loadCredentials_yields (fun creds h₂ _ _ => ?_)
  refine yields_bind (yields_query (rules _) .createChallenge trivial) (fun challenge h₃ _ _ => ?_)
  refine yields_bind (checked_yields (fun _ _ _ => yields_throw)) (fun begun h₄ _ _ => ?_)
  exact yields_bind keepSession_yields (fun _ _ _ _ => yields_pure trivial)

theorem finishRegistrationResponse_yields {user : User} {body : Bytes}
    (hcall : call.request = .finishRegistrationResponse user body) :
    Yields (rules call) (s.finishRegistrationResponse user body) h (fun _ _ => True) := by
  refine yields_bind checkUser_yields (fun _ h₁ _ _ => ?_)
  refine yields_bind checkCeremonyBodySize_yields (fun _ h₂ _ _ => ?_)
  refine yields_bind takeSession_yields (fun session h₃ _ _ => ?_)
  refine yields_bind (checked_yields (fun _ _ _ => reject_yields)) (fun parsed h₄ _ _ => ?_)
  refine yields_bind (yields_query (rules _) .now trivial) (fun now h₅ _ _ => ?_)
  refine yields_bind (checked_yields (fun _ _ _ => reject_yields)) (fun waCredential h₆ _ _ => ?_)
  refine yields_bind (yields_query (rules _) .newV7 trivial) (fun id h₇ _ hid => ?_)
  refine yields_bind (yields_query (rules _) .now trivial) (fun createdAt h₈ _ hnow => ?_)
  subst hid hnow
  have hjustified : Justified call (⟨.now, createdAt⟩ :: ⟨.newV7, id⟩ :: h₆)
      (.saveCredential (Service.newCredential user parsed waCredential id createdAt)) :=
    ⟨⟨h₆, rfl⟩, user, body, hcall, rfl⟩
  refine yields_bind (reported_yields (.saveCredential _) (fun r => r) hjustified
    (fun _ _ _ => reject_yields)) (fun _ h₉ _ _ => ?_)
  exact yields_bind emit_yields (fun _ _ _ _ => yields_pure trivial)

theorem beginLogin_yields {user : User} :
    Yields (rules call) (s.beginLogin user) h (fun _ _ => True) := by
  refine yields_bind checkUser_yields (fun _ h₁ _ _ => ?_)
  refine yields_bind loadCredentials_yields (fun creds h₂ _ _ => ?_)
  cases creds with
  | nil => exact yields_throw
  | cons cred creds =>
    refine yields_bind (yields_query (rules _) .createChallenge trivial) (fun challenge h₃ _ _ => ?_)
    refine yields_bind (checked_yields (fun _ _ _ => yields_throw)) (fun begun h₄ _ _ => ?_)
    refine yields_bind (yields_query (rules _) .newV7 trivial) (fun ceremonyID h₅ _ _ => ?_)
    exact yields_bind keepSession_yields (fun _ _ _ _ => yields_pure trivial)

theorem beginDiscoverableLogin_yields :
    Yields (rules call) s.beginDiscoverableLogin h (fun _ _ => True) := by
  refine yields_bind (yields_query (rules _) .createChallenge trivial) (fun challenge h₁ _ _ => ?_)
  refine yields_bind (checked_yields (fun _ _ _ => yields_throw)) (fun begun h₂ _ _ => ?_)
  refine yields_bind (yields_query (rules _) .newV7 trivial) (fun ceremonyID h₃ _ _ => ?_)
  exact yields_bind keepSession_yields (fun _ _ _ _ => yields_pure trivial)

theorem finishLoginResponse_yields {user : User} {ceremonyID : UUID} {body : Bytes} :
    Yields (rules ⟨s, .finishLoginResponse user ceremonyID body⟩)
      (s.finishLoginResponse user ceremonyID body) h WroteBack := by
  refine yields_bind checkUser_yields (fun _ h₁ _ _ => ?_)
  refine yields_bind checkCeremonyBodySize_yields (fun _ h₂ _ _ => ?_)
  refine yields_bind loadCredentials_yields (fun creds h₃ _ hread => ?_)
  refine yields_bind takeSession_yields (fun session h₄ hs₄ _ => ?_)
  refine yields_bind (checked_yields (fun _ _ _ => reject_yields)) (fun parsed h₅ _ hparse => ?_)
  obtain ⟨rfl, hparse⟩ := hparse
  refine yields_bind (yields_query (rules _) .now trivial) (fun now h₆ hs₆ _ => ?_)
  refine yields_bind (checked_yields (fun _ _ _ => reject_yields)) (fun waCredential h₇ _ hvalid => ?_)
  obtain ⟨rfl, hvalid⟩ := hvalid
  exact finishLoginCredential_yields (.identified rfl ((hread.mono hs₄).mono hs₆) hparse hvalid)

theorem resolveUser_yields {rawID userHandle : Bytes} :
    Yields (rules call) (s.resolveUser rawID userHandle) h (fun h' cred =>
      Did h' (.getCredentialByID rawID) (.ok cred) ∧ uuidBytes cred.userID = userHandle) := by
  refine yields_bind (reported_yields (.getCredentialByID rawID) id trivial
    (fun _ _ _ => reject_yields)) (fun cred h₁ _ hread => ?_)
  obtain ⟨r, rfl, rfl⟩ := hread
  exact yields_ite (fun _ => yields_throw)
    (fun hhandle => yields_pure ⟨did_cons_self, not_not.mp hhandle⟩)

theorem finishDiscoverableLoginResponse_yields {ceremonyID : UUID} {body : Bytes} :
    Yields (rules ⟨s, .finishDiscoverableLoginResponse ceremonyID body⟩)
      (s.finishDiscoverableLoginResponse ceremonyID body) h WroteBack := by
  refine yields_bind checkCeremonyBodySize_yields (fun _ h₁ _ _ => ?_)
  refine yields_bind takeSession_yields (fun session h₂ _ _ => ?_)
  refine yields_bind (checked_yields (fun _ _ _ => reject_yields)) (fun parsed h₃ _ hparse => ?_)
  obtain ⟨rfl, hparse⟩ := hparse
  refine yields_bind (checked_yields (fun _ _ _ => reject_yields)) (fun _ h₄ _ _ => ?_)
  refine yields_bind (yields_recover resolveUser_yields (fun _ _ _ => reject_yields))
    (fun cred h₅ _ hcred => ?_)
  obtain ⟨hread, hhandle⟩ := hcred
  refine yields_bind (yields_query (rules _) .now trivial) (fun now h₆ hs _ => ?_)
  refine yields_bind (checked_yields (fun _ _ _ => reject_yields)) (fun waCred h₇ _ hvalid => ?_)
  obtain ⟨rfl, hvalid⟩ := hvalid
  exact finishLoginCredential_yields (.discoverable rfl (hread.mono hs) hhandle hparse hvalid)

theorem deleteCredential_yields {userID id : UUID} {allowLast : Bool}
    (hcall : call.request = .deleteCredential userID id allowLast) :
    Yields (rules call) (s.deleteCredential userID id allowLast) h (fun _ _ => True) := by
  refine yields_bind (reported_yields (.deleteCredential userID id allowLast) (fun r => r) hcall
    (fun _ _ _ => ?_)) (fun _ _ _ _ => emit_yields)
  exact yields_ite (fun _ => reject_yields) (fun _ => reject_yields)

theorem program_yields (call : Call) : Yields (rules call) call.program [] (Outcome call) := by
  obtain ⟨s, request⟩ := call
  cases request with
  | beginRegistration user => exact beginRegistration_yields
  | finishRegistrationResponse user body => exact finishRegistrationResponse_yields rfl
  | beginLogin user => exact beginLogin_yields
  | finishLoginResponse user ceremonyID body => exact finishLoginResponse_yields
  | beginDiscoverableLogin => exact beginDiscoverableLogin_yields
  | finishDiscoverableLoginResponse ceremonyID body => exact finishDiscoverableLoginResponse_yields
  | deleteCredential userID id allowLast => exact deleteCredential_yields rfl
  | deleteCredentialsByUserID userID =>
    have hop : Justified ⟨s, .deleteCredentialsByUserID userID⟩ []
        (.deleteCredentialsByUserID userID) := rfl
    exact (yields_request (rules _) (.deleteCredentialsByUserID _) id hop).mono (fun _ _ _ _ => trivial)
  | renameCredential userID id name =>
    have hop : Justified ⟨s, .renameCredential userID id name⟩ []
        (.renameCredential userID id name) := rfl
    exact (yields_request (rules _) (.renameCredential ..) (fun r => r) hop).mono (fun _ _ _ _ => trivial)

/-! ## Runs follow it -/

/-- A trace in which every call was made for a reason. -/
abbrev Trace (w₀ : World) (trace : List Entry) (w : World) : Prop :=
  Valid (Y := system) Justified w₀ trace w

theorem run_sound {w₀ : World} {as : List (system).Action} {c : Run}
    (hrun : (Config.start w₀).run as = some c) :
    c.Sound Justified (fun (call : Call) h (out : Except Err call.request.Ret) =>
      ∀ a, out = .ok a → Outcome call h a) w₀ :=
  Config.sound_start.run (fun call => (program_yields call).along) hrun

end Sulis.Passkey
