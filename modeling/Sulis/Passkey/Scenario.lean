-- SUMMARY: A small concrete instance of package passkey, and scripted runs over it.
import Sulis.Passkey.Facts

/-!
# Scenarios

A response lists its raw ID, its key and its count, one byte each, and then the user
handle. A script lists the operations that start and the threads that step, each with
the order in which a map is iterated.
-/

namespace Sulis.Passkey.Scenario

open Interaction Interaction.System

/-- The counter of a credential after an assertion. -/
def counted (given : WaCredential) (signCount : Nat) : WaCredential :=
  if signCount ≤ given.signCount ∧ ¬ (signCount = 0 ∧ given.signCount = 0) then
    { given with cloneWarning := true }
  else { given with signCount := signCount, cloneWarning := false }

/-- The credential with the raw ID and the key of the response. -/
def validate (user : WaUser) (assertion : ParsedAssertion) : Except Err WaCredential :=
  match user.webAuthnCredentials.find? (fun given =>
    given.id = assertion.rawID ∧ given.publicKey = (assertion.raw.drop 1).take 1) with
  | none => .error (.protocol "invalid_request" "")
  | some given => .ok (counted given assertion.signCount)

@[reducible] def plain : WebAuthn where
  SessionData := Unit
  CredentialCreation := Unit
  CredentialAssertion := Unit
  new := fun _ => .ok ()
  beginRegistration := fun _ _ _ _ => .ok ((), ())
  beginLogin := fun _ _ _ _ => .ok ((), ())
  beginDiscoverableLogin := fun _ _ _ => .ok ((), ())
  marshal := fun _ => .ok []
  unmarshal := fun _ => .ok ()
  parseCredentialCreationResponseBytes := fun body => .ok ⟨none, body⟩
  parseCredentialRequestResponseBytes := fun body =>
    match body with
    | rawID :: _ :: count :: handle => .ok ⟨[rawID], handle, count.toNat, body⟩
    | _ => .error (.protocol "invalid_request" "")
  createCredential := fun _ _ _ parsed _ =>
    match parsed.raw with
    | rawID :: key :: count :: _ =>
      .ok { id := [rawID], publicKey := [key], attestationType := "none", transport := [],
            backupEligible := false, backupState := false, aaguid := [], signCount := count.toNat }
    | _ => .error (.protocol "invalid_attestation" "")
  validateLogin := fun _ user _ assertion _ => validate user assertion
  checkDiscoverable := fun _ _ => .ok ()
  lookupFailed := id
  validateDiscoverableLogin := fun _ user _ assertion _ => validate user assertion

attribute [local instance] plain

theorem validate_eq_ok {user : WaUser} {assertion : ParsedAssertion} {returned : WaCredential}
    (h : validate user assertion = .ok returned) :
    ∃ given ∈ user.webAuthnCredentials, given.id = assertion.rawID ∧
      returned = counted given assertion.signCount := by
  unfold validate at h
  split at h
  · cases h
  · rename_i given hfind
    have hid := List.find?_some hfind
    simp only [decide_eq_true_eq] at hid
    exact ⟨given, List.mem_of_find?_eq_some hfind, hid.1, (Except.ok.inj h).symm⟩

theorem plain_answers {related : WaCredential → ParsedAssertion → WaCredential → Prop}
    (h : ∀ given assertion, related given assertion (counted given assertion.signCount)) :
    WebAuthn.Answers related := by
  intro rp user session assertion now returned hvalid
  have hok : validate user assertion = .ok returned := hvalid.elim id id
  obtain ⟨given, hgiven, hid, rfl⟩ := validate_eq_ok hok
  exact ⟨given, hgiven, hid, h given assertion⟩

theorem plain_verifies : WebAuthn.Answers VerifiedWith := by
  refine plain_answers (fun given assertion => ?_)
  unfold counted
  split
  · exact ⟨rfl, rfl⟩
  · exact ⟨rfl, rfl⟩

theorem plain_counts : WebAuthn.Answers CountedAgainst := by
  refine plain_answers (fun given assertion => ?_)
  unfold counted
  split
  · rename_i hwarning
    exact ⟨rfl, iff_of_true rfl hwarning, fun h => nomatch h⟩
  · rename_i hwarning
    exact ⟨rfl, iff_of_false (by simp) hwarning, fun _ => rfl⟩

/-- One relying party, and no event sink. -/
def service : Service :=
  ⟨{ rpDisplayName := "app", rpID := "example.com", rpOrigins := ["https://example.com"] }, by decide⟩

/-- The ID drawn by the `n`-th action. -/
def ident (n : Nat) : UUID := BitVec.ofNat 128 (n + 1)

/-- An operation starts, or a thread steps. -/
inductive Act
  | start (request : Request)
  | step (i order : Nat)

/-- The actions of a script, numbered on from `n`. -/
def actions (n : Nat) : List Act → List (system).Action
  | [] => []
  | .start request :: rest => .invoke ⟨service, request⟩ :: actions (n + 1) rest
  | .step i order :: rest => .step i { time := n, uuid := ident n, order := order } ::
      actions (n + 1) rest

/-- Run a script on empty stores. -/
def play (script : List Act) : Option Run := Run.empty.run (actions 0 script)

/-- One thread takes several steps. -/
def steps (i n : Nat) : List Act := List.replicate n (.step i 0)

/-- The request of a login that has returned a credential, and the credential. -/
def loggedIn? (c : Run) (i : Nat) : Option (Request × Credential) :=
  match c.threads[i]? with
  | some ⟨⟨_, .finishLoginResponse user ceremonyID body⟩, .ret (.ok cred)⟩ =>
    some (.finishLoginResponse user ceremonyID body, cred)
  | some ⟨⟨_, .finishDiscoverableLoginResponse ceremonyID body⟩, .ret (.ok cred)⟩ =>
    some (.finishDiscoverableLoginResponse ceremonyID body, cred)
  | _ => none

theorem loggedIn_of {c : Run} {i : Nat} {request : Request} {cred : Credential}
    (h : loggedIn? c i = some (request, cred)) : ∃ s, LoggedIn c i ⟨s, request⟩ cred := by
  unfold loggedIn? at h
  split at h
  · rename_i s user ceremonyID body cred' hthread
    cases h
    exact ⟨s, .identified hthread⟩
  · rename_i s ceremonyID body cred' hthread
    cases h
    exact ⟨s, .discoverable hthread⟩
  · cases h

/-- Where only the request is looked at. -/
theorem loggedIn_of_request {c : Run} {i : Nat} {request : Request}
    (h : (loggedIn? c i).map Prod.fst = some request) :
    ∃ s cred, LoggedIn c i ⟨s, request⟩ cred := by
  obtain ⟨⟨_, cred⟩, hcred, rfl⟩ := Option.map_eq_some_iff.mp h
  obtain ⟨s, hlogged⟩ := loggedIn_of hcred
  exact ⟨s, cred, hlogged⟩

end Sulis.Passkey.Scenario
