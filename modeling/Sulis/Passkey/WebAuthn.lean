-- SUMMARY: What package passkey asks of go-webauthn, what may be assumed of its answers, and which configurations are accepted.
import Sulis.Model.Platform
import Sulis.Passkey.Types

/-!
# go-webauthn

The library that parses and verifies ceremonies is a parameter. Its functions take
what they would draw or read for themselves, the challenge and the time, as arguments.
What a result assumes of them is stated by `Answers`.
-/

namespace Sulis.Passkey

/-! ## Its records -/

/-- A `webauthn.Credential`, with the fields of its `Flags` and `Authenticator`. -/
structure WaCredential where
  id : Bytes
  publicKey : Bytes
  attestationType : String
  transport : List String
  backupEligible : Bool
  backupState : Bool
  aaguid : Bytes
  signCount : Nat
  cloneWarning : Bool := false
  deriving DecidableEq, Repr

/-- A `webauthn.User`. -/
structure WaUser where
  webAuthnID : Bytes
  webAuthnName : String
  webAuthnDisplayName : String
  webAuthnCredentials : List WaCredential

/-- What the package looks at in a parsed registration response, and the response. -/
structure ParsedCreation where
  /-- `ClientExtensionResults.CredProps`, and the `RK` in it. -/
  credProps : Option (Option Bool)
  raw : Bytes

/-- What the package looks at in a parsed assertion, the counter in its authenticator
    data, and the response. -/
structure ParsedAssertion where
  rawID : Bytes
  userHandle : Bytes
  signCount : Nat
  raw : Bytes

/-- One entry of the list of credentials that may not be registered again. -/
structure CredentialDescriptor where
  credentialID : Bytes
  transport : List String
  attestationType : String

/-! ## Its functions -/

class WebAuthn where
  SessionData : Type
  /-- `protocol.CredentialCreation` -/
  CredentialCreation : Type
  /-- `protocol.CredentialAssertion` -/
  CredentialAssertion : Type
  /-- The verdict of `webauthn.New`. -/
  new : RelyingParty → Except Err Unit
  /-- With the exclusions, and with the `credProps` extension asked for. -/
  beginRegistration : RelyingParty → WaUser → List CredentialDescriptor → (challenge : Bytes) →
    Except Err (CredentialCreation × SessionData)
  beginLogin : RelyingParty → WaUser → Requirement → (challenge : Bytes) →
    Except Err (CredentialAssertion × SessionData)
  beginDiscoverableLogin : RelyingParty → Requirement → (challenge : Bytes) →
    Except Err (CredentialAssertion × SessionData)
  /-- `json.Marshal` of session data -/
  marshal : SessionData → Except Err Bytes
  /-- `json.Unmarshal` into session data -/
  unmarshal : Bytes → Except Err SessionData
  parseCredentialCreationResponseBytes : Bytes → Except Err ParsedCreation
  parseCredentialRequestResponseBytes : Bytes → Except Err ParsedAssertion
  createCredential : RelyingParty → WaUser → SessionData → ParsedCreation → Time →
    Except Err WaCredential
  validateLogin : RelyingParty → WaUser → SessionData → ParsedAssertion → Time →
    Except Err WaCredential
  /-- What `ValidateDiscoverableLogin` checks before it asks for the user. -/
  checkDiscoverable : SessionData → ParsedAssertion → Except Err Unit
  /-- How `ValidateDiscoverableLogin` reports that it was given no user. -/
  lookupFailed : Err → Err
  /-- The rest of `ValidateDiscoverableLogin`, for the user it was given. -/
  validateDiscoverableLogin : RelyingParty → WaUser → SessionData → ParsedAssertion → Time →
    Except Err WaCredential

variable [WebAuthn]

/-- An assertion is only let through against one of the credentials of the user it is
    checked for, one with the raw ID it names, and what is then returned is so related
    to that credential. -/
def WebAuthn.Answers (related : (given : WaCredential) → ParsedAssertion → (returned : WaCredential) → Prop) :
    Prop :=
  ∀ rp user session assertion now returned,
    (WebAuthn.validateLogin rp user session assertion now = .ok returned ∨
      WebAuthn.validateDiscoverableLogin rp user session assertion now = .ok returned) →
    ∃ given ∈ user.webAuthnCredentials, given.id = assertion.rawID ∧ related given assertion returned

omit [WebAuthn] in
/-- The assertion was verified with the key of that credential. -/
def VerifiedWith (given : WaCredential) (_ : ParsedAssertion) (returned : WaCredential) : Prop :=
  returned.id = given.id ∧ returned.publicKey = given.publicKey

omit [WebAuthn] in
/-- The count of the assertion was compared with that of the credential. -/
structure CountedAgainst (given : WaCredential) (assertion : ParsedAssertion)
    (returned : WaCredential) : Prop where
  id : returned.id = given.id
  warning : returned.cloneWarning = true ↔
    assertion.signCount ≤ given.signCount ∧ ¬ (assertion.signCount = 0 ∧ given.signCount = 0)
  reported : returned.cloneWarning = false → returned.signCount = assertion.signCount

/-! ## Services -/

/-- `NewService`, once the options have been applied: the first check that fails. -/
def newService (cfg : Config) : Except Err Unit :=
  if cfg.rpID = "" then .error (.other "passkey: RPID must not be empty")
  else if cfg.rpDisplayName = "" then .error (.other "passkey: RPDisplayName must not be empty")
  else if cfg.rpOrigins = [] then
    .error (.other "passkey: RPOrigins must list at least one allowed origin")
  else
    match cfg.userVerification with
    | .unknown text => .error (.quoted "passkey: invalid user verification requirement" text)
    | _ =>
      match cfg.residentKey with
      | .unknown text => .error (.quoted "passkey: invalid resident key requirement" text)
      | _ =>
        if cfg.maxCeremonyBody ≤ 0 then
          .error (.other ("passkey: invalid max ceremony body " ++ toString cfg.maxCeremonyBody ++
            " (must be > 0)"))
        else
          match WebAuthn.new cfg.relyingParty with
          | .error err => .error (.wrap "passkey: initializing webauthn" err)
          | .ok () => .ok ()

/-- A `Service`: a configuration that was accepted. -/
structure Service where
  cfg : Config
  accepted : newService cfg = .ok ()

def Service.wa (s : Service) : RelyingParty := s.cfg.relyingParty

/-! ## What it is given -/

omit [WebAuthn]

/-- One element of `toWebAuthnCreds`. -/
def Credential.toWebAuthn (c : Credential) : WaCredential where
  id := c.credentialID
  publicKey := c.publicKey
  attestationType := c.attestationType
  transport := c.transports
  backupEligible := c.backupEligible
  backupState := c.backupState
  aaguid := c.aaguid
  signCount := c.signCount

def toWebAuthnCreds (creds : List Credential) : List WaCredential :=
  creds.map Credential.toWebAuthn

/-- `CredentialDescriptors` -/
def credentialDescriptors (creds : List WaCredential) : List CredentialDescriptor :=
  creds.map (fun c => ⟨c.id, c.transport, c.attestationType⟩)

/-- `UUID[:]`, the sixteen bytes of an ID. -/
def uuidBytes (id : UUID) : Bytes :=
  (List.range 16).map (fun i => UInt8.ofNat (id.toNat / 256 ^ (15 - i) % 256))

/-- `webauthnUser` -/
def webauthnUser (user : User) (credentials : List Credential) : WaUser where
  webAuthnID := uuidBytes user.id
  webAuthnName := user.name
  webAuthnDisplayName := user.displayName
  webAuthnCredentials := toWebAuthnCreds credentials

/-- `credPropsResidentKey` -/
def credPropsResidentKey (ext : Option (Option Bool)) : Bool :=
  match ext with
  | some (some rk) => rk
  | _ => false

/-- `challengeKey` -/
def challengeKey (kind id : String) : String := kind ++ ":" ++ id

end Sulis.Passkey
