-- SUMMARY: Construction of an instance: the options, what New checks of them and what it does not.
import Sulis.Model.HashText

/-!
# Construction

`New` of `sulis.go` with the options of `config.go` and `validateCookieName` of
`cookie.go`. Whether an argument is nil is all that is read of the stores here. The
last thing `New` does is hash a fixed password under the parameters it was given,
and `argon2.IDKey` panics without an iteration or a lane. It panics for an empty key as
well; that is left to `Platform.idKey`, which is taken to return as many bytes as it is
asked for, none included.
-/

namespace Sulis

/-- Which of the interfaces `New` was given. -/
structure StoreArgs where
  users : Bool := true
  sessions : Bool := true
  tokens : Bool := true
  factors : Bool := true
  deriving DecidableEq, Repr

/-- The configuration with the cookie names, which only the HTTP layer reads. -/
structure Settings extends Config where
  cookieName : String := "__Host-session"
  csrfCookieName : String := "__Host-csrf_token"
  deriving DecidableEq, Repr

def defaultSettings : Settings := { defaultConfig with }

/-- `Option` -/
abbrev Setting : Type := Settings → Settings

/-- `WithArgon2Params` -/
def withArgon2Params (p : Argon2Params) : Setting := fun c => { c with argon2 := p }

/-- `WithPepper` -/
def withPepper (pepper : Bytes) : Setting := fun c => { c with pepper := pepper }

/-- `WithPasswordLengthLimits` -/
def withPasswordLengthLimits (minLength maxLength : Int) : Setting := fun c =>
  { c with minPasswordLength := minLength, maxPasswordLength := maxLength }

/-- `WithCookieName` -/
def withCookieName (name : String) : Setting := fun c => { c with cookieName := name }

/-- `checkStores` -/
def checkStores (stores : StoreArgs) : Except Err Unit :=
  if !stores.users then .error (.other "sulis: UserStore must not be nil")
  else if !stores.sessions then .error (.other "sulis: SessionStore must not be nil")
  else if !stores.tokens then .error (.other "sulis: TokenStore must not be nil")
  else if !stores.factors then
    .error (.other ("sulis: SecondFactorChecker must not be nil; pass sulis.NoSecondFactors\x7b\x7d " ++
      "if this application has no second factors"))
  else .ok ()

/-- A character of an HTTP token. -/
def isTokenChar (c : Char) : Bool :=
  c.isAlphanum || c.toNat ∈ [33, 35, 36, 37, 38, 39, 42, 43, 45, 46, 94, 95, 96, 124, 126]

/-- `validateCookieName`: the probe it builds is valid if its name is a token. -/
def validateCookieName (name : String) : Except Err Unit :=
  if name ≠ "" ∧ name.toList.all isTokenChar then .ok ()
  else .error (.wrap ("sulis: invalid cookie name " ++ name.quote) (.other "http: invalid Cookie.Name"))

/-- What `New` has checked and set up. -/
structure Instance where
  cfg : Settings
  dummyHash : String
  deriving DecidableEq, Repr

/-- The password that takes the place of one that is not there. -/
def dummyPassword : Bytes := "sulis-timing-equalization-dummy".toUTF8.toList

/-- The checks `New` makes before it hashes. -/
def checkSettings (cfg : Settings) : Except Err Unit := do
  if cfg.maxPasswordLength < cfg.minPasswordLength then
    throw (.other ("sulis: minimum password length " ++ toString cfg.minPasswordLength ++
      " exceeds maximum " ++ toString cfg.maxPasswordLength))
  validateCookieName cfg.cookieName
  validateCookieName cfg.csrfCookieName
  if cfg.cookieName = cfg.csrfCookieName then
    throw (.other ("sulis: session and CSRF cookie names must differ; both are " ++
      cfg.cookieName.quote))

/-- `argon2.IDKey` returns only with an iteration and a lane. Of the length of the key
    nothing is asked here. -/
def Argon2Params.Runs (params : Argon2Params) : Prop := params.iterations ≠ 0 ∧ params.parallelism ≠ 0

instance : DecidablePred Argon2Params.Runs := fun _ => inferInstanceAs (Decidable (_ ∧ _))

/-- `New`, with the salt it draws; `none` where `IDKey` panics for want of an iteration or a
    lane. -/
def new [Platform] (stores : StoreArgs) (opts : List Setting) (salt : Bytes) :
    Option (Except Err Instance) :=
  match checkStores stores with
  | .error err => some (.error err)
  | .ok () =>
    let cfg := opts.foldl (fun cfg opt => opt cfg) defaultSettings
    match checkSettings cfg with
    | .error err => some (.error err)
    | .ok () =>
      if cfg.argon2.Runs then
        some (.ok ⟨cfg, hashPassword dummyPassword cfg.argon2 cfg.pepper salt⟩)
      else none

/-- The parameters of an instance were checked for nothing else. -/
theorem new_runs [Platform] {stores : StoreArgs} {opts : List Setting} {salt : Bytes} {s : Instance}
    (h : new stores opts salt = some (.ok s)) : s.cfg.argon2.Runs := by
  simp only [new] at h
  split at h
  · cases h
  · split at h
    · cases h
    · split at h
      · rename_i hruns
        obtain rfl : _ = s := Except.ok.inj (Option.some.inj h)
        exact hruns
      · cases h

end Sulis
