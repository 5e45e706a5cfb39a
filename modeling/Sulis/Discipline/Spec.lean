-- SUMMARY: What an operation must have done before each write it makes, and what its success says about its history.
import Sulis.Discipline.Mutation
import Sulis.Model.Calls

/-!
# The discipline of the operations

One relation per kind of write says which operation may make it and what that
operation must have done before, judged by the operation's own calls alone:
`MayCreate` for users, `MayMutate` for updates of a user, `MayIssue` for
sessions, `MayMint` for tokens. `Justified` puts them together, and `Outcome`
says what a successful return tells about the calls made on the way.

All of them only look at calls that happened, so they survive further calls.
-/

namespace Sulis

open Interaction

/-! ## Facts about a history -/

/-- The operation read this copy of a user. -/
def Read (h : Hist) (u : User) : Prop :=
  Did h (.getUserByID u.id) (.ok u) ∨ Did h (.getUserByEmail u.email) (.ok u)

theorem Read.mono {h h' : Hist} {u : User} (hr : Read h u) (hs : h <:+ h') : Read h' u :=
  hr.imp (·.mono hs) (·.mono hs)

/-- The operation read this copy, or read it and stamped it verified. -/
def Loaded (h : Hist) (u : User) : Prop := Read h u ∨ ∃ u₀ now, Read h u₀ ∧ u = u₀.stamped now

/-- The operation loaded this copy and then found it neither disabled nor, by the
    clock at that moment, locked. -/
structure Passed (h : Hist) (u : User) : Prop where
  loaded : ∃ h₀, (⟨.status u, ()⟩ :: h₀) <:+ h ∧ Loaded h₀ u
  enabled : u.disabledAt = none
  unlocked : ∀ until_, u.lockedUntil = some until_ →
    ∃ t, [⟨.now, t⟩, ⟨.status u, ()⟩] <:+: h ∧ until_ ≤ t

theorem Passed.mono {h h' : Hist} {u : User} (hp : Passed h u) (hs : h <:+ h') : Passed h' u where
  loaded := by
    obtain ⟨h₀, hsuf, hl⟩ := hp.loaded
    exact ⟨h₀, hsuf.trans hs, hl⟩
  enabled := hp.enabled
  unlocked := by
    intro until_ hu
    obtain ⟨t, hin, ht⟩ := hp.unlocked until_ hu
    exact ⟨t, hin.trans hs.isInfix, ht⟩

/-- The gates in front of every session but a signup's. -/
def Gated (cfg : Config) (h : Hist) (uid : UUID) : Prop :=
  ∃ u, u.id = uid ∧ Passed h u ∧ (cfg.requireVerifiedEmail = true → u.emailVerifiedAt ≠ none)

theorem Gated.mono {cfg : Config} {h h' : Hist} {uid : UUID} (hg : Gated cfg h uid)
    (hs : h <:+ h') : Gated cfg h' uid := by
  obtain ⟨u, hid, hp, hv⟩ := hg
  exact ⟨u, hid, hp.mono hs, hv⟩

/-- The operation consumed this token and found it unexpired by the clock right
    after. -/
def Redeemed (h : Hist) (hash : String) (purpose : TokenPurpose) (tok : Token) : Prop :=
  ∃ t, [⟨.now, t⟩, ⟨.consumeToken hash purpose, .ok tok⟩] <:+: h ∧ t ≤ tok.expiresAt

theorem Redeemed.mono {h h' : Hist} {hash : String} {purpose : TokenPurpose} {tok : Token}
    (hr : Redeemed h hash purpose tok) (hs : h <:+ h') : Redeemed h' hash purpose tok := by
  obtain ⟨t, hin, ht⟩ := hr
  exact ⟨t, hin.trans hs.isInfix, ht⟩

theorem Redeemed.did {h : Hist} {hash : String} {purpose : TokenPurpose} {tok : Token}
    (hr : Redeemed h hash purpose tok) : Did h (.consumeToken hash purpose) (.ok tok) := by
  obtain ⟨t, hin, _⟩ := hr
  exact hin.subset (by simp)

/-- The account a consumed magic link leads to: the one it names, or the holder of
    its address, created if there was none. -/
def Resolves (h : Hist) (tok : Token) (u : User) : Prop :=
  (tok.userID ≠ .nil ∧ Did h (.getUserByID tok.userID) (.ok u) ∧ u.id = tok.userID) ∨
    (tok.userID = .nil ∧ u.email = tok.email ∧
      (Did h (.getUserByEmail tok.email) (.ok u) ∨ Did h (.createUser u) (.ok ())))

theorem Resolves.mono {h h' : Hist} {tok : Token} {u : User} (hr : Resolves h tok u)
    (hs : h <:+ h') : Resolves h' tok u := by
  rcases hr with ⟨hne, hd, hid⟩ | ⟨hnil, hemail, hd⟩
  · exact Or.inl ⟨hne, hd.mono hs, hid⟩
  · exact Or.inr ⟨hnil, hemail, hd.imp (·.mono hs) (·.mono hs)⟩

/-- No status check of the operation has met a disabled account. -/
def Cleared (h : Hist) : Prop := ∀ u, Did h (.status u) () → u.disabledAt = none

/-- The operation has not asked the second-factor checker yet. -/
def Unasked (h : Hist) : Prop := ∀ uid r, ¬ Did h (.hasSecondFactor uid) r

/-- The operation has not tried to consume a token yet. -/
def Unspent (h : Hist) : Prop := ∀ hash purpose r, ¬ Did h (.consumeToken hash purpose) r

theorem cleared_nil : Cleared [] := fun _ hu => absurd hu List.not_mem_nil

theorem unasked_nil : Unasked [] := fun _ _ hu => absurd hu List.not_mem_nil

theorem unspent_nil : Unspent [] := fun _ _ _ hu => absurd hu List.not_mem_nil

/-- Calls that are neither a status check nor a question to the second-factor
    checker. -/
def Op.Plain : Op → Prop
  | .status _ => False
  | .hasSecondFactor _ => False
  | _ => True

def Op.NotFactor : Op → Prop
  | .hasSecondFactor _ => False
  | _ => True

def Op.NotUpdate : Op → Prop
  | .updateUser _ => False
  | _ => True

/-- Plain calls that do not write to a user either. -/
def Op.Quiet : Op → Prop
  | .status _ => False
  | .hasSecondFactor _ => False
  | .updateUser _ => False
  | _ => True

def Op.NotConsume : Op → Prop
  | .consumeToken .. => False
  | _ => True

theorem Op.Plain.notFactor {op : Op} (h : op.Plain) : op.NotFactor := by
  cases op <;> trivial

theorem Op.Quiet.plain {op : Op} (h : op.Quiet) : op.Plain := by
  cases op <;> trivial

theorem Op.Quiet.notUpdate {op : Op} (h : op.Quiet) : op.NotUpdate := by
  cases op <;> trivial

theorem Cleared.grows {h h' : Hist} (hc : Cleared h) (hg : Prog.Grows (S := iface) Op.Plain h h') :
    Cleared h' := fun u hu => (hg.mem hu).elim False.elim (hc u)

theorem Cleared.cons {h : Hist} (hc : Cleared h) {op : Op} {r : op.Res}
    (hop : ∀ u, op ≠ .status u) : Cleared (⟨op, r⟩ :: h) := by
  intro u hu
  rcases List.mem_cons.mp hu with heq | hmem
  · cases heq; exact absurd rfl (hop u)
  · exact hc u hmem

theorem Cleared.status {h : Hist} (hc : Cleared h) {u : User} (hu : u.disabledAt = none) :
    Cleared (⟨.status u, ()⟩ :: h) := by
  intro u' hu'
  rcases List.mem_cons.mp hu' with heq | hmem
  · cases heq; exact hu
  · exact hc u' hmem

/-- The operation checked the status of the user, and met no disabled account. -/
structure Vetted (h : Hist) (uid : UUID) : Prop where
  checked : ∃ u, u.id = uid ∧ Did h (.status u) ()
  cleared : Cleared h

theorem Vetted.grows {h h' : Hist} {uid : UUID} (hv : Vetted h uid)
    (hg : Prog.Grows (S := iface) Op.Plain h h') : Vetted h' uid where
  checked := by
    obtain ⟨u, hid, hd⟩ := hv.checked
    exact ⟨u, hid, hd.mono hg.suffix⟩
  cleared := hv.cleared.grows hg

theorem Vetted.cons {h : Hist} {uid : UUID} (hv : Vetted h uid) {op : Op} {r : op.Res}
    (hop : ∀ u, op ≠ .status u) : Vetted (⟨op, r⟩ :: h) uid where
  checked := by
    obtain ⟨u, hid, hd⟩ := hv.checked
    exact ⟨u, hid, List.mem_cons_of_mem _ hd⟩
  cleared := hv.cleared.cons hop

theorem Passed.vetted {h : Hist} {u : User} (hp : Passed h u) (hc : Cleared h) : Vetted h u.id where
  checked := by
    obtain ⟨h₀, hsuf, -⟩ := hp.loaded
    exact ⟨u, rfl, hsuf.subset List.mem_cons_self⟩
  cleared := hc

theorem Unasked.grows {h h' : Hist} (hu : Unasked h)
    (hg : Prog.Grows (S := iface) Op.NotFactor h h') : Unasked h' :=
  fun uid r hd => (hg.mem hd).elim id (hu uid r)

theorem Unspent.grows {h h' : Hist} (hu : Unspent h)
    (hg : Prog.Grows (S := iface) Op.NotConsume h h') : Unspent h' :=
  fun hash purpose r hd => (hg.mem hd).elim id (hu hash purpose r)

variable [Platform]

/-! ## Who may write what -/

/-- A freshly hashed password. -/
def Hashed (cfg : Config) (h : Hist) (password : Bytes) (hash : String) : Prop :=
  ∃ salt, Did h (.randRead cfg.argon2.saltLength.toNat) salt ∧
    hash = hashPassword password cfg.argon2 cfg.pepper salt

theorem Hashed.mono {cfg : Config} {h h' : Hist} {password : Bytes} {hash : String}
    (hh : Hashed cfg h password hash) (hs : h <:+ h') : Hashed cfg h' password hash := by
  obtain ⟨salt, hd, heq⟩ := hh
  exact ⟨salt, hd.mono hs, heq⟩

/-- A user row as the package creates it. -/
structure NewUser (h : Hist) (u : User) : Prop where
  id : Did h .newV7 u.id
  email : u.emailVerifiedAt = none
  pending : u.pendingEmail = ""
  version : u.version = 0

inductive MayCreate (cfg : Config) : Call → Hist → User → Prop
  | register {email password ri h u} (hnew : NewUser h u)
      (hemail : normalizeEmail email = .ok u.email) (hhash : Hashed cfg h password u.passwordHash) :
      MayCreate cfg (.register email password ri) h u
  | redeem {raw nonce ri h u tok} (hnew : NewUser h u)
      (htok : Redeemed h (hashToken raw) .magicLink tok) (hnil : tok.userID = .nil)
      (hemail : u.email = tok.email) : MayCreate cfg (.redeemMagicLink raw nonce ri) h u

/-- The operation checked a password against this copy, which held a hash. -/
def Compared (cfg : Config) (h : Hist) (password : Bytes) (u : User) (matched : Bool) : Prop :=
  Read h u ∧ ∃ legacyForm,
    verifyPassword password u.passwordHash cfg.pepper = .ok (matched, legacyForm)

theorem Compared.mono {cfg : Config} {h h' : Hist} {password : Bytes} {u : User} {matched : Bool}
    (hc : Compared cfg h password u matched) (hs : h <:+ h') :
    Compared cfg h' password u matched := ⟨hc.1.mono hs, hc.2⟩

/-- What a login or a step-up may do to the row whose password it checked. -/
inductive MayUpkeep (cfg : Config) (password : Bytes) (h : Hist) : UUID → Mutation → Prop
  | rehash {u newHash now} (hu : Compared cfg h password u true)
      (hhash : Hashed cfg h password newHash) (hnow : Did h .now now) :
      MayUpkeep cfg password h u.id (.rehash u.passwordHash newHash now)
  | recordFailedLogin {u now} (hu : Compared cfg h password u false) (hnow : Did h .now now) :
      MayUpkeep cfg password h u.id (.recordFailedLogin now)
  | clearFailedLogins {u now} (hu : Compared cfg h password u true) (hnow : Did h .now now) :
      MayUpkeep cfg password h u.id (.clearFailedLogins now)

inductive MayMutate (cfg : Config) : Call → Hist → UUID → Mutation → Prop
  | login {email password ri h uid m} (hm : MayUpkeep cfg password h uid m) :
      MayMutate cfg (.login email password ri) h uid m
  | verifyPassword {email password ri h uid m} (hm : MayUpkeep cfg password h uid m) :
      MayMutate cfg (.verifyPassword email password ri) h uid m
  | reAuthenticate {session password ri h uid m} (hm : MayUpkeep cfg password h uid m) :
      MayMutate cfg (.reAuthenticate session password ri) h uid m
  | changePassword {uid oldPassword newPassword ri h hash now}
      (hhash : Hashed cfg h newPassword hash) (hnow : Did h .now now) :
      MayMutate cfg (.changePassword uid oldPassword newPassword ri) h uid
        (.setPassword (.oldPassword oldPassword) hash now)
  | setInitialPassword {uid newPassword h hash now}
      (hhash : Hashed cfg h newPassword hash) (hnow : Did h .now now) :
      MayMutate cfg (.setInitialPassword uid newPassword) h uid
        (.setPassword .passwordless hash now)
  | resetPassword {raw newPassword h tok hash now}
      (htok : Redeemed h (hashToken raw) .passwordReset tok)
      (hhash : Hashed cfg h newPassword hash) (hnow : Did h .now now) :
      MayMutate cfg (.resetPassword raw newPassword) h tok.userID
        (.setPassword .unguarded hash now)
  | verifyEmail {raw h tok u now} (htok : Redeemed h (hashToken raw) .emailVerification tok)
      (hu : Read h u) (hid : u.id = tok.userID) (hemail : tok.email = u.email)
      (hnow : Did h .now now) :
      MayMutate cfg (.verifyEmail raw) h tok.userID (.stampEmailVerified now)
  | redeemMagicLink {raw nonce ri h tok u now}
      (htok : Redeemed h (hashToken raw) .magicLink tok) (hu : Resolves h tok u)
      (hnow : Did h .now now) :
      MayMutate cfg (.redeemMagicLink raw nonce ri) h u.id (.stampEmailVerified now)
  | changeEmail {uid newEmail} {h : Hist} {address now}
      (hemail : normalizeEmail newEmail = .ok address) (hnow : Did h .now now) :
      MayMutate cfg (.changeEmail uid newEmail) h uid (.stageEmail address now)
  | confirmEmailChange {raw h tok now} (htok : Redeemed h (hashToken raw) .emailChange tok)
      (hnow : Did h .now now) :
      MayMutate cfg (.confirmEmailChange raw) h tok.userID (.confirmEmailChange tok.email now)
  | disableUser {uid reason} {h : Hist} {now} (hnow : Did h .now now) :
      MayMutate cfg (.disableUser uid reason) h uid (.disable reason now)
  | enableUser {uid} {h : Hist} {now} (hnow : Did h .now now) :
      MayMutate cfg (.enableUser uid) h uid (.enable now)

inductive MayIssue (cfg : Config) : Call → Hist → UUID → Prop
  | register {email password ri} {h : Hist} {u} (hu : Did h (.createUser u) (.ok ())) :
      MayIssue cfg (.register email password ri) h u.id
  | login {email password ri h uid} (hgate : Gated cfg h uid)
      (hfactor : Did h (.hasSecondFactor uid) (.ok false)) :
      MayIssue cfg (.login email password ri) h uid
  | redeemMagicLink {raw nonce ri h uid tok u} (hgate : Gated cfg h uid)
      (hfactor : Did h (.hasSecondFactor uid) (.ok false))
      (htok : Redeemed h (hashToken raw) .magicLink tok) (hu : Resolves h tok u)
      (hid : u.id = uid) : MayIssue cfg (.redeemMagicLink raw nonce ri) h uid
  | completeTwoFactor {uid raw ri h tok} (hgate : Gated cfg h uid)
      (htok : Redeemed h (hashToken raw) .twoFactor tok) (hid : tok.userID = uid) :
      MayIssue cfg (.completeTwoFactor uid raw ri) h uid
  | refreshSession {session h} (hgate : Gated cfg h session.userID)
      (hold : Did h (.deleteSession session.userID session.id) (.ok ())) :
      MayIssue cfg (.refreshSession session) h session.userID
  | issueSession {auth h} (hgate : Gated cfg h auth.userID) :
      MayIssue cfg (.issueSession auth) h auth.userID
  | issueSessionUnchecked {uid method h} (hgate : Gated cfg h uid) :
      MayIssue cfg (.issueSessionUnchecked uid method) h uid

inductive MayMint (cfg : Config) : Call → Hist → TokenPurpose → UUID → String → Prop
  | resetToken {email ri} {h : Hist} {address u} (hemail : normalizeEmail email = .ok address)
      (hu : Did h (.getUserByEmail address) (.ok u)) :
      MayMint cfg (.createPasswordResetToken email ri) h .passwordReset u.id ""
  | resetTokenStrict {email ri} {h : Hist} {address u} (hemail : normalizeEmail email = .ok address)
      (hu : Did h (.getUserByEmail address) (.ok u)) :
      MayMint cfg (.createPasswordResetTokenStrict email ri) h .passwordReset u.id ""
  | login {email password ri h uid} (hgate : Gated cfg h uid)
      (hfactor : Did h (.hasSecondFactor uid) (.ok true)) :
      MayMint cfg (.login email password ri) h .twoFactor uid ""
  | redeemMagicLink {raw nonce ri h uid tok u} (hgate : Gated cfg h uid)
      (hfactor : Did h (.hasSecondFactor uid) (.ok true))
      (htok : Redeemed h (hashToken raw) .magicLink tok) (hu : Resolves h tok u)
      (hid : u.id = uid) : MayMint cfg (.redeemMagicLink raw nonce ri) h .twoFactor uid ""
  | twoFactorToken {uid} {h : Hist} {u} (hu : Did h (.getUserByID uid) (.ok u)) :
      MayMint cfg (.createTwoFactorToken uid) h .twoFactor uid ""
  | verificationToken {uid} {h : Hist} {u} (hu : Did h (.getUserByID uid) (.ok u)) :
      MayMint cfg (.createEmailVerificationToken uid) h .emailVerification u.id u.email
  | changeEmail {uid newEmail h address} (hemail : normalizeEmail newEmail = .ok address) :
      MayMint cfg (.changeEmail uid newEmail) h .emailChange uid address
  | knownLink {email ri} {h : Hist} {address u} (hemail : normalizeEmail email = .ok address)
      (hu : Did h (.getUserByEmail address) (.ok u)) :
      MayMint cfg (.createMagicLinkToken email ri) h .magicLink u.id ""
  | unknownLink {email ri} {h : Hist} {address err} (hemail : normalizeEmail email = .ok address)
      (hu : Did h (.getUserByEmail address) (.error err)) (herr : err.is .userNotFound = true) :
      MayMint cfg (.createMagicLinkToken email ri) h .magicLink .nil address

/-- A session row is stored right after its ID and its token were drawn. -/
def NewSession (cfg : Config) (h : Hist) (s : Session) : Prop :=
  ∃ now bytes h₀,
    h = ⟨.newV7, s.id⟩ :: ⟨.now, now⟩ :: ⟨.randRead cfg.sessionTokenBytes, bytes⟩ :: h₀ ∧
      s.tokenHash = hashSessionToken (hexEncodeToString bytes)

/-- A token row is stored right after its ID, its token and, for a link, its nonce
    were drawn. -/
def NewToken (cfg : Config) (h : Hist) (t : Token) : Prop :=
  t.used = false ∧ ∃ now nonce bytes h₀,
    h = ⟨.newV7, t.id⟩ :: ⟨.now, now⟩ ::
      (nonce ++ ⟨.randRead cfg.resetTokenBytes, bytes⟩ :: h₀) ∧
    (nonce = [] ∨ ∃ b, nonce = [⟨.randRead Service.magicLinkNonceBytes, b⟩]) ∧
    t.tokenHash = hashToken (hexEncodeToString bytes)

/-- The copy written by an update comes from a copy the operation read, by a
    mutation it may make. -/
def Updates (cfg : Config) (call : Call) (h : Hist) (u : User) : Prop :=
  ∃ u₀ m, Did h (.getUserByID u₀.id) (.ok u₀) ∧ MayMutate cfg call h u₀.id m ∧
    m.apply cfg u₀ = .ok u

/-- The token an operation is called with, and the kind it takes it for. -/
def Call.token? : Call → Option (TokenPurpose × String)
  | .resetPassword raw _ => some (.passwordReset, raw)
  | .redeemMagicLink raw _ _ => some (.magicLink, raw)
  | .completeTwoFactor _ raw _ => some (.twoFactor, raw)
  | .verifyEmail raw => some (.emailVerification, raw)
  | .confirmEmailChange raw => some (.emailChange, raw)
  | _ => none

/-- The operations that end in a verified first factor. -/
def Call.FirstFactor : Call → Prop
  | .login .. => True
  | .redeemMagicLink .. => True
  | _ => False

/-- What an operation must have done before it makes a call. -/
def Justified (cfg : Config) (call : Call) (h : Hist) : Op → Prop
  | .createUser u => MayCreate cfg call h u
  | .updateUser u => Updates cfg call h u
  | .createSession s => NewSession cfg h s ∧ MayIssue cfg call h s.userID
  | .createToken t => NewToken cfg h t ∧ MayMint cfg call h t.purpose t.userID t.email
  -- An operation consumes the token it was given, and no second one.
  | .consumeToken hash purpose =>
    Unspent h ∧ ∃ raw, call.token? = some (purpose, raw) ∧ hash = hashToken raw
  | .status u => Loaded h u
  -- Only a verified first factor asks for the second, and it asks once.
  | .hasSecondFactor _ => call.FirstFactor ∧ Unasked h
  | _ => True

/-! ## What success says -/

/-- A new password was written for the user, and everything older was purged. -/
structure Recovered (cfg : Config) (h : Hist) (uid : UUID) : Prop where
  commit : ∃ u, u.id = uid ∧ Did h (.updateUser u) (.ok ())
  sessions : cfg.revokeSessionsOnPasswordChange = true → Did h (.deleteUserSessions uid) (.ok ())
  resets : Did h (.deleteUserTokens uid .passwordReset) (.ok ())
  pending : Did h (.deleteUserTokens uid .twoFactor) (.ok ())
  links : Did h (.deleteUserTokens uid .magicLink) (.ok ())

omit [Platform] in
theorem Recovered.mono {cfg : Config} {h h' : Hist} {uid : UUID} (hr : Recovered cfg h uid)
    (hs : h <:+ h') : Recovered cfg h' uid where
  commit := by
    obtain ⟨u, hid, hd⟩ := hr.commit
    exact ⟨u, hid, hd.mono hs⟩
  sessions := fun hc => (hr.sessions hc).mono hs
  resets := hr.resets.mono hs
  pending := hr.pending.mono hs
  links := hr.links.mono hs

/-- The two shapes of a login result. -/
def LoginShape (cfg : Config) (h : Hist) (r : LoginResult) : Prop :=
  (r.needsSecondFactor = false ∧ Did h (.hasSecondFactor r.user.id) (.ok false) ∧
    r.pendingToken = "" ∧
    ∃ s, r.session = some s ∧ Did h (.createSession s) (.ok ()) ∧ s.userID = r.user.id ∧
      s.tokenHash = hashSessionToken r.sessionToken) ∨
  (r.needsSecondFactor = true ∧ Did h (.hasSecondFactor r.user.id) (.ok true) ∧
    r.session = none ∧ r.sessionToken = "" ∧
    r.pendingToken.length = 2 * cfg.resetTokenBytes ∧
    ∃ t, Did h (.createToken t) (.ok ()) ∧ t.purpose = .twoFactor ∧ t.userID = r.user.id ∧
      t.tokenHash = hashToken r.pendingToken)

def Outcome (cfg : Config) : (c : Call) → Hist → c.Ret → Prop
  | .login .., h, r => LoginShape cfg h r ∧ Vetted h r.user.id
  | .verifyPassword .., h, u => Vetted h u.id
  | .changePassword uid .., h, _ => Recovered cfg h uid
  | .setInitialPassword uid .., h, _ => Recovered cfg h uid
  | .resetPassword raw _, h, _ =>
    ∃ tok, Redeemed h (hashToken raw) .passwordReset tok ∧ Recovered cfg h tok.userID
  | .validateSession token, h, (s, u) =>
    Vetted h u.id ∧ ∃ s₀, Did h (.getSessionByTokenHash (hashSessionToken token)) (.ok s₀) ∧ s.id = s₀.id
  | .refreshSession old, h, (s, _) =>
    Vetted h old.userID ∧ Did h (.deleteSession old.userID old.id) (.ok ()) ∧
      Did h (.createSession s) (.ok ())
  | .reAuthenticate s .., h, _ =>
    Vetted h s.userID ∧ ∃ at_, Did h (.updateAuthenticatedAt s.id at_) (.ok ())
  | .redeemMagicLink raw .., h, r =>
    LoginShape cfg h r ∧ Vetted h r.user.id ∧
      ∃ tok u, Redeemed h (hashToken raw) .magicLink tok ∧ Resolves h tok u ∧ u.id = r.user.id
  | .confirmEmailChange raw, h, u =>
    ∃ tok, Redeemed h (hashToken raw) .emailChange tok ∧ u.id = tok.userID ∧
      u.email = tok.email ∧ Did h (.updateUser u) (.ok ()) ∧
      Did h (.deleteUserSessions tok.userID) (.ok ()) ∧ Recovered cfg h tok.userID
  | .completeTwoFactor uid raw _, h, r =>
    Vetted h uid ∧ r.user.id = uid ∧ ∃ tok, Redeemed h (hashToken raw) .twoFactor tok ∧
      tok.userID = uid
  | .issueSession auth, h, _ => Vetted h auth.userID
  | .issueSessionUnchecked uid _, h, _ => Vetted h uid
  | .verifyEmail raw, h, u =>
    ∃ tok, Redeemed h (hashToken raw) .emailVerification tok ∧ u.id = tok.userID
  | .revokeAllSessions uid, h, _ => Did h (.deleteUserSessions uid) (.ok ())
  | .disableUser uid _, h, _ => ∃ u, u.id = uid ∧ Did h (.updateUser u) (.ok ())
  | _, _, _ => True

/-- The rules an operation runs under. -/
abbrev rules (cfg : Config) (call : Call) : Discipline iface :=
  ⟨(system cfg).Legal, Justified cfg call⟩

end Sulis
