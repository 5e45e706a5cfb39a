-- SUMMARY: Every stored password hash was chosen for its user by somebody entitled to, and the password had passed the policy.
import Sulis.Properties.PasswordMatch

/-!
# Who may choose a password

A password hash reaches the row of a user in five ways: with the registration, as the
first password of a row that has none, by somebody who knows the password it replaces, by
somebody who redeems a reset token of the user, and when a login renews the hash of the
password it has verified. The first four put the new password to the policy first.
-/

namespace Sulis

open Interaction Interaction.Prog Interaction.System

variable {cfg : Config}

/-! ## An account from a link has no password -/

/-- A user is only created without a password. -/
def Op.Passwordless : Op → Prop
  | .createUser u => u.passwordHash = ""
  | _ => True

theorem Op.Bare.passwordless {op : Op} (h : op.Bare) : op.Passwordless := by
  cases op with
  | createUser u => exact h.elim
  | _ => trivial

namespace Service

theorem passwordless_of_bare {α : Type} {p : M α} (hp : Calls Op.Bare p) :
    Calls Op.Passwordless p := hp.mono (fun _ => Op.Bare.passwordless)

theorem magicLinkUser_passwordless {tok : Token} : Calls Op.Passwordless (magicLinkUser tok) :=
  magicLinkUser_only trivial trivial trivial trivial (fun _ => id)

theorem stampEmailVerified_passwordless {u : User} :
    Calls Op.Passwordless (stampEmailVerified cfg u) :=
  stampEmailVerified_only trivial trivial (fun _ => trivial)
    (fun _ _ => passwordless_of_bare emit_bare)
    (fun _ => passwordless_of_bare revokeUserSessions_bare)

end Service

section

variable [Platform]

/-! ## The policy comes first -/

/-- The password an operation sets. -/
def Call.newPassword? : Call → Option Bytes
  | .register _ password _ => some password
  | .changePassword _ _ password _ => some password
  | .setInitialPassword _ password => some password
  | .resetPassword _ password => some password
  | _ => none

/-- The password has passed the policy. -/
structure Acceptable (cfg : Config) (h : Hist) (password : Bytes) : Prop where
  long : cfg.minPasswordLength ≤ (normalizePassword password).length
  short : (normalizePassword password).length ≤ cfg.maxPasswordLength
  checked : cfg.passwordChecker = true → Did h (.check (normalizePassword password)) (.ok ())

theorem Acceptable.mono {h h' : Hist} {password : Bytes} (ha : Acceptable cfg h password)
    (hs : h <:+ h') : Acceptable cfg h' password :=
  ⟨ha.long, ha.short, fun hc => (ha.checked hc).mono hs⟩

/-- A user is written to only after the policy was passed, and an account that comes in
    through a link starts without a password. -/
def Policed (cfg : Config) (call : Call) (h : Hist) (op : Op) : Prop :=
  (¬ op.NotUser → ∀ password, call.newPassword? = some password → Acceptable cfg h password) ∧
    ∀ raw nonce ri, call = .redeemMagicLink raw nonce ri → op.Passwordless

namespace Service

variable {call : Call} {h : Hist} {α : Type}

/-- The rules of this section. -/
abbrev policy (cfg : Config) (call : Call) : Discipline iface :=
  ⟨(system cfg).Legal, Policed cfg call⟩

theorem checkPasswordPolicy_accepts {password : Bytes} :
    Yields (policy cfg call) (checkPasswordPolicy cfg password) h
      (fun h' _ => Acceptable cfg h' password) := by
  refine yields_ite (fun _ => yields_throw) (fun hlong => ?_)
  refine yields_ite (fun _ => yields_throw) (fun hshort => ?_)
  refine yields_ite (fun _ => ?_) (fun hc => yields_pure ⟨by omega, by omega, fun h => absurd h hc⟩)
  refine yields_call ⟨absurd trivial, fun _ _ _ _ => trivial⟩ (fun r _ => yields_ret (fun _ hr => ?_))
  refine ⟨by omega, by omega, fun _ => ?_⟩
  rw [hr]
  exact did_cons_self

/-- Once the password has passed, the rest of the operation is free. -/
theorem checked_yields {password : Bytes} {p : M α} (hcall : call.newPassword? = some password) :
    Yields (policy cfg call) (checkPasswordPolicy cfg password >>= fun _ => p) h
      (fun _ _ => True) := by
  refine yields_bind checkPasswordPolicy_accepts (fun _ h' _ haccept => ?_)
  refine (yields_of_licensed (F := fun h => Acceptable cfg h password) haccept
    (fun _ _ hs ha => ha.mono hs) (fun h op ha => ?_)).mono (fun _ _ _ _ => trivial)
  refine ⟨fun _ q hq => ?_, fun raw nonce ri heq => ?_⟩
  · cases hcall.symm.trans hq
    exact ha
  · rw [heq] at hcall
    cases hcall

theorem redeemMagicLink_passwordless {raw nonce : String} {ri : RequestInfo} :
    Calls Op.Passwordless (redeemMagicLink cfg raw nonce ri) := by
  refine only_bind (only_onError (passwordless_of_bare consumeToken_bare)
    fun _ => passwordless_of_bare emit_bare) (fun tok => ?_)
  refine only_ite ?_ (only_bind (passwordless_of_bare emit_bare) fun _ => only_throw)
  refine only_bind magicLinkUser_passwordless (fun u => ?_)
  refine only_bind (passwordless_of_bare emit_bare) (fun _ => ?_)
  refine only_bind stampEmailVerified_passwordless (fun u => ?_)
  exact completeFirstFactor_only trivial trivial (fun _ => Op.Bare.passwordless)

theorem program_policed (call : Call) :
    Yields (policy cfg call) (call.program cfg) [] (fun _ _ => True) := by
  have free (hnone : call.newPassword? = none)
      (hother : ∀ raw nonce ri, call ≠ .redeemMagicLink raw nonce ri) :
      Yields (policy cfg call) (call.program cfg) [] (fun _ _ => True) := by
    refine .intro (along_trivial (fun h op => ?_) (fun _ _ _ _ => trivial) [])
    refine ⟨fun _ q hq => ?_, fun raw nonce ri heq => ?_⟩
    · rw [hnone] at hq
      cases hq
    · exact absurd heq (hother raw nonce ri)
  cases call with
  | register email password ri =>
    -- Nothing is written before the policy.
    have aside (h : Hist) (op : Op) (hop : op.NotUser) :
        Policed cfg (.register email password ri) h op :=
      ⟨fun hnot => absurd hop hnot, fun _ _ _ heq => by cases heq⟩
    refine yields_bind (Only.yields aside (only_ite only_pure
      (allow_only trivial trivial fun _ => trivial)) []) (fun _ h₁ _ _ => ?_)
    exact yields_bind (Only.yields (p := liftExcept _) aside trivial h₁)
      (fun _ _ _ _ => checked_yields rfl)
  | changePassword uid old password ri => exact checked_yields rfl
  | setInitialPassword uid password => exact checked_yields rfl
  | resetPassword raw password => exact checked_yields rfl
  | redeemMagicLink raw nonce ri =>
    refine (Only.yields (fun h op hop => ?_) redeemMagicLink_passwordless []).mono
      (fun _ _ _ _ => trivial)
    exact ⟨fun _ _ hq => (by cases hq), fun _ _ _ _ => hop⟩
  | _ => exact free rfl (by simp)

end Service

/-- Every run keeps to these rules. -/
theorem run_policed {w₀ : World} {as : List (system cfg).Action} {c : Run cfg}
    (h : (Config.start w₀).run as = some c) :
    Valid (Y := system cfg) (Policed cfg) w₀ c.trace c.world :=
  (Config.sound_start.run (Q := fun _ _ _ => True) (fun call =>
    Along.mono (Service.program_policed call).along (fun _ _ _ _ => trivial)) h).valid

/-! ## Why a row holds a hash -/

/-- The hash that is stored for a user, if there is a row. -/
def storedHash (w : World) (uid : UUID) : Option String :=
  (w.users.get? uid).map User.passwordHash

/-- The user an operation writes, and the hash it writes. -/
def Op.writtenHash? : Op → Option (UUID × String)
  | .createUser u => some (u.id, u.passwordHash)
  | .updateUser u => some (u.id, u.passwordHash)
  | _ => none

/-- The token was stored for the user by an operation that asked for it, with an address
    under which it had found the user. -/
def ResetAsked (trace : List (Entry cfg)) (raw : String) (uid : UUID) : Prop :=
  ∃ (later : List (Entry cfg)) (g : Entry cfg) (past : List (Entry cfg)), ∃ t spelling address ri u,
    trace = later ++ g :: past ∧ g.op = .createToken t ∧ t.tokenHash = hashToken raw ∧
    t.userID = uid ∧
    (g.call = Call.createPasswordResetToken spelling ri ∨
      g.call = Call.createPasswordResetTokenStrict spelling ri) ∧
    normalizeEmail spelling = .ok address ∧
    Did (history g.tid past) (.getUserByEmail address) (.ok u) ∧ u.id = uid

/-- What entitles an operation to store a hash of the password for a user, in place of the
    one that is there; `none` if there is no row yet. -/
inductive Entitled (past : List (Entry cfg)) (call : Call) (uid : UUID) (password : Bytes) :
    Option String → Prop
  | registered (email : String) (ri : RequestInfo) (hcall : call = .register email password ri) :
      Entitled past call uid password none
  | initial (hcall : call = .setInitialPassword uid password) : Entitled past call uid password (some "")
  | changed (old : String) (known : Bytes) (ri : RequestInfo)
      (hcall : call = .changePassword uid known password ri)
      (hknown : AcceptsPassword known old cfg.pepper) : Entitled past call uid password (some old)
  | reset (old raw : String) (hcall : call = .resetPassword raw password)
      (hasked : ResetAsked past raw uid) : Entitled past call uid password (some old)
  /-- The hash is renewed, the password stays. -/
  | renewed (old : String) (hcall : call.checkedPassword = some password)
      (hknown : AcceptsPassword password old cfg.pepper) : Entitled past call uid password (some old)

/-- A history of what is stored for a user. Each hash was put there by a step of the run, in
    place of what this very step found there, and its operation was entitled to; a new
    password had passed the policy. -/
inductive Chosen : List (Entry cfg) → UUID → Option String → Prop
  | absent (trace : List (Entry cfg)) (uid : UUID) : Chosen trace uid none
  | empty (trace : List (Entry cfg)) (uid : UUID) : Chosen trace uid (some "")
  | wrote (later : List (Entry cfg)) (e : Entry cfg) (past : List (Entry cfg)) {uid : UUID}
      {hash : String} {password : Bytes} (hold : Chosen past uid (storedHash e.pre uid))
      (hop : e.op.writtenHash? = some (uid, hash)) (hstored : storedHash e.post uid = some hash)
      (hright : Entitled past e.call uid password (storedHash e.pre uid))
      (hhash : Hashed cfg (history e.tid past) password hash)
      (hpolicy : e.call.newPassword? = some password →
        Acceptable cfg (history e.tid past) password) :
      Chosen (later ++ e :: past) uid (some hash)

variable {w : World} {trace past : List (Entry cfg)} {e : Entry cfg} {uid : UUID}

omit [Platform] in
theorem storedHash_of_mem {row : User} (hrow : row ∈ w.users) :
    storedHash w row.id = some row.passwordHash := by
  rw [storedHash, Store.Table.get?_eq_some.mpr ⟨hrow, rfl⟩, Option.map_some]

theorem Chosen.cons {hash : Option String} (h : Chosen past uid hash) (e : Entry cfg) :
    Chosen (e :: past) uid hash := by
  cases h with
  | absent => exact .absent _ uid
  | empty => exact .empty _ uid
  | wrote later e' past' hold hop hstored hright hhash hpolicy =>
    exact .wrote (e :: later) e' past' hold hop hstored hright hhash hpolicy

theorem MayMint.passwordReset {call : Call} {h : Hist} {email : String}
    (hmay : MayMint cfg call h .passwordReset uid email) :
    ∃ spelling address ri u, (call = .createPasswordResetToken spelling ri ∨
      call = .createPasswordResetTokenStrict spelling ri) ∧
      normalizeEmail spelling = .ok address ∧ Did h (.getUserByEmail address) (.ok u) ∧ u.id = uid := by
  cases hmay with
  | resetToken hemail hu => exact ⟨_, _, _, _, Or.inl rfl, hemail, hu, rfl⟩
  | resetTokenStrict hemail hu => exact ⟨_, _, _, _, Or.inr rfl, hemail, hu, rfl⟩

/-- A redeemed reset token was asked for. -/
theorem Redeemed.resetAsked {i : Nat} {raw : String} {tok : Token} (hv : Trace cfg {} trace w)
    (hr : Redeemed (history i trace) (hashToken raw) .passwordReset tok) :
    ResetAsked trace raw tok.userID := by
  obtain ⟨later, k, mid, g, p, t, rfl, -, -, hop, rfl, hhash, hkind, -⟩ := hr.origin hv
  have hplace : later ++ k :: (mid ++ g :: p) = (later ++ k :: mid) ++ g :: p := by simp
  have hmay := (createToken_spec hv hplace hop).2
  rw [hkind] at hmay
  obtain ⟨spelling, address, ri, u, hcall, hemail, hu, hid⟩ := hmay.passwordReset
  exact ⟨_, g, p, t, spelling, address, ri, u, hplace, hop, hhash, rfl, hcall, hemail, hu, hid⟩

/-! ## One step -/

/-- A new row has the password it was registered with, or none. -/
theorem MayCreate.chosen {row : User} (hop : e.op = .createUser row)
    (hnew : ∀ u ∈ e.pre.users, u.id ≠ row.id) (hrow : row ∈ e.post.users)
    (hmay : MayCreate cfg e.call (history e.tid past) row)
    (hpoliced : Policed cfg e.call (history e.tid past) e.op) :
    Chosen (e :: past) row.id (some row.passwordHash) := by
  have hbefore : storedHash e.pre row.id = none := by
    rw [storedHash, Store.Table.get?_eq_none.mpr hnew, Option.map_none]
  have hwrites : e.op.writtenHash? = some (row.id, row.passwordHash) := by rw [hop]; rfl
  rw [hop] at hpoliced
  generalize hcall : e.call = call at hmay
  cases hmay with
  | @register email password ri _ _ _ hemail hhash =>
    refine .wrote [] e past ?_ hwrites (storedHash_of_mem hrow) ?_ hhash (hpoliced.1 id password)
    · rw [hbefore]
      exact .absent past row.id
    · rw [hbefore]
      exact .registered email ri hcall
  | @redeem raw nonce ri _ _ tok _ htok hnil hemail =>
    have hempty : row.passwordHash = "" := hpoliced.2 raw nonce ri hcall
    rw [hempty]
    exact .empty _ row.id

theorem oldPassword_accepts {known : Bytes} {row : User}
    (h : (PasswordGuard.oldPassword known).check cfg row = .ok ()) :
    AcceptsPassword known row.passwordHash cfg.pepper := by
  simp only [PasswordGuard.check, Service.verifyOld] at h
  split at h
  · cases h
  · split at h
    · cases h
    · rename_i ok legacyForm hverify
      cases ok with
      | true => exact ⟨legacyForm, hverify⟩
      | false => cases h

/-- A commit writes a hash it is entitled to, or leaves the one that is there. -/
theorem MayMutate.chosen {row u row' : User} {m : Mutation} (hpast : Trace cfg {} past e.pre)
    (hrow : row ∈ e.pre.users) (hop : e.op = .updateUser u)
    (hmay : MayMutate cfg e.call (history e.tid past) row.id m) (happly : m.apply cfg row = .ok u)
    (hrow' : row' ∈ e.post.users) (hid' : row'.id = row.id) (hhash' : row'.passwordHash = u.passwordHash)
    (hpoliced : ∀ password, e.call.newPassword? = some password →
      Acceptable cfg (history e.tid past) password)
    (hchosen : Chosen past row.id (some row.passwordHash)) :
    Chosen (e :: past) row.id (some u.passwordHash) := by
  have hframe := Mutation.frame happly
  have hbefore : storedHash e.pre row.id = some row.passwordHash := storedHash_of_mem hrow
  have hstored : storedHash e.post row.id = some u.passwordHash := by
    rw [← hid', storedHash_of_mem hrow', hhash']
  have keep (hsame : u.passwordHash = row.passwordHash) :
      Chosen (e :: past) row.id (some u.passwordHash) := hsame ▸ hchosen.cons e
  have write {password : Bytes} (hhash : Hashed cfg (history e.tid past) password u.passwordHash)
      (hright : Entitled past e.call row.id password (some row.passwordHash)) :
      Chosen (e :: past) row.id (some u.passwordHash) := by
    refine .wrote [] e past (hbefore ▸ hchosen) ?_ hstored (hbefore ▸ hright) hhash (hpoliced password)
    rw [hop, ← hframe.id]
    rfl
  have set {password : Bytes} {guard : PasswordGuard} {hash : String} {now : Time}
      (hm : m = .setPassword guard hash now)
      (hhash : Hashed cfg (history e.tid past) password hash)
      (hright : guard.check cfg row = .ok () →
        Entitled past e.call row.id password (some row.passwordHash)) :
      Chosen (e :: past) row.id (some u.passwordHash) := by
    subst hm
    obtain ⟨hcheck, rfl⟩ := Mutation.apply_setPassword.mp happly
    exact write hhash (hright hcheck)
  have upkeep {password : Bytes} (hcall : e.call.checkedPassword = some password)
      (hm : MayUpkeep cfg password (history e.tid past) row.id m) :
      Chosen (e :: past) row.id (some u.passwordHash) := by
    generalize hid : row.id = uid at hm
    cases hm with
    | rehash hcmp hhash hnow =>
      obtain ⟨hsame, rfl⟩ := Mutation.apply_rehash.mp happly
      rw [← hid]
      exact write hhash (.renewed _ hcall (hsame ▸ hcmp.2))
    | recordFailedLogin | clearFailedLogins => exact hid ▸ keep (hframe.password (by simp) (by simp))
  generalize hcall : e.call = call at hmay
  generalize hid : row.id = uid at hmay
  cases hmay with
  | login hm | verifyPassword hm | reAuthenticate hm =>
    exact hid ▸ upkeep (by rw [hcall]; rfl) (hid ▸ hm)
  | changePassword hhash hnow =>
    subst hid
    exact set rfl hhash (fun hcheck => .changed _ _ _ hcall (oldPassword_accepts hcheck))
  | setInitialPassword hhash hnow =>
    subst hid
    refine set rfl hhash (fun hcheck => ?_)
    rw [show row.passwordHash = "" by simpa [PasswordGuard.check, Service.requirePasswordless] using hcheck]
    exact .initial hcall
  | resetPassword htok hhash hnow =>
    rw [← hid]
    refine set rfl hhash (fun _ => .reset _ _ hcall ?_)
    rw [hid]
    exact htok.resetAsked hpast
  | verifyEmail | redeemMagicLink | changeEmail | confirmEmailChange | disableUser | enableUser =>
    exact hid ▸ keep (hframe.password (by simp) (by simp))

/-! ## Whole runs -/

theorem row_chosen (hv : Trace cfg {} trace w)
    (hp : Valid (Y := system cfg) (Policed cfg) {} trace w) {row : User} (hrow : row ∈ w.users) :
    Chosen trace row.id (some row.passwordHash) := by
  induction hv generalizing row with
  | nil => exact absurd hrow (Store.Table.not_mem_empty row)
  | cons e past hpast hserve hallow hcall ih =>
    obtain ⟨hp', -, hpoliced, -⟩ :=
      Valid.entry (show Valid (Y := system cfg) (Policed cfg) {} ([] ++ e :: past) e.post from hp)
    rcases (user_change hpast hserve hallow).row_before hrow with
      ⟨hop, hmay, hnew⟩ | ⟨row₀, hrow₀, hid, hchange⟩
    · exact hmay.chosen hop hnew hrow hpoliced
    have hchosen := ih hp' hrow₀
    cases hchange with
    | same heq => rw [heq]; exact hchosen.cons e
    | commit u m hop hmay happly heq =>
      have hhash : row.passwordHash = u.passwordHash := by rw [heq]
      rw [hop] at hpoliced
      rw [hid, hhash]
      exact hmay.chosen hpast hrow₀ hop happly hrow hid hhash (hpoliced.1 id) hchosen

/-- In every interleaving, whatever fails, each stored hash was chosen by somebody
    entitled to. -/
theorem stored_passwords_chosen {as : List (system cfg).Action} {c : Run cfg}
    (hrun : (Run.empty cfg).run as = some c) :
    ∀ row ∈ c.world.users, Chosen c.trace row.id (some row.passwordHash) :=
  fun _ hrow => row_chosen (run_trace_valid hrun) (run_policed hrun) hrow

end

section

open Scenario

attribute [local instance] plain

/-- An account whose password is reset. -/
def forgetfulAccount : List (Call × Nat) :=
  [(.register "a" [1] {}, 8), (.createPasswordResetToken "a" {}, 5), (.resetPassword (raw 9) [2], 10)]

theorem stored_passwords_chosen_forgetfulAccount :
    ∃ c, play forgetfulAccount = some c ∧ ∃ row ∈ c.world.users,
      row.passwordHash = hashPassword [2] config.argon2 config.pepper (draw 15) ∧
      Chosen c.trace row.id (some row.passwordHash) := by
  obtain ⟨c, hplay, row, hrow, hhash⟩ := computed (o := play forgetfulAccount)
    (P := fun c => ∃ row ∈ c.world.users.rows,
      row.passwordHash = hashPassword [2] config.argon2 config.pepper (draw 15)) (by decide +kernel)
  obtain ⟨as, hrun⟩ := Config.runBlocks_run hplay
  exact ⟨c, hplay, row, hrow, hhash, stored_passwords_chosen hrun row hrow⟩

end

end Sulis
