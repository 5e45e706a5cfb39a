-- SUMMARY: Once the limiter has let it through, an operation is not refused for its rate any more.
import Sulis.Discipline.Screening

/-!
# After the screening

The limiter is the only one to refuse a call for its rate. If no store and no
second-factor checker reports such an error of its own, a call that was let through
does not end in one.
-/

namespace Sulis

open Interaction Interaction.Prog Interaction.System

/-- Not refused for its rate. -/
def Tame {α : Type} (r : Except Err α) : Prop := ∀ err, r = .error err → err.is .rateLimited = false

/-- Answers of stores and checkers that know nothing of rates. -/
def Calm : (op : Op) → op.Res → Prop
  | .getUserByID _, r => Tame r
  | .getUserByEmail _, r => Tame r
  | .updateUser _, r => Tame r
  | .createSession _, r => Tame r
  | .createToken _, r => Tame r
  | .hasSecondFactor _, r => Tame r
  | _, _ => True

theorem tame_ok {α : Type} {a : α} : Tame (.ok a) := by
  intro err h
  cases h

theorem tame_error {α : Type} {err : Err} (h : err.is .rateLimited = false) :
    Tame (.error err : Except Err α) := by
  intro err' h'
  cases h'
  exact h

/-- The same of the error alone. -/
def NotLimited (err? : Option Err) : Prop := ∀ err, err? = some err → err.is .rateLimited = false

theorem tame_iff {α : Type} {r : Except Err α} : Tame r ↔ NotLimited (errorOf r) := by
  cases r with
  | ok a => simp [Tame, NotLimited, errorOf]
  | error err => simp [Tame, NotLimited, errorOf]

namespace Service

variable {cfg : Config} {α β : Type}

/-- The program asks the limiter nothing and is not refused for its rate. -/
def Unhindered (p : M α) : Prop := p.run.Settles (S := iface) Calm Op.NotAllow Tame

theorem unhindered_pure {a : α} : Unhindered (pure a) := settles_pure tame_ok

theorem unhindered_throw {err : Err} (h : err.is .rateLimited = false) :
    Unhindered (throw err : M α) := settles_throw (tame_error h)

theorem unhindered_bind {p : M α} {f : α → M β} (hp : Unhindered p) (hf : ∀ a, Unhindered (f a)) :
    Unhindered (p >>= f) :=
  settles_bind hp (fun a _ => hf a) (fun e he => tame_error (he e rfl))

theorem unhindered_attempt_bind {p : M α} {f : Except Err α → M β} (hp : Unhindered p)
    (hf : ∀ x, Tame x → Unhindered (f x)) : Unhindered (attempt p >>= f) :=
  settles_attempt_bind hp hf

theorem unhindered_ite {c : Prop} [Decidable c] {p q : M α} (hp : c → Unhindered p)
    (hq : ¬ c → Unhindered q) : Unhindered (if c then p else q) := settles_ite hp hq

theorem unhindered_onlyIf {c : Prop} [Decidable c] {p : M Unit} (hp : Unhindered p) :
    Unhindered (onlyIf c p) := unhindered_ite (fun _ => hp) (fun _ => unhindered_pure)

theorem unhindered_returns {p : M α} (hp : p.run.Settles (S := iface) Calm Op.NotAllow Returns) :
    Unhindered p := by
  refine hp.mono (fun r hr => ?_)
  obtain ⟨a, rfl⟩ := hr
  exact tame_ok

theorem unhindered_onError {p : M α} {handler : Err → M Unit} (hp : Unhindered p)
    (hh : ∀ err, (handler err).run.Settles (S := iface) Calm Op.NotAllow Returns) :
    Unhindered (onError p handler) := settles_onError hp hh

theorem unhindered_store (op : Op) (hop : op.NotAllow) {k : op.Res → Except Err α}
    (hr : ∀ r, Calm op r → Tame (k r)) : Unhindered (request (.call op (fun r => .ret (k r)))) :=
  settles_answer hop hr

-- As for `Settles`, only the rules look inside.
attribute [irreducible] Unhindered

theorem emit_unhindered {e : SecurityEvent} : Unhindered (emit cfg e) :=
  unhindered_returns emit_settles

theorem updateUserWithRetry_unhindered {uid : UUID} {mutate : User → M (User × β)}
    (hmutate : ∀ u, Unhindered (mutate u)) : Unhindered (updateUserWithRetry uid mutate) := by
  have loop : ∀ n err, err.is .rateLimited = false →
      Unhindered (updateUserLoop uid mutate n err) := by
    intro n
    induction n with
    | zero => exact fun err herr => unhindered_throw herr
    | succ n ih =>
      intro err _
      refine unhindered_bind (unhindered_store (.getUserByID uid) trivial (fun _ hr => hr)) (fun u => ?_)
      refine unhindered_bind (hmutate u) (fun x => ?_)
      refine unhindered_attempt_bind (unhindered_store (.updateUser x.1) trivial (fun _ hr => hr))
        (fun r hr => ?_)
      cases r with
      | ok y => exact unhindered_pure
      | error e =>
        exact unhindered_ite (fun _ => ih e (hr e rfl)) (fun _ => unhindered_throw (hr e rfl))
  exact loop _ _ rfl

theorem recordFailedLogin_unhindered {uid : UUID} {ri : RequestInfo} :
    Unhindered (recordFailedLogin cfg uid ri) := by
  refine unhindered_bind (unhindered_returns timeNow_settles) (fun now => ?_)
  refine unhindered_attempt_bind (updateUserWithRetry_unhindered (fun u => ?_)) (fun r hr => ?_)
  · exact unhindered_ite (fun _ => unhindered_pure) (fun _ => unhindered_pure)
  · cases r with
    | ok x => exact unhindered_onlyIf emit_unhindered
    | error err =>
      refine unhindered_ite (fun _ => unhindered_pure) (fun _ => unhindered_throw ?_)
      simpa [Err.is] using hr err rfl

theorem clearFailedLogins_unhindered {uid : UUID} {ri : RequestInfo} :
    Unhindered (clearFailedLogins cfg uid ri) := by
  refine unhindered_attempt_bind (updateUserWithRetry_unhindered (fun u => ?_)) (fun r _ => ?_)
  · exact unhindered_bind (unhindered_returns timeNow_settles) (fun _ => unhindered_pure)
  · cases r with
    | ok x => exact emit_unhindered
    | error err => exact unhindered_pure

theorem accountStatus_unhindered {u : User} : Unhindered (accountStatus u) := by
  refine unhindered_bind (unhindered_returns (settles_query (.status u) trivial)) (fun _ => ?_)
  cases u.disabledAt with
  | some _ => exact unhindered_throw rfl
  | none =>
    cases u.lockedUntil with
    | none => exact unhindered_pure
    | some until_ =>
      exact unhindered_bind (unhindered_returns timeNow_settles)
        (fun now => unhindered_ite (fun _ => unhindered_throw rfl) (fun _ => unhindered_pure))

variable [Platform]

theorem rehashPassword_unhindered {u : User} {password : Bytes} {ri : RequestInfo} :
    Unhindered (rehashPassword cfg u password ri) := by
  refine unhindered_bind (unhindered_bind (unhindered_returns randRead_settles)
    (fun _ => unhindered_pure)) (fun newHash => ?_)
  refine unhindered_bind (unhindered_returns timeNow_settles) (fun now => ?_)
  refine unhindered_attempt_bind (updateUserWithRetry_unhindered (fun u' => ?_)) (fun r _ => ?_)
  · exact unhindered_ite (fun _ => unhindered_throw rfl) (fun _ => unhindered_pure)
  · cases r with
    | ok x => exact emit_unhindered
    | error err => exact emit_unhindered

omit [Platform] in
theorem refuseWrongPassword_unhindered {u : User} {ri : RequestInfo} :
    Unhindered (refuseWrongPassword cfg u ri) := by
  refine unhindered_attempt_bind (unhindered_onlyIf recordFailedLogin_unhindered) (fun r hr => ?_)
  refine unhindered_bind (unhindered_returns emitLoginFailedVia_settles) (fun _ => ?_)
  cases r with
  | ok x => exact unhindered_throw rfl
  | error err => exact unhindered_throw (hr err rfl)

theorem acceptPassword_unhindered {u : User} {password : Bytes} {legacy : Bool} {ri : RequestInfo} :
    Unhindered (acceptPassword cfg u password legacy ri) := by
  refine unhindered_bind (unhindered_onlyIf emit_unhindered) (fun _ => ?_)
  refine unhindered_bind (unhindered_onlyIf rehashPassword_unhindered) (fun _ => ?_)
  refine unhindered_bind (unhindered_onError accountStatus_unhindered
    (fun _ => emitLoginFailedVia_settles)) (fun _ => ?_)
  refine unhindered_bind (unhindered_onlyIf clearFailedLogins_unhindered) (fun _ => ?_)
  exact unhindered_bind emit_unhindered (fun _ => unhindered_pure)

theorem createTokenForUser_unhindered {uid : UUID} {purpose : TokenPurpose} {ttl : Duration} :
    Unhindered (createTokenForUser cfg uid purpose ttl) := by
  refine unhindered_bind (unhindered_returns generateRawToken_settles) (fun raw => ?_)
  refine unhindered_bind (unhindered_returns timeNow_settles) (fun now => ?_)
  refine unhindered_bind (unhindered_returns newV7_settles) (fun id => ?_)
  exact unhindered_bind (unhindered_store (.createToken _) trivial (fun _ hr => hr))
    (fun _ => unhindered_pure)

theorem createSession_unhindered {uid : UUID} {method : AuthMethod} {at_ : Time} {ri : RequestInfo} :
    Unhindered (createSession cfg uid method at_ ri) := by
  refine unhindered_bind (unhindered_bind (unhindered_returns randRead_settles)
    (fun _ => unhindered_pure)) (fun token => ?_)
  refine unhindered_bind (unhindered_returns timeNow_settles) (fun now => ?_)
  refine unhindered_bind (unhindered_returns newV7_settles) (fun id => ?_)
  refine unhindered_bind (unhindered_store (.createSession _) trivial (fun _ hr => hr)) (fun _ => ?_)
  exact unhindered_bind emit_unhindered (fun _ => unhindered_pure)

theorem completeFirstFactor_unhindered {u : User} {method : AuthMethod} {ri : RequestInfo} :
    Unhindered (completeFirstFactor cfg u method ri) := by
  refine unhindered_bind (unhindered_onError accountStatus_unhindered
    (fun _ => emitLoginFailedVia_settles)) (fun _ => ?_)
  refine unhindered_bind (unhindered_onError ?_ (fun _ => emitLoginFailedVia_settles)) (fun _ => ?_)
  · exact unhindered_ite (fun _ => unhindered_throw rfl) (fun _ => unhindered_pure)
  refine unhindered_attempt_bind (unhindered_store (.hasSecondFactor u.id) trivial (fun _ hr => hr))
    (fun r hr => ?_)
  rcases r with err | _ | _
  · refine unhindered_bind (unhindered_returns emitLoginFailedVia_settles)
      (fun _ => unhindered_throw ?_)
    simpa [Err.is] using hr err rfl
  · refine unhindered_bind (unhindered_returns timeNow_settles) (fun at_ => ?_)
    exact unhindered_bind createSession_unhindered (fun _ => unhindered_pure)
  · refine unhindered_bind createTokenForUser_unhindered (fun pending => ?_)
    exact unhindered_bind emit_unhindered (fun _ => unhindered_pure)

theorem issueMagicLinkToken_unhindered {uid : UUID} {email : String} :
    Unhindered (issueMagicLinkToken cfg uid email) := by
  refine unhindered_bind (unhindered_returns generateRawToken_settles) (fun raw => ?_)
  refine unhindered_bind ?_ (fun x => ?_)
  · exact unhindered_ite (fun _ => unhindered_bind (unhindered_returns generateRawToken_settles)
      (fun _ => unhindered_pure)) (fun _ => unhindered_pure)
  · refine unhindered_bind (unhindered_returns timeNow_settles) (fun now => ?_)
    refine unhindered_bind (unhindered_returns newV7_settles) (fun id => ?_)
    refine unhindered_bind (unhindered_store (.createToken _) trivial (fun _ hr => hr)) (fun _ => ?_)
    exact unhindered_bind emit_unhindered (fun _ => unhindered_pure)

/-! ## The four operations -/

theorem normalizeEmail_error {email : String} {err : Err} (h : normalizeEmail email = .error err) :
    err = .invalidEmail := by
  simp only [normalizeEmail] at h
  split at h
  · exact (Except.error.inj h).symm
  · split at h
    · exact (Except.error.inj h).symm
    · split at h
      · exact (Except.error.inj h).symm
      · cases h

omit [Platform] in
theorem decodeHash_tame (encoded : String) : Tame (decodeHash encoded) := by
  unfold decodeHash
  repeat' split
  all_goals first | exact tame_ok | exact tame_error rfl

theorem verifyPassword_tame {password : Bytes} {encoded : String} {pepper : Bytes} :
    Tame (Sulis.verifyPassword password encoded pepper) := by
  unfold Sulis.verifyPassword
  have hdecode := decodeHash_tame encoded
  split
  · rename_i err herr
    exact tame_error (hdecode err herr)
  · dsimp only
    split_ifs
    all_goals exact tame_ok

/-- What a call asks the limiter, and that nothing else refuses it for its rate. -/
def Passes (cfg : Config) (scope email : String) (ri : RequestInfo) (p : M α) : Prop :=
  Results (answering Calm) p [] (Screened (screenKeys cfg scope email ri) NotLimited)

theorem passes {rest : String → M α} {scope email : String} {ri : RequestInfo}
    (hrest : ∀ address, Unhindered (rest address)) :
    Passes cfg scope email ri (liftExcept (normalizeEmail email) >>= fun address =>
      allowIP cfg scope ri >>= fun _ => allow cfg (scope ++ address) ri >>= fun _ => rest address) := by
  refine screened (fun err herr => ?_) (fun address _ => ?_)
  · rw [normalizeEmail_error herr]
    exact tame_iff.mp (tame_error (α := Unit) rfl)
  · have h := hrest address
    unfold Unhindered at h
    exact h.mono (fun r hr => tame_iff.mp hr)

theorem verifyPassword_passes (email : String) (password : Bytes) (ri : RequestInfo) :
    Passes cfg "password:" email ri (verifyPassword cfg email password ri) := by
  refine passes (fun address => ?_)
  refine unhindered_attempt_bind (unhindered_store (.getUserByEmail address) trivial (fun _ hr => hr))
    (fun r hr => ?_)
  cases r with
  | error err =>
    refine unhindered_ite (fun _ => ?_) (fun _ => unhindered_throw (hr err rfl))
    exact unhindered_bind (unhindered_returns emitLoginFailedVia_settles) (fun _ => unhindered_throw rfl)
  | ok u =>
    refine unhindered_ite (fun _ => ?_) (fun _ => ?_)
    · exact unhindered_bind (unhindered_returns emitLoginFailedVia_settles)
        (fun _ => unhindered_throw rfl)
    · cases hmatch : Sulis.verifyPassword password u.passwordHash cfg.pepper with
      | error err => exact unhindered_throw (by simpa [Err.is] using verifyPassword_tame err hmatch)
      | ok x =>
        obtain ⟨matched, legacy⟩ := x
        cases matched with
        | false => exact refuseWrongPassword_unhindered
        | true => exact acceptPassword_unhindered

/-- What follows a call that passed asks no more questions. -/
theorem Passes.bind {p : M α} {f : α → M β} {scope email : String} {ri : RequestInfo}
    (hp : Passes cfg scope email ri p) (hf : ∀ a, Unhindered (f a)) :
    Passes cfg scope email ri (p >>= f) := by
  refine results_bind hp (fun a h' ha => ?_) (fun e h' he => he)
  rcases ha with ⟨hasks, -⟩ | ⟨_, _, _, _, _, _, hnone⟩
  · have h := hf a
    unfold Unhindered at h
    refine (h.results rfl (fun _ _ _ => trivial) h').mono (fun h'' r hr => Or.inl ⟨?_, tame_iff.mp hr.2⟩)
    rw [asks_grows hr.1, hasks]
  · cases hnone

theorem createPasswordResetToken_passes (email : String) (ri : RequestInfo) (strict : Bool) :
    Passes cfg "reset:" email ri (createPasswordResetToken cfg email ri strict) := by
  refine passes (fun address => ?_)
  refine unhindered_attempt_bind (unhindered_store (.getUserByEmail address) trivial (fun _ hr => hr))
    (fun r hr => ?_)
  cases r with
  | error err =>
    refine unhindered_ite (fun _ => ?_) (fun _ => unhindered_throw (hr err rfl))
    refine unhindered_ite (fun _ => unhindered_throw (hr err rfl)) (fun _ => ?_)
    exact unhindered_bind (unhindered_returns generateRawToken_settles) (fun _ => unhindered_pure)
  | ok u =>
    refine unhindered_bind createTokenForUser_unhindered (fun raw => ?_)
    exact unhindered_bind emit_unhindered (fun _ => unhindered_pure)

theorem createMagicLinkToken_passes (email : String) (ri : RequestInfo) :
    Passes cfg "magic:" email ri (createMagicLinkToken cfg email ri) := by
  refine passes (fun address => ?_)
  refine unhindered_attempt_bind (unhindered_store (.getUserByEmail address) trivial (fun _ hr => hr))
    (fun r hr => ?_)
  cases r with
  | error err =>
    exact unhindered_ite (fun _ => issueMagicLinkToken_unhindered)
      (fun _ => unhindered_throw (hr err rfl))
  | ok u => exact issueMagicLinkToken_unhindered

theorem program_passes {call : Call} (hcall : call.screen? ≠ none) :
    Results (answering Calm) (call.program cfg) []
      (Screened (call.keys cfg) NotLimited) := by
  cases call with
  | verifyPassword email password ri => exact verifyPassword_passes email password ri
  | login email password ri =>
    exact (verifyPassword_passes email password ri).bind (fun _ => completeFirstFactor_unhindered)
  | createPasswordResetToken email ri => exact createPasswordResetToken_passes email ri false
  | createMagicLinkToken email ri => exact createMagicLinkToken_passes email ri
  | _ => exact absurd rfl hcall

end Service

end Sulis
