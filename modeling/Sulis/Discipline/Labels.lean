-- SUMMARY: The fixed labels of security events, and that every operation reports nothing else but the method it was given.
import Sulis.Discipline.Footprint

/-!
# Labels

`events.go` and `issue.go` declare the texts an event may be made of. Each operation is
shown to hand the sink such texts only, with one exception: the method of a session is
whatever the caller said it is.
-/

namespace Sulis

open Interaction Interaction.Prog

/-! ## The declared texts -/

def EventKind.text : EventKind → String
  | .accountRegistered => "account.registered"
  | .loginSucceeded => "login.succeeded"
  | .loginFailed => "login.failed"
  | .passwordChanged => "password.changed"
  | .passwordSet => "password.set"
  | .passwordResetRequested => "password.reset_requested"
  | .passwordReset => "password.reset"
  | .passwordRehashed => "password.rehashed"
  | .passwordRehashFailed => "password.rehash_failed"
  | .passwordLegacyFormMatched => "password.legacy_form_matched"
  | .secondFactorDemanded => "twofactor.demanded"
  | .secondFactorCompleted => "twofactor.completed"
  | .secondFactorFailed => "twofactor.failed"
  | .sessionIssued => "session.issued"
  | .sessionRevoked => "session.revoked"
  | .sessionRefreshed => "session.refreshed"
  | .sessionExpired => "session.expired"
  | .sessionIdleExpired => "session.idle_expired"
  | .emailChangeStaged => "email.change_staged"
  | .emailChangeConfirmed => "email.change_confirmed"
  | .emailVerified => "email.verified"
  | .magicLinkCreated => "magiclink.created"
  | .magicLinkRedeemed => "magiclink.redeemed"
  | .magicLinkRejected => "magiclink.rejected"
  | .rateLimitTripped => "ratelimit.tripped"
  | .accountDisabled => "account.disabled"
  | .accountEnabled => "account.enabled"
  | .accountLocked => "account.locked"
  | .accountLockoutCleared => "account.lockout_cleared"
  | .reauthSucceeded => "reauth.succeeded"
  | .reauthFailed => "reauth.failed"

def MetadataKey.text : MetadataKey → String
  | .reason => "reason"
  | .method => "method"
  | .scope => "scope"
  | .dimension => "dimension"

/-- The `EventKind` constants. The last two belong to the HTTP middleware. -/
def eventKindLabels : List String :=
  ["account.registered", "login.succeeded", "login.failed", "password.changed", "password.set",
    "password.reset_requested", "password.reset", "password.rehashed", "password.rehash_failed",
    "password.legacy_form_matched", "twofactor.demanded", "twofactor.completed",
    "twofactor.failed", "session.issued", "session.revoked", "session.refreshed",
    "session.expired", "session.idle_expired", "email.change_staged", "email.change_confirmed",
    "email.verified", "magiclink.created", "magiclink.redeemed", "magiclink.rejected",
    "ratelimit.tripped", "account.disabled", "account.enabled", "account.locked",
    "account.lockout_cleared", "reauth.succeeded", "reauth.failed", "csrf.rejected",
    "sameorigin.rejected"]

/-- The `MetadataKey` constants. -/
def metadataKeyLabels : List String := ["reason", "method", "scope", "dimension"]

/-- The `Reason` constants. Four of them are for failures of the random source and for the
    HTTP middleware. -/
def reasonLabels : List String :=
  [Reason.userNotFound, Reason.noPassword, Reason.wrongPassword, Reason.accountDisabled,
    Reason.accountLocked, Reason.emailNotVerified, Reason.factorCheckFailed, Reason.tokenInvalid,
    Reason.tokenExpired, Reason.tokenAlreadyUsed, Reason.userMismatch, Reason.bindingMismatch,
    Reason.storeFailed, Reason.passwordChanged, Reason.idleTimeout, Reason.absoluteExpiry,
    "hash_failed", "csrf_token_invalid", "cross_site", "origin_not_allowed"]

/-- The `AuthMethod` constants. -/
def declaredMethods : List AuthMethod :=
  [.password, .magicLink, .passkey, .twoFactor, .recoveryCode]

/-- The choke points of the limiter. -/
def limiterScopes : List String := ["password", "reset", "magic", "register"]

/-- What may stand under a key. -/
def MetadataKey.labels : MetadataKey → List String
  | .reason => reasonLabels
  | .method => declaredMethods.map AuthMethod.name
  | .scope => [scopeSingleSession, scopeAllSessions] ++ limiterScopes
  | .dimension => [dimensionAccount, dimensionIP]

/-- Everything textual about the event, apart from its request, is a declared label. -/
structure Labelled (e : SecurityEvent) : Prop where
  kind : e.kind.text ∈ eventKindLabels
  key : ∀ p ∈ e.metadata, p.1.text ∈ metadataKeyLabels
  value : ∀ p ∈ e.metadata, p.2 ∈ p.1.labels

theorem EventKind.text_mem (kind : EventKind) : kind.text ∈ eventKindLabels := by
  cases kind <;> decide

theorem MetadataKey.text_mem (key : MetadataKey) : key.text ∈ metadataKeyLabels := by
  cases key <;> decide

/-! ## What an operation may report -/

/-- A label of the key, or the name of the method an operation was given. -/
def IsLabel (m? : Option AuthMethod) (key : MetadataKey) (value : String) : Prop :=
  value ∈ key.labels ∨ key = .method ∧ ∃ m ∈ m?, value = m.name

def Labels (m? : Option AuthMethod) (metadata : List (MetadataKey × String)) : Prop :=
  ∀ p ∈ metadata, IsLabel m? p.1 p.2

/-- Whatever goes to the sink consists of labels. -/
def Op.Discreet (m? : Option AuthMethod) : Op → Prop
  | .emit e => Labels m? e.metadata
  | _ => True

/-- The method an operation takes from its caller. Without a user ID, as in the zero value
    of a proof, it is not looked at. -/
def Call.method? : Call → Option AuthMethod
  | .refreshSession session => some session.method
  | .issueSession auth => if auth.userID = .nil then none else some auth.method
  | .issueSessionUnchecked userID method => if userID = .nil then none else some method
  | _ => none

variable {m? : Option AuthMethod}

theorem labels_nil : Labels m? [] := by
  intro p hp
  cases hp

theorem labels_cons {key : MetadataKey} {value : String} {rest : List (MetadataKey × String)}
    (h : IsLabel m? key value) (hrest : Labels m? rest) : Labels m? ((key, value) :: rest) :=
  List.forall_mem_cons.mpr ⟨h, hrest⟩

theorem labels_one {key : MetadataKey} {value : String} (h : IsLabel m? key value) :
    Labels m? [(key, value)] := labels_cons h labels_nil

theorem isLabel_method {method : AuthMethod} (h : method ∈ declaredMethods) :
    IsLabel m? .method method.name := Or.inl (List.mem_map_of_mem h)

theorem declared_of_label {m : AuthMethod} (h : m.name ∈ MetadataKey.labels .method) :
    m ∈ declaredMethods := by
  obtain ⟨m', hm', hname⟩ := List.mem_map.mp h
  cases m
  cases m'
  cases hname
  exact hm'

theorem gateReason_label (err : Err) : gateReason err = "" ∨ gateReason err ∈ reasonLabels := by
  unfold gateReason
  split
  · exact Or.inr (by decide)
  · split
    · exact Or.inr (by decide)
    · split
      · exact Or.inr (by decide)
      · exact Or.inl rfl

theorem tokenReason_label (err : Err) : tokenReason err ∈ reasonLabels := by
  unfold tokenReason
  split
  · decide
  · split
    · decide
    · decide

theorem scope_free {scope : String} (h : scope ∈ limiterScopes) : ∀ c ∈ scope.toList, c ≠ ':' := by
  have hall : limiterScopes.all (fun s => s.toList.all (· ≠ ':')) = true := by decide
  intro c hc
  exact of_decide_eq_true (List.all_eq_true.mp (List.all_eq_true.mp hall scope h) c hc)

theorem limiterKeyParts_scope {scope rest : String} (hscope : ∀ c ∈ scope.toList, c ≠ ':') :
    (Service.limiterKeyParts (scope ++ ":" ++ rest)).1 = scope := by
  have hcut : (scope ++ ":" ++ rest).toList.takeWhile (· ≠ ':') = scope.toList := by
    rw [String.toList_append, String.toList_append, List.append_assoc,
      List.takeWhile_append_of_pos (fun c hc => by simpa using hscope c hc)]
    simp
  unfold Service.limiterKeyParts
  rw [hcut]
  split
  · exact String.ofList_toList
  · exact String.ofList_toList

theorem limiterKeyParts_dimension (key : String) :
    (Service.limiterKeyParts key).2 ∈ MetadataKey.dimension.labels := by
  unfold Service.limiterKeyParts
  dsimp only
  split
  · exact List.mem_cons_of_mem _ List.mem_cons_self
  · exact List.mem_cons_self

namespace Service

variable {cfg : Config}

/-! ## Events -/

theorem emit_discreet {e : SecurityEvent} (h : Labels m? e.metadata) :
    Calls (Op.Discreet m?) (emit cfg e) :=
  only_ite (only_bind (only_query trivial) (fun _ => only_query h)) only_pure

/-- An event of which the kind says everything. -/
theorem emit_plainly {e : SecurityEvent} (h : e.metadata = []) :
    Calls (Op.Discreet m?) (emit cfg e) := emit_discreet (h ▸ labels_nil)

theorem emitLoginFailedVia_discreet {uid : UUID} {ri : RequestInfo} {method : AuthMethod}
    {reason : String} (hmethod : method ∈ declaredMethods)
    (hreason : reason = "" ∨ reason ∈ reasonLabels) :
    Calls (Op.Discreet m?) (emitLoginFailedVia cfg uid ri method reason) := by
  unfold emitLoginFailedVia
  split
  · exact emit_discreet (labels_one (isLabel_method hmethod))
  · rename_i hne
    exact emit_discreet (labels_cons (isLabel_method hmethod)
      (labels_one (Or.inl (hreason.resolve_left hne))))

theorem emitLoginFailed_discreet {uid : UUID} {ri : RequestInfo} {reason : String}
    (hreason : reason ∈ reasonLabels) :
    Calls (Op.Discreet m?) (emitLoginFailed cfg uid ri reason) :=
  emitLoginFailedVia_discreet (by decide) (Or.inr hreason)

theorem emitReauthFailed_discreet {session : Session} {ri : RequestInfo} {reason : String}
    (hreason : reason = "" ∨ reason ∈ reasonLabels) :
    Calls (Op.Discreet m?) (emitReauthFailed cfg session ri reason) := by
  unfold emitReauthFailed
  dsimp only
  split
  · exact emit_plainly rfl
  · rename_i hne
    exact emit_discreet (labels_one (Or.inl (hreason.resolve_left hne)))

theorem emitSecondFactorFailed_discreet {uid : UUID} {ri : RequestInfo} {reason : String}
    (hreason : reason = "" ∨ reason ∈ reasonLabels) :
    Calls (Op.Discreet m?) (emitSecondFactorFailed cfg uid ri reason) := by
  unfold emitSecondFactorFailed
  dsimp only
  split
  · exact emit_plainly rfl
  · rename_i hne
    exact emit_discreet (labels_one (Or.inl (hreason.resolve_left hne)))

theorem emitMagicLinkRejected_discreet {uid : UUID} {ri : RequestInfo} {reason : String}
    (hreason : reason ∈ reasonLabels) :
    Calls (Op.Discreet m?) (emitMagicLinkRejected cfg uid ri reason) :=
  emit_discreet (labels_one (Or.inl hreason))

theorem allow_discreet (scope : String) {rest : String} {ri : RequestInfo}
    (hscope : scope ∈ limiterScopes) :
    Calls (Op.Discreet m?) (allow cfg (scope ++ ":" ++ rest) ri) := by
  refine only_ite (only_bind (only_attempt (only_request trivial)) ?_) only_pure
  intro r
  cases r with
  | ok x => exact only_pure
  | error err =>
    have hlabel : (limiterKeyParts (scope ++ ":" ++ rest)).1 ∈ MetadataKey.scope.labels := by
      rw [limiterKeyParts_scope (scope_free hscope)]
      exact List.mem_append_right _ hscope
    have hlabels : Labels m? [(.scope, (limiterKeyParts (scope ++ ":" ++ rest)).1),
        (.dimension, (limiterKeyParts (scope ++ ":" ++ rest)).2)] :=
      labels_cons (Or.inl hlabel) (labels_one (Or.inl (limiterKeyParts_dimension _)))
    exact only_bind (emit_discreet hlabels) (fun _ => only_throw)

theorem allowIP_discreet (scope : String) {ri : RequestInfo} (hscope : scope ∈ limiterScopes) :
    Calls (Op.Discreet m?) (allowIP cfg (scope ++ ":") ri) := by
  refine only_ite only_pure ?_
  rw [String.append_assoc]
  exact allow_discreet scope hscope

/-- A check of both keys of the limiter. -/
theorem allowBoth_discreet {α : Type} (scope : String) {rest : String} {ri : RequestInfo}
    {f : Unit → M α}
    (hscope : scope ∈ limiterScopes)
    (hf : ∀ u, Calls (Op.Discreet m?) (f u)) :
    Calls (Op.Discreet m?) (allowIP cfg (scope ++ ":") ri >>= fun _ =>
      allow cfg (scope ++ ":" ++ rest) ri >>= f) :=
  only_bind (allowIP_discreet scope hscope) (fun _ => only_bind (allow_discreet scope hscope) hf)

/-! ## Shared machinery -/

theorem updateUserWithRetry_discreet {β : Type} {uid : UUID} {mutate : User → M (User × β)}
    (hmutate : ∀ u, Calls (Op.Discreet m?) (mutate u)) :
    Calls (Op.Discreet m?) (updateUserWithRetry uid mutate) :=
  updateUserWithRetry_only trivial (fun _ => trivial) hmutate

theorem accountStatus_discreet {u : User} :
    Calls (Op.Discreet m?) (accountStatus u) := accountStatus_only trivial trivial

theorem requireVerifiedEmail_discreet {u : User} :
    Calls (Op.Discreet m?) (requireVerifiedEmail cfg u) := only_ite only_throw only_pure

theorem revokeUserSessions_discreet {uid : UUID} :
    Calls (Op.Discreet m?) (revokeUserSessions cfg uid) :=
  only_bind (only_request trivial)
    (fun _ => emit_discreet (labels_one (Or.inl (by decide))))

theorem recordFailedLogin_discreet {uid : UUID} {ri : RequestInfo} :
    Calls (Op.Discreet m?) (recordFailedLogin cfg uid ri) := by
  refine only_bind (only_query trivial) (fun now => ?_)
  refine only_bind (only_attempt (updateUserWithRetry_discreet fun u => ?_)) (fun r => ?_)
  · exact only_ite only_pure only_pure
  · cases r with
    | ok x => exact only_onlyIf (emit_plainly rfl)
    | error err => exact only_ite only_pure only_throw

theorem clearFailedLogins_discreet {uid : UUID} {ri : RequestInfo} :
    Calls (Op.Discreet m?) (clearFailedLogins cfg uid ri) := by
  refine only_bind (only_attempt (updateUserWithRetry_discreet fun u => ?_)) (fun r => ?_)
  · exact only_bind (only_query trivial) (fun _ => only_pure)
  · cases r with
    | ok x => exact emit_plainly rfl
    | error err => exact only_pure

theorem stampEmailVerified_discreet {u : User} :
    Calls (Op.Discreet m?) (stampEmailVerified cfg u) :=
  stampEmailVerified_only trivial trivial (fun _ => trivial) (fun _ => emit_plainly)
    (fun _ => revokeUserSessions_discreet)

variable [Platform]

theorem consumeToken_discreet {raw : String} {purpose : TokenPurpose} :
    Calls (Op.Discreet m?) (consumeToken raw purpose) :=
  consumeToken_only (fun _ => trivial) trivial

omit [Platform] in
theorem generateRawToken_discreet {n : Nat} : Calls (Op.Discreet m?) (generateRawToken n) :=
  only_bind (only_query trivial) (fun _ => only_pure)

theorem createTokenForUserWithEmail_discreet {uid : UUID} {email : String} {purpose : TokenPurpose}
    {ttl : Duration} : Calls (Op.Discreet m?) (createTokenForUserWithEmail cfg uid email purpose ttl) := by
  refine only_bind generateRawToken_discreet (fun raw => ?_)
  refine only_bind (only_query trivial) (fun now => ?_)
  refine only_bind (only_query trivial) (fun id => ?_)
  exact only_bind (only_request trivial) (fun _ => only_pure)

theorem createSession_discreet {uid : UUID} {method : AuthMethod} {at_ : Time} {ri : RequestInfo}
    (hmethod : IsLabel m? .method method.name) :
    Calls (Op.Discreet m?) (createSession cfg uid method at_ ri) := by
  refine only_bind generateRawToken_discreet (fun token => ?_)
  refine only_bind (only_query trivial) (fun now => ?_)
  refine only_bind (only_query trivial) (fun id => ?_)
  refine only_bind (only_request trivial) (fun _ => ?_)
  exact only_bind (emit_discreet (labels_one hmethod)) (fun _ => only_pure)

theorem completeFirstFactor_discreet {u : User} {method : AuthMethod} {ri : RequestInfo}
    (hmethod : method ∈ declaredMethods) :
    Calls (Op.Discreet m?) (completeFirstFactor cfg u method ri) := by
  refine only_bind (only_onError accountStatus_discreet
    fun err => emitLoginFailedVia_discreet hmethod (gateReason_label err)) (fun _ => ?_)
  refine only_bind (only_onError requireVerifiedEmail_discreet
    fun err => emitLoginFailedVia_discreet hmethod (gateReason_label err)) (fun _ => ?_)
  refine only_bind (only_attempt (only_request trivial)) (fun r => ?_)
  match r with
  | .error err =>
    refine only_bind (emitLoginFailedVia_discreet hmethod (Or.inr ?_)) (fun _ => only_throw)
    decide
  | .ok true =>
    refine only_bind createTokenForUserWithEmail_discreet (fun _ => ?_)
    exact only_bind (emit_discreet (labels_one (isLabel_method hmethod))) (fun _ => only_pure)
  | .ok false =>
    refine only_bind (only_query trivial) (fun _ => ?_)
    exact only_bind (createSession_discreet (isLabel_method hmethod)) (fun _ => only_pure)

/-! ## Accounts and passwords -/

theorem hashNewPassword_discreet {password : Bytes} :
    Calls (Op.Discreet m?) (hashNewPassword cfg password) :=
  only_bind (only_query trivial) (fun _ => only_pure)

theorem rehashPassword_discreet {u : User} {password : Bytes} {ri : RequestInfo} :
    Calls (Op.Discreet m?) (rehashPassword cfg u password ri) := by
  refine only_bind hashNewPassword_discreet (fun newHash => ?_)
  refine only_bind (only_query trivial) (fun now => ?_)
  refine only_bind (only_attempt (updateUserWithRetry_discreet fun u => ?_)) (fun r => ?_)
  · exact only_ite only_throw only_pure
  · cases r with
    | ok x => exact emit_plainly rfl
    | error err =>
      refine emit_discreet (labels_one (Or.inl ?_))
      split
      · decide
      · decide

theorem checkPasswordPolicy_discreet {password : Bytes} :
    Calls (Op.Discreet m?) (checkPasswordPolicy cfg password) :=
  checkPasswordPolicy_only fun _ => trivial

theorem register_discreet {email : String} {password : Bytes} {ri : RequestInfo} :
    Calls (Op.Discreet m?) (register cfg email password ri) := by
  refine only_bind (allowIP_discreet "register" (by decide)) (fun _ => ?_)
  refine only_bind (p := liftExcept _) trivial (fun address => ?_)
  refine only_bind checkPasswordPolicy_discreet (fun _ => ?_)
  refine only_bind hashNewPassword_discreet (fun hash => ?_)
  refine only_bind (only_query trivial) (fun now => ?_)
  refine only_bind (only_query trivial) (fun id => ?_)
  refine only_bind (only_request trivial) (fun _ => ?_)
  refine only_bind (emit_plainly rfl) (fun _ => ?_)
  exact only_bind (createSession_discreet (isLabel_method (by decide))) (fun _ => only_pure)

omit [Platform] in
theorem refuseWrongPassword_discreet {u : User} {ri : RequestInfo} :
    Calls (Op.Discreet m?) (refuseWrongPassword cfg u ri) := by
  refine only_bind (only_attempt (only_onlyIf recordFailedLogin_discreet)) (fun r => ?_)
  refine only_bind (emitLoginFailed_discreet (by decide)) (fun _ => ?_)
  cases r with
  | ok x => exact only_throw
  | error err => exact only_throw

theorem acceptPassword_discreet {u : User} {password : Bytes} {legacyForm : Bool}
    {ri : RequestInfo} : Calls (Op.Discreet m?) (acceptPassword cfg u password legacyForm ri) := by
  refine only_bind (only_onlyIf (emit_plainly rfl)) (fun _ => ?_)
  refine only_bind (only_onlyIf rehashPassword_discreet) (fun _ => ?_)
  refine only_bind (only_onError accountStatus_discreet
    fun err => emitLoginFailedVia_discreet (by decide) (gateReason_label err)) (fun _ => ?_)
  refine only_bind (only_onlyIf clearFailedLogins_discreet) (fun _ => ?_)
  exact only_bind (emit_discreet (labels_one (isLabel_method (by decide)))) (fun _ => only_pure)

theorem verifyPassword_discreet {email : String} {password : Bytes} {ri : RequestInfo} :
    Calls (Op.Discreet m?) (verifyPassword cfg email password ri) := by
  refine only_bind (p := liftExcept _) trivial (fun address => ?_)
  refine allowBoth_discreet "password" (by decide) (fun _ => ?_)
  refine only_bind (only_attempt (only_request trivial)) (fun r => ?_)
  cases r with
  | error err =>
    refine only_ite (only_bind (emitLoginFailed_discreet ?_) fun _ => only_throw) only_throw
    decide
  | ok u =>
    refine only_ite (only_bind (emitLoginFailed_discreet ?_) fun _ => only_throw) ?_
    · decide
    · split
      · exact only_throw
      · exact refuseWrongPassword_discreet
      · exact acceptPassword_discreet

theorem login_discreet {email : String} {password : Bytes} {ri : RequestInfo} :
    Calls (Op.Discreet m?) (login cfg email password ri) :=
  only_bind verifyPassword_discreet (fun _ => completeFirstFactor_discreet (by decide))

theorem setPassword_discreet {uid : UUID} {newPassword : Bytes} {guard : User → Except Err Unit} :
    Calls (Op.Discreet m?) (setPassword cfg uid newPassword guard) := by
  refine only_bind hashNewPassword_discreet (fun hash => ?_)
  refine only_bind (only_query trivial) (fun now => ?_)
  refine only_bind (updateUserWithRetry_discreet fun u => ?_) (fun x => ?_)
  · exact only_bind (p := liftExcept _) trivial (fun _ => only_pure)
  refine only_bind (only_onlyIf revokeUserSessions_discreet) (fun _ => ?_)
  refine only_bind (only_request trivial) (fun _ => ?_)
  refine only_bind (only_request trivial) (fun _ => ?_)
  exact only_request trivial

theorem changePassword_discreet {uid : UUID} {oldPassword newPassword : Bytes} {ri : RequestInfo} :
    Calls (Op.Discreet m?) (changePassword cfg uid oldPassword newPassword ri) := by
  refine only_bind checkPasswordPolicy_discreet (fun _ => ?_)
  refine only_bind (only_request trivial) (fun u => ?_)
  refine allowBoth_discreet "password" (by decide) (fun _ => ?_)
  exact only_bind setPassword_discreet (fun _ => emit_plainly rfl)

theorem setInitialPassword_discreet {uid : UUID} {newPassword : Bytes} :
    Calls (Op.Discreet m?) (setInitialPassword cfg uid newPassword) := by
  refine only_bind checkPasswordPolicy_discreet (fun _ => ?_)
  exact only_bind setPassword_discreet (fun _ => emit_plainly rfl)

theorem createPasswordResetToken_discreet {email : String} {ri : RequestInfo} {strict : Bool} :
    Calls (Op.Discreet m?) (createPasswordResetToken cfg email ri strict) := by
  refine only_bind (p := liftExcept _) trivial (fun address => ?_)
  refine allowBoth_discreet "reset" (by decide) (fun _ => ?_)
  refine only_bind (only_attempt (only_request trivial)) (fun r => ?_)
  cases r with
  | error err =>
    refine only_ite (only_ite only_throw ?_) only_throw
    exact only_bind generateRawToken_discreet (fun _ => only_pure)
  | ok u =>
    refine only_bind createTokenForUserWithEmail_discreet (fun raw => ?_)
    exact only_bind (emit_plainly rfl) (fun _ => only_pure)

theorem resetPassword_discreet {raw : String} {newPassword : Bytes} :
    Calls (Op.Discreet m?) (resetPassword cfg raw newPassword) := by
  refine only_bind checkPasswordPolicy_discreet (fun _ => ?_)
  refine only_bind consumeToken_discreet (fun tok => ?_)
  exact only_bind setPassword_discreet (fun _ => emit_plainly rfl)

/-! ## Mailboxes -/

theorem createEmailVerificationToken_discreet {uid : UUID} :
    Calls (Op.Discreet m?) (createEmailVerificationToken cfg uid) :=
  only_bind (only_request trivial) (fun _ => createTokenForUserWithEmail_discreet)

theorem verifyEmail_discreet {raw : String} : Calls (Op.Discreet m?) (verifyEmail cfg raw) := by
  refine only_bind consumeToken_discreet (fun tok => ?_)
  refine only_bind (only_request trivial) (fun u => ?_)
  exact only_ite only_throw stampEmailVerified_discreet

theorem issueMagicLinkToken_discreet {uid : UUID} {email : String} :
    Calls (Op.Discreet m?) (issueMagicLinkToken cfg uid email) := by
  refine only_bind generateRawToken_discreet (fun raw => ?_)
  refine only_bind (only_ite (only_bind generateRawToken_discreet fun _ => only_pure) only_pure)
    (fun binding => ?_)
  refine only_bind (only_query trivial) (fun now => ?_)
  refine only_bind (only_query trivial) (fun id => ?_)
  refine only_bind (only_request trivial) (fun _ => ?_)
  exact only_bind (emit_plainly rfl) (fun _ => only_pure)

theorem createMagicLinkToken_discreet {email : String} {ri : RequestInfo} :
    Calls (Op.Discreet m?) (createMagicLinkToken cfg email ri) := by
  refine only_bind (p := liftExcept _) trivial (fun address => ?_)
  refine allowBoth_discreet "magic" (by decide) (fun _ => ?_)
  refine only_bind (only_attempt (only_request trivial)) (fun r => ?_)
  cases r with
  | error err => exact only_ite issueMagicLinkToken_discreet only_throw
  | ok u => exact issueMagicLinkToken_discreet

omit [Platform] in
theorem magicLinkUser_discreet {tok : Token} : Calls (Op.Discreet m?) (magicLinkUser tok) :=
  magicLinkUser_only trivial trivial trivial trivial (fun _ _ => trivial)

theorem redeemMagicLink_discreet {raw nonce : String} {ri : RequestInfo} :
    Calls (Op.Discreet m?) (redeemMagicLink cfg raw nonce ri) := by
  refine only_bind (only_onError consumeToken_discreet
    fun err => emitMagicLinkRejected_discreet (tokenReason_label err)) (fun tok => ?_)
  refine only_ite (only_bind magicLinkUser_discreet fun u => ?_) ?_
  · refine only_bind (emit_plainly rfl) (fun _ => ?_)
    exact only_bind stampEmailVerified_discreet (fun _ => completeFirstFactor_discreet (by decide))
  · exact only_bind (emitMagicLinkRejected_discreet (by decide)) (fun _ => only_throw)

omit [Platform] in
theorem requireUnclaimed_discreet {email : String} :
    Calls (Op.Discreet m?) (requireUnclaimed email) := by
  refine only_bind (only_attempt (only_request trivial)) (fun r => ?_)
  cases r with
  | ok u => exact only_throw
  | error err => exact only_ite only_pure only_throw

theorem changeEmail_discreet {uid : UUID} {newEmail : String} :
    Calls (Op.Discreet m?) (changeEmail cfg uid newEmail) := by
  refine only_bind (p := liftExcept _) trivial (fun address => ?_)
  refine only_bind requireUnclaimed_discreet (fun _ => ?_)
  refine only_bind (only_query trivial) (fun now => ?_)
  refine only_bind (updateUserWithRetry_discreet fun u => only_pure) (fun _ => ?_)
  refine only_bind createTokenForUserWithEmail_discreet (fun raw => ?_)
  exact only_bind (emit_plainly rfl) (fun _ => only_pure)

theorem confirmEmailChange_discreet {raw : String} :
    Calls (Op.Discreet m?) (confirmEmailChange cfg raw) := by
  refine only_bind consumeToken_discreet (fun tok => ?_)
  refine only_bind (only_query trivial) (fun now => ?_)
  refine only_bind (updateUserWithRetry_discreet fun u => ?_) (fun x => ?_)
  · exact only_ite only_throw (only_bind requireUnclaimed_discreet fun _ => only_pure)
  refine only_bind revokeUserSessions_discreet (fun _ => ?_)
  refine only_bind (only_request trivial) (fun _ => ?_)
  refine only_bind (only_request trivial) (fun _ => ?_)
  refine only_bind (only_request trivial) (fun _ => ?_)
  exact only_bind (emit_plainly rfl) (fun _ => only_pure)

/-! ## Sessions -/

omit [Platform] in
theorem endSession_discreet {α : Type} {kind : EventKind} {session : Session} {reason : String}
    (hreason : reason ∈ reasonLabels) :
    Calls (Op.Discreet m?) (endSession (α := α) cfg kind session reason) := by
  refine only_bind (only_attempt (only_request trivial)) (fun _ => ?_)
  exact only_bind (emit_discreet (labels_one (Or.inl hreason))) (fun _ => only_throw)

theorem validateSession_discreet {token : String} :
    Calls (Op.Discreet m?) (validateSession cfg token) := by
  refine only_bind (only_request trivial) (fun session => ?_)
  refine only_bind (only_query trivial) (fun now => ?_)
  refine only_ite (endSession_discreet (by decide)) (only_ite (endSession_discreet (by decide)) ?_)
  refine only_bind (only_request trivial) (fun u => ?_)
  refine only_bind (only_query trivial) (fun _ => only_ite only_throw ?_)
  refine only_bind (only_ite (only_bind (only_attempt (only_request trivial))
    fun r => ?_) only_pure) (fun _ => only_pure)
  cases r with
  | ok x => exact only_pure
  | error err => exact only_pure

theorem refreshSession_discreet {session : Session}
    (hmethod : IsLabel m? .method session.method.name) :
    Calls (Op.Discreet m?) (refreshSession cfg session) := by
  refine only_bind (only_request trivial) (fun _ => ?_)
  refine only_bind (only_request trivial) (fun u => ?_)
  refine only_bind accountStatus_discreet (fun _ => ?_)
  refine only_bind requireVerifiedEmail_discreet (fun _ => ?_)
  refine only_bind generateRawToken_discreet (fun token => ?_)
  refine only_bind (only_query trivial) (fun now => ?_)
  refine only_bind (only_query trivial) (fun id => ?_)
  refine only_bind (only_request trivial) (fun _ => ?_)
  exact only_bind (emit_discreet (labels_one hmethod)) (fun _ => only_pure)

theorem reAuthenticate_discreet {session : Session} {password : Bytes} {ri : RequestInfo} :
    Calls (Op.Discreet m?) (reAuthenticate cfg session password ri) := by
  refine only_bind (only_request trivial) (fun u => ?_)
  refine allowBoth_discreet "password" (by decide) (fun _ => ?_)
  refine only_bind (only_onError accountStatus_discreet
    fun err => emitReauthFailed_discreet (gateReason_label err)) (fun _ => ?_)
  refine only_ite (only_bind (emitReauthFailed_discreet (Or.inr (by decide))) fun _ => only_throw) ?_
  split
  · exact only_throw
  · exact only_bind (emitReauthFailed_discreet (Or.inr (by decide))) (fun _ => only_throw)
  · refine only_bind (only_onlyIf (emit_plainly rfl)) (fun _ => ?_)
    refine only_bind (only_onlyIf rehashPassword_discreet) (fun _ => ?_)
    refine only_bind (only_query trivial) (fun now => ?_)
    refine only_bind (only_request trivial) (fun _ => ?_)
    exact only_bind (emit_plainly rfl) (fun _ => only_pure)

theorem createTwoFactorToken_discreet {uid : UUID} :
    Calls (Op.Discreet m?) (createTwoFactorToken cfg uid) := by
  refine only_bind (only_request trivial) (fun u => ?_)
  refine only_bind requireVerifiedEmail_discreet (fun _ => ?_)
  refine only_bind createTokenForUserWithEmail_discreet (fun raw => ?_)
  exact only_bind (emit_plainly rfl) (fun _ => only_pure)

theorem completeTwoFactor_discreet {uid : UUID} {raw : String} {ri : RequestInfo} :
    Calls (Op.Discreet m?) (completeTwoFactor cfg uid raw ri) := by
  refine only_bind (only_onError consumeToken_discreet
    fun err => emitSecondFactorFailed_discreet (Or.inr (tokenReason_label err))) (fun tok => ?_)
  refine only_ite (only_bind (emitSecondFactorFailed_discreet (Or.inr (by decide)))
    fun _ => only_throw) ?_
  refine only_bind (only_request trivial) (fun u => ?_)
  refine only_bind (only_onError accountStatus_discreet
    fun err => emitSecondFactorFailed_discreet (gateReason_label err)) (fun _ => ?_)
  refine only_bind (only_onError requireVerifiedEmail_discreet
    fun err => emitSecondFactorFailed_discreet (gateReason_label err)) (fun _ => ?_)
  refine only_bind (emit_plainly rfl) (fun _ => ?_)
  refine only_bind (only_query trivial) (fun at_ => ?_)
  exact only_bind (createSession_discreet (isLabel_method (by decide))) (fun _ => only_pure)

theorem issueSessionOf_discreet {auth : Authentication}
    (hmethod : IsLabel m? .method auth.method.name) :
    Calls (Op.Discreet m?) (issueSessionOf cfg auth) := by
  refine only_bind (only_request trivial) (fun u => ?_)
  refine only_bind accountStatus_discreet (fun _ => ?_)
  exact only_bind requireVerifiedEmail_discreet (fun _ => createSession_discreet hmethod)

omit [Platform] in
theorem disableUser_discreet {uid : UUID} {reason : String} :
    Calls (Op.Discreet m?) (disableUser cfg uid reason) := by
  refine only_bind (only_query trivial) (fun now => ?_)
  refine only_bind (updateUserWithRetry_discreet fun u => only_pure) (fun x => ?_)
  exact only_bind (emit_plainly rfl) (fun _ => revokeUserSessions_discreet)

omit [Platform] in
theorem enableUser_discreet {uid : UUID} : Calls (Op.Discreet m?) (enableUser cfg uid) := by
  refine only_bind (updateUserWithRetry_discreet fun u => ?_) (fun _ => emit_plainly rfl)
  exact only_bind (only_query trivial) (fun _ => only_pure)

/-! ## All operations -/

/-- An operation reports labels, and the method it was given if it takes one. -/
theorem program_discreet (call : Call) : Calls (Op.Discreet call.method?) (call.program cfg) := by
  have given (method : AuthMethod) : IsLabel (some method) .method method.name :=
    Or.inr ⟨rfl, method, rfl, rfl⟩
  cases call with
  | register => exact register_discreet
  | login => exact login_discreet
  | verifyPassword => exact verifyPassword_discreet
  | changePassword => exact changePassword_discreet
  | setInitialPassword => exact setInitialPassword_discreet
  | createPasswordResetToken => exact createPasswordResetToken_discreet
  | createPasswordResetTokenStrict => exact createPasswordResetToken_discreet
  | resetPassword => exact resetPassword_discreet
  | validateSession => exact validateSession_discreet
  | revokeSession =>
    exact only_bind (only_request trivial)
      (fun _ => emit_discreet (labels_one (Or.inl (by decide))))
  | revokeAllSessions => exact revokeUserSessions_discreet
  | listUserSessions =>
    exact only_bind (only_request trivial) (fun _ => only_pure)
  | refreshSession session => exact refreshSession_discreet (given session.method)
  | requireRecentAuth =>
    exact only_bind (only_query trivial) (fun _ => only_ite only_throw only_pure)
  | reAuthenticate => exact reAuthenticate_discreet
  | createMagicLinkToken => exact createMagicLinkToken_discreet
  | redeemMagicLink => exact redeemMagicLink_discreet
  | createEmailVerificationToken => exact createEmailVerificationToken_discreet
  | verifyEmail => exact verifyEmail_discreet
  | changeEmail => exact changeEmail_discreet
  | confirmEmailChange => exact confirmEmailChange_discreet
  | createTwoFactorToken => exact createTwoFactorToken_discreet
  | completeTwoFactor => exact completeTwoFactor_discreet
  | issueSession auth =>
    simp only [Call.program, issueSession, Call.method?]
    split
    · exact only_throw
    · exact issueSessionOf_discreet (given auth.method)
  | issueSessionUnchecked uid method =>
    simp only [Call.program, issueSessionUnchecked, Call.method?]
    split
    · exact only_throw
    · exact only_bind (only_query trivial)
        (fun _ => issueSessionOf_discreet (given method))
  | disableUser => exact disableUser_discreet
  | enableUser => exact enableUser_discreet
  | cleanExpired => exact only_request trivial
  | deleteExpiredTokens => exact only_request trivial

end Service

end Sulis
