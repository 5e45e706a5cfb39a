-- SUMMARY: Which calls the parts of the service never make: status checks, second factors, updates.
import Sulis.Discipline.Spec

/-!
# Footprints

Facts of the form "this method never makes such a call". They carry the negative
facts an operation keeps along its way: that no status check failed so far, that
the second-factor checker was not asked yet, and that no user was written to.
-/

namespace Sulis

open Interaction Interaction.Prog

/-- Calls that cannot change a user. -/
def Op.NotUser : Op → Prop
  | .createUser _ => False
  | .updateUser _ => False
  | _ => True

/-- Calls that neither look at the state of an account nor can change a user. -/
def Op.Bare : Op → Prop
  | .status _ => False
  | .hasSecondFactor _ => False
  | .createUser _ => False
  | .updateUser _ => False
  | _ => True

theorem Op.Bare.quiet {op : Op} (h : op.Bare) : op.Quiet := by
  cases op <;> trivial

theorem Op.Bare.notUser {op : Op} (h : op.Bare) : op.NotUser := by
  cases op <;> trivial

/-- Every call the operation can make satisfies `P`. -/
abbrev Calls {α : Type} (P : Op → Prop) (p : M α) : Prop := p.run.Only (S := iface) P

namespace Service

variable {cfg : Config}

theorem only_onlyIf {P : Op → Prop} {c : Prop} [Decidable c] {act : M Unit}
    (h : Calls P act) : Calls P (onlyIf c act) := only_ite h only_pure

theorem Bare.quiet {α : Type} {p : M α} (hp : Calls Op.Bare p) :
    Calls Op.Quiet p := hp.mono (fun _ => Op.Bare.quiet)

theorem Bare.notUser {α : Type} {p : M α} (hp : Calls Op.Bare p) :
    Calls Op.NotUser p := hp.mono (fun _ => Op.Bare.notUser)

theorem Quiet.plain {α : Type} {p : M α} (hp : Calls Op.Quiet p) :
    Calls Op.Plain p := hp.mono (fun _ => Op.Quiet.plain)

theorem Quiet.notUpdate {α : Type} {p : M α} (hp : Calls Op.Quiet p) :
    Calls Op.NotUpdate p := hp.mono (fun _ => Op.Quiet.notUpdate)

theorem emit_only {P : Op → Prop} {e : SecurityEvent} (hnow : P .now) (hemit : ∀ e, P (.emit e)) :
    Calls P (emit cfg e) :=
  only_ite (only_bind (only_query hnow) (fun _ => only_query (hemit _))) only_pure

theorem emit_bare {e : SecurityEvent} : Calls Op.Bare (emit cfg e) :=
  emit_only trivial (fun _ => trivial)

theorem emit_quiet {e : SecurityEvent} : Calls Op.Quiet (emit cfg e) := Bare.quiet emit_bare

theorem emit_plain {e : SecurityEvent} : Calls Op.Plain (emit cfg e) := Quiet.plain emit_quiet

theorem emitLoginFailedVia_bare {uid : UUID} {ri : RequestInfo} {method : AuthMethod}
    {reason : String} : Calls Op.Bare (emitLoginFailedVia cfg uid ri method reason) :=
  only_ite emit_bare emit_bare

theorem emitLoginFailedVia_plain {uid : UUID} {ri : RequestInfo} {method : AuthMethod}
    {reason : String} : Calls Op.Plain (emitLoginFailedVia cfg uid ri method reason) :=
  Quiet.plain (Bare.quiet emitLoginFailedVia_bare)

theorem emitSecondFactorFailed_plain {uid : UUID} {ri : RequestInfo} {reason : String} :
    Calls Op.Plain (emitSecondFactorFailed cfg uid ri reason) := only_ite emit_plain emit_plain

theorem allow_only {P : Op → Prop} {key : String} {ri : RequestInfo} (hallow : P (.allow key))
    (hnow : P .now) (hemit : ∀ e, P (.emit e)) : Calls P (allow cfg key ri) := by
  refine only_ite (only_bind (only_attempt (only_request hallow)) ?_) only_pure
  intro r
  cases r with
  | ok x => exact only_pure
  | error err => exact only_bind (emit_only hnow hemit) (fun _ => only_throw)

theorem allow_plain {key : String} {ri : RequestInfo} : Calls Op.Plain (allow cfg key ri) :=
  allow_only trivial trivial (fun _ => trivial)

theorem allowIP_plain {scope : String} {ri : RequestInfo} :
    Calls Op.Plain (allowIP cfg scope ri) := only_ite only_pure allow_plain

theorem updateUserWithRetry_only {P : Op → Prop} {β : Type} {uid : UUID}
    {mutate : User → M (User × β)} (hget : P (.getUserByID uid)) (hupdate : ∀ u, P (.updateUser u))
    (hmutate : ∀ u, Calls P (mutate u)) : Calls P (updateUserWithRetry uid mutate) := by
  have loop : ∀ n err, Calls P (updateUserLoop uid mutate n err) := by
    intro n
    induction n with
    | zero => exact fun err => only_throw
    | succ n ih =>
      intro err
      refine only_bind (only_request hget) (fun u => ?_)
      refine only_bind (hmutate u) (fun x => ?_)
      refine only_bind (only_attempt (only_request (hupdate _))) (fun r => ?_)
      cases r with
      | ok y => exact only_pure
      | error e => exact only_ite (ih e) only_throw
  exact loop _ _

theorem updateUserWithRetry_plain {β : Type} {uid : UUID} {mutate : User → M (User × β)}
    (hmutate : ∀ u, Calls Op.Plain (mutate u)) : Calls Op.Plain (updateUserWithRetry uid mutate) :=
  updateUserWithRetry_only trivial (fun _ => trivial) hmutate

theorem recordFailedLogin_plain {uid : UUID} {ri : RequestInfo} :
    Calls Op.Plain (recordFailedLogin cfg uid ri) := by
  refine only_bind (only_query trivial) (fun now => ?_)
  refine only_bind (only_attempt (updateUserWithRetry_plain fun u => ?_)) (fun r => ?_)
  · exact only_ite only_pure only_pure
  · cases r with
    | ok x => exact only_onlyIf emit_plain
    | error err => exact only_ite only_pure only_throw

theorem clearFailedLogins_plain {uid : UUID} {ri : RequestInfo} :
    Calls Op.Plain (clearFailedLogins cfg uid ri) := by
  refine only_bind (only_attempt (updateUserWithRetry_plain fun u => ?_)) (fun r => ?_)
  · exact only_bind (only_query trivial) (fun _ => only_pure)
  · cases r with
    | ok x => exact emit_plain
    | error err => exact only_pure

theorem revokeUserSessions_bare {uid : UUID} : Calls Op.Bare (revokeUserSessions cfg uid) :=
  only_bind (only_request trivial) (fun _ => emit_bare)

theorem revokeUserSessions_plain {uid : UUID} : Calls Op.Plain (revokeUserSessions cfg uid) :=
  Quiet.plain (Bare.quiet revokeUserSessions_bare)

theorem accountStatus_only {P : Op → Prop} {u : User} (hstatus : P (.status u)) (hnow : P .now) :
    Calls P (accountStatus u) := by
  refine only_bind (only_query hstatus) (fun _ => ?_)
  cases u.disabledAt with
  | some t => exact only_throw
  | none =>
    cases u.lockedUntil with
    | none => exact only_pure
    | some until_ =>
      exact only_bind (only_query hnow)
        (fun _ => only_ite only_throw only_pure)

theorem accountStatus_notFactor {u : User} :
    Calls Op.NotFactor (accountStatus u) := accountStatus_only trivial trivial

theorem stampEmailVerified_only {P : Op → Prop} {u : User} (hnow : P .now)
    (hget : P (.getUserByID u.id)) (hupdate : ∀ u, P (.updateUser u))
    (hemit : ∀ e : SecurityEvent, e.metadata = [] → Calls P (emit cfg e))
    (hrevoke : ∀ uid, Calls P (revokeUserSessions cfg uid)) :
    Calls P (stampEmailVerified cfg u) := by
  refine only_ite only_pure (only_bind (only_query hnow) (fun now => ?_))
  refine only_bind (only_attempt (updateUserWithRetry_only hget hupdate fun u => ?_)) (fun r => ?_)
  · exact only_ite only_throw only_pure
  · cases r with
    | error err => exact only_ite (only_request hget) only_throw
    | ok x =>
      refine only_bind (hemit _ rfl) (fun _ => ?_)
      exact only_bind (only_onlyIf (hrevoke _)) (fun _ => only_pure)

theorem stampEmailVerified_plain {u : User} : Calls Op.Plain (stampEmailVerified cfg u) :=
  stampEmailVerified_only trivial trivial (fun _ => trivial) (fun _ _ => emit_plain)
    (fun _ => revokeUserSessions_plain)

/-- The account that may have to be made has no password. -/
theorem magicLinkUser_only {P : Op → Prop} {tok : Token} (hid : P (.getUserByID tok.userID))
    (hemail : P (.getUserByEmail tok.email)) (hnow : P .now) (hnew : P .newV7)
    (hcreate : ∀ u : User, u.passwordHash = "" → P (.createUser u)) :
    Calls P (magicLinkUser tok) := by
  refine only_ite (only_request hid) ?_
  refine only_bind (only_attempt (only_request hemail)) (fun r => ?_)
  cases r with
  | ok u => exact only_pure
  | error err =>
    refine only_ite (only_bind (only_query hnow) (fun now => ?_)) only_throw
    refine only_bind (only_query hnew) (fun id => ?_)
    refine only_bind (only_attempt (only_request (hcreate _ rfl))) (fun r => ?_)
    cases r with
    | ok x => exact only_pure
    | error err => exact only_ite (only_request hemail) only_throw

theorem magicLinkUser_quiet {tok : Token} : Calls Op.Quiet (magicLinkUser tok) :=
  magicLinkUser_only trivial trivial trivial trivial (fun _ _ => trivial)

theorem magicLinkUser_plain {tok : Token} : Calls Op.Plain (magicLinkUser tok) :=
  Quiet.plain magicLinkUser_quiet

theorem touch_plain {s : Session} {now : Time} : Calls Op.Plain (touch cfg s now) := by
  refine only_ite (only_bind (only_attempt (only_request trivial)) ?_) only_pure
  intro r
  cases r with
  | ok x => exact only_pure
  | error err => exact only_pure

variable [Platform]

theorem consumeToken_only {P : Op → Prop} {raw : String} {purpose : TokenPurpose}
    (hconsume : ∀ hash, P (.consumeToken hash purpose)) (hnow : P .now) :
    Calls P (consumeToken raw purpose) := by
  refine only_bind (only_attempt (only_request (hconsume _))) (fun r => ?_)
  cases r with
  | error err => exact only_ite only_throw only_throw
  | ok tok => exact only_bind (only_query hnow) (fun _ => only_ite only_throw only_pure)

theorem consumeToken_bare {raw : String} {purpose : TokenPurpose} :
    Calls Op.Bare (consumeToken raw purpose) := consumeToken_only (fun _ => trivial) trivial

theorem consumeToken_quiet {raw : String} {purpose : TokenPurpose} :
    Calls Op.Quiet (consumeToken raw purpose) := Bare.quiet consumeToken_bare

theorem consumeToken_plain {raw : String} {purpose : TokenPurpose} :
    Calls Op.Plain (consumeToken raw purpose) := Quiet.plain consumeToken_quiet

omit [Platform] in
theorem generateToken_bare {n : Nat} : Calls Op.Bare (generateRawToken n) :=
  only_bind (only_query trivial) (fun _ => only_pure)

theorem createTokenForUser_bare {uid : UUID} {purpose : TokenPurpose} {ttl : Duration} :
    Calls Op.Bare (createTokenForUser cfg uid purpose ttl) := by
  refine only_bind generateToken_bare (fun raw => ?_)
  refine only_bind (only_query trivial) (fun now => ?_)
  refine only_bind (only_query trivial) (fun id => ?_)
  exact only_bind (only_request trivial) (fun _ => only_pure)

theorem createTokenForUser_quiet {uid : UUID} {purpose : TokenPurpose} {ttl : Duration} :
    Calls Op.Quiet (createTokenForUser cfg uid purpose ttl) := Bare.quiet createTokenForUser_bare

theorem createTokenForUser_plain {uid : UUID} {purpose : TokenPurpose} {ttl : Duration} :
    Calls Op.Plain (createTokenForUser cfg uid purpose ttl) := Quiet.plain createTokenForUser_quiet

theorem createSession_bare {uid : UUID} {method : AuthMethod} {at_ : Time} {ri : RequestInfo} :
    Calls Op.Bare (createSession cfg uid method at_ ri) := by
  refine only_bind generateToken_bare (fun raw => ?_)
  refine only_bind (only_query trivial) (fun now => ?_)
  refine only_bind (only_query trivial) (fun id => ?_)
  refine only_bind (only_request trivial) (fun _ => ?_)
  exact only_bind emit_bare (fun _ => only_pure)

theorem createSession_quiet {uid : UUID} {method : AuthMethod} {at_ : Time} {ri : RequestInfo} :
    Calls Op.Quiet (createSession cfg uid method at_ ri) := Bare.quiet createSession_bare

theorem createSession_plain {uid : UUID} {method : AuthMethod} {at_ : Time} {ri : RequestInfo} :
    Calls Op.Plain (createSession cfg uid method at_ ri) := Quiet.plain createSession_quiet

theorem rehashPassword_only {P : Op → Prop} {u : User} {password : Bytes} {ri : RequestInfo}
    (hrand : ∀ n, P (.randRead n)) (hnow : P .now) (hget : P (.getUserByID u.id))
    (hupdate : ∀ u, P (.updateUser u)) (hemit : ∀ e, P (.emit e)) :
    Calls P (rehashPassword cfg u password ri) := by
  refine only_bind (only_bind (only_query (hrand _)) fun _ => only_pure)
    (fun newHash => ?_)
  refine only_bind (only_query hnow) (fun now => ?_)
  refine only_bind (only_attempt (updateUserWithRetry_only hget hupdate fun u => ?_)) (fun r => ?_)
  · exact only_ite only_throw only_pure
  · cases r with
    | ok x => exact emit_only hnow hemit
    | error err => exact emit_only hnow hemit

theorem rehashPassword_plain {u : User} {password : Bytes} {ri : RequestInfo} :
    Calls Op.Plain (rehashPassword cfg u password ri) :=
  rehashPassword_only (fun _ => trivial) trivial trivial (fun _ => trivial) (fun _ => trivial)

omit [Platform] in
theorem refuseWrongPassword_plain {u : User} {ri : RequestInfo} :
    Calls Op.Plain (refuseWrongPassword cfg u ri) := by
  refine only_bind (only_attempt (only_onlyIf recordFailedLogin_plain)) (fun r => ?_)
  refine only_bind emitLoginFailedVia_plain (fun _ => ?_)
  cases r with
  | ok x => exact only_throw
  | error err => exact only_throw

omit [Platform] in
theorem Plain.notFactor {α : Type} {p : M α} (hp : Calls Op.Plain p) :
    Calls Op.NotFactor p := hp.mono (fun _ => Op.Plain.notFactor)

theorem acceptPassword_notFactor {u : User} {password : Bytes} {legacyForm : Bool}
    {ri : RequestInfo} : Calls Op.NotFactor (acceptPassword cfg u password legacyForm ri) := by
  refine only_bind (only_onlyIf (Plain.notFactor emit_plain)) (fun _ => ?_)
  refine only_bind (only_onlyIf (Plain.notFactor rehashPassword_plain)) (fun _ => ?_)
  refine only_bind (only_onError accountStatus_notFactor
    (fun _ => Plain.notFactor emitLoginFailedVia_plain)) (fun _ => ?_)
  refine only_bind (only_onlyIf (Plain.notFactor clearFailedLogins_plain)) (fun _ => ?_)
  exact only_bind (Plain.notFactor emit_plain) (fun _ => only_pure)

/-- A password check never asks for a second factor. -/
theorem verifyPassword_notFactor {email : String} {password : Bytes} {ri : RequestInfo} :
    Calls Op.NotFactor (verifyPassword cfg email password ri) := by
  refine only_bind (p := liftExcept _) trivial (fun email => ?_)
  refine only_bind (Plain.notFactor allowIP_plain) (fun _ => ?_)
  refine only_bind (Plain.notFactor allow_plain) (fun _ => ?_)
  refine only_bind (only_attempt (only_request trivial)) (fun r => ?_)
  cases r with
  | error err =>
    exact only_ite
      (only_bind (Plain.notFactor emitLoginFailedVia_plain) fun _ => only_throw) only_throw
  | ok u =>
    refine only_ite (only_bind (Plain.notFactor emitLoginFailedVia_plain) fun _ => only_throw) ?_
    split
    · exact only_throw
    · exact Plain.notFactor refuseWrongPassword_plain
    · exact acceptPassword_notFactor

theorem completeFirstFactor_only {P : Op → Prop} {u : User} {method : AuthMethod}
    {ri : RequestInfo} (hstatus : P (.status u)) (hfactor : P (.hasSecondFactor u.id))
    (hbare : ∀ op : Op, op.Bare → P op) : Calls P (completeFirstFactor cfg u method ri) := by
  have hfailed {reason : String} :
      Calls P (emitLoginFailedVia cfg u.id ri method reason) :=
    emitLoginFailedVia_bare.mono hbare
  refine only_bind (only_onError (accountStatus_only hstatus (hbare .now trivial)) fun _ => hfailed)
    (fun _ => ?_)
  refine only_bind (only_onError (only_ite only_throw only_pure) fun _ => hfailed) (fun _ => ?_)
  refine only_bind (only_attempt (only_request hfactor)) (fun r => ?_)
  match r with
  | .error err => exact only_bind hfailed (fun _ => only_throw)
  | .ok true =>
    refine only_bind (createTokenForUser_bare.mono hbare) (fun _ => ?_)
    exact only_bind (emit_bare.mono hbare) (fun _ => only_pure)
  | .ok false =>
    refine only_bind (only_query (hbare .now trivial)) (fun _ => ?_)
    exact only_bind (createSession_bare.mono hbare) (fun _ => only_pure)

/-- What a verified first factor earns is not written to the user. -/
theorem completeFirstFactor_notUpdate {u : User} {method : AuthMethod} {ri : RequestInfo} :
    Calls Op.NotUpdate (completeFirstFactor cfg u method ri) :=
  completeFirstFactor_only trivial trivial (fun _ hop => hop.quiet.notUpdate)

theorem checkPasswordPolicy_only {P : Op → Prop} {password : Bytes} (hcheck : ∀ b, P (.check b)) :
    Calls P (checkPasswordPolicy cfg password) :=
  only_ite only_throw
    (only_ite only_throw (only_onlyIf (only_request (hcheck _))))

end Service

end Sulis
