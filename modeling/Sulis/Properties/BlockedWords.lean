-- SUMMARY: Which of the words given to the blocklist are refused as passwords, by each of the four ways to set one.
import Sulis.Discipline.Screening
import Sulis.Interaction.Alone
import Sulis.Passwordcheck.Blocklist
import Sulis.Properties.Scenario

/-!
# Blocked words

The policy asks the checker about the NFKC form of a password. The blocklist keeps its words in
lower case, but not in NFKC form, so a word is refused exactly if its NFKC form is listed.
-/

namespace Sulis

open Interaction Interaction.Prog Interaction.System

/-! ## The environment -/

section

variable [Passwordcheck.Strings]

/-- What the blocklist answers, as the service sees it: `ErrPasswordCompromised` is
    `passwordcheck.ErrCompromised`. -/
def blocklistRefusal (extra : List Bytes) (corpus password : Bytes) : Option Err :=
  match (Passwordcheck.newBlocklist extra).check corpus password with
  | .ok () => none
  | .error _ => some .passwordCompromised

/-- The checker answers as the blocklist, the limiter lets everything through, and no store
    reports a compromised password. -/
def blocklistAdmits (extra : List Bytes) (corpus : Bytes) (ch : Choice) : Op → Bool
  | .check password => ch.refusal = blocklistRefusal extra corpus password
  | .allow _ => ch.refusal = none
  | _ => ∀ f ∈ ch.fault, f.err ≠ .passwordCompromised

/-- The package with the blocklist as its checker. -/
abbrev blocking [Platform] (cfg : Config) (extra : List Bytes) (corpus : Bytes) : System iface :=
  { system cfg with
    serve := fun w op ch => if blocklistAdmits extra corpus ch op then World.serve w op ch else none }

/-- Not refused as compromised. -/
def Clean {α : Type} (r : Except Err α) : Prop := r ≠ .error .passwordCompromised

/-- The answers such an environment gives. -/
def Fair (extra : List Bytes) (corpus : Bytes) : (op : Op) → op.Res → Prop
  | .check password, r =>
    r = match blocklistRefusal extra corpus password with | none => .ok () | some err => .error err
  | .allow _, r => r = .ok ()
  | .createUser _, r => Clean r
  | .getUserByID _, r => Clean r
  | .updateUser _, r => Clean r
  | .createSession _, r => Clean r
  | .deleteUserSessions _, r => Clean r
  | .consumeToken _ _, r => Clean r
  | .deleteUserTokens _ _, r => Clean r
  | _, _ => True

omit [Passwordcheck.Strings] in
theorem clean_store {α : Type} {w w' : World} {ch : Choice} {x : Except Err α × World}
    {r : Except Err α} (hfault : ∀ f ∈ ch.fault, f.err ≠ .passwordCompromised) (hx : Clean x.1)
    (h : w.store ch x = some (r, w')) : Clean r := by
  rcases World.store_cases h with ⟨-, rfl⟩ | ⟨f, hf, rfl, -⟩
  · exact hx
  · intro heq
    exact hfault f hf (Except.error.inj heq)

omit [Passwordcheck.Strings] in
theorem clean_ok {α : Type} {a : α} : Clean (.ok a : Except Err α) := nofun

omit [Passwordcheck.Strings] in
theorem clean_error {α : Type} {err : Err} (h : err ≠ .passwordCompromised) :
    Clean (.error err : Except Err α) := fun heq => h (Except.error.inj heq)

variable {extra : List Bytes} {corpus : Bytes}

theorem serve_fair {w w' : World} {op : Op} {ch : Choice} {r : op.Res}
    (hadmits : blocklistAdmits extra corpus ch op = true) (h : w.serve op ch = some (r, w')) :
    Fair extra corpus op r := by
  cases op with
  | check password =>
    simp only [World.serve, Option.some.injEq, Prod.mk.injEq] at h
    simp only [blocklistAdmits, decide_eq_true_eq] at hadmits
    rw [← h.1, Choice.verdict, hadmits]
    rfl
  | allow key =>
    simp only [World.serve, Option.some.injEq, Prod.mk.injEq] at h
    simp only [blocklistAdmits, decide_eq_true_eq] at hadmits
    rw [← h.1, Choice.verdict, hadmits]
    rfl
  | createUser u =>
    refine clean_store (of_decide_eq_true hadmits) ?_ h
    rcases w.users.createUser_cases u with heq | ⟨-, -, heq⟩
    · rw [World.withUsers, heq]
      exact clean_error (by decide)
    · rw [World.withUsers, heq]
      exact clean_ok
  | getUserByID id =>
    refine clean_store (of_decide_eq_true hadmits) (fun heq => ?_) h
    cases UserStore.getUserByID_error heq
  | updateUser u =>
    refine clean_store (of_decide_eq_true hadmits) (fun heq => ?_) h
    rcases UserStore.updateUser_error heq with herr | herr | ⟨herr, -⟩
    all_goals cases herr
  | consumeToken hash purpose =>
    refine clean_store (of_decide_eq_true hadmits) ?_ h
    simp only [World.withTokens, TokenStore.consumeToken]
    split
    · exact clean_error (by decide)
    · split
      · exact clean_error (by decide)
      · exact clean_ok
  | deleteUserTokens userID purpose =>
    refine clean_store (of_decide_eq_true hadmits) ?_ h
    simp only [World.withTokens, TokenStore.deleteUserTokens]
    split
    · exact clean_ok
    · exact clean_ok
  | createSession | deleteUserSessions =>
    exact clean_store (of_decide_eq_true hadmits) clean_ok h
  | _ => trivial

/-! ## What follows the policy -/

/-- In this environment the program is not refused as compromised. -/
def Untroubled (extra : List Bytes) (corpus : Bytes) {α : Type} (p : M α) : Prop :=
  p.run.Settles (S := iface) (Fair extra corpus) (fun _ => True) Clean

section

variable {α β : Type}

theorem untroubled_pure {a : α} : Untroubled extra corpus (pure a) := settles_pure clean_ok

theorem untroubled_throw {err : Err} (h : err ≠ .passwordCompromised) :
    Untroubled extra corpus (throw err : M α) := settles_throw (clean_error h)

theorem untroubled_bind {p : M α} {f : α → M β} (hp : Untroubled extra corpus p)
    (hf : ∀ a, Untroubled extra corpus (f a)) : Untroubled extra corpus (p >>= f) := by
  refine settles_bind hp (fun a _ => hf a) (fun e he => clean_error ?_)
  rintro rfl
  exact he rfl

theorem untroubled_attempt_bind {p : M α} {f : Except Err α → M β} (hp : Untroubled extra corpus p)
    (hf : ∀ x, Clean x → Untroubled extra corpus (f x)) :
    Untroubled extra corpus (attempt p >>= f) := settles_attempt_bind hp hf

theorem untroubled_ite {c : Prop} [Decidable c] {p q : M α} (hp : Untroubled extra corpus p)
    (hq : Untroubled extra corpus q) : Untroubled extra corpus (if c then p else q) :=
  settles_ite (fun _ => hp) (fun _ => hq)

theorem untroubled_returns {P : Op → Prop} {p : M α}
    (hp : p.run.Settles (S := iface) (Fair extra corpus) P Service.Returns) :
    Untroubled extra corpus p := by
  refine (hp.weaken (fun _ _ => trivial)).mono (fun r hr => ?_)
  obtain ⟨a, rfl⟩ := hr
  exact clean_ok

theorem untroubled_lift {r : Except Err α} (h : Clean r) : Untroubled extra corpus (liftExcept r) :=
  settles_ret h

theorem untroubled_store (op : Op) {k : op.Res → Except Err α}
    (hr : ∀ r, Fair extra corpus op r → Clean (k r)) :
    Untroubled extra corpus (request (.call op (fun r => .ret (k r)))) :=
  Service.settles_answer trivial hr

end

namespace Service

variable {cfg : Config}

theorem emit_untroubled {e : SecurityEvent} : Untroubled extra corpus (emit cfg e) :=
  untroubled_returns emit_settles

/-- A limiter that lets everything through. -/
theorem allow_settles {key : String} {ri : RequestInfo} :
    (allow cfg key ri).run.Settles (S := iface) (Fair extra corpus) (fun _ => True)
      (fun r => r = .ok ()) := by
  refine settles_ite (fun _ => ?_) (fun _ => settles_pure rfl)
  refine settles_attempt_bind (V := fun r => r = .ok ()) (settles_answer trivial (fun _ hr => hr))
    (fun x hx => ?_)
  rw [hx]
  exact settles_pure rfl

theorem allowIP_settles {scope : String} {ri : RequestInfo} :
    (allowIP cfg scope ri).run.Settles (S := iface) (Fair extra corpus) (fun _ => True)
      (fun r => r = .ok ()) :=
  settles_ite (fun _ => settles_pure rfl) (fun _ => allow_settles)

theorem allow_untroubled {key : String} {ri : RequestInfo} :
    Untroubled extra corpus (allow cfg key ri) :=
  untroubled_returns (allow_settles.mono (fun _ hr => ⟨(), hr⟩))

theorem allowIP_untroubled {scope : String} {ri : RequestInfo} :
    Untroubled extra corpus (allowIP cfg scope ri) :=
  untroubled_returns (allowIP_settles.mono (fun _ hr => ⟨(), hr⟩))

theorem updateUserWithRetry_untroubled {β : Type} {uid : UUID} {mutate : User → M (User × β)}
    (hmutate : ∀ u, Untroubled extra corpus (mutate u)) :
    Untroubled extra corpus (updateUserWithRetry uid mutate) := by
  have loop : ∀ n err, err ≠ .passwordCompromised →
      Untroubled extra corpus (updateUserLoop uid mutate n err) := by
    intro n
    induction n with
    | zero => exact fun err herr => untroubled_throw herr
    | succ n ih =>
      intro err _
      refine untroubled_bind (untroubled_store (.getUserByID uid) (fun _ hr => hr)) (fun u => ?_)
      refine untroubled_bind (hmutate u) (fun x => ?_)
      refine untroubled_attempt_bind (untroubled_store (.updateUser x.1) (fun _ hr => hr))
        (fun r hr => ?_)
      cases r with
      | ok y => exact untroubled_pure
      | error e =>
        have he : e ≠ .passwordCompromised := by
          rintro rfl
          exact hr rfl
        exact untroubled_ite (ih e he) (untroubled_throw he)
  exact loop _ _ nofun

variable [Platform]

theorem hashNewPassword_untroubled {password : Bytes} :
    Untroubled extra corpus (hashNewPassword cfg password) :=
  untroubled_bind (untroubled_returns randRead_settles) (fun _ => untroubled_pure)

theorem setPassword_untroubled {uid : UUID} {password : Bytes} {guard : User → Except Err Unit}
    (hguard : ∀ u, Clean (guard u)) : Untroubled extra corpus (setPassword cfg uid password guard) := by
  refine untroubled_bind hashNewPassword_untroubled (fun hash => ?_)
  refine untroubled_bind (untroubled_returns timeNow_settles) (fun now => ?_)
  refine untroubled_bind (updateUserWithRetry_untroubled (fun u => ?_)) (fun x => ?_)
  · exact untroubled_bind (untroubled_lift (hguard u)) (fun _ => untroubled_pure)
  refine untroubled_bind (untroubled_ite ?_ untroubled_pure) (fun _ => ?_)
  · exact untroubled_bind (untroubled_store (.deleteUserSessions x.1.id) (fun _ hr => hr))
      (fun _ => emit_untroubled)
  refine untroubled_bind (untroubled_store (.deleteUserTokens _ _) (fun _ hr => hr)) (fun _ => ?_)
  refine untroubled_bind (untroubled_store (.deleteUserTokens _ _) (fun _ hr => hr)) (fun _ => ?_)
  exact untroubled_store (.deleteUserTokens _ _) (fun _ hr => hr)

theorem createSession_untroubled {uid : UUID} {method : AuthMethod} {at_ : Time} {ri : RequestInfo} :
    Untroubled extra corpus (createSession cfg uid method at_ ri) := by
  refine untroubled_bind (untroubled_bind (untroubled_returns randRead_settles)
    (fun _ => untroubled_pure)) (fun token => ?_)
  refine untroubled_bind (untroubled_returns timeNow_settles) (fun now => ?_)
  refine untroubled_bind (untroubled_returns newV7_settles) (fun id => ?_)
  refine untroubled_bind (untroubled_store (.createSession _) (fun _ hr => hr)) (fun _ => ?_)
  exact untroubled_bind emit_untroubled (fun _ => untroubled_pure)

theorem consumeToken_untroubled {rawToken : String} {purpose : TokenPurpose} :
    Untroubled extra corpus (consumeToken rawToken purpose) := by
  refine untroubled_attempt_bind (untroubled_store (.consumeToken _ _) (fun _ hr => hr))
    (fun r hr => ?_)
  cases r with
  | error err =>
    refine untroubled_ite (untroubled_throw nofun) (untroubled_throw ?_)
    rintro rfl
    exact hr rfl
  | ok token =>
    refine untroubled_bind (untroubled_returns timeNow_settles) (fun now => ?_)
    exact untroubled_ite (untroubled_throw nofun) untroubled_pure

omit [Passwordcheck.Strings] in
theorem verifyOld_clean (oldPassword : Bytes) (u : User) : Clean (verifyOld cfg oldPassword u) := by
  unfold verifyOld
  split
  · exact clean_error nofun
  · split
    · exact clean_error nofun
    · split
      · exact clean_ok
      · exact clean_error nofun

omit [Passwordcheck.Strings] [Platform] in
theorem requirePasswordless_clean (u : User) : Clean (requirePasswordless u) := by
  unfold requirePasswordless
  split
  · exact clean_error nofun
  · exact clean_ok

end Service

/-! ## The four ways to set a password -/

/-- A way to set a password, with its other arguments. -/
inductive PasswordSetting
  | register (email : String) (ri : RequestInfo)
  | changePassword (userID : UUID) (oldPassword : Bytes) (ri : RequestInfo)
  | resetPassword (rawToken : String)
  | setInitialPassword (userID : UUID)

def PasswordSetting.call (password : Bytes) : PasswordSetting → Call
  | .register email ri => .register email password ri
  | .changePassword userID oldPassword ri => .changePassword userID oldPassword password ri
  | .resetPassword rawToken => .resetPassword rawToken password
  | .setInitialPassword userID => .setInitialPassword userID password

variable [Platform]

/-- The arguments that are looked at before the password. -/
def PasswordSetting.Valid : PasswordSetting → Prop
  | .register email _ => ∃ address, normalizeEmail email = .ok address
  | _ => True

/-- What setting a password can end in, with the blocklist as the checker. -/
abbrev Sets (cfg : Config) (extra : List Bytes) (corpus password : Bytes) (how : PasswordSetting)
    (w w' : World) (r : Except Err (how.call password).Ret) : Prop :=
  (blocking cfg extra corpus).Lands (fun _ => True) ((how.call password).program cfg) w w' r

/-- The password is refused with `ErrPasswordCompromised`, whatever else happens. -/
structure PasswordRefused (cfg : Config) (extra : List Bytes) (corpus password : Bytes) (how : PasswordSetting)
    (w : World) : Prop where
  ends : ∃ w' r, Sets cfg extra corpus password how w w' r
  only : ∀ w' r, Sets cfg extra corpus password how w w' r → r = .error .passwordCompromised

/-- The checker is asked about passwords of this length. -/
structure Reaches (cfg : Config) (password : Bytes) : Prop where
  checker : cfg.passwordChecker = true
  short : cfg.minPasswordLength ≤ ((normalizePassword password).length : Int)
  long : ((normalizePassword password).length : Int) ≤ cfg.maxPasswordLength

variable {cfg : Config} {password : Bytes} {how : PasswordSetting} {w w' : World}

omit [Passwordcheck.Strings] in
theorem Reaches.policy_eq (h : Reaches cfg password) :
    Service.checkPasswordPolicy cfg password = checkerCheck (normalizePassword password) := by
  have hshort := h.short
  have hlong := h.long
  simp only [Service.checkPasswordPolicy, onlyIf, if_neg (not_lt.mpr hshort),
    if_neg (not_lt.mpr hlong), if_pos h.checker]

omit [Platform] in
theorem blocklistRefusal_of_listed (h : Passwordcheck.Listed extra corpus password) :
    blocklistRefusal extra corpus password = some .passwordCompromised := by
  rw [blocklistRefusal, Passwordcheck.check_newBlocklist.1 h]

omit [Platform] in
theorem blocklistRefusal_of_unlisted (h : ¬ Passwordcheck.Listed extra corpus password) :
    blocklistRefusal extra corpus password = none := by
  rw [blocklistRefusal, Passwordcheck.check_newBlocklist.2 h]

theorem policy_refuses (h : Reaches cfg password)
    (hlisted : Passwordcheck.Listed extra corpus (normalizePassword password)) :
    (Service.checkPasswordPolicy cfg password).run.Settles (S := iface) (Fair extra corpus)
      (fun _ => True) (fun r => r = .error .passwordCompromised) := by
  rw [h.policy_eq]
  refine Service.settles_answer trivial (fun r hr => ?_)
  rw [Fair, blocklistRefusal_of_listed hlisted] at hr
  exact hr

theorem policy_passes (h : Reaches cfg password)
    (hlisted : ¬ Passwordcheck.Listed extra corpus (normalizePassword password)) :
    Untroubled extra corpus (Service.checkPasswordPolicy cfg password) := by
  rw [h.policy_eq]
  refine untroubled_store (.check _) (fun r hr => ?_)
  rw [Fair, blocklistRefusal_of_unlisted hlisted] at hr
  rw [hr]
  exact clean_ok

/-- A program that starts with the policy is refused with it. -/
theorem refuses_first {α : Type} {f : Unit → M α} (h : Reaches cfg password)
    (hlisted : Passwordcheck.Listed extra corpus (normalizePassword password)) :
    (Service.checkPasswordPolicy cfg password >>= f).run.Settles (S := iface) (Fair extra corpus)
      (fun _ => True) (fun r => r = .error .passwordCompromised) := by
  refine settles_bind (policy_refuses h hlisted) nofun (fun e he => ?_)
  rw [Except.error.inj he]

theorem program_refuses (h : Reaches cfg password) (hvalid : how.Valid)
    (hlisted : Passwordcheck.Listed extra corpus (normalizePassword password)) :
    ((how.call password).program cfg).run.Settles (S := iface) (Fair extra corpus) (fun _ => True)
      (fun r => r = .error .passwordCompromised) := by
  cases how with
  | register email ri =>
    obtain ⟨address, haddress⟩ := hvalid
    refine settles_bind Service.allowIP_settles (fun _ _ => ?_) nofun
    rw [haddress]
    exact refuses_first h hlisted
  | changePassword userID oldPassword ri => exact refuses_first h hlisted
  | resetPassword rawToken => exact refuses_first h hlisted
  | setInitialPassword userID => exact refuses_first h hlisted

theorem program_untroubled (h : Reaches cfg password) (hvalid : how.Valid)
    (hlisted : ¬ Passwordcheck.Listed extra corpus (normalizePassword password)) :
    Untroubled extra corpus ((how.call password).program cfg) := by
  cases how with
  | register email ri =>
    obtain ⟨address, haddress⟩ := hvalid
    refine untroubled_bind Service.allowIP_untroubled (fun _ => ?_)
    rw [haddress]
    refine untroubled_bind (untroubled_lift clean_ok) (fun address => ?_)
    refine untroubled_bind (policy_passes h hlisted) (fun _ => ?_)
    refine untroubled_bind Service.hashNewPassword_untroubled (fun hash => ?_)
    refine untroubled_bind (untroubled_returns Service.timeNow_settles) (fun now => ?_)
    refine untroubled_bind (untroubled_returns Service.newV7_settles) (fun id => ?_)
    refine untroubled_bind (untroubled_store (.createUser _) (fun _ hr => hr)) (fun _ => ?_)
    refine untroubled_bind Service.emit_untroubled (fun _ => ?_)
    exact untroubled_bind Service.createSession_untroubled (fun _ => untroubled_pure)
  | changePassword userID oldPassword ri =>
    refine untroubled_bind (policy_passes h hlisted) (fun _ => ?_)
    refine untroubled_bind (untroubled_store (.getUserByID userID) (fun _ hr => hr)) (fun user => ?_)
    refine untroubled_bind Service.allowIP_untroubled (fun _ => ?_)
    refine untroubled_bind Service.allow_untroubled (fun _ => ?_)
    refine untroubled_bind (Service.setPassword_untroubled (Service.verifyOld_clean oldPassword))
      (fun _ => ?_)
    exact Service.emit_untroubled
  | resetPassword rawToken =>
    refine untroubled_bind (policy_passes h hlisted) (fun _ => ?_)
    refine untroubled_bind Service.consumeToken_untroubled (fun token => ?_)
    refine untroubled_bind (Service.setPassword_untroubled (fun _ => clean_ok)) (fun _ => ?_)
    exact Service.emit_untroubled
  | setInitialPassword userID =>
    refine untroubled_bind (policy_passes h hlisted) (fun _ => ?_)
    refine untroubled_bind (Service.setPassword_untroubled Service.requirePasswordless_clean)
      (fun _ => ?_)
    exact Service.emit_untroubled

theorem blocking_fair (w : World) (op : Op) (ch : Choice) (r : op.Res) (w' : World) (_ : True)
    (h : (blocking cfg extra corpus).serve w op ch = some (r, w')) : Fair extra corpus op r := by
  obtain ⟨hadmits, hserve⟩ := Option.ite_none_right_eq_some.mp h
  exact serve_fair hadmits hserve

/-! ## A refusal comes about -/

theorem blocking_serve {op : Op} {ch : Choice} {x : op.Res × World}
    (hadmits : blocklistAdmits extra corpus ch op = true) (hserve : w.serve op ch = some x) :
    (blocking cfg extra corpus).serve w op ch = some x :=
  Option.ite_none_right_eq_some.mpr ⟨hadmits, hserve⟩

theorem allowIP_lands {scope : String} {ri : RequestInfo} :
    (blocking cfg extra corpus).Lands (fun _ => True) (Service.allowIP cfg scope ri) w w (.ok ()) := by
  have hallow : ∀ key, (blocking cfg extra corpus).Lands (fun _ => True) (limiterAllow key) w w
      (.ok ()) := by
    intro key
    exact lands_call.mpr ⟨{}, .ok (), w, trivial, blocking_serve rfl rfl, lands_ret.mpr ⟨rfl, rfl⟩⟩
  unfold Service.allowIP
  split
  · exact lands_pure.mpr ⟨rfl, rfl⟩
  · unfold Service.allow
    split
    · exact lands_attempt_bind.mpr ⟨w, .ok (), hallow _, lands_pure.mpr ⟨rfl, rfl⟩⟩
    · exact lands_pure.mpr ⟨rfl, rfl⟩

/-- A program that starts with the policy can end in a refusal. -/
theorem policy_lands {α : Type} {f : Unit → M α} (h : Reaches cfg password)
    (hlisted : Passwordcheck.Listed extra corpus (normalizePassword password)) :
    (blocking cfg extra corpus).Lands (fun _ => True)
      (Service.checkPasswordPolicy cfg password >>= f) w w (.error .passwordCompromised) := by
  refine lands_bind.mpr (Or.inr ⟨_, rfl, ?_⟩)
  rw [h.policy_eq]
  refine lands_call.mpr ⟨{ refusal := some .passwordCompromised }, .error .passwordCompromised, w,
    trivial, blocking_serve ?_ rfl, lands_ret.mpr ⟨rfl, rfl⟩⟩
  simp only [blocklistAdmits, blocklistRefusal_of_listed hlisted, decide_true]

theorem program_lands (h : Reaches cfg password) (hvalid : how.Valid)
    (hlisted : Passwordcheck.Listed extra corpus (normalizePassword password)) :
    Sets cfg extra corpus password how w w (.error .passwordCompromised) := by
  cases how with
  | register email ri =>
    obtain ⟨address, haddress⟩ := hvalid
    refine lands_bind.mpr (Or.inl ⟨w, (), allowIP_lands, ?_⟩)
    rw [haddress]
    refine lands_bind.mpr (Or.inl ⟨w, address, lands_ret.mpr ⟨rfl, rfl⟩, ?_⟩)
    exact policy_lands h hlisted
  | changePassword userID oldPassword ri => exact policy_lands h hlisted
  | resetPassword rawToken => exact policy_lands h hlisted
  | setInitialPassword userID => exact policy_lands h hlisted

theorem refused_iff (h : Reaches cfg password) (hvalid : how.Valid) :
    PasswordRefused cfg extra corpus password how w ↔
      Passwordcheck.Listed extra corpus (normalizePassword password) := by
  constructor
  · intro hrefused
    by_contra hlisted
    obtain ⟨w', r, hsets⟩ := hrefused.ends
    have hclean : Clean r := hsets.settles (program_untroubled h hvalid hlisted) blocking_fair
    exact hclean (hrefused.only w' r hsets)
  · intro hlisted
    refine ⟨⟨w, _, program_lands h hvalid hlisted⟩, fun w' r hsets => ?_⟩
    exact Lands.settles (V := fun r => r = .error .passwordCompromised)
      (program_refuses h hvalid hlisted) blocking_fair hsets

/-- A word given to the blocklist is refused, by each way to set a password, exactly if its NFKC
    form is not empty and has the lower case of one of the words or of an entry of the corpus. So
    every word is refused that has the lower case of its NFKC form. -/
theorem blocked_word_refused_iff {word : Bytes} (hword : word ∈ extra) (hreaches : Reaches cfg word)
    (hvalid : how.Valid) :
    (PasswordRefused cfg extra corpus word how w ↔
      normalizePassword word ≠ [] ∧
        ((∃ other ∈ extra, Passwordcheck.Strings.toLower other =
            Passwordcheck.Strings.toLower (normalizePassword word)) ∨
          Passwordcheck.Strings.toLower (normalizePassword word) ∈
            Passwordcheck.commonPasswords corpus)) ∧
    (normalizePassword word ≠ [] →
      Passwordcheck.Strings.toLower word = Passwordcheck.Strings.toLower (normalizePassword word) →
      PasswordRefused cfg extra corpus word how w) := by
  refine ⟨refused_iff hreaches hvalid, fun hne hsame => ?_⟩
  exact (refused_iff hreaches hvalid).mpr ⟨hne, .inl ⟨word, hword, hsame⟩⟩

end

/-! ## A word in full-width letters -/

section

open Scenario

/-- Four full-width letters. -/
def wideWord : Bytes := [0xEF, 0xBD, 0x81, 0xEF, 0xBD, 0x83, 0xEF, 0xBD, 0x8D, 0xEF, 0xBD, 0x85]

/-- The letters in ASCII. -/
def plainWord : Bytes := [97, 99, 109, 101]

/-- The compatibility mapping of this one word. -/
@[reducible] def widthFolding : Platform :=
  { plain with nfkc := fun password => if password = wideWord then plainWord else password }

attribute [local instance] widthFolding Passwordcheck.ascii

/-- A checker is configured. -/
def checkedConfig : Config := { config with passwordChecker := true }

/-- An account without a password. -/
def passwordlessUser : User :=
  { id := ident 0, email := "a", createdAt := 0, updatedAt := 0 }

def passwordlessAccount : World := { users := ⟨[passwordlessUser], List.nodup_singleton _⟩ }

theorem wideWord_reaches : Reaches checkedConfig wideWord where
  checker := rfl
  short := by decide
  long := by decide

/-- The word is set as a password although it is on the list, and with a corpus that does not have
    the plain letters, no way to set it refuses it. -/
theorem wide_word_accepted :
    (∀ password : Bytes, Platform.nfkc (Platform.nfkc password) = Platform.nfkc password) ∧
    (∃ w', Sets checkedConfig [wideWord] [] wideWord (.setInitialPassword (ident 0))
      passwordlessAccount w' (.ok ())) ∧
    ∀ corpus, plainWord ∉ Passwordcheck.commonPasswords corpus →
      ∀ how w, how.Valid → ¬ PasswordRefused checkedConfig [wideWord] corpus wideWord how w := by
  refine ⟨fun password => ?_, ?_, ?_⟩
  · by_cases h : password = wideWord
    · subst h
      decide
    · have hsame : Platform.nfkc password = password := if_neg h
      rw [hsame, hsame]
  · obtain ⟨⟨w', r⟩, hrun, hr⟩ := computed
      (o := (blocking checkedConfig [wideWord] []).runWith (tick 1)
        (Service.setInitialPassword checkedConfig (ident 0) wideWord).run passwordlessAccount)
      (P := fun x => x.2.isOk = true) (by decide +kernel)
    cases r with
    | error err => cases hr
    | ok u => exact ⟨w', lands_of_runWith (C := fun _ => True) trivial hrun⟩
  · intro corpus hcorpus how w hvalid hrefused
    obtain ⟨-, hextra | hcommon⟩ := (refused_iff wideWord_reaches hvalid).mp hrefused
    · revert hextra
      decide
    · exact hcorpus hcommon

/-- The plain letters are refused if they are the word. -/
theorem blocked_word_refused_iff_plain :
    PasswordRefused checkedConfig [plainWord] [] plainWord (.setInitialPassword (ident 0))
      passwordlessAccount := by
  have hreaches : Reaches checkedConfig plainWord := ⟨rfl, by decide, by decide⟩
  have hvalid : (PasswordSetting.setInitialPassword (ident 0)).Valid := trivial
  have hword : plainWord ∈ [plainWord] := List.mem_singleton.mpr rfl
  exact (blocked_word_refused_iff hword hreaches hvalid).2 (by decide) (by decide)

end

end Sulis
