-- SUMMARY: When the lockout backoff is the saturating exponential it is meant to be, and what that means for repeated failures.
import Mathlib
import Sulis.Discipline.Accepted
import Sulis.Discipline.Mutation
import Sulis.Facts.Solo
import Sulis.Properties.Scenario

/-!
# The lockout backoff

`lockoutBackoff` doubles the base in 64 bits and takes a result that is not positive for
an overflow. A shift that overflows further can come out positive again, and short. Then
the backoff falls, and with it the deadline of the account.
-/

namespace Sulis

open Interaction Interaction.Prog Interaction.System Service

/-! ## The doubling -/

/-- How often the base is doubled. -/
def doublings (excess : Int) : Nat := (min (max excess 0) 32).toNat

/-- The backoff as it is meant, in unbounded integers. -/
def saturatedBackoff (base cap : Duration) (excess : Int) : Duration :=
  min cap (base * 2 ^ doublings excess)

/-- The doubled base fits in 64 bits, or what is left of it is taken for an overflow. -/
def KeepsUp (base cap : Duration) (excess : Int) : Prop :=
  base * 2 ^ doublings excess < 2 ^ 63 ∨ wrapInt64 (base * 2 ^ doublings excess) ≤ 0 ∨
    cap ≤ wrapInt64 (base * 2 ^ doublings excess)

section

variable {base cap excess : Int}

theorem lockoutBackoff_eq : lockoutBackoff base cap excess =
    if wrapInt64 (base * 2 ^ doublings excess) ≤ 0 ∨ cap < wrapInt64 (base * 2 ^ doublings excess)
    then cap else wrapInt64 (base * 2 ^ doublings excess) := by
  have hclamp : (if 32 < (if excess < 0 then 0 else excess) then 32 else
      if excess < 0 then 0 else excess).toNat = doublings excess := by
    unfold doublings
    split_ifs <;> omega
  rw [lockoutBackoff, hclamp]

theorem wrapInt64_of_lt {x : Int} (h0 : 0 ≤ x) (hx : x < 2 ^ 63) : wrapInt64 x = x := by
  rw [wrapInt64, Int.bmod_def]
  omega

/-- One bit too many is the sign. -/
theorem wrapInt64_neg {x : Int} (h : 2 ^ 63 ≤ x) (hx : x < 2 ^ 64) : wrapInt64 x ≤ 0 := by
  rw [wrapInt64, Int.bmod_def]
  omega

theorem base_le_doubled (hbase : 0 < base) (n : Nat) : base ≤ base * 2 ^ n :=
  le_mul_of_one_le_right hbase.le (one_le_pow₀ (by decide))

theorem lockoutBackoff_eq_iff (hbase : 0 < base) (hcap : cap < 2 ^ 63) :
    lockoutBackoff base cap excess = saturatedBackoff base cap excess ↔ KeepsUp base cap excess := by
  have hpos : 0 < base * 2 ^ doublings excess := hbase.trans_le (base_le_doubled hbase _)
  rw [lockoutBackoff_eq, saturatedBackoff, KeepsUp]
  generalize base * 2 ^ doublings excess = doubled at hpos ⊢
  rcases lt_or_ge doubled (2 ^ 63) with hfits | hover
  · rw [wrapInt64_of_lt hpos.le hfits]
    refine iff_of_true ?_ (Or.inl hfits)
    rcases le_or_gt doubled cap with hle | hgt
    · rw [if_neg (not_or.mpr ⟨not_le.mpr hpos, not_lt.mpr hle⟩), min_eq_right hle]
    · rw [if_pos (Or.inr hgt), min_eq_left hgt.le]
  · rw [min_eq_left (hcap.le.trans hover)]
    constructor
    · intro heq
      by_contra hnot
      rw [not_or, not_or] at hnot
      rw [if_neg (not_or.mpr ⟨hnot.2.1, fun hgt => hnot.2.2 hgt.le⟩)] at heq
      exact hnot.2.2 heq.ge
    · rintro (hfits | hneg | hle)
      · exact absurd hfits (not_lt.mpr hover)
      · exact if_pos (Or.inl hneg)
      · rcases hle.lt_or_eq with hgt | heq
        · exact if_pos (Or.inr hgt)
        · rw [← heq]
          exact ite_self _

theorem doublings_le (excess : Int) : doublings excess ≤ 32 := by
  unfold doublings
  omega

theorem keepsUp_of_small (hbase : 0 < base) (hfits : base * 2 ^ 32 < 2 ^ 63) :
    KeepsUp base cap excess := by
  refine Or.inl (lt_of_le_of_lt ?_ hfits)
  gcongr
  · decide
  · exact doublings_le excess

theorem saturatedBackoff_mono (hbase : 0 < base) : Monotone (saturatedBackoff base cap) := by
  intro n m hnm
  have hdoublings : doublings n ≤ doublings m := by
    unfold doublings
    omega
  unfold saturatedBackoff
  gcongr
  decide

/-- On the way to an overflow the doubled base passes through the sign. -/
theorem exists_first_overflow (hbase : base < 2 ^ 63) {k : Nat} (hover : 2 ^ 63 ≤ base * 2 ^ k) :
    ∃ j ≤ k, 2 ^ 63 ≤ base * 2 ^ j ∧ base * 2 ^ j < 2 ^ 64 := by
  induction k with
  | zero =>
    rw [pow_zero, mul_one] at hover
    omega
  | succ k ih =>
    rcases lt_or_ge (base * 2 ^ k) (2 ^ 63) with hfits | hearlier
    · refine ⟨k + 1, le_rfl, hover, ?_⟩
      rw [pow_succ, ← mul_assoc]
      omega
    · obtain ⟨j, hj, hrange⟩ := ih hearlier
      exact ⟨j, hj.trans k.le_succ, hrange⟩

/-- The backoff never falls exactly if it keeps up with the doubling. -/
theorem lockoutBackoff_mono_iff (hbase : 0 < base) (hbase' : base < 2 ^ 63) (hcap : cap < 2 ^ 63) :
    Monotone (lockoutBackoff base cap) ↔ ∀ excess, KeepsUp base cap excess := by
  constructor
  · intro hmono excess
    by_contra hnot
    rw [KeepsUp, not_or, not_or] at hnot
    obtain ⟨hover, hpos, hshort⟩ := hnot
    obtain ⟨j, hj, hlo, hhi⟩ := exists_first_overflow hbase' (not_lt.mp hover)
    have hj32 := doublings_le excess
    have hdoublings : doublings (j : Int) = j := by
      unfold doublings
      omega
    have hle : (j : Int) ≤ excess := by
      have hj0 : j ≠ 0 := by
        rintro rfl
        rw [pow_zero, mul_one] at hlo
        omega
      unfold doublings at hj
      omega
    have hfull : lockoutBackoff base cap j = cap := by
      rw [lockoutBackoff_eq, hdoublings, if_pos (Or.inl (wrapInt64_neg hlo hhi))]
    have hfallen := hmono hle
    rw [hfull, lockoutBackoff_eq, if_neg (not_or.mpr ⟨hpos, fun hgt => hshort hgt.le⟩)] at hfallen
    exact hshort hfallen
  · intro hkeeps
    have heq : lockoutBackoff base cap = saturatedBackoff base cap :=
      funext fun excess => (lockoutBackoff_eq_iff hbase hcap).mpr (hkeeps excess)
    rw [heq]
    exact saturatedBackoff_mono hbase

theorem le_saturatedBackoff (hbase : 0 < base) : min base cap ≤ saturatedBackoff base cap excess :=
  le_min (min_le_right _ _) ((min_le_left _ _).trans (base_le_doubled hbase _))

end

/-! ## What a failed login does to the users -/

section

variable [Platform] {cfg : Config} {C : Choice → Prop} {w w' : World}

/-- The users are as before, or one more failed login of one of them is counted. -/
inductive Counted (cfg : Config) (C : Choice → Prop) (s s' : UserStore) : Prop
  | same (heq : s' = s)
  | failed (row : User) (ch : Choice) (mem : row ∈ s) (chosen : C ch)
      (heq : s' = s.put { row.failedOnce cfg ch.time with version := row.version + 1 })

/-- What comes first and writes to no user changes nothing about that. -/
theorem counted_bind {α β : Type} {p : M α} {f : α → M β} {r : Except Err β}
    (h : Solo cfg C (p >>= f) w w' r) (hp : Calls Op.NotUser p)
    (hf : ∀ w₁ a, Solo cfg C (f a) w₁ w' r → Counted cfg C w₁.users w'.users) :
    Counted cfg C w.users w'.users := by
  rcases lands_bind.mp h with ⟨w₁, a, hfirst, hrest⟩ | ⟨err, -, hfirst⟩
  · rw [← solo_users hfirst hp]
    exact hf w₁ a hrest
  · exact .same (solo_users hfirst hp)

theorem counted_of_notUser {α : Type} {p : M α} {r : Except Err α} (h : Solo cfg C p w w' r)
    (hp : Calls Op.NotUser p) :
    Counted cfg C w.users w'.users := .same (solo_users h hp)

theorem recordFailedLogin_counted {uid : UUID} {ri : RequestInfo} {r : Except Err Unit}
    (h : Solo cfg C (recordFailedLogin cfg uid ri) w w' r) : Counted cfg C w.users w'.users := by
  rcases lands_bind.mp h with ⟨w₁, now, hnow, hrest⟩ | ⟨err, -, hnow⟩
  swap
  · exact .same (congrArg World.users (solo_timeNow hnow).1)
  obtain ⟨rfl, ch, hch, hread⟩ := solo_timeNow hnow
  cases hread
  obtain ⟨w₂, x, hupdate, hend⟩ := lands_attempt_bind.mp hrest
  -- Whatever is reported afterwards, the update is the only write.
  have hquiet : w'.users = w₂.users := by
    refine solo_users hend ?_
    cases x with
    | ok y => exact only_onlyIf (emit_only trivial fun _ => trivial)
    | error err => exact only_ite only_pure only_throw
  rw [hquiet]
  refine (solo_updateUserWithRetry (fun u => only_ite only_pure only_pure) hupdate).elim ?_ ?_
  · rintro ⟨err, -, hsame, -⟩
    exact .same hsame
  · rintro ⟨row, u, b, -, hcommit⟩
    obtain ⟨w₃, w₄, -, hmutated⟩ := hcommit.mutated
    have hu : u = row.failedOnce cfg ch.time := by
      unfold User.failedOnce
      split at hmutated
      · rename_i hthreshold
        cases (lands_pure.mp hmutated).2
        exact (if_pos hthreshold).symm
      · rename_i hthreshold
        cases (lands_pure.mp hmutated).2
        exact (if_neg hthreshold).symm
    subst hu
    have hframe : (Mutation.recordFailedLogin ch.time).Frame row (row.failedOnce cfg ch.time) :=
      Mutation.frame (show Mutation.apply cfg _ row = .ok _ from rfl)
    refine .failed row ch hcommit.mem hch (hcommit.users_eq.trans ?_)
    rw [hframe.version]

theorem refuseWrongPassword_counted {u : User} {ri : RequestInfo} {r : Except Err User}
    (h : Solo cfg C (refuseWrongPassword cfg u ri) w w' r) : Counted cfg C w.users w'.users := by
  obtain ⟨w₁, x, hrecord, hend⟩ := lands_attempt_bind.mp h
  have hquiet : w'.users = w₁.users := by
    refine solo_users hend (only_bind (Bare.notUser emitLoginFailedVia_bare) fun _ => ?_)
    cases x with
    | ok y => exact only_throw
    | error err => exact only_throw
  rw [hquiet]
  unfold onlyIf at hrecord
  split at hrecord
  · exact recordFailedLogin_counted hrecord
  · exact counted_of_notUser hrecord only_pure

/-- A verification that refuses the password counts that, or there is nobody to count it
    for. -/
theorem verifyPassword_counted {email : String} {password : Bytes} {ri : RequestInfo}
    (h : Solo cfg C (Service.verifyPassword cfg email password ri) w w'
      (.error .invalidCredentials)) : Counted cfg C w.users w'.users := by
  refine counted_bind h trivial (fun w₁ address h => ?_)
  refine counted_bind h (only_ite only_pure (allow_only trivial trivial fun _ => trivial))
    (fun w₂ _ h => ?_)
  refine counted_bind h (allow_only trivial trivial fun _ => trivial) (fun w₃ _ h => ?_)
  refine counted_bind h (only_attempt (only_request trivial)) (fun w₄ x h => ?_)
  cases x with
  | error err =>
    refine counted_of_notUser h ?_
    exact only_ite (only_bind (Bare.notUser emitLoginFailedVia_bare) fun _ => only_throw) only_throw
  | ok u =>
    dsimp only at h
    split at h
    · exact counted_of_notUser h (only_bind (Bare.notUser emitLoginFailedVia_bare) fun _ => only_throw)
    · cases hverify : Sulis.verifyPassword password u.passwordHash cfg.pepper with
      | error err =>
        rw [hverify] at h
        exact counted_of_notUser h only_throw
      | ok verdict =>
        obtain ⟨matched, legacy⟩ := verdict
        rw [hverify] at h
        cases matched with
        | false => exact refuseWrongPassword_counted h
        | true =>
          have hbelieved := Lands.settles (G := fun _ _ => True) acceptPassword_believed
            (fun _ _ _ _ _ _ _ => trivial) h
          exact absurd rfl hbelieved

theorem login_counted {email : String} {password : Bytes} {ri : RequestInfo}
    (h : Solo cfg C (Service.login cfg email password ri) w w' (.error .invalidCredentials)) :
    Counted cfg C w.users w'.users := by
  rcases lands_bind.mp h with ⟨w₁, u, -, hend⟩ | ⟨err, herr, hverify⟩
  · have hbelieved := Lands.settles (G := Receptive) completeFirstFactor_believed
      (fun _ _ _ _ _ hch hs => serve_receptive hch.1 hs) hend
    exact absurd rfl hbelieved
  · cases herr
    exact verifyPassword_counted hverify

/-! ## Failed logins in a row -/

/-- A login, or a verification of a password, that is refused between `t` and `t'`. -/
def FailedLogin (cfg : Config) (t t' : Time) (w w' : World) : Prop :=
  ∃ email password ri,
    Solo cfg (fun ch => t ≤ ch.time ∧ ch.time ≤ t') (Service.login cfg email password ri) w w'
      (.error .invalidCredentials) ∨
    Solo cfg (fun ch => t ≤ ch.time ∧ ch.time ≤ t') (Service.verifyPassword cfg email password ri)
      w w' (.error .invalidCredentials)

/-- Any number of them, one after the other. -/
inductive FailedLogins (cfg : Config) (t : Time) (w : World) : Time → World → Prop
  | none : FailedLogins cfg t w t w
  | next {t₁ t₂ t₃ : Time} {w₁ w₂ : World} (before : FailedLogins cfg t w t₁ w₁) (later : t₁ ≤ t₂)
      (takes : t₂ ≤ t₃) (last : FailedLogin cfg t₂ t₃ w₁ w₂) : FailedLogins cfg t w t₃ w₂

/-- The deadline of the account was set at `s`, by a failure at or beyond the threshold. -/
structure LockedAt (cfg : Config) (uid : UUID) (s : Time) (w : World) (row : User) : Prop where
  stored : w.users.get? uid = some row
  reached : cfg.failureLockoutThreshold ≤ row.failedLoginAttempts
  deadline : row.lockedUntil = some (s + lockoutBackoff cfg.failureLockoutBaseBackoff
    cfg.failureLockoutMaxBackoff (row.failedLoginAttempts - cfg.failureLockoutThreshold))

variable {uid : UUID} {row : User} {s t t' : Time}

theorem FailedLogin.counted (h : FailedLogin cfg t t' w w') :
    Counted cfg (fun ch => t ≤ ch.time ∧ ch.time ≤ t') w.users w'.users := by
  obtain ⟨email, password, ri, h | h⟩ := h
  · exact login_counted h
  · exact verifyPassword_counted h

omit [Platform] in
theorem failedOnce_attempts (u : User) (now : Time) :
    (u.failedOnce cfg now).failedLoginAttempts = u.failedLoginAttempts + 1 := by
  unfold User.failedOnce
  dsimp only
  split
  · rfl
  · rfl

omit [Platform] in
theorem failedOnce_lockedUntil {u : User} (now : Time)
    (h : cfg.failureLockoutThreshold ≤ u.failedLoginAttempts + 1) :
    (u.failedOnce cfg now).lockedUntil = some (now + lockoutBackoff cfg.failureLockoutBaseBackoff
      cfg.failureLockoutMaxBackoff (u.failedLoginAttempts + 1 - cfg.failureLockoutThreshold)) := by
  unfold User.failedOnce
  dsimp only
  rw [if_pos h]

omit [Platform] in
theorem failedOnce_id (u : User) (now : Time) : (u.failedOnce cfg now).id = u.id := by
  unfold User.failedOnce
  dsimp only
  split
  · rfl
  · rfl

/-- What a failed login makes of the row of an account. -/
theorem FailedLogin.rowAfter (h : FailedLogin cfg t t' w w') (hrow : w.users.get? uid = some row) :
    w'.users.get? uid = some row ∨ ∃ s, t ≤ s ∧ s ≤ t' ∧
      w'.users.get? uid = some { row.failedOnce cfg s with version := row.version + 1 } := by
  rcases h.counted with heq | ⟨row', ch, hmem, ⟨hfrom, hto⟩, heq⟩
  · exact Or.inl (heq ▸ hrow)
  · have hid : ({ row'.failedOnce cfg ch.time with version := row'.version + 1 } : User).id = row'.id :=
      failedOnce_id row' ch.time
    by_cases hsame : row'.id = uid
    · have : row' = row := by
        rw [Store.Table.get?_eq_some.mpr ⟨hmem, hsame⟩] at hrow
        exact Option.some.inj hrow
      subst this
      refine Or.inr ⟨ch.time, hfrom, hto, ?_⟩
      rw [heq, Store.Table.get?_put, if_pos (hid.trans hsame)]
    · refine Or.inl ?_
      rw [heq, Store.Table.get?_put_of_ne (fun h => hsame (hid.symm.trans h))]
      exact hrow

/-- A failure at or beyond the threshold sets the deadline. -/
theorem FailedLogin.locks (h : FailedLogin cfg t t' w w') {row' : User}
    (hrow : w.users.get? uid = some row) (hrow' : w'.users.get? uid = some row') (hne : row' ≠ row)
    (hreached : cfg.failureLockoutThreshold ≤ row'.failedLoginAttempts) :
    ∃ s, s ≤ t' ∧ LockedAt cfg uid s w' row' := by
  rcases h.rowAfter hrow with hsame | ⟨s, -, hto, hfailed⟩
  · exact absurd (Option.some.inj (hrow'.symm.trans hsame)) hne
  · cases Option.some.inj (hrow'.symm.trans hfailed)
    refine ⟨s, hto, hrow', hreached, ?_⟩
    simp only [failedOnce_attempts] at hreached ⊢
    exact failedOnce_lockedUntil s hreached

/-- The step: one more failure puts the deadline off, as long as the backoff does not fall. -/
theorem LockedAt.failedLogin (hmono : Monotone (lockoutBackoff cfg.failureLockoutBaseBackoff
      cfg.failureLockoutMaxBackoff)) (h : LockedAt cfg uid s w row) (hle : s ≤ t) (htake : t ≤ t')
    (hfail : FailedLogin cfg t t' w w') :
    ∃ row' s', s' ≤ t' ∧ LockedAt cfg uid s' w' row' ∧
      ∀ d ∈ row.lockedUntil, ∃ d' ∈ row'.lockedUntil, d ≤ d' := by
  rcases hfail.rowAfter h.stored with hsame | ⟨s', hfrom, hto, hfailed⟩
  · exact ⟨row, s, hle.trans htake, ⟨hsame, h.reached, h.deadline⟩, fun d hd => ⟨d, hd, le_rfl⟩⟩
  · have hreached : cfg.failureLockoutThreshold ≤ row.failedLoginAttempts + 1 :=
      h.reached.trans (Int.le_add_one le_rfl)
    have hdeadline := failedOnce_lockedUntil s' hreached
    refine ⟨_, s', hto, ⟨hfailed, ?_, ?_⟩, fun d hd => ⟨_, hdeadline, ?_⟩⟩
    · simp only [failedOnce_attempts]
      exact hreached
    · simp only [failedOnce_attempts]
      exact hdeadline
    · rw [h.deadline] at hd
      cases hd
      refine add_le_add (hle.trans hfrom) (hmono ?_)
      exact sub_le_sub_right (Int.le_add_one le_rfl) _

/-- The run: the deadline never moves earlier. -/
theorem FailedLogins.deadline (hmono : Monotone (lockoutBackoff cfg.failureLockoutBaseBackoff
      cfg.failureLockoutMaxBackoff)) (h : LockedAt cfg uid s w row) (hle : s ≤ t)
    (hfails : FailedLogins cfg t w t' w') :
    ∃ row' s', s' ≤ t' ∧ LockedAt cfg uid s' w' row' ∧
      ∀ d ∈ row.lockedUntil, ∃ d' ∈ row'.lockedUntil, d ≤ d' := by
  induction hfails with
  | none => exact ⟨row, s, hle, h, fun d hd => ⟨d, hd, le_rfl⟩⟩
  | next before later takes last ih =>
    obtain ⟨row₁, s₁, hle₁, h₁, hfirst⟩ := ih
    obtain ⟨row₂, s₂, hle₂, h₂, hsecond⟩ := h₁.failedLogin hmono (hle₁.trans later) takes last
    refine ⟨row₂, s₂, hle₂, h₂, fun d hd => ?_⟩
    obtain ⟨d₁, hd₁, hd⟩ := hfirst d hd
    obtain ⟨d₂, hd₂, hd'⟩ := hsecond d₁ hd₁
    exact ⟨d₂, hd₂, hd.trans hd'⟩

/-- Once a failed login has locked the account, further ones never move its deadline
    earlier. -/
def DeadlineKept (cfg : Config) (uid : UUID) : Prop :=
  ∀ (t₀ t₁ t₂ : Time) (w₀ w₁ w₂ : World) (row₀ row₁ : User), FailedLogin cfg t₀ t₁ w₀ w₁ →
    w₀.users.get? uid = some row₀ → w₁.users.get? uid = some row₁ → row₁ ≠ row₀ →
    cfg.failureLockoutThreshold ≤ row₁.failedLoginAttempts → FailedLogins cfg t₁ w₁ t₂ w₂ →
    ∃ row₂, w₂.users.get? uid = some row₂ ∧
      ∃ d₁ ∈ row₁.lockedUntil, ∃ d₂ ∈ row₂.lockedUntil, d₁ ≤ d₂

theorem deadlineKept_of_mono (hmono : Monotone (lockoutBackoff cfg.failureLockoutBaseBackoff
    cfg.failureLockoutMaxBackoff)) : DeadlineKept cfg uid := by
  intro t₀ t₁ t₂ w₀ w₁ w₂ row₀ row₁ hfail hrow₀ hrow₁ hne hreached hfails
  obtain ⟨s, hle, hlocked⟩ := hfail.locks hrow₀ hrow₁ hne hreached
  obtain ⟨row₂, s₂, -, hlocked₂, hlater⟩ := hfails.deadline hmono hlocked hle
  exact ⟨row₂, hlocked₂.stored, _, hlocked.deadline, hlater _ hlocked.deadline⟩

/-- The backoff is what it is meant to be exactly where it keeps up with the doubling, and
    it never falls exactly if it always does. Then it is never shorter than the base or
    the maximum, and no deadline moves earlier. -/
theorem backoff_saturates_iff (base cap : Duration) (hbase : 0 < base) (hbase' : base < 2 ^ 63)
    (hcap : cap < 2 ^ 63) :
    (∀ excess, lockoutBackoff base cap excess = saturatedBackoff base cap excess ↔
      KeepsUp base cap excess) ∧
    (Monotone (lockoutBackoff base cap) ↔ ∀ excess, KeepsUp base cap excess) ∧
    ((∀ excess, KeepsUp base cap excess) →
      (∀ excess, min base cap ≤ lockoutBackoff base cap excess) ∧
      ∀ (cfg : Config) (uid : UUID), cfg.failureLockoutBaseBackoff = base →
        cfg.failureLockoutMaxBackoff = cap → DeadlineKept cfg uid) := by
  refine ⟨fun excess => lockoutBackoff_eq_iff hbase hcap,
    lockoutBackoff_mono_iff hbase hbase' hcap, fun hkeeps => ⟨fun excess => ?_, ?_⟩⟩
  · rw [(lockoutBackoff_eq_iff hbase hcap).mpr (hkeeps excess)]
    exact le_saturatedBackoff hbase
  · rintro cfg uid rfl rfl
    exact deadlineKept_of_mono ((lockoutBackoff_mono_iff hbase hbase' hcap).mpr hkeeps)

end

section

open Scenario

attribute [local instance] plain

/-- Lock an account from the first failure on, with the given backoffs. -/
def lockoutConfig (base cap : Duration) : Config :=
  { config with
    failureLockoutThreshold := 1, failureLockoutBaseBackoff := base
    failureLockoutMaxBackoff := cap }

/-- A base of one second keeps up: even doubled 32 times it fits. -/
theorem backoff_saturates_iff_second :
    (∀ excess, lockoutBackoff second (15 * minute) excess =
      saturatedBackoff second (15 * minute) excess) ∧
    Monotone (lockoutBackoff second (15 * minute)) ∧
    (∀ excess, second ≤ lockoutBackoff second (15 * minute) excess) ∧
    DeadlineKept (lockoutConfig second (15 * minute)) (ident 0) := by
  have hkeeps (excess : Int) : KeepsUp second (15 * minute) excess := keepsUp_of_small (by decide) (by decide)
  obtain ⟨hexact, hmono, hrest⟩ := backoff_saturates_iff second (15 * minute) (by decide) (by decide)
    (by decide)
  obtain ⟨hleast, hdeadline⟩ := hrest hkeeps
  exact ⟨fun excess => (hexact excess).mpr (hkeeps excess), hmono.mpr hkeeps, hleast,
    hdeadline _ _ rfl rfl⟩

/-- An account whose password was entered wrong 31 times. -/
def triedWorld : World :=
  { users := Store.Table.empty.put
      { id := ident 0, email := "a", passwordHash := hashPassword [1] config.argon2 config.pepper (draw 0)
        createdAt := 0, updatedAt := 0, failedLoginAttempts := 31 } }

/-- A wrong password for it at a given time. -/
def wrongLogin (cfg : Config) (t : Time) (w : World) : Option (World × Except Err User) :=
  (system cfg).runWith { time := t } (Service.verifyPassword cfg "a" [2] {}).run w

theorem wrongLogin_fails {cfg : Config} {t : Time} {w w' : World} {r : Except Err User}
    (h : wrongLogin cfg t w = some (w', r)) (hr : errorOf r = some .invalidCredentials) :
    FailedLogin cfg t t w w' := by
  have hr : r = .error .invalidCredentials := by
    cases r with
    | ok u => cases hr
    | error err => exact congrArg _ (Option.some.inj hr)
  subst hr
  exact ⟨"a", [2], {}, Or.inr (lands_of_runWith ⟨rfl, le_rfl, le_rfl⟩ h)⟩

/-- A base a little over four seconds, doubled 32 times, comes out as itself without the
    last nanosecond. The failure before it locked the account for an hour. -/
theorem backoff_falls_back :
    lockoutBackoff (2 ^ 32 + 1) hour 31 = hour ∧ lockoutBackoff (2 ^ 32 + 1) hour 32 = 2 ^ 32 ∧
    saturatedBackoff (2 ^ 32 + 1) hour 32 = hour ∧
    ∃ w₁ w₂, FailedLogin (lockoutConfig (2 ^ 32 + 1) hour) 0 0 triedWorld w₁ ∧
      FailedLogin (lockoutConfig (2 ^ 32 + 1) hour) 1 1 w₁ w₂ ∧
      (w₁.users.get? (ident 0)).map User.lockedUntil = some (some hour) ∧
      (w₂.users.get? (ident 0)).map User.lockedUntil = some (some (1 + 2 ^ 32)) := by
  refine ⟨by decide, by decide, by decide, ?_⟩
  obtain ⟨⟨w₁, r₁, w₂, r₂⟩, hrun, h₁, h₂, hd₁, hd₂⟩ := computed
    (o := (wrongLogin (lockoutConfig (2 ^ 32 + 1) hour) 0 triedWorld).bind (fun x =>
      (wrongLogin (lockoutConfig (2 ^ 32 + 1) hour) 1 x.1).map (fun y => (x.1, x.2, y.1, y.2))))
    (P := fun z => errorOf z.2.1 = some .invalidCredentials ∧
      errorOf z.2.2.2 = some .invalidCredentials ∧
      (z.1.users.get? (ident 0)).map User.lockedUntil = some (some hour) ∧
      (z.2.2.1.users.get? (ident 0)).map User.lockedUntil = some (some (1 + 2 ^ 32)))
    (by decide +kernel)
  simp only [Option.bind_eq_some_iff, Option.map_eq_some_iff] at hrun
  obtain ⟨⟨w₁', r₁'⟩, hfirst, ⟨w₂', r₂'⟩, hsecond, heq⟩ := hrun
  cases heq
  exact ⟨_, _, wrongLogin_fails hfirst h₁, wrongLogin_fails hsecond h₂, hd₁, hd₂⟩

end

end Sulis
