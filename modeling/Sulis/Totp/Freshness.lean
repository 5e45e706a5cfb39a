-- SUMMARY: When a validation accepts exactly the codes of counters that have not been used up: unless a used one has the same code.
import Sulis.Interaction.Alone
import Sulis.Totp.Window

/-!
# Fresh codes

`Validate` compares the counter it finds with the last one used. The search for the counter
ends at the oldest match, and two counters of one window can have the same code. Then a code
whose counter is fresh is refused as a replay of the older one.
-/

namespace Sulis.Totp

open Interaction Interaction.System

section

variable [Digest] {s : Service} {userID : UUID} {secret code : String} {key : Bytes} {now : Time}
  {w w' : World} {cred : Credential}

/-- The limiter allows, and the clock shows `now`. -/
def Choice.At (now : Time) (ch : Choice) : Prop := ch.time = now ∧ ch.refusal = none

/-- What an operation can end in alone at that time. -/
abbrev EndsAt (now : Time) {α : Type} (p : M α) (w w' : World) (r : Except Err α) : Prop :=
  (system).Lands (Choice.At now) p w w' r

theorem endsAt_request (op : Op) {α : Type} {k : op.Res → Except Err α} {x : op.Res × World}
    {r : Except Err α} (hserve : ∀ ch, Choice.At now ch → World.serve w op ch = some x) :
    EndsAt now (request (.call op (fun y => .ret (k y)))) w w' r ↔ w' = x.2 ∧ r = k x.1 := by
  refine lands_call.trans ⟨?_, ?_⟩
  · rintro ⟨ch, y, w₁, hch, hs, hret⟩
    cases (hserve ch hch).symm.trans hs
    exact lands_ret.mp hret
  · intro h
    exact ⟨{ time := now }, x.1, x.2, ⟨rfl, rfl⟩, hserve _ ⟨rfl, rfl⟩, lands_ret.mpr h⟩

theorem endsAt_timeNow {r : Except Err Time} : EndsAt now timeNow w w' r ↔ w' = w ∧ r = .ok now := by
  refine lands_lift.trans ⟨?_, ?_⟩
  · rintro ⟨a, rfl, ch, y, w₁, hch, hs, rfl, rfl⟩
    simp only [World.serve, Option.some.injEq, Prod.mk.injEq] at hs
    exact ⟨hs.2.symm, by rw [← hs.1, hch.1]⟩
  · rintro ⟨rfl, rfl⟩
    exact ⟨now, rfl, { time := now }, now, w', ⟨rfl, rfl⟩, rfl, rfl, rfl⟩

/-- The limiter lets the operation through. -/
theorem endsAt_allow {key : String} {r : Except Err Unit} :
    EndsAt now (s.allow key) w w' r ↔ w' = w ∧ r = .ok () := by
  unfold Service.allow
  split
  · refine lands_attempt_bind.trans ⟨?_, ?_⟩
    · rintro ⟨w₁, x, hallow, h⟩
      obtain ⟨rfl, rfl⟩ := (endsAt_request (.allow key) (k := fun y => y) (x := (.ok (), w))
        (fun ch hch => by simp [World.serve, hch.2])).mp hallow
      exact lands_pure.mp h
    · rintro ⟨rfl, rfl⟩
      refine ⟨w', .ok (), ?_, lands_pure.mpr ⟨rfl, rfl⟩⟩
      exact (endsAt_request (.allow key) (k := fun y => y) (x := (.ok (), w'))
        (fun ch hch => by simp [World.serve, hch.2])).mpr ⟨rfl, rfl⟩
  · exact lands_pure

/-! ## One validation -/

/-- What a validation returns, by the counter it finds. -/
def verdict (lastUsed : Nat) : Option Nat → Except Err Unit
  | none => .error .totpInvalid
  | some counter => if counter ≤ lastUsed then .error .totpReplayed else .ok ()

omit [Digest] in
/-- A new counter of the active credential is stored. -/
theorem saveTOTP_active {store : TOTPStore} (hcred : cred ∈ store.active) {counter : Nat}
    (hnew : cred.lastUsedCounter < counter) :
    (store.saveTOTP { cred with lastUsedCounter := counter }).1 = .ok () := by
  unfold TOTPStore.saveTOTP
  rw [Store.Table.get?_eq_some.mpr ⟨hcred, rfl⟩]
  simp [not_le.mpr hnew]

theorem checkCode_endsAt (hcred : cred ∈ w.store.active) (hdecrypt : s.decryptSecret cred.secret = .ok secret)
    {r : Except Err Unit} : (∃ w', EndsAt now (s.checkCode cred code) w w' r) ↔
      r = verdict cred.lastUsedCounter (matchCode s.cfg secret code now) := by
  have hstart : ∀ w', EndsAt now (s.checkCode cred code) w w' r ↔ EndsAt now
      (match matchCode s.cfg secret code now with
        | none => throw .totpInvalid
        | some counter =>
          if counter ≤ cred.lastUsedCounter then throw .totpReplayed
          else saveTOTP { cred with lastUsedCounter := counter }) w w' r := fun w' => by
    refine (lands_bind_ok (fun _ _ => ?_)).trans (lands_bind_ok fun _ _ => endsAt_timeNow)
    rw [hdecrypt]
    exact lands_ret
  simp only [hstart]
  cases matchCode s.cfg secret code now with
  | none => exact ⟨fun ⟨_, h⟩ => (lands_throw.mp h).2, fun h => ⟨w, lands_throw.mpr ⟨rfl, h⟩⟩⟩
  | some counter =>
    dsimp only [verdict]
    split
    · exact ⟨fun ⟨_, h⟩ => (lands_throw.mp h).2, fun h => ⟨w, lands_throw.mpr ⟨rfl, h⟩⟩⟩
    · rename_i hnew
      have hsave := saveTOTP_active hcred (not_le.mp hnew)
      have hends : ∀ w', EndsAt now (saveTOTP { cred with lastUsedCounter := counter }) w w' r ↔
          w' = { w with store := (w.store.saveTOTP { cred with lastUsedCounter := counter }).2 } ∧
            r = (w.store.saveTOTP { cred with lastUsedCounter := counter }).1 :=
        fun _ => endsAt_request (.saveTOTP { cred with lastUsedCounter := counter }) (k := fun y => y)
          (fun _ _ => rfl)
      rw [hsave] at hends
      exact ⟨fun ⟨w', h⟩ => ((hends w').mp h).2, fun h => ⟨_, (hends _).mpr ⟨rfl, h⟩⟩⟩

theorem validate_endsAt (hcred : cred ∈ w.store.active) (huser : cred.userID = userID)
    (hdecrypt : s.decryptSecret cred.secret = .ok secret) {r : Except Err Unit} :
    (∃ w', EndsAt now (s.validate userID code) w w' r) ↔
      r = verdict cred.lastUsedCounter (matchCode s.cfg secret code now) := by
  rw [← checkCode_endsAt hcred hdecrypt]
  refine exists_congr fun w' => ?_
  refine (lands_bind_ok fun _ _ => endsAt_allow).trans (lands_attempt_bind.trans ?_)
  have hget : w.store.getActiveTOTP userID = .ok cred := by
    rw [TOTPStore.getActiveTOTP, Store.Table.get?_eq_some.mpr ⟨hcred, huser⟩]
  have hread : ∀ w₁ x, EndsAt now (getActiveTOTP userID) w w₁ x ↔
      w₁ = w ∧ x = w.store.getActiveTOTP userID :=
    fun _ _ => endsAt_request (.getActiveTOTP userID) (k := fun y => y) (fun _ _ => rfl)
  rw [hget] at hread
  constructor
  · rintro ⟨w₁, x, h, hrest⟩
    obtain ⟨rfl, rfl⟩ := (hread w₁ x).mp h
    exact hrest
  · exact fun h => ⟨w, .ok cred, (hread w _).mpr ⟨rfl, rfl⟩, h⟩

/-! ## Fresh and used counters -/

/-- Some counter of the window that has not been used up has the code. -/
def Fresh (cfg : Config) (key : Bytes) (lastUsed : Nat) (code : String) (t : Time) : Prop :=
  ∃ counter, Matches cfg key code t counter ∧ lastUsed < counter

/-- Some counter of the window that has been used up has the code. -/
def Stale (cfg : Config) (key : Bytes) (lastUsed : Nat) (code : String) (t : Time) : Prop :=
  ∃ counter, Matches cfg key code t counter ∧ counter ≤ lastUsed

/-- Exactly the fresh codes are accepted, exactly the codes that are not fresh any more are
    replays, and all others are wrong. -/
def Faithful (cfg : Config) (key : Bytes) (lastUsed : Nat) (code : String) (t : Time)
    (r : Except Err Unit) : Prop :=
  (r = .ok () ↔ Fresh cfg key lastUsed code t) ∧
    (r = .error .totpReplayed ↔
      (∃ counter, Matches cfg key code t counter) ∧ ¬ Fresh cfg key lastUsed code t) ∧
    ((¬ ∃ counter, Matches cfg key code t counter) → r = .error .totpInvalid)

/-- The oldest match is a faithful answer, unless it is used up and a later one is not. -/
theorem verdict_faithful_iff (hkey : base32DecodeString (toUpper secret) = some key) {lastUsed : Nat} :
    Faithful s.cfg key lastUsed code now (verdict lastUsed (matchCode s.cfg secret code now)) ↔
      ¬ (Stale s.cfg key lastUsed code now ∧ Fresh s.cfg key lastUsed code now) := by
  have hperiod : 0 < s.cfg.period := by have := s.bounds; omega
  cases hmatch : matchCode s.cfg secret code now with
  | none =>
    have hnone := (matchCode_eq_none hperiod hkey).mp hmatch
    have hfresh : ¬ Fresh s.cfg key lastUsed code now := fun ⟨counter, h, _⟩ => hnone counter h
    simp [Faithful, verdict, hfresh, hnone]
  | some found =>
    obtain ⟨hfound, holdest⟩ := matchCode_oldest hperiod hkey hmatch
    have hsome : ∃ counter, Matches s.cfg key code now counter := ⟨found, hfound⟩
    by_cases hle : found ≤ lastUsed
    · have hstale : Stale s.cfg key lastUsed code now := ⟨found, hfound, hle⟩
      simp [Faithful, verdict, hle, hstale, hsome]
    · -- Everything else that matches is later still.
      have hfresh : Fresh s.cfg key lastUsed code now := ⟨found, hfound, not_le.mp hle⟩
      have hstale : ¬ Stale s.cfg key lastUsed code now := by
        rintro ⟨counter, hcounter, hused⟩
        exact hle ((holdest counter hcounter).trans hused)
      simp [Faithful, verdict, hle, hfresh, hstale, hsome]

/-- A validation accepts exactly the fresh codes, and refuses the others for the right reason,
    unless the code is at once that of a counter that was used up and of one that was not. -/
theorem validate_faithful_iff (hcred : cred ∈ w.store.active) (huser : cred.userID = userID)
    (hdecrypt : s.decryptSecret cred.secret = .ok secret)
    (hkey : base32DecodeString (toUpper secret) = some key) :
    (∀ w' r, EndsAt now (s.validate userID code) w w' r →
      Faithful s.cfg key cred.lastUsedCounter code now r) ↔
      ¬ (Stale s.cfg key cred.lastUsedCounter code now ∧
        Fresh s.cfg key cred.lastUsedCounter code now) := by
  rw [← verdict_faithful_iff hkey]
  constructor
  · intro h
    obtain ⟨w', hends⟩ := (validate_endsAt hcred huser hdecrypt).mpr rfl
    exact h w' _ hends
  · intro h w' r hends
    rwa [(validate_endsAt hcred huser hdecrypt).mp ⟨w', hends⟩]

end

section

open Sulis.Totp.Scenario

/-- A credential whose code of the second time step was used. -/
def usedCredential : Credential :=
  { id := 1, userID := 7, secret := "", verified := true, lastUsedCounter := 2, createdAt := 0 }

def usedWorld : World := { store := { active := ⟨[usedCredential], List.nodup_singleton _⟩ } }

theorem usedWorld_active : usedCredential ∈ usedWorld.store.active := List.mem_singleton_self _

/-- Every sum is zero, and every code as well. -/
@[reducible] def zeros : Digest where
  hmac := fun _ _ _ => ⟨List.replicate 20 0, by simp⟩
  toUpperRune := id

end

section

open Sulis.Totp.Scenario

attribute [local instance] zeros

/-- In the third time step its code is refused as a replay, because that of the second is the
    same. -/
theorem fresh_code_refused :
    Fresh service.cfg [] usedCredential.lastUsedCounter "000000" (90 * second) ∧
      ∃ w', EndsAt (90 * second) (service.validate 7 "000000") usedWorld w' (.error .totpReplayed) := by
  refine ⟨⟨3, ⟨⟨by decide, by decide⟩, by decide +kernel⟩, by decide⟩, ?_⟩
  exact (validate_endsAt usedWorld_active rfl rfl).mpr (by decide +kernel)

end

section

open Sulis.Totp.Scenario

attribute [local instance] plain

/-- Where different time steps have different codes, the next one is accepted. -/
theorem validate_faithful_iff_distinct :
    Fresh service.cfg [] usedCredential.lastUsedCounter "000003" (90 * second) ∧
      ∀ w' r, EndsAt (90 * second) (service.validate 7 "000003") usedWorld w' r →
        Faithful service.cfg [] usedCredential.lastUsedCounter "000003" (90 * second) r := by
  have hkey : base32DecodeString (toUpper "") = some [] := by decide
  refine ⟨⟨3, ⟨⟨by decide, by decide⟩, by decide +kernel⟩, by decide⟩,
    (validate_faithful_iff usedWorld_active rfl rfl hkey).mpr ?_⟩
  rintro ⟨⟨counter, ⟨⟨hlo, -⟩, hcode⟩, hused⟩, -⟩
  have htwo : counter = 2 := by
    change (3 : Int) - 1 ≤ counter at hlo
    change counter ≤ 2 at hused
    omega
  rw [htwo] at hcode
  exact absurd hcode (by decide +kernel)

end

end Sulis.Totp
