-- SUMMARY: Which passwords match a stored hash of either generation, and that one login brings a hash up to date.
import Sulis.Properties.HashReadBack
import Sulis.Properties.NoLostUpdate

/-!
# Matching and migration

A hash written today is of the normalized password. Hashes from before are of the
password as it was typed, so `verifyPassword` compares twice. What it accepts is
exact as long as the keys of the strings it compares do not collide: keys are at most
128 bytes long, so no key derivation is injective on all passwords.
-/

namespace Sulis

open Interaction Interaction.System World

section

variable [Platform]

/-- Normalizing twice is normalizing once. -/
def StableNfkc : Prop := ∀ p : Bytes, normalizePassword (normalizePassword p) = normalizePassword p

/-- The forms of two passwords that a comparison derives keys from have keys of their
    own. -/
def KeysApart (params : Argon2Params) (pepper salt p q : Bytes) : Prop :=
  ∀ a ∈ [p, normalizePassword p, q, normalizePassword q],
    ∀ b ∈ [p, normalizePassword p, q, normalizePassword q],
      deriveKey a params pepper salt = deriveKey b params pepper salt → a = b

/-- A hash from before passwords were normalized. -/
def legacyHash (password : Bytes) (params : Argon2Params) (pepper salt : Bytes) : String :=
  hashText params salt (deriveKey password params pepper salt)

def AcceptsPassword (q : Bytes) (encoded : String) (pepper : Bytes) : Prop :=
  ∃ legacy, verifyPassword q encoded pepper = .ok (true, legacy)

/-- What `verifyPassword` says about `q` when the password was `p`. -/
structure MatchesExactly (params : Argon2Params) (pepper salt p q : Bytes) : Prop where
  current : AcceptsPassword q (hashPassword p params pepper salt) pepper ↔
    normalizePassword q = normalizePassword p
  current_form : verifyPassword q (hashPassword p params pepper salt) pepper ≠ .ok (true, true)
  legacy : AcceptsPassword q (legacyHash p params pepper salt) pepper ↔ q = p ∨ normalizePassword q = p
  legacy_form : verifyPassword q (legacyHash p params pepper salt) pepper = .ok (true, true) ↔
    q = p ∧ normalizePassword p ≠ p

/-- The hash needs nothing more: it matches as it is and is as strong as configured. -/
structure UpToDate (cfg : Config) (q : Bytes) (encoded : String) : Prop where
  verifies : verifyPassword q encoded cfg.pepper = .ok (true, false)
  rests : needsRehash encoded cfg.argon2 = false

/-! ## One comparison -/

variable {params : Argon2Params} {pepper salt p q : Bytes}

/-- The two comparisons, by what the stored key was derived from. -/
theorem verifyPassword_legacyHash (hkey : KeyedToLength) (hread : params.Readable)
    (hsalt : salt.length = params.saltLength.toNat) (pepper q x : Bytes)
    (hnormal : deriveKey x params pepper salt = deriveKey (normalizePassword q) params pepper salt →
      x = normalizePassword q)
    (hraw : deriveKey x params pepper salt = deriveKey q params pepper salt → x = q) :
    verifyPassword q (legacyHash x params pepper salt) pepper =
      if x = normalizePassword q then .ok (true, false)
      else if x = q then .ok (true, true) else .ok (false, false) := by
  rw [legacyHash, verifyPassword_deriveKey hkey hread hsalt]
  by_cases hx : x = normalizePassword q
  · rw [if_pos (congrArg (deriveKey · params pepper salt) hx), if_pos hx]
  · rw [if_neg (fun h => hx (hnormal h)), if_neg hx]
    by_cases hq : x = q
    · -- A password that is its own normal form has been compared already.
      have hne : normalizePassword q ≠ q := fun h => hx (hq.trans h.symm)
      rw [if_neg hne, if_pos (congrArg (deriveKey · params pepper salt) hq), if_pos hq]
    · rw [if_neg (fun h => hq (hraw h)), if_neg hq, ite_self]

omit [Platform] in
/-- Two comparisons in a row accept if either does, and the second is reported. -/
theorem accepted_of_comparisons {a b : Prop} [Decidable a] [Decidable b]
    {r : Except Err (Bool × Bool)}
    (h : r = if a then .ok (true, false) else if b then .ok (true, true) else .ok (false, false)) :
    ((∃ legacy, r = .ok (true, legacy)) ↔ a ∨ b) ∧ (r = .ok (true, true) ↔ ¬ a ∧ b) := by
  subst h
  by_cases ha : a
  · simp [ha]
  · by_cases hb : b
    · simp [ha, hb]
    · simp [ha, hb]

theorem matchesExactly (hkey : KeyedToLength) (hstable : StableNfkc) (hread : params.Readable)
    (hsalt : salt.length = params.saltLength.toNat) (hapart : KeysApart params pepper salt p q) :
    MatchesExactly params pepper salt p q := by
  have hnew := verifyPassword_legacyHash hkey hread hsalt pepper q (normalizePassword p)
    (hapart _ (by simp) _ (by simp)) (hapart _ (by simp) _ (by simp))
  have hold := verifyPassword_legacyHash hkey hread hsalt pepper q p
    (hapart _ (by simp) _ (by simp)) (hapart _ (by simp) _ (by simp))
  rw [legacyHash, ← hashPassword_eq_hashText] at hnew
  -- If `q` is the normal form of `p`, it is its own normal form.
  have hraw : normalizePassword p = q → normalizePassword p = normalizePassword q := by
    rintro rfl
    exact (hstable p).symm
  refine ⟨?_, ?_, ?_, ?_⟩
  · rw [AcceptsPassword, (accepted_of_comparisons hnew).1, or_iff_left_of_imp hraw, eq_comm]
  · intro hform
    obtain ⟨hne, heq⟩ := (accepted_of_comparisons hnew).2.mp hform
    exact hne (hraw heq)
  · rw [AcceptsPassword, (accepted_of_comparisons hold).1, or_comm, eq_comm, @eq_comm _ p]
  · rw [(accepted_of_comparisons hold).2, and_comm]
    refine ⟨?_, ?_⟩
    · rintro ⟨rfl, hne⟩
      exact ⟨rfl, Ne.symm hne⟩
    · rintro ⟨rfl, hne⟩
      exact ⟨rfl, Ne.symm hne⟩

/-- A fresh hash is up to date. -/
theorem upToDate_hashPassword (hkey : KeyedToLength) {cfg : Config} (hread : cfg.argon2.Readable)
    (hsalt : salt.length = cfg.argon2.saltLength.toNat) :
    UpToDate cfg q (hashPassword q cfg.argon2 cfg.pepper salt) := by
  rw [hashPassword_eq_hashText]
  constructor
  · rw [verifyPassword_deriveKey hkey hread hsalt, if_pos rfl]
  · rw [needsRehash, decodeHash_deriveKey hkey hread hsalt]
    simp

/-! ## Runs -/

variable {cfg : Config} {w₀ w : World} {as : List (system cfg).Action} {c : Run cfg}

/-- A password that was drawn a salt for was drawn one of the configured length. -/
theorem Hashed.salted {e : Entry cfg} {later past : List (Entry cfg)}
    (hv : Trace cfg w₀ (later ++ e :: past) w) {i : Nat} {encoded : String}
    (hhash : Hashed cfg (history i past) q encoded) :
    ∃ salt : Bytes, salt.length = cfg.argon2.saltLength.toNat ∧
      encoded = hashPassword q cfg.argon2 cfg.pepper salt := by
  obtain ⟨salt, hdid, heq⟩ := hhash
  obtain ⟨k, hk, -, hev⟩ := mem_history.mp hdid
  have hserve := (Valid.entry hv).1.served hk hev
  exact ⟨salt, (serve_randRead hserve).1, heq⟩

/-- A password check that has replaced a hash has left one that is up to date. -/
theorem rehashed_upToDate (hkey : KeyedToLength) (hread : cfg.argon2.Readable)
    (hrun : (Config.start w₀).run as = some c) {e : Entry cfg} (he : e ∈ c.trace) {u row : User}
    (hev : e.event = ⟨.updateUser u, .ok ()⟩) (hcall : e.call.checkedPassword = some q)
    (hrow : e.pre.users.get? u.id = some row) (hchange : u.passwordHash ≠ row.passwordHash) :
    ∃ stored, e.post.users.get? u.id = some stored ∧ UpToDate cfg q stored.passwordHash := by
  have hv := run_trace_valid hrun
  obtain ⟨later, past, htrace⟩ := List.append_of_mem he
  obtain ⟨hhash, -⟩ := rehash_replaces_verified hv htrace hev hcall hrow hchange
  obtain ⟨row', m, -, -, -, -, hpost⟩ := hv.commit htrace hev
  rw [htrace] at hv
  obtain ⟨salt, hsalt, heq⟩ := hhash.salted hv
  refine ⟨_, by rw [hpost, Store.Table.get?_put, if_pos rfl], ?_⟩
  show UpToDate cfg q u.passwordHash
  rw [heq]
  exact upToDate_hashPassword hkey hread hsalt

end

/-- `verifyPassword` accepts exactly the password a hash is of, in the forms each
    generation of hashes allows, and a hash that a login has replaced never needs
    replacing for that password again. -/
theorem password_matching_exact [Platform] (hkey : KeyedToLength) (hstable : StableNfkc) :
    (∀ (params : Argon2Params) (pepper salt p q : Bytes), params.Readable →
      salt.length = params.saltLength.toNat → KeysApart params pepper salt p q →
        MatchesExactly params pepper salt p q) ∧
    ∀ (cfg : Config) (w₀ : World) (as : List (system cfg).Action) (c : Run cfg),
      cfg.argon2.Readable → (Config.start w₀).run as = some c →
      ∀ e ∈ c.trace, ∀ (u row : User) (q : Bytes), e.event = ⟨.updateUser u, .ok ()⟩ →
        e.call.checkedPassword = some q → e.pre.users.get? u.id = some row →
        u.passwordHash ≠ row.passwordHash →
          ∃ stored, e.post.users.get? u.id = some stored ∧ UpToDate cfg q stored.passwordHash := by
  refine ⟨fun params pepper salt p q hread hsalt hapart => ?_, ?_⟩
  · exact matchesExactly hkey hstable hread hsalt hapart
  · intro cfg w₀ as c hread hrun e he u row q hev hcall hrow hchange
    exact rehashed_upToDate hkey hread hrun he hev hcall hrow hchange

section

open Scenario

/-- Keys as long as asked for, and two spellings of one character. -/
@[reducible] def spelling : Platform :=
  { keyed with nfkc := fun p => p.map (fun b => if b = 2 then 1 else b) }

attribute [local instance] spelling

theorem spelling_keyedToLength : KeyedToLength := fun password salt time memory threads keyLen =>
  @keyed_keyedToLength password salt time memory threads keyLen

theorem spelling_stableNfkc : StableNfkc := by
  intro p
  show (p.map _).map _ = p.map _
  rw [List.map_map]
  refine List.map_congr_left (fun b _ => ?_)
  by_cases hb : b = 2
  · simp [hb]
  · simp [hb]

/-- A user whose password was hashed as it was typed. -/
def legacyUser : User :=
  { id := ident 0, email := "a", createdAt := 0, updatedAt := 0
    passwordHash := legacyHash [2] config.argon2 [] (draw 0) }

/-- What one login makes of it. -/
def migratedUser : User :=
  { legacyUser with
    updatedAt := 3, passwordHash := hashPassword [2] config.argon2 [] (draw 2) }

def legacyWorld : World := { users := Store.Table.empty.put legacyUser }

def legacyLogin : List (system config).Action :=
  .invoke (.verifyPassword "a" [2] {}) :: (ticks 1 (List.replicate 6 0)).map (fun s => .step s.1 s.2)

theorem password_matching_exact_migration :
    AcceptsPassword [2] (hashPassword [1] config.argon2 [] (draw 0)) [] ∧
      ∃ c : Run config, (Config.start legacyWorld).run legacyLogin = some c ∧
        ∃ e ∈ c.trace, ∃ stored, e.post.users.get? (ident 0) = some stored ∧
          UpToDate config [2] stored.passwordHash := by
  obtain ⟨hmatches, hmigrates⟩ := password_matching_exact spelling_keyedToLength spelling_stableNfkc
  refine ⟨?_, ?_⟩
  · have hexact := hmatches config.argon2 [] (draw 0) [1] [2] (by decide) (by decide)
      (by unfold KeysApart; decide +kernel)
    exact hexact.current.mpr (by decide)
  · obtain ⟨c, hrun, e, he, hev, hcall, hrow⟩ := computed
      (o := (Config.start (Y := system config) legacyWorld).run legacyLogin)
      (P := fun c => ∃ e ∈ c.trace, e.event = ⟨.updateUser migratedUser, .ok ()⟩ ∧
        e.call.checkedPassword = some [2] ∧ e.pre.users.get? (ident 0) = some legacyUser)
      (by decide +kernel)
    exact ⟨c, hrun, e, he, hmigrates config legacyWorld legacyLogin c (by decide) hrun e he
      migratedUser legacyUser [2] hev hcall hrow (by decide +kernel)⟩

end

end Sulis
