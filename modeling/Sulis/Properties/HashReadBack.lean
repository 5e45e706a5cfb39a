-- SUMMARY: Which of the parameters that construction lets through give hashes that can be read back.
import Sulis.Model.New
import Sulis.Properties.Scenario

/-!
# Hashes that can be read back

`New` takes any parameters under which `argon2.IDKey` does not panic. `decodeHash`
has bounds of its own, and nothing compares the two: with parameters outside them
every password the library sets is one it can never verify.
-/

namespace Sulis

section

variable [Platform]

/-- `argon2.IDKey` returns as many bytes as it is asked for. -/
def KeyedToLength : Prop :=
  ∀ (password salt : Bytes) (time memory : UInt32) (threads : UInt8) (keyLen : UInt32),
    time ≠ 0 → threads ≠ 0 →
      (Platform.idKey password salt time memory threads keyLen).length = keyLen.toNat

/-- The hash of a password decodes to what went into it, and the password matches it. -/
def ReadsBack (password : Bytes) (params : Argon2Params) (pepper salt : Bytes) : Prop :=
  (∃ got, decodeHash (hashPassword password params pepper salt) =
      .ok (got, salt, deriveKey (normalizePassword password) params pepper salt) ∧
    got.memory = params.memory ∧ got.iterations = params.iterations ∧
      got.parallelism = params.parallelism) ∧
    ∃ legacy, verifyPassword password (hashPassword password params pepper salt) pepper =
      .ok (true, legacy)

/-- Parameters that `decodeHash` accepts in a hash made with them. -/
def Argon2Params.Readable (params : Argon2Params) : Prop :=
  InBounds params params.saltLength.toNat params.keyLength.toNat

omit [Platform] in
instance : DecidablePred Argon2Params.Readable := fun _ => inferInstanceAs (Decidable (_ ∧ _))

omit [Platform] in
theorem Argon2Params.Readable.runs {params : Argon2Params} (h : params.Readable) : params.Runs :=
  ⟨h.2.1.1, h.1⟩

/-- Keys and salts of the lengths the parameters give. -/
theorem length_deriveKey (hkey : KeyedToLength) {params : Argon2Params} (hruns : params.Runs)
    (candidate pepper salt : Bytes) :
    (deriveKey candidate params pepper salt).length = params.keyLength.toNat :=
  hkey _ _ _ _ _ _ hruns.1 hruns.2

/-- A key derived under readable parameters decodes to them. -/
theorem decodeHash_deriveKey (hkey : KeyedToLength) {params : Argon2Params} (hread : params.Readable)
    {salt : Bytes} (hsalt : salt.length = params.saltLength.toNat) (candidate pepper : Bytes) :
    decodeHash (hashText params salt (deriveKey candidate params pepper salt)) =
      .ok (params, salt, deriveKey candidate params pepper salt) := by
  have hlength := length_deriveKey hkey hread.runs candidate pepper salt
  rw [decodeHash_hashText, hlength, hsalt, UInt32.ofNat_toNat, UInt32.ofNat_toNat]
  exact if_pos hread

/-- What `verifyPassword` compares when the stored key was derived from `p`. -/
theorem verifyPassword_deriveKey (hkey : KeyedToLength) {params : Argon2Params}
    (hread : params.Readable) {salt : Bytes} (hsalt : salt.length = params.saltLength.toNat)
    (p q pepper : Bytes) :
    verifyPassword q (hashText params salt (deriveKey p params pepper salt)) pepper =
      if deriveKey p params pepper salt = deriveKey (normalizePassword q) params pepper salt then
        .ok (true, false)
      else if normalizePassword q = q then .ok (false, false)
      else if deriveKey p params pepper salt = deriveKey q params pepper salt then .ok (true, true)
      else .ok (false, false) := by
  rw [verifyPassword, decodeHash_deriveKey hkey hread hsalt]
  simp only [← deriveKey.eq_1, beq_iff_eq]

/-- Among the parameters an instance can be made with, the ones whose hashes can be
    read back are those within the bounds of the decoder. -/
theorem readsBack_iff_readable (hkey : KeyedToLength) {stores : StoreArgs} {opts : List Setting}
    {salt₀ : Bytes} {s : Instance} (h : new stores opts salt₀ = some (.ok s))
    (password pepper salt : Bytes) (hsalt : salt.length = s.cfg.argon2.saltLength.toNat) :
    ReadsBack password s.cfg.argon2 pepper salt ↔ s.cfg.argon2.Readable := by
  constructor
  · rintro ⟨⟨got, hdecode, -⟩, -⟩
    by_contra hout
    have hlength := length_deriveKey hkey (new_runs h) (normalizePassword password) pepper salt
    rw [Argon2Params.Readable] at hout
    rw [hashPassword_eq_hashText, decodeHash_hashText, hlength, hsalt, if_neg hout] at hdecode
    cases hdecode
  · intro hread
    rw [ReadsBack, hashPassword_eq_hashText]
    refine ⟨⟨_, decodeHash_deriveKey hkey hread hsalt _ _, rfl, rfl, rfl⟩, false, ?_⟩
    rw [verifyPassword_deriveKey hkey hread hsalt, if_pos rfl]

end

section

open Scenario

/-- The plain platform, with keys of the length asked for. -/
@[reducible] def keyed : Platform :=
  { plain with
    idKey := fun password salt _ _ _ keyLen =>
      (password ++ salt ++ List.replicate keyLen.toNat 0).take keyLen.toNat }

attribute [local instance] keyed

theorem keyed_keyedToLength : KeyedToLength := by
  intro password salt time memory threads keyLen _ _
  show (List.take _ _).length = _
  simp only [List.length_take, List.length_append, List.length_replicate]
  omega

/-- Parameters with fewer than the 8 KiB of memory to a lane that the decoder wants. -/
def lowMemory : Argon2Params := ⟨4, 1, 1, 16, 16⟩

/-- An instance is made with them, and refuses the password it has just hashed. -/
theorem low_memory_hash_unreadable :
    (∃ s, new {} [withArgon2Params lowMemory] (draw 0) = some (.ok s) ∧ s.cfg.argon2 = lowMemory) ∧
      (draw 1).length = lowMemory.saltLength.toNat ∧
      decodeHash (hashPassword [1] lowMemory [] (draw 1)) =
        .error (.other "sulis: hash parameters out of bounds") ∧
      verifyPassword [1] (hashPassword [1] lowMemory [] (draw 1)) [] =
        .error (.other "sulis: hash parameters out of bounds") := by
  refine ⟨⟨⟨withArgon2Params lowMemory defaultSettings, _⟩, rfl, rfl⟩, by decide, ?_, ?_⟩
  · decide +kernel
  · decide +kernel

theorem readsBack_iff_readable_default :
    ∃ s, new {} [] (draw 0) = some (.ok s) ∧ s.cfg.argon2 = defaultConfig.argon2 ∧
      ReadsBack [1] s.cfg.argon2 [2] (draw 1) := by
  have hnew : new {} [] (draw 0) = some (.ok ⟨defaultSettings, _⟩) := rfl
  refine ⟨_, hnew, rfl, ?_⟩
  exact (readsBack_iff_readable keyed_keyedToLength hnew [1] [2] (draw 1) (by decide)).mpr
    (by decide)

end

end Sulis
