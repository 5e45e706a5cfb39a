-- SUMMARY: What an encryptor can decrypt: everything sealed under a key it lists, and nothing else.
import Sulis.Totp.Encrypt

/-!
# What decrypts

Ciphertexts carry the fingerprint of their key, so which of its keys an encryptor
opens one with does not depend on the order they were given in. Distinctness of
fingerprints is assumed of the keys in play: there are more keys than fingerprints.
-/

namespace Sulis.Totp

section

variable [Platform] [AES]

/-- `Open` inverts `Seal`, and opens nothing that was not sealed. -/
structure AES.Lawful : Prop where
  opens : ∀ key nonce plaintext : Bytes, nonce.length = nonceSize →
    AES.openWith key nonce (AES.sealWith key nonce plaintext) = some plaintext
  authentic : ∀ key nonce sealed plaintext : Bytes,
    AES.openWith key nonce sealed = some plaintext → sealed = AES.sealWith key nonce plaintext

omit [AES] in
/-- A sum of HMAC-SHA-256 is 32 bytes long. -/
def SumLength : Prop := ∀ key message : Bytes, (Platform.hmacSHA256 key message).length = 32

omit [AES] in
/-- Different keys among these have different fingerprints. -/
def DistinctPrints (keys : List Bytes) : Prop :=
  ∀ a ∈ keys, ∀ b ∈ keys, keyFingerprint a = keyFingerprint b → a = b

/-- The ciphertext frames this plaintext sealed under the key. -/
def SealedUnder (key : Bytes) (ciphertext plaintext : Bytes) : Prop :=
  ∃ nonce : Bytes, nonce.length = nonceSize ∧ base64StdDecode (bytesToChars ciphertext) =
    some (keyFingerprint key ++ (nonce ++ AES.sealWith key nonce plaintext))

/-! ## The key map -/

omit [AES]

variable {key : Bytes} {keys rotated : List Bytes} {e e₀ : AESEncryptor}

theorem addKeys_eq_ok (h : addKeys keys e₀ = .ok e) :
    (∀ k ∈ keys, k.length = aesKeySize) ∧
      e = { e₀ with keys := (keys.map (fun k => (keyFingerprint k, k))).reverse ++ e₀.keys } := by
  induction keys generalizing e₀ with
  | nil =>
    cases h
    exact ⟨by simp, rfl⟩
  | cons k keys ih =>
    simp only [addKeys] at h
    split at h
    · cases h
    · rename_i hk
      obtain ⟨hkeys, rfl⟩ := ih h
      refine ⟨?_, by simp⟩
      rintro k' hk'
      rcases List.mem_cons.mp hk' with rfl | hk'
      · exact not_not.mp hk
      · exact hkeys k' hk'

theorem addKeys_ok (hkeys : ∀ k ∈ keys, k.length = aesKeySize) (e₀ : AESEncryptor) :
    ∃ e, addKeys keys e₀ = .ok e := by
  induction keys generalizing e₀ with
  | nil => exact ⟨e₀, rfl⟩
  | cons k keys ih =>
    rw [addKeys, if_neg (not_not.mpr (hkeys k List.mem_cons_self))]
    exact ih (fun k' hk' => hkeys k' (List.mem_cons_of_mem _ hk')) _

/-- An encryptor of these keys. -/
structure Holds (e : AESEncryptor) (key : Bytes) (rotated : List Bytes) : Prop where
  current : e.current = key
  currentID : e.currentID = keyFingerprint key
  keys : e.keys = ((key :: rotated).map (fun k => (keyFingerprint k, k))).reverse

theorem newAESEncryptor_holds (h : newAESEncryptor key rotated = .ok e) : Holds e key rotated := by
  obtain ⟨-, rfl⟩ := addKeys_eq_ok h
  exact ⟨rfl, rfl, by simp⟩

/-- What a fingerprint leads to is a key of the encryptor with that fingerprint. -/
theorem Holds.lookup_some (h : Holds e key rotated) {id k : Bytes} (hk : e.keys.lookup id = some k) :
    k ∈ key :: rotated ∧ keyFingerprint k = id := by
  have hmem : (id, k) ∈ e.keys := by
    obtain ⟨l₁, l₂, hkeys, -⟩ := List.lookup_eq_some_iff.mp hk
    rw [hkeys]
    simp
  rw [h.keys, List.mem_reverse, List.mem_map] at hmem
  obtain ⟨k', hk', heq⟩ := hmem
  cases heq
  exact ⟨hk', rfl⟩

/-- The fingerprint of a key that is listed leads to it, wherever it is listed. -/
theorem Holds.lookup_mem (h : Holds e key rotated) {k : Bytes} (hk : k ∈ key :: rotated)
    (hprints : DistinctPrints (key :: rotated)) : e.keys.lookup (keyFingerprint k) = some k := by
  have hmem : (keyFingerprint k, k) ∈ e.keys := by
    rw [h.keys, List.mem_reverse]
    exact List.mem_map_of_mem (f := fun k => (keyFingerprint k, k)) hk
  have hsome : (e.keys.lookup (keyFingerprint k)).isSome := by
    rw [List.lookup_isSome_iff]
    exact ⟨_, hmem, by simp⟩
  obtain ⟨k', hk'⟩ := Option.isSome_iff_exists.mp hsome
  obtain ⟨hlisted, hprint⟩ := h.lookup_some hk'
  rw [hk', hprints k' hlisted k hk hprint]

/-- The fingerprint of a key that is not listed leads nowhere. -/
theorem Holds.lookup_not_mem (h : Holds e key rotated) {k : Bytes} (hk : k ∉ key :: rotated)
    (hprints : DistinctPrints (k :: key :: rotated)) : e.keys.lookup (keyFingerprint k) = none := by
  cases hlookup : e.keys.lookup (keyFingerprint k) with
  | none => rfl
  | some k' =>
    obtain ⟨hlisted, hprint⟩ := h.lookup_some hlookup
    have heq := hprints k' (List.mem_cons_of_mem _ hlisted) k List.mem_cons_self hprint
    exact absurd (heq ▸ hlisted) hk

/-! ## Frames -/

omit [Platform] in
theorem bytesToChars_charsToBytes {cs : List Char} (hcs : ∀ c ∈ cs, c.toNat < 128) :
    bytesToChars (charsToBytes cs) = cs := by
  rw [bytesToChars, charsToBytes, List.map_map]
  refine (List.map_congr_left (fun c hc => ?_)).trans (List.map_id cs)
  have hlt := hcs c hc
  have hbyte : (UInt8.ofNat c.toNat).toNat = c.toNat := by
    rw [UInt8.toNat_ofNat']
    omega
  rw [Function.comp_apply, hbyte, Char.ofNat_toNat]
  rfl

omit [Platform] in
theorem slice_of_not_lt {raw : Bytes} {n : Nat} (h : ¬ raw.length < n) :
    slice raw n = some (raw.take n, raw.drop n) :=
  if_pos (Nat.not_lt.mp h)

variable [AES]

omit [Platform] in
/-- What an encryptor makes of a ciphertext with a whole frame. -/
theorem decrypt_frame {ciphertext id nonce sealed : Bytes} (hid : id.length = aesKeyIDSize)
    (hnonce : nonce.length = nonceSize)
    (hraw : base64StdDecode (bytesToChars ciphertext) = some (id ++ (nonce ++ sealed))) :
    e.decrypt ciphertext =
      match e.keys.lookup id with
      | none => some (.error errUnknownKeyID)
      | some key => AESEncryptor.openChecked key nonce sealed := by
  have hlong : ¬ (id ++ (nonce ++ sealed)).length < aesKeyIDSize := by
    rw [List.length_append, hid]
    omega
  have hfirst : slice (id ++ (nonce ++ sealed)) aesKeyIDSize = some (id, nonce ++ sealed) := by
    rw [slice_of_not_lt hlong, ← hid, List.take_left, List.drop_left]
  have hrest : ¬ (nonce ++ sealed).length < nonceSize := by
    rw [List.length_append, hnonce]
    omega
  have hsecond : slice (nonce ++ sealed) nonceSize = some (nonce, sealed) := by
    rw [slice_of_not_lt hrest, ← hnonce, List.take_left, List.drop_left]
  cases hkey : e.keys.lookup id with
  | none =>
    simp only [AESEncryptor.decrypt, hraw, if_neg hlong, hfirst, Option.bind_eq_bind, Option.bind_some,
      hkey]
  | some key =>
    simp only [AESEncryptor.decrypt, hraw, if_neg hlong, hfirst, Option.bind_eq_bind,
      Option.bind_some, if_neg hrest, hsecond, hkey]

omit [Platform] in
/-- A ciphertext is refused, or it has a whole frame and opens. -/
theorem decrypt_cases (e : AESEncryptor) (ciphertext : Bytes) :
    (∃ err, e.decrypt ciphertext = some (.error err)) ∨
      ∃ id nonce sealed key plaintext, nonce.length = nonceSize ∧
        base64StdDecode (bytesToChars ciphertext) = some (id ++ (nonce ++ sealed)) ∧
        e.keys.lookup id = some key ∧ AES.openWith key nonce sealed = some plaintext ∧
        e.decrypt ciphertext = some (.ok plaintext) := by
  cases hdecode : base64StdDecode (bytesToChars ciphertext) with
  | none => exact Or.inl ⟨_, by simp only [AESEncryptor.decrypt, hdecode]; rfl⟩
  | some raw =>
    by_cases hshort : raw.length < aesKeyIDSize
    · exact Or.inl ⟨_, by simp only [AESEncryptor.decrypt, hdecode, if_pos hshort]; rfl⟩
    · have hslice := slice_of_not_lt hshort
      cases hlookup : e.keys.lookup (raw.take aesKeyIDSize) with
      | none =>
        exact Or.inl ⟨_, by simp only [AESEncryptor.decrypt, hdecode, if_neg hshort, hslice,
          Option.bind_eq_bind, Option.bind_some, hlookup]; rfl⟩
      | some key =>
        by_cases hrest : (raw.drop aesKeyIDSize).length < nonceSize
        · exact Or.inl ⟨_, by simp only [AESEncryptor.decrypt, hdecode, if_neg hshort, hslice,
            Option.bind_eq_bind, Option.bind_some, hlookup, if_pos hrest]; rfl⟩
        · -- The frame is whole, and what is left is up to `Open`.
          have hnonce : ((raw.drop aesKeyIDSize).take nonceSize).length = nonceSize := by
            rw [List.length_take]
            omega
          have hframe : base64StdDecode (bytesToChars ciphertext) =
              some (raw.take aesKeyIDSize ++ ((raw.drop aesKeyIDSize).take nonceSize ++
                (raw.drop aesKeyIDSize).drop nonceSize)) := by
            rw [List.take_append_drop, List.take_append_drop, hdecode]
          have hid : (raw.take aesKeyIDSize).length = aesKeyIDSize := by
            rw [List.length_take]
            omega
          have hdecrypt := decrypt_frame (e := e) hid hnonce hframe
          rw [hlookup] at hdecrypt
          simp only [AESEncryptor.openChecked, hnonce, ne_eq, not_true_eq_false, if_false] at hdecrypt
          split at hdecrypt
          · rename_i plaintext hopen
            rw [← hdecode]
            exact Or.inr ⟨_, _, _, key, plaintext, hnonce, hframe, hlookup, hopen, hdecrypt⟩
          · exact Or.inl ⟨_, hdecrypt⟩

omit [Platform] in
/-- Nothing makes `Decrypt` panic. -/
theorem AESEncryptor.decrypt_isSome (e : AESEncryptor) (ciphertext : Bytes) :
    (e.decrypt ciphertext).isSome := by
  rcases decrypt_cases e ciphertext with ⟨err, h⟩ | ⟨-, -, -, -, plaintext, -, -, -, -, h⟩
  · rw [h]; rfl
  · rw [h]; rfl

/-! ## Ciphertexts -/

/-- The frame of what an encryptor encrypts. -/
theorem encrypt_sealedUnder (h : Holds e key rotated) {nonce : Bytes}
    (hnonce : nonce.length = nonceSize) (plaintext : Bytes) :
    SealedUnder key (e.encrypt nonce plaintext) plaintext := by
  refine ⟨nonce, hnonce, ?_⟩
  rw [AESEncryptor.encrypt, bytesToChars_charsToBytes (fun c hc => base64StdEncode_ascii hc),
    base64StdDecode_base64StdEncode, h.current, h.currentID]

omit [AES] in
theorem length_keyFingerprint (hsum : SumLength) (key : Bytes) :
    (keyFingerprint key).length = aesKeyIDSize := by
  rw [keyFingerprint, List.length_take, hsum]
  rfl

/-- Sealed under a key that is listed, a ciphertext decrypts. -/
theorem SealedUnder.decrypts (haes : AES.Lawful) (hsum : SumLength) {k ciphertext plaintext : Bytes}
    (hsealed : SealedUnder k ciphertext plaintext) (h : Holds e key rotated)
    (hk : k ∈ key :: rotated) (hprints : DistinctPrints (key :: rotated)) :
    e.decrypt ciphertext = some (.ok plaintext) := by
  obtain ⟨nonce, hnonce, hraw⟩ := hsealed
  rw [decrypt_frame (length_keyFingerprint hsum k) hnonce hraw, h.lookup_mem hk hprints]
  simp only [AESEncryptor.openChecked, hnonce, ne_eq, not_true_eq_false, if_false,
    haes.opens k nonce plaintext hnonce]

/-- Sealed under a key that is not, it is refused. -/
theorem SealedUnder.refused (hsum : SumLength) {k ciphertext plaintext : Bytes}
    (hsealed : SealedUnder k ciphertext plaintext) (h : Holds e key rotated)
    (hk : k ∉ key :: rotated) (hprints : DistinctPrints (k :: key :: rotated)) :
    e.decrypt ciphertext = some (.error errUnknownKeyID) := by
  obtain ⟨nonce, hnonce, hraw⟩ := hsealed
  rw [decrypt_frame (length_keyFingerprint hsum k) hnonce hraw, h.lookup_not_mem hk hprints]

/-- Whatever the text, it is refused or it was sealed under a key that is listed. -/
theorem Holds.decrypt_sealed (haes : AES.Lawful) (h : Holds e key rotated) (ciphertext : Bytes) :
    (∃ err, e.decrypt ciphertext = some (.error err)) ∨
      ∃ plaintext, e.decrypt ciphertext = some (.ok plaintext) ∧
        ∃ k ∈ key :: rotated, SealedUnder k ciphertext plaintext := by
  rcases decrypt_cases e ciphertext with herr | ⟨id, nonce, sealed, k, plaintext, hnonce, hraw, hk,
    hopen, hok⟩
  · exact Or.inl herr
  · obtain ⟨hlisted, rfl⟩ := h.lookup_some hk
    obtain rfl := haes.authentic k nonce sealed plaintext hopen
    exact Or.inr ⟨plaintext, hok, k, hlisted, nonce, hnonce, hraw⟩

/-- Secrets survive any rotation of the keys, and nothing else decrypts. -/
theorem rotation_preserves_secrets (haes : AES.Lawful) (hsum : SumLength) :
    (∀ key rotated, (∀ k ∈ key :: rotated, k.length = aesKeySize) →
      ∃ e, newAESEncryptor key rotated = .ok e) ∧
    (∀ key rotated e, newAESEncryptor key rotated = .ok e →
      ∀ nonce plaintext : Bytes, nonce.length = nonceSize →
      ∀ key' rotated' e', newAESEncryptor key' rotated' = .ok e' →
      DistinctPrints (key :: key' :: rotated') →
        (key ∈ key' :: rotated' → e'.decrypt (e.encrypt nonce plaintext) = some (.ok plaintext)) ∧
        (key ∉ key' :: rotated' →
          ∃ err, e'.decrypt (e.encrypt nonce plaintext) = some (.error err))) ∧
    ∀ key rotated e, newAESEncryptor key rotated = .ok e → ∀ ciphertext,
      (∃ err, e.decrypt ciphertext = some (.error err)) ∨
        ∃ plaintext, e.decrypt ciphertext = some (.ok plaintext) ∧
          ∃ k ∈ key :: rotated, SealedUnder k ciphertext plaintext := by
  refine ⟨fun key rotated hkeys => addKeys_ok hkeys _, ?_, ?_⟩
  · intro key rotated e he nonce plaintext hnonce key' rotated' e' he' hprints
    have hsealed := encrypt_sealedUnder (newAESEncryptor_holds he) hnonce plaintext
    have hholds := newAESEncryptor_holds he'
    have hprints' : DistinctPrints (key' :: rotated') := fun a ha b hb =>
      hprints a (List.mem_cons_of_mem _ ha) b (List.mem_cons_of_mem _ hb)
    refine ⟨fun hk => ?_, fun hk => ?_⟩
    · exact hsealed.decrypts haes hsum hholds hk hprints'
    · exact ⟨_, hsealed.refused hsum hholds hk hprints⟩
  · intro key rotated e he ciphertext
    exact (newAESEncryptor_holds he).decrypt_sealed haes ciphertext

end

/-! ## An instance -/

section

/-- A platform on which a sum starts with the key. -/
@[reducible] def keyPrints : Platform where
  sha256Hex := id
  parseAddress := some
  toLowerRune := id
  nfkc := id
  hmacSHA256 := fun key _ => (key ++ List.replicate 32 0).take 32
  idKey := fun password _ _ _ _ _ => password

/-- Sealing puts the first byte of the key in front. -/
@[reducible] def openSeal : AES where
  sealWith := fun key _ plaintext => key.take 1 ++ plaintext
  openWith := fun key _ sealed =>
    if (key.take 1).isPrefixOf sealed then some (sealed.drop (key.take 1).length) else none

attribute [local instance] keyPrints openSeal

theorem keyPrints_sumLength : SumLength := by
  intro key message
  show (List.take 32 (key ++ List.replicate 32 0)).length = 32
  rw [List.length_take, List.length_append, List.length_replicate]
  omega

theorem openSeal_lawful : AES.Lawful where
  opens key nonce plaintext _ := by
    have hstarts : (key.take 1).isPrefixOf (key.take 1 ++ plaintext) :=
      List.isPrefixOf_iff_prefix.mpr (List.prefix_append _ _)
    exact (if_pos hstarts).trans (congrArg some List.drop_left)
  authentic key nonce sealed plaintext h := by
    simp only [AES.openWith, Option.ite_none_right_eq_some, Option.some.injEq] at h
    obtain ⟨hstarts, rfl⟩ := h
    obtain ⟨rest, rfl⟩ := List.isPrefixOf_iff_prefix.mp hstarts
    rw [List.drop_left]
    rfl

def keyA : Bytes := List.replicate 32 1
def keyB : Bytes := List.replicate 32 2

theorem rotation_preserves_secrets_rotated :
    ∃ e e', newAESEncryptor keyA [] = .ok e ∧ newAESEncryptor keyB [keyA, keyB] = .ok e' ∧
      e'.decrypt (e.encrypt (List.replicate 12 0) [7]) = some (.ok [7]) := by
  obtain ⟨hmade, hkept, -⟩ := rotation_preserves_secrets openSeal_lawful keyPrints_sumLength
  obtain ⟨e, he⟩ := hmade keyA [] (by decide)
  obtain ⟨e', he'⟩ := hmade keyB [keyA, keyB] (by decide)
  exact ⟨e, e', he, he', (hkept keyA [] e he (List.replicate 12 0) [7] (by decide) keyB [keyA, keyB] e'
    he' (by unfold DistinctPrints; decide)).1 (by decide)⟩

end

end Sulis.Totp
