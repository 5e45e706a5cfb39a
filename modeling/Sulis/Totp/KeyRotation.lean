-- SUMMARY: Under which key the secret of an active credential is sealed, whatever key is current when a code is accepted.
import Sulis.Escape.Percent
import Sulis.Totp.Scenario
import Sulis.Totp.Sealing
import Sulis.Totp.Slots

/-!
# Retiring a key

A secret is sealed when it is enrolled, under the key that is current then. A
validation writes the counter of the credential and nothing else: `Validate` hands the
store the ciphertext as it was read, and `SaveTOTP` does not look at it. So the secret
stays under its first key, however often it is used after a rotation.
-/

namespace Sulis.Totp

open Interaction Interaction.Prog Interaction.System Store Escape

/-! ## The encryptor of a service -/

/-- An AES encryptor as a service uses it. What it decrypts here is base32, so a byte
    of it is a character. -/
def AESEncryptor.encryptor [AES] (e : AESEncryptor) : Encryptor where
  nonceSize := Totp.nonceSize
  encrypt := fun nonce plaintext =>
    .ok (String.ofList (bytesToChars (e.encrypt nonce (utf8 plaintext))))
  decrypt := fun ciphertext =>
    ((e.decrypt (utf8 ciphertext)).get (e.decrypt_isSome _)).map
      fun plaintext => String.ofList (bytesToChars plaintext)

/-- The service encrypts under `key` and decrypts under the rotated keys too. -/
def Uses [Platform] [AES] (s : Service) (key : Bytes) (rotated : List Bytes) : Prop :=
  ∃ e, newAESEncryptor key rotated = .ok e ∧ s.cfg.encryptor = some e.encryptor

def Ascii (s : String) : Prop := ∀ c ∈ s.toList, c.toNat < 128

theorem utf8_ascii {s : String} (hs : Ascii s) : utf8 s = charsToBytes s.toList := by
  rw [utf8_eq, charsToBytes, List.map_eq_flatMap]
  refine List.flatMap_congr (fun c hc => ?_)
  have hlt : c.val.toNat ≤ 127 := Nat.le_of_lt_succ (hs c hc)
  simp only [String.utf8EncodeChar, if_pos hlt]
  rfl

theorem bytesToChars_utf8 {s : String} (hs : Ascii s) : bytesToChars (utf8 s) = s.toList := by
  rw [utf8_ascii hs, bytesToChars_charsToBytes hs]

private theorem base32Char_ascii_table : ∀ n < 32, (base32Alphabet.getD n 'A').toNat < 128 := by
  decide

theorem base32Char_ascii (n : Nat) : (base32Char n).toNat < 128 :=
  base32Char_ascii_table _ (Nat.mod_lt n (by decide))

theorem base32_ascii (bs : Bytes) : Ascii (base32EncodeToString bs) := by
  have hchars : ∀ ns : List Nat, ∀ c ∈ base32Chars ns, c.toNat < 128 := by
    intro ns
    fun_induction base32Chars ns with
    | case1 a b c d e rest ih =>
      intro x hx
      rcases List.mem_append.mp hx with hx | hx
      · obtain ⟨n, -, rfl⟩ := List.mem_map.mp hx
        exact base32Char_ascii n
      · exact ih x hx
    | case2 | case3 | case4 | case5 =>
      intro x hx
      obtain ⟨n, -, rfl⟩ := List.mem_map.mp hx
      exact base32Char_ascii n
    | case6 => simp
  intro c hc
  rw [base32EncodeToString, String.toList_ofList] at hc
  exact hchars _ c hc

/-- Ciphertexts are ASCII, so their characters are their bytes. -/
theorem utf8_encrypted [AES] (e : AESEncryptor) (nonce plaintext : Bytes) :
    utf8 (String.ofList (bytesToChars (e.encrypt nonce plaintext))) =
      e.encrypt nonce plaintext := by
  have hchars : bytesToChars (e.encrypt nonce plaintext) =
      base64StdEncode (e.currentID ++ (nonce ++ AES.sealWith e.current nonce plaintext)) :=
    bytesToChars_charsToBytes (fun c hc => base64StdEncode_ascii hc)
  have hascii : Ascii (String.ofList (bytesToChars (e.encrypt nonce plaintext))) := by
    intro c hc
    rw [String.toList_ofList, hchars] at hc
    exact base64StdEncode_ascii hc
  rw [utf8_ascii hascii, String.toList_ofList, hchars]
  rfl

/-! ## Enrollments are sealed -/

/-- The stored secret is one the service has encrypted. -/
def EncryptedBy (s : Service) (stored : String) : Prop :=
  ∃ secretBytes : Bytes,
    match s.cfg.encryptor with
    | none => stored = base32EncodeToString secretBytes
    | some encryptor => ∃ nonce : Bytes, nonce.length = encryptor.nonceSize ∧
        encryptor.encrypt nonce (base32EncodeToString secretBytes) = .ok stored

/-- What is stored as a new enrollment was encrypted by the service that stores it. -/
def Sealing (call : Call) (_ : Hist) : Op → Prop
  | .enrollPending cred | .replacePending cred => EncryptedBy call.service cred.secret
  | _ => True

/-- Calls that store no enrollment. -/
def Op.NotEnroll : Op → Prop
  | .enrollPending _ | .replacePending _ => False
  | _ => True

section

variable [Digest]

abbrev sealing (call : Call) : Discipline iface := ⟨(system).Legal, Sealing call⟩

theorem notEnroll_allowed {call : Call} (h : Hist) (op : Op) (hop : op.NotEnroll) :
    (sealing call).allows h op := by
  cases op with
  | enrollPending | replacePending => exact hop.elim
  | _ => trivial

omit [Digest] in
theorem allow_notEnroll (s : Service) (key : String) :
    (s.allow key).run.Only (S := iface) Op.NotEnroll := by
  refine only_ite (only_bind (only_attempt (only_request trivial)) (fun r => ?_)) only_pure
  cases r with
  | ok => exact only_pure
  | error => exact only_throw

theorem confirmEnrollment_notEnroll (s : Service) (userID : UUID) (code : String) :
    (s.confirmEnrollment userID code).run.Only (S := iface) Op.NotEnroll := by
  refine only_bind (allow_notEnroll s _) (fun _ => ?_)
  refine only_bind (only_attempt (only_request trivial)) (fun r => ?_)
  cases r with
  | error => exact only_throw
  | ok pending =>
    refine only_bind trivial (fun plainSecret => ?_)
    refine only_bind (only_query trivial) (fun now => ?_)
    split
    · exact only_throw
    · refine only_bind (only_attempt (only_request trivial)) (fun r => ?_)
      cases r with
      | error => exact only_throw
      | ok => exact only_pure

theorem validate_notEnroll (s : Service) (userID : UUID) (code : String) :
    (s.validate userID code).run.Only (S := iface) Op.NotEnroll := by
  refine only_bind (allow_notEnroll s _) (fun _ => ?_)
  refine only_bind (only_attempt (only_request trivial)) (fun r => ?_)
  cases r with
  | error =>
    refine only_bind (only_attempt (only_request trivial)) (fun r => ?_)
    cases r with
    | ok => exact only_throw
    | error => exact only_throw
  | ok cred =>
    refine only_bind trivial (fun plainSecret => ?_)
    refine only_bind (only_query trivial) (fun now => ?_)
    split
    · exact only_throw
    · exact only_ite only_throw (only_request trivial)

variable {call : Call} {h : Hist}

theorem notEnroll_yields {α : Type} {p : M α} (hp : p.run.Only (S := iface) Op.NotEnroll) :
    Yields (sealing call) p h (fun _ _ => True) :=
  (Only.yields notEnroll_allowed hp h).mono (fun _ _ _ _ => trivial)

/-- A random string has the length that was asked for. -/
theorem randRead_sealing {n : Nat} :
    Yields (sealing call) (randRead n) h (fun _ b => b.length = n) := by
  refine yields_lift ⟨trivial, ?_⟩
  rintro b ⟨w, ch, w', hserve⟩
  have hserve : (if ch.bytes.length ≠ n then none else some (ch.bytes, w)) = some (b, w') := hserve
  rw [Option.ite_none_left_eq_some, not_not] at hserve
  obtain ⟨hlength, heq⟩ := hserve
  cases heq
  exact hlength

theorem encryptSecret_sealing {s : Service} {secretBytes : Bytes} :
    Yields (sealing call) (s.encryptSecret (base32EncodeToString secretBytes)) h
      (fun _ stored => EncryptedBy s stored) := by
  unfold Service.encryptSecret
  split
  · rename_i hnone
    refine yields_pure ⟨secretBytes, ?_⟩
    rw [hnone]
  · rename_i encryptor hsome
    refine yields_bind randRead_sealing (fun nonce _ _ hnonce => ?_)
    split
    · rename_i ciphertext hcipher
      refine yields_pure ⟨secretBytes, ?_⟩
      rw [hsome]
      exact ⟨nonce, hnonce, hcipher⟩
    · exact yields_throw

theorem enroll_sealing (call : Call) {userID : UUID} {accountName : String} {forceReplace : Bool} :
    Yields (sealing call) (call.service.enroll userID accountName forceReplace) h
      (fun _ _ => True) := by
  refine yields_bind randRead_sealing (fun secretBytes h₁ _ _ => ?_)
  refine yields_bind encryptSecret_sealing (fun storedSecret h₂ _ hstored => ?_)
  refine yields_bind (notEnroll_yields (only_query trivial)) (fun drawn h₃ _ _ => ?_)
  refine yields_bind (notEnroll_yields (only_query trivial)) (fun createdAt h₄ _ _ => ?_)
  have hstore : ∀ op : Op, Sealing call h₄ op → ∀ k : op.Res → Except Err Unit,
      Yields (sealing call) (request (.call op (fun r => .ret (k r)))) h₄ (fun _ _ => True) :=
    fun op hop k => yields_call hop (fun _ _ => yields_ret (fun _ _ => trivial))
  cases forceReplace with
  | true =>
    refine yields_bind (hstore (.replacePending _) ?_ id) (fun _ _ _ _ => yields_pure trivial)
    exact hstored
  | false =>
    refine yields_bind (hstore (.enrollPending _) ?_ id) (fun _ _ _ _ => yields_pure trivial)
    exact hstored

theorem program_sealing (call : Call) :
    Yields (sealing call) call.program [] (fun _ _ => True) := by
  obtain ⟨s, request⟩ := call
  cases request with
  | enroll userID accountName => exact enroll_sealing ⟨s, .enroll userID accountName⟩
  | replaceEnrollment userID accountName => exact enroll_sealing ⟨s, .replaceEnrollment userID accountName⟩
  | confirmEnrollment userID code => exact notEnroll_yields (confirmEnrollment_notEnroll s userID code)
  | validate userID code => exact notEnroll_yields (validate_notEnroll s userID code)
  | unenroll userID => exact notEnroll_yields (only_request trivial)

/-- Along a run every enrollment was encrypted by the service that stored it. -/
theorem created_encrypted {w₀ : World} {as : List (system).Action} {c : Run}
    (hrun : (Config.start w₀).run as = some c) {e : Entry} (he : e ∈ c.trace) {cred : Credential}
    (hcreated : created? e.event = some cred) : EncryptedBy e.call.service cred.secret := by
  have hsound : c.Sound Sealing (fun (call : Call) _ (_ : Except Err call.request.Ret) => True) w₀ :=
    Config.sound_start.run (fun call => (program_sealing call).along.mono
      (fun _ _ _ _ => trivial)) hrun
  obtain ⟨later, past, htrace⟩ := List.append_of_mem he
  have hallow : Sealing e.call (history e.tid past) e.op := (Valid.entry (htrace ▸ hsound.valid)).2.2.1
  obtain ⟨tid, call, op, ch, r, pre, post⟩ := e
  cases op with
  | enrollPending cred' =>
    cases r with
    | error err => cases hcreated
    | ok u =>
      cases hcreated
      exact hallow
  | replacePending cred' =>
    cases r with
    | error err => cases hcreated
    | ok u =>
      cases hcreated
      exact hallow
  | _ => cases hcreated

/-! ## Under which key -/

variable [Platform] [AES]

omit [Digest] in
/-- The ciphertext that a service with this current key stores is sealed under it. -/
theorem EncryptedBy.sealed {s : Service} {stored : String} (h : EncryptedBy s stored) {key : Bytes}
    {rotated : List Bytes} (huses : Uses s key rotated) :
    ∃ secret, Ascii secret ∧ SealedUnder key (utf8 stored) (utf8 secret) := by
  obtain ⟨e, hnew, henc⟩ := huses
  obtain ⟨secretBytes, hstored⟩ := h
  rw [henc] at hstored
  obtain ⟨nonce, hnonce, hok⟩ := hstored
  cases hok
  refine ⟨base32EncodeToString secretBytes, base32_ascii secretBytes, ?_⟩
  rw [utf8_encrypted]
  exact encrypt_sealedUnder (newAESEncryptor_holds hnew) hnonce _

omit [Digest] in
/-- A service decrypts what is sealed under a key it lists, and refuses the rest. -/
theorem encryptor_decrypt (haes : AES.Lawful) (hsum : SumLength) {e : AESEncryptor}
    {k key : Bytes} {rotated : List Bytes} (h : Holds e key rotated)
    (hprints : DistinctPrints (k :: key :: rotated)) {stored secret : String} (hsecret : Ascii secret)
    (hsealed : SealedUnder k (utf8 stored) (utf8 secret)) (found : String) :
    e.encryptor.decrypt stored = .ok found ↔ k ∈ key :: rotated ∧ found = secret := by
  by_cases hk : k ∈ key :: rotated
  · have hprints' : DistinctPrints (key :: rotated) := fun a ha b hb =>
      hprints a (List.mem_cons_of_mem _ ha) b (List.mem_cons_of_mem _ hb)
    have hdecrypt := hsealed.decrypts haes hsum h hk hprints'
    simp only [AESEncryptor.encryptor, hdecrypt, Option.get_some, Except.map,
      bytesToChars_utf8 hsecret, String.ofList_toList, hk, true_and]
    exact ⟨fun heq => (Except.ok.inj heq).symm, fun heq => congrArg Except.ok heq.symm⟩
  · have hdecrypt := hsealed.refused hsum h hk hprints
    simp [AESEncryptor.encryptor, hdecrypt, Except.map, hk]

/-- The keys the services of a run were made with, the current one first. -/
structure KeyRings (keysOf : Service → Bytes × List Bytes) (trace : List Entry) : Prop where
  uses : ∀ e ∈ trace, Uses e.call.service (keysOf e.call.service).1 (keysOf e.call.service).2
  /-- Different keys among all of them have different fingerprints. -/
  apart : ∀ e ∈ trace, ∀ e' ∈ trace,
    ∀ a ∈ (keysOf e.call.service).1 :: (keysOf e.call.service).2,
    ∀ b ∈ (keysOf e'.call.service).1 :: (keysOf e'.call.service).2,
      keyFingerprint a = keyFingerprint b → a = b

omit [Platform] [AES] in
/-- The step by which a validation succeeded: the credential it leaves active, and that
    its secret is the one the code was checked with. -/
theorem validate_saved {as : List (system).Action} {c : Run} (hrun : Run.empty.run as = some c)
    {i : Nat} {s : Service} {userID : UUID} {code : String}
    (hret : c.Returned i ⟨s, .validate userID code⟩ (.ok ())) :
    ∃ e ∈ c.trace, e.tid = i ∧ e.call = ⟨s, .validate userID code⟩ ∧
      (∃ cred, e.event = ⟨.saveTOTP cred, .ok ()⟩) ∧
      ∃ r secret, e.post.store.active.get? userID = some r ∧ Enrolled c.trace r ∧
        s.decryptSecret r.secret = .ok secret := by
  have hsound := run_sound hrun
  obtain ⟨cred, hdid, userID', code', old, hcall, hcred, hread, plainSecret, now, hplain, -⟩ :=
    hsound.returned hret () rfl
  cases hcall
  obtain ⟨e, he, rfl, hev⟩ := mem_history.mp hdid
  obtain ⟨t, ht, htcall⟩ := hsound.owner e he
  have hecall : e.call = ⟨s, .validate userID code⟩ := by
    rw [← htcall]
    rw [show c.threads[e.tid]? = some ⟨⟨s, .validate userID code⟩, .ret (.ok ())⟩ from hret] at ht
    cases ht
    rfl
  have hv := hsound.valid
  -- The copy the code was checked with is an active row of an earlier moment.
  obtain ⟨k, hk, -, hkev⟩ := mem_history.mp hread
  obtain ⟨l, p, hktrace⟩ := List.append_of_mem hk
  have hold : Enrolled c.trace old ∧ old.userID = userID := by
    obtain ⟨hpre, hserve, -⟩ := Valid.entry (hktrace ▸ hv)
    obtain ⟨hmem, huser⟩ := serve_getActiveTOTP k.choice (Entry.served hkev hserve)
    refine ⟨((rows_enrolled hpre).1 old hmem).mono ?_, huser⟩
    rw [hktrace]
    intro x hx
    simp [hx]
  obtain ⟨later, past, htrace⟩ := List.append_of_mem he
  obtain ⟨hpast, hserve, -⟩ := Valid.entry (htrace ▸ hv)
  have hstep := entry_step hserve
  rw [hev] at hstep
  cases hstep with
  | same hidle => exact absurd trivial hidle
  | save cred' r hmem huser hid _ hev' hpost =>
    cases hev'
    have henrolled : Enrolled c.trace r := ((rows_enrolled hpast).1 r hmem).mono (by
      rw [htrace]
      intro x hx
      simp [hx])
    have hsame := enrolled_unique hv hold.1 henrolled (by rw [hid, hcred])
    have hruser : r.userID = userID := hsame.userID.trans hold.2
    refine ⟨e, he, rfl, hecall, ⟨cred, hev⟩, { r with lastUsedCounter := cred.lastUsedCounter },
      plainSecret, ?_, henrolled.same ⟨rfl, rfl, rfl, rfl⟩, ?_⟩
    · rw [hpost, Table.get?_put, if_pos hruser]
    · rw [← hplain, ← hsame.secret]
  | enroll _ hev' | replace _ hev' | confirm _ _ _ hev' | delete _ hev' => cases hev'

/-- After a validation, the stored secret opens under the current key of the service
    alone exactly if it was enrolled under that key. -/
theorem opens_alone_iff_enrolled_under (haes : AES.Lawful) (hsum : SumLength)
    {as : List (system).Action} {c : Run} (hrun : Run.empty.run as = some c)
    {keysOf : Service → Bytes × List Bytes} (hrings : KeyRings keysOf c.trace)
    {i : Nat} {s : Service} {userID : UUID} {code : String}
    (hret : c.Returned i ⟨s, .validate userID code⟩ (.ok ())) :
    ∃ e ∈ c.trace, e.tid = i ∧ (∃ cred, e.event = ⟨.saveTOTP cred, .ok ()⟩) ∧
      ∃ r secret, e.post.store.active.get? userID = some r ∧ s.decryptSecret r.secret = .ok secret ∧
        ∃ g, EnrolledBy c.trace g r ∧
          ((∃ alone, newAESEncryptor (keysOf s).1 [] = .ok alone ∧
            alone.encryptor.decrypt r.secret = .ok secret) ↔
              (keysOf g.call.service).1 = (keysOf s).1) := by
  obtain ⟨e, he, htid, hcall, hsave, r, secret, hr, henrolled, hsecret⟩ := validate_saved hrun hret
  obtain ⟨g, hg⟩ := henrolled.by (run_sound hrun).valid
  refine ⟨e, he, htid, hsave, r, secret, hr, hsecret, g, hg, ?_⟩
  have hservice : e.call.service = s := by rw [hcall]
  have huses := hrings.uses e he
  have hapart := hrings.apart g hg.mem e he
  have hself := hrings.apart e he e he
  rw [hservice] at huses hapart hself
  obtain ⟨cred, hcreated, hsame⟩ := hg.stored
  obtain ⟨plain, hascii, hsealed⟩ :=
    (created_encrypted hrun hg.mem hcreated).sealed (hrings.uses g hg.mem)
  rw [← hsame.secret] at hsealed
  have hdistinct : ∀ ks ⊆ (keysOf s).1 :: (keysOf s).2,
      DistinctPrints ((keysOf g.call.service).1 :: ks) := by
    intro ks hks a ha b hb hprint
    rcases List.mem_cons.mp ha with rfl | ha
    · rcases List.mem_cons.mp hb with rfl | hb
      · rfl
      · exact hapart _ List.mem_cons_self b (hks hb) hprint
    · rcases List.mem_cons.mp hb with rfl | hb
      · exact (hapart _ List.mem_cons_self a (hks ha) hprint.symm).symm
      · exact hself a (hks ha) b (hks hb) hprint
  obtain ⟨enc, hnew, henc⟩ := huses
  have hlength : ∀ k ∈ [(keysOf s).1], k.length = aesKeySize := by
    intro k hk
    rw [List.mem_singleton.mp hk]
    exact (addKeys_eq_ok hnew).1 _ List.mem_cons_self
  have hmade : ∃ alone, newAESEncryptor (keysOf s).1 [] = .ok alone := addKeys_ok hlength _
  obtain ⟨alone, halone⟩ := hmade
  -- What the service has read is what was sealed.
  have hplain : secret = plain := by
    simp only [Service.decryptSecret, henc] at hsecret
    split at hsecret
    · rename_i found hfound
      cases hsecret
      exact ((encryptor_decrypt haes hsum (newAESEncryptor_holds hnew)
        (hdistinct _ (List.Subset.refl _)) hascii hsealed _).mp hfound).2
    · cases hsecret
  have hiff := encryptor_decrypt haes hsum (newAESEncryptor_holds halone)
    (hdistinct [(keysOf s).1] (by simp)) hascii hsealed secret
  constructor
  · rintro ⟨alone', halone', hdecrypt⟩
    obtain rfl : alone = alone' := Except.ok.inj (halone.symm.trans halone')
    exact List.mem_singleton.mp (hiff.mp hdecrypt).1
  · intro hkey
    exact ⟨alone, halone, hiff.mpr ⟨List.mem_singleton.mpr hkey, hplain⟩⟩

end

section

open Sulis.Totp.Scenario

attribute [local instance] plain keyPrints openSeal

/-- The encryptor of `keyA`, before there was another key. -/
def firstEncryptor : AESEncryptor := ⟨keyA, keyFingerprint keyA, [(keyFingerprint keyA, keyA)]⟩

/-- The encryptor after `keyB` was rotated in. -/
def rotatedEncryptor : AESEncryptor :=
  ⟨keyB, keyFingerprint keyB, [(keyFingerprint keyA, keyA), (keyFingerprint keyB, keyB)]⟩

def serviceOf (e : AESEncryptor) : Service :=
  ⟨{ issuer := "app", encryptor := some e.encryptor, noRateLimiting := true }, by simp [newService]⟩

theorem firstEncryptor_uses : Uses (serviceOf firstEncryptor) keyA [] :=
  ⟨firstEncryptor, by decide, rfl⟩

theorem rotatedEncryptor_uses : Uses (serviceOf rotatedEncryptor) keyB [keyA] :=
  ⟨rotatedEncryptor, by decide, rfl⟩

/-- A thread takes a step, at a time step and with so many random bytes. -/
def stepAt (i counter bytes : Nat) : (system).Action :=
  .step i { time := counter * 30 * second, uuid := ident 0, bytes := List.replicate bytes 0 }

/-- Enrolled and confirmed under the first key, then used under the encryptor `e`. -/
def enrolledThenUsed (e : AESEncryptor) : List (system).Action :=
  .invoke ⟨serviceOf firstEncryptor, .enroll 7#128 "a"⟩ ::
    [stepAt 0 100 20, stepAt 0 100 12, stepAt 0 100 0, stepAt 0 100 0, stepAt 0 100 0] ++
  .invoke ⟨serviceOf firstEncryptor, .confirmEnrollment 7#128 "000100"⟩ ::
    List.replicate 3 (stepAt 1 100 0) ++
  .invoke ⟨serviceOf e, .validate 7#128 "000101"⟩ :: List.replicate 3 (stepAt 2 101 0)

theorem returned_of_result {e : AESEncryptor} {c : Run}
    (hrun : Run.empty.run (enrolledThenUsed e) = some c) (hresult : result c 2 = some (.ok ())) :
    c.Returned 2 ⟨serviceOf e, .validate 7#128 "000101"⟩ (.ok ()) := by
  have hcall : (c.threads.map Thread.call)[2]? = some ⟨serviceOf e, .validate 7#128 "000101"⟩ := by
    rw [Config.run_calls hrun]
    rfl
  rw [List.getElem?_map, Option.map_eq_some_iff] at hcall
  obtain ⟨⟨call, rest⟩, ht, hcall⟩ := hcall
  cases hcall
  simp only [result, ht] at hresult
  obtain ⟨r, hvalue, hr⟩ := Option.map_eq_some_iff.mp hresult
  cases r with
  | error err => cases hr
  | ok u => exact ht.trans (by rw [Prog.value?_eq_some hvalue]; rfl)

/-- A code is accepted after the rotation, and the secret still needs the old key. -/
theorem old_key_still_needed :
    ∃ c : Run, Run.empty.run (enrolledThenUsed rotatedEncryptor) = some c ∧
      c.Returned 2 ⟨serviceOf rotatedEncryptor, .validate 7#128 "000101"⟩ (.ok ()) ∧
      Uses (serviceOf rotatedEncryptor) keyB [keyA] ∧
      ∃ r, c.world.store.active.get? 7#128 = some r ∧
        (∃ secret, (serviceOf rotatedEncryptor).decryptSecret r.secret = .ok secret) ∧
        ∃ alone, newAESEncryptor keyB [] = .ok alone ∧
          alone.encryptor.decrypt r.secret = .error errUnknownKeyID := by
  obtain ⟨c, hrun, hresult, hstored⟩ := computed
    (o := Run.empty.run (enrolledThenUsed rotatedEncryptor))
    (P := fun c => result c 2 = some (.ok ()) ∧
      ((c.world.store.active.get? 7#128).any (fun r =>
        (serviceOf rotatedEncryptor).decryptSecret r.secret =
          .ok (base32EncodeToString (List.replicate 20 0)) ∧
        (⟨keyB, keyFingerprint keyB, [(keyFingerprint keyB, keyB)]⟩ : AESEncryptor).encryptor.decrypt
          r.secret = .error errUnknownKeyID)) = true)
    (by decide +kernel)
  obtain ⟨r, hr, htest⟩ := (Option.any_eq_true _ _).mp hstored
  obtain ⟨hopens, hrefused⟩ := of_decide_eq_true htest
  exact ⟨c, hrun, returned_of_result hrun hresult, rotatedEncryptor_uses, r, hr, ⟨_, hopens⟩, _,
    by decide, hrefused⟩

theorem opens_alone_iff_enrolled_under_sameKey :
    ∃ c : Run, Run.empty.run (enrolledThenUsed firstEncryptor) = some c ∧
      c.Returned 2 ⟨serviceOf firstEncryptor, .validate 7#128 "000101"⟩ (.ok ()) ∧
      ∃ e ∈ c.trace, ∃ r secret alone, e.post.store.active.get? 7#128 = some r ∧
        (serviceOf firstEncryptor).decryptSecret r.secret = .ok secret ∧
        newAESEncryptor keyA [] = .ok alone ∧ alone.encryptor.decrypt r.secret = .ok secret := by
  obtain ⟨c, hrun, hresult⟩ := computed
    (o := Run.empty.run (enrolledThenUsed firstEncryptor)) (P := fun c => result c 2 = some (.ok ()))
    (by decide +kernel)
  have hret := returned_of_result hrun hresult
  have hservice : ∀ e ∈ c.trace, e.call.service = serviceOf firstEncryptor := by
    intro e he
    obtain ⟨t, ht, hcall⟩ := (run_sound hrun).owner e he
    have hmem : t.call ∈ c.threads.map Thread.call :=
      List.mem_map_of_mem (List.mem_of_getElem? ht)
    have hcalls : c.threads.map Thread.call =
        [⟨serviceOf firstEncryptor, .enroll 7#128 "a"⟩,
          ⟨serviceOf firstEncryptor, .confirmEnrollment 7#128 "000100"⟩,
          ⟨serviceOf firstEncryptor, .validate 7#128 "000101"⟩] := Config.run_calls hrun
    rw [hcalls, hcall] at hmem
    simp only [List.mem_cons, List.not_mem_nil, or_false] at hmem
    rcases hmem with h | h | h
    · rw [h]
    · rw [h]
    · rw [h]
  have hrings : KeyRings (fun _ => (keyA, [])) c.trace := by
    refine ⟨fun e he => ?_, fun e _ e' _ a ha b hb _ => ?_⟩
    · rw [hservice e he]
      exact firstEncryptor_uses
    · rw [List.mem_singleton.mp ha, List.mem_singleton.mp hb]
  obtain ⟨e, he, -, -, r, secret, hr, hsecret, g, -, hiff⟩ :=
    opens_alone_iff_enrolled_under openSeal_lawful keyPrints_sumLength hrun hrings hret
  obtain ⟨alone, halone, hdecrypt⟩ := hiff.mpr rfl
  exact ⟨c, hrun, hret, e, he, r, secret, alone, hr, hsecret, halone, hdecrypt⟩

end

end Sulis.Totp
