-- SUMMARY: What an authenticator app reads from the enrollment URI, and which issuers it reads back.
import Sulis.Escape.Percent
import Sulis.Totp.Scenario

/-!
# The enrollment URI

The label is escaped for a path and the parameters for a form, where a space is written as `+`.
A reader that follows the generic syntax of URIs takes that `+` for itself.
-/

namespace Sulis.Totp

open Escape

/-! ## Reading -/

/-- What stands before the label. -/
def uriStart : List Char := "otpauth://totp/".toList

/-- The label and the query, as they are written. -/
def uriParts (uri : String) : Option (List Char × List Char) := do
  let rest ← uri.toList.dropPrefix? uriStart
  cut '?' rest

/-- The two halves of the label. -/
def readLabel (label : List Char) : Option (Bytes × Bytes) := do
  let (issuer, account) ← cut ':' label
  return (← percentDecode issuer, ← percentDecode account)

/-- One parameter. -/
def readParameter (text : List Char) : Option (List Char × Bytes) := do
  let (name, value) ← cut '=' text
  return (name, ← percentDecode value)

/-- All of them. -/
def readQuery (query : List Char) : Option (List (List Char × Bytes)) :=
  (query.splitOn '&').mapM readParameter

/-! ## Bytes -/

/-- A byte in a path. -/
def pathByte (b : UInt8) : List Char :=
  if unreserved b ∨ Char.ofNat b.toNat ∈ ['$', '&', '+', ':', '=', '@'] then [Char.ofNat b.toNat]
  else percentEncode b

/-- A byte in a query. -/
def queryByte (b : UInt8) : List Char :=
  if Char.ofNat b.toNat = ' ' then ['+']
  else if unreserved b then [Char.ofNat b.toNat]
  else percentEncode b

theorem pathEscape_toList (s : String) : (pathEscape s).toList = (utf8 s).flatMap pathByte :=
  String.toList_ofList

theorem queryEscape_toList (s : String) : (queryEscape s).toList = (utf8 s).flatMap queryByte :=
  String.toList_ofList

/-- A byte as a character has its number. -/
theorem toNat_ofByte (b : UInt8) : (Char.ofNat b.toNat).toNat = b.toNat := by
  have hvalid : b.toNat.isValidChar := Or.inl (by have := b.toNat_lt; omega)
  rw [Char.ofNat, dif_pos hvalid]
  rfl

theorem eq_of_ofByte {b : UInt8} {c : Char} (h : Char.ofNat b.toNat = c) : b = UInt8.ofNat c.toNat := by
  rw [← h, toNat_ofByte, UInt8.ofNat_toNat]

/-- The characters of an escaped byte. -/
def escapeChars : List Char := '%' :: "0123456789ABCDEF".toList

private theorem upperHex_mem (n : Nat) : upperHex n ∈ escapeChars := by
  have hlt : n % 16 < "0123456789ABCDEF".toList.length := Nat.mod_lt n (by decide)
  rw [upperHex, List.getD_eq_getElem?_getD, List.getElem?_eq_getElem hlt, Option.getD_some]
  exact List.mem_cons_of_mem _ (List.getElem_mem hlt)

theorem mem_percentEncode {b : UInt8} {c : Char} (h : c ∈ percentEncode b) : c ∈ escapeChars := by
  simp only [percentEncode, List.mem_cons, List.not_mem_nil, or_false] at h
  rcases h with rfl | rfl | rfl
  · exact List.mem_cons_self
  · exact upperHex_mem _
  · exact upperHex_mem _

private theorem hexValue_upperHex : ∀ n < 16, hexValue (upperHex n) = some n := by
  decide

theorem percentEncode_decodesTo (b : UInt8) : DecodesTo (percentEncode b) b := by
  have hlow : upperHex b.toNat = upperHex (b.toNat % 16) := by
    rw [upperHex, upperHex, Nat.mod_mod]
  have hb : b.toNat < 256 := b.toNat_lt
  have hdigits : b.toNat / 16 * 16 + b.toNat % 16 = b.toNat := by omega
  intro rest
  rw [percentEncode, hlow, List.cons_append, List.cons_append, List.cons_append, List.nil_append,
    percentDecode_escape (hexValue_upperHex (b.toNat / 16) (by omega))
      (hexValue_upperHex (b.toNat % 16) (by omega)), hdigits, UInt8.ofNat_toNat]

/-- The characters that escaping keeps are in ASCII and are not the percent sign. -/
private theorem kept_byte (b : UInt8) :
    unreserved b = true ∨ Char.ofNat b.toNat ∈ ['$', '&', '+', ':', '=', '@'] →
      Char.ofNat b.toNat ≠ '%' ∧ b.toNat < 128 := by
  intro hkept
  constructor
  · intro hpercent
    rw [eq_of_ofByte hpercent] at hkept
    exact absurd hkept (by decide)
  · -- None of them is above the tilde.
    have hmarks : ['-', '_', '.', '~'].all fun c => c ≤ '~' := by decide
    have hsigns : ['$', '&', '+', ':', '=', '@'].all fun c => c ≤ '~' := by decide
    have hle : Char.ofNat b.toNat ≤ '~' := by
      rcases hkept with hplain | hreserved
      · have hplain := of_decide_eq_true hplain
        rcases hplain with ⟨-, hc⟩ | ⟨-, hc⟩ | ⟨-, hc⟩ | hc
        · exact Char.le_trans hc (by decide)
        · exact Char.le_trans hc (by decide)
        · exact Char.le_trans hc (by decide)
        · exact of_decide_eq_true (List.all_eq_true.mp hmarks _ hc)
      · exact of_decide_eq_true (List.all_eq_true.mp hsigns _ hreserved)
    have hnat : (Char.ofNat b.toNat).toNat ≤ 126 := UInt32.le_iff_toNat_le.mp hle
    rw [toNat_ofByte] at hnat
    omega

private theorem ascii_decodesTo {b : UInt8} (hb : b.toNat < 128) (hne : Char.ofNat b.toNat ≠ '%') :
    DecodesTo [Char.ofNat b.toNat] b := by
  have hnat := toNat_ofByte b
  intro rest
  rw [List.singleton_append, percentDecode_ascii hne (by omega), hnat, UInt8.ofNat_toNat]

theorem pathByte_decodesTo (b : UInt8) : DecodesTo (pathByte b) b := by
  unfold pathByte
  split
  · rename_i hkeep
    obtain ⟨hne, hb⟩ := kept_byte b hkeep
    exact ascii_decodesTo hb hne
  · exact percentEncode_decodesTo b

/-- A space is read as a plus sign. -/
def plusForSpace (b : UInt8) : UInt8 := if b = 32 then 43 else b

private theorem space_byte (b : UInt8) : Char.ofNat b.toNat = ' ' ↔ b = 32 :=
  ⟨eq_of_ofByte, fun h => by rw [h]; rfl⟩

theorem queryByte_decodesTo (b : UInt8) : DecodesTo (queryByte b) (plusForSpace b) := by
  unfold queryByte plusForSpace
  by_cases hspace : b = 32
  · rw [if_pos ((space_byte b).mpr hspace), if_pos hspace]
    exact ascii_decodesTo (b := 43) (by decide) (by decide)
  · rw [if_neg (fun h => hspace ((space_byte b).mp h)), if_neg hspace]
    split
    · rename_i hkeep
      obtain ⟨hne, hb⟩ := kept_byte b (Or.inl hkeep)
      exact ascii_decodesTo hb hne
    · exact percentEncode_decodesTo b

theorem percentDecode_pathEscape (s : String) :
    percentDecode (pathEscape s).toList = some (utf8 s) := by
  rw [pathEscape_toList, percentDecode_flatMap pathByte_decodesTo, List.map_id']

theorem percentDecode_queryEscape (s : String) :
    percentDecode (queryEscape s).toList = some ((utf8 s).map plusForSpace) := by
  rw [queryEscape_toList, percentDecode_flatMap queryByte_decodesTo]

/-- The bytes are those of the text exactly if it has no space. -/
theorem map_plusForSpace_eq {s : String} :
    (utf8 s).map plusForSpace = utf8 s ↔ ' ' ∉ s.toList := by
  have hspace : (32 : UInt8) ∈ utf8 s ↔ ' ' ∈ s.toList := by
    refine (mem_utf8 (n := 32) (by decide)).trans ⟨?_, fun h => ⟨' ', h, rfl⟩⟩
    rintro ⟨c, hc, hnat⟩
    rwa [← Char.ofNat_toNat c, hnat] at hc
  rw [← hspace]
  conv_lhs => rhs; rw [← List.map_id (utf8 s)]
  rw [List.map_inj_left]
  constructor
  · intro h hmem
    exact absurd (h 32 hmem) (by decide)
  · intro h b hb
    have hne : b ≠ 32 := by
      rintro rfl
      exact h hb
    exact if_neg hne

/-! ## Separators -/

theorem notMem_flatMap {c : Char} {escape : UInt8 → List Char} (h : ∀ b, c ∉ escape b)
    (bs : Bytes) : c ∉ bs.flatMap escape := by
  intro hmem
  obtain ⟨b, -, hb⟩ := List.mem_flatMap.mp hmem
  exact h b hb

/-- A character of an escaped byte is the byte itself, or it belongs to an escape. -/
theorem mem_pathByte {b : UInt8} {c : Char} (h : c ∈ pathByte b) :
    (b = UInt8.ofNat c.toNat ∧
      (unreserved b = true ∨ Char.ofNat b.toNat ∈ ['$', '&', '+', ':', '=', '@'])) ∨ c ∈ escapeChars := by
  unfold pathByte at h
  split at h
  · rename_i hkept
    exact Or.inl ⟨eq_of_ofByte (List.mem_singleton.mp h).symm, hkept⟩
  · exact Or.inr (mem_percentEncode h)

theorem mem_queryByte {b : UInt8} {c : Char} (h : c ∈ queryByte b) :
    (b = UInt8.ofNat c.toNat ∧ unreserved b = true) ∨ c = '+' ∨ c ∈ escapeChars := by
  unfold queryByte at h
  split at h
  · exact Or.inr (Or.inl (List.mem_singleton.mp h))
  · split at h
    · rename_i hkept
      exact Or.inl ⟨eq_of_ofByte (List.mem_singleton.mp h).symm, hkept⟩
    · exact Or.inr (Or.inr (mem_percentEncode h))

theorem question_notMem_pathEscape (s : String) : '?' ∉ (pathEscape s).toList := by
  rw [pathEscape_toList]
  refine notMem_flatMap (fun b => ?_) _
  intro hmem
  rcases mem_pathByte hmem with ⟨rfl, hkept⟩ | hescape
  · exact absurd hkept (by decide)
  · exact absurd hescape (by decide)

/-- A colon in the escaped text is one of the text. -/
theorem colon_mem_of_pathEscape {s : String} (h : ':' ∈ (pathEscape s).toList) : ':' ∈ s.toList := by
  rw [pathEscape_toList] at h
  obtain ⟨b, hb, hcolon⟩ := List.mem_flatMap.mp h
  have hbyte : b = 58 := by
    rcases mem_pathByte hcolon with ⟨heq, -⟩ | hescape
    · exact heq
    · exact absurd hescape (by decide)
  obtain ⟨c, hc, hnat⟩ := (mem_utf8 (n := 58) (by decide)).mp (hbyte ▸ hb)
  rwa [← Char.ofNat_toNat c, hnat] at hc

/-- The separators of a query. -/
theorem separator_notMem_queryEscape {sep : Char} (hsep : sep = '&' ∨ sep = '=') (s : String) :
    sep ∉ (queryEscape s).toList := by
  rw [queryEscape_toList]
  refine notMem_flatMap (fun b => ?_) _
  intro hmem
  rcases mem_queryByte hmem with ⟨rfl, hkept⟩ | hplus | hescape
  · rcases hsep with rfl | rfl <;> exact absurd hkept (by decide)
  · rcases hsep with rfl | rfl <;> exact absurd hplus (by decide)
  · rcases hsep with rfl | rfl <;> exact absurd hescape (by decide)

/-! ## The URI -/

/-- The parameters, under the names they have in the query. -/
def parameters (issuer secret : String) (cfg : Config) : List (String × String) :=
  [("algorithm", cfg.algorithm.string), ("digits", toString cfg.digits), ("issuer", issuer),
    ("period", toString cfg.period), ("secret", secret)]

/-- A parameter as it is written. -/
def parameterText (v : String × String) : List Char :=
  (queryEscape v.1).toList ++ '=' :: (queryEscape v.2).toList

def queryText (issuer secret : String) (cfg : Config) : List Char :=
  ['&'].intercalate ((parameters issuer secret cfg).map parameterText)

def labelText (issuer account : String) : List Char :=
  (pathEscape issuer).toList ++ ':' :: (pathEscape account).toList

theorem query_toList (values : List (String × String)) :
    (String.intercalate "&" (values.map fun v => queryEscape v.1 ++ "=" ++ queryEscape v.2)).toList =
      ['&'].intercalate (values.map parameterText) := by
  have hamp : "&".toList = ['&'] := rfl
  have heq : "=".toList = ['='] := rfl
  rw [String.toList_intercalate, List.map_map, hamp]
  refine congrArg _ (List.map_congr_left fun v _ => ?_)
  simp only [Function.comp, String.toList_append, heq, parameterText, List.append_assoc,
    List.singleton_append]

private theorem uri_toList (start issuer account query : String) :
    (start ++ issuer ++ ":" ++ account ++ "?" ++ query).toList =
      start.toList ++ ((issuer.toList ++ ':' :: account.toList) ++ '?' :: query.toList) := by
  have hcolon : ":".toList = [':'] := rfl
  have hquestion : "?".toList = ['?'] := rfl
  simp only [String.toList_append, hcolon, hquestion, List.append_assoc, List.nil_append,
    List.cons_append]

theorem buildOTPAuthURI_toList (issuer account secret : String) (cfg : Config) :
    (buildOTPAuthURI issuer account secret cfg).toList =
      uriStart ++ (labelText issuer account ++ '?' :: queryText issuer secret cfg) := by
  rw [queryText, ← query_toList (parameters issuer secret cfg)]
  exact uri_toList "otpauth://totp/" (pathEscape issuer) (pathEscape account) _

theorem uriParts_buildOTPAuthURI (issuer account secret : String) (cfg : Config) :
    uriParts (buildOTPAuthURI issuer account secret cfg) =
      some (labelText issuer account, queryText issuer secret cfg) := by
  have hlabel : '?' ∉ labelText issuer account := by
    simp only [labelText, List.mem_append, List.mem_cons, not_or]
    exact ⟨question_notMem_pathEscape issuer, by decide, question_notMem_pathEscape account⟩
  rw [uriParts, buildOTPAuthURI_toList, dropPrefix?_append]
  exact cut_append hlabel _

theorem readLabel_labelText {issuer : String} (hissuer : ':' ∉ issuer.toList) (account : String) :
    readLabel (labelText issuer account) = some (utf8 issuer, utf8 account) := by
  have hcut := cut_append (fun h => hissuer (colon_mem_of_pathEscape h)) (pathEscape account).toList
  simp only [readLabel, labelText, hcut, percentDecode_pathEscape, Option.bind_eq_bind,
    Option.bind_some, Option.pure_def]

theorem readParameter_parameterText (v : String × String) :
    readParameter (parameterText v) =
      some ((queryEscape v.1).toList, (utf8 v.2).map plusForSpace) := by
  have hcut := cut_append (separator_notMem_queryEscape (Or.inr rfl) v.1) (queryEscape v.2).toList
  simp only [readParameter, parameterText, hcut, percentDecode_queryEscape, Option.bind_eq_bind,
    Option.bind_some, Option.pure_def]

theorem readQuery_queryText (issuer secret : String) (cfg : Config) :
    readQuery (queryText issuer secret cfg) = some ((parameters issuer secret cfg).map
      fun v => ((queryEscape v.1).toList, (utf8 v.2).map plusForSpace)) := by
  have hsep : ∀ text ∈ (parameters issuer secret cfg).map parameterText, '&' ∉ text := by
    intro text htext
    obtain ⟨v, -, rfl⟩ := List.mem_map.mp htext
    simp only [parameterText, List.mem_append, List.mem_cons, not_or]
    exact ⟨separator_notMem_queryEscape (Or.inl rfl) v.1, by decide,
      separator_notMem_queryEscape (Or.inl rfl) v.2⟩
  rw [readQuery, queryText, List.splitOn_intercalate '&' hsep (by simp [parameters])]
  simp only [parameters, List.map_cons, List.map_nil, List.mapM_cons, List.mapM_nil,
    readParameter_parameterText, Option.bind_eq_bind, Option.bind_some, Option.pure_def]

/-! ## What is read back -/

/-- The characters of base32, with or without padding. -/
def Base32 (secret : String) : Prop := ∀ c ∈ secret.toList, c ∈ base32Alphabet ∨ c = '='

instance : DecidablePred Base32 := fun secret =>
  List.decidableBAll (fun c : Char => c ∈ base32Alphabet ∨ c = '=') secret.toList

/-- The query is read as exactly the values that went into it. -/
def QueryReadsBack (uri issuer secret : String) (cfg : Config) : Prop :=
  (uriParts uri).bind (fun parts => readQuery parts.2) =
    some ((parameters issuer secret cfg).map fun v => (v.1.toList, utf8 v.2))

private theorem queryEscape_names : ∀ name ∈ ["algorithm", "digits", "issuer", "period", "secret"],
    (queryEscape name).toList = name.toList := by
  decide +kernel

theorem queryEscape_name {issuer secret : String} {cfg : Config} {v : String × String}
    (hv : v ∈ parameters issuer secret cfg) : (queryEscape v.1).toList = v.1.toList :=
  queryEscape_names v.1 (List.mem_map_of_mem (f := Prod.fst) hv)

/-- Each value is read back exactly if it has no space. -/
theorem queryReadsBack_iff (issuer account secret : String) (cfg : Config) :
    QueryReadsBack (buildOTPAuthURI issuer account secret cfg) issuer secret cfg ↔
      ∀ v ∈ parameters issuer secret cfg, ' ' ∉ v.2.toList := by
  rw [QueryReadsBack, uriParts_buildOTPAuthURI, Option.bind_some, readQuery_queryText,
    Option.some.injEq, List.map_inj_left]
  refine forall₂_congr fun v hv => ?_
  rw [queryEscape_name hv, Prod.mk.injEq, map_plusForSpace_eq]
  exact and_iff_right rfl

private theorem space_notMem_toString (n : Nat) : ' ' ∉ (toString n).toList := by
  intro h
  have hdigits : (toString n).toList = Nat.toDigits 10 n := by
    simp [Nat.repr]
  rw [hdigits] at h
  exact absurd (Nat.isDigit_of_mem_toDigits (by decide) (by decide) h) (by decide)

theorem space_notMem_of_base32 {secret : String} (h : Base32 secret) : ' ' ∉ secret.toList := by
  intro hspace
  rcases h ' ' hspace with hmem | heq
  · exact absurd hmem (by decide)
  · exact absurd heq (by decide)

theorem values_iff {issuer secret : String} {cfg : Config} (hsecret : Base32 secret) :
    (∀ v ∈ parameters issuer secret cfg, ' ' ∉ v.2.toList) ↔ ' ' ∉ issuer.toList := by
  constructor
  · intro h
    exact h ("issuer", issuer) (by simp [parameters])
  · intro h v hv
    simp only [parameters, List.mem_cons, List.not_mem_nil, or_false] at hv
    rcases hv with rfl | rfl | rfl | rfl | rfl
    · cases cfg.algorithm
      all_goals decide
    · exact space_notMem_toString cfg.digits
    · exact h
    · exact space_notMem_toString cfg.period
    · exact space_notMem_of_base32 hsecret

theorem Service.issuer_colon (s : Service) : ':' ∉ s.cfg.issuer.toList := by
  have h := s.accepted
  intro hcolon
  unfold newService at h
  rw [if_pos (Or.inr hcolon)] at h
  split_ifs at h

/-- The label of the enrollment URI is read as the issuer and the account, and the query as the
    values that went into it exactly if the issuer has no space. -/
theorem enrollment_uri_reads_back_iff (s : Service) (account secret : String)
    (hsecret : Base32 secret) :
    (uriParts (buildOTPAuthURI s.cfg.issuer account secret s.cfg)).bind
        (fun parts => readLabel parts.1) = some (utf8 s.cfg.issuer, utf8 account) ∧
    (QueryReadsBack (buildOTPAuthURI s.cfg.issuer account secret s.cfg) s.cfg.issuer secret s.cfg ↔
      ' ' ∉ s.cfg.issuer.toList) := by
  constructor
  · rw [uriParts_buildOTPAuthURI, Option.bind_some]
    exact readLabel_labelText s.issuer_colon account
  · exact (queryReadsBack_iff _ _ _ _).trans (values_iff hsecret)

/-- An issuer in two words. -/
def spaced : Service :=
  ⟨{ issuer := "My App", noEncryption := true, noRateLimiting := true }, by decide⟩

/-- It is read with a plus sign for the space. -/
theorem spaced_issuer_misread :
    Base32 "JBSWY3DPEHPK3PXP" ∧
    (uriParts (buildOTPAuthURI spaced.cfg.issuer "alice" "JBSWY3DPEHPK3PXP" spaced.cfg)).bind
        (fun parts => readQuery parts.2) =
      some ((parameters "My+App" "JBSWY3DPEHPK3PXP" spaced.cfg).map fun v => (v.1.toList, utf8 v.2)) ∧
    ¬ QueryReadsBack (buildOTPAuthURI spaced.cfg.issuer "alice" "JBSWY3DPEHPK3PXP" spaced.cfg)
      spaced.cfg.issuer "JBSWY3DPEHPK3PXP" spaced.cfg := by
  unfold QueryReadsBack
  decide +kernel

/-- An account with reserved characters in it. -/
theorem enrollment_uri_reads_back_iff_reserved :
    QueryReadsBack (buildOTPAuthURI "app" "a:b? c&d=%" "JBSWY3DP" Scenario.service.cfg) "app"
      "JBSWY3DP" Scenario.service.cfg :=
  (enrollment_uri_reads_back_iff Scenario.service "a:b? c&d=%" "JBSWY3DP"
    (by decide +kernel)).2.mpr (by decide)

end Sulis.Totp
