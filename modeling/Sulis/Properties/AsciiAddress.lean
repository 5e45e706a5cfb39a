-- SUMMARY: Which spellings reach an account whose address is plain ASCII, and the two characters that reach it from outside.
import Sulis.Properties.Scenario

/-!
# Spellings of an ASCII address

Lower-casing is done rune by rune. Two characters outside ASCII have an ASCII
letter as their lower case: the Kelvin sign and the capital I with a dot. An
address spelled with one of them is another address to a mail server, and the same
address to the package.
-/

namespace Sulis

open Interaction Interaction.System World

/-! ## Characters -/

def Ascii (s : String) : Prop := ∀ c ∈ s.toList, c.toNat < 128

/-- Equal but for the case of ASCII letters. -/
def SameUpToCase (s t : String) : Prop := s.toList.map Char.toLower = t.toList.map Char.toLower

def kelvinSign : Char := Char.ofNat 0x212A
def capitalIWithDot : Char := Char.ofNat 0x130

/-- Outside ASCII, with a lower case inside. -/
def FoldsIn (c : Char) : Prop := c = kelvinSign ∨ c = capitalIWithDot

instance : DecidablePred FoldsIn := fun _ => inferInstanceAs (Decidable (_ ∨ _))

instance : DecidablePred Ascii := fun s => List.decidableBAll (fun c : Char => c.toNat < 128) s.toList

/-- What is outside ASCII in the address is not just such characters. -/
def Unfolded (a : String) : Prop :=
  (∀ c ∈ (trimSpace a).toList, ¬ FoldsIn c) ∨
    ∃ c ∈ (trimSpace a).toList, 128 ≤ c.toNat ∧ ¬ FoldsIn c

/-- `unicode.ToLower` is the simple lowercase mapping of Unicode, as far as ASCII is
    concerned. -/
structure SimpleLowercase [Platform] : Prop where
  ascii : ∀ c, c.toNat < 128 → Platform.toLowerRune c = c.toLower
  folds : ∀ c, 128 ≤ c.toNat → ((Platform.toLowerRune c).toNat < 128 ↔ FoldsIn c)

private theorem toLower_ascii_table : ∀ n < 128, (Char.ofNat n).toLower.toNat < 128 ∧
    (Char.ofNat n).toLower.toLower = (Char.ofNat n).toLower := by
  decide

theorem toLower_ascii {c : Char} (hc : c.toNat < 128) :
    c.toLower.toNat < 128 ∧ c.toLower.toLower = c.toLower := by
  have htable := toLower_ascii_table c.toNat hc
  rwa [Char.ofNat_toNat] at htable

theorem toLower_of_not_ascii {c : Char} (hc : 128 ≤ c.toNat) : c.toLower = c := by
  refine dif_neg (fun hupper => ?_)
  have : c.toNat ≤ 90 := hupper.2
  omega

theorem FoldsIn.not_ascii {c : Char} (hc : FoldsIn c) : 128 ≤ c.toNat := by
  rcases hc with rfl | rfl
  · decide
  · decide

/-! ## Normal forms -/

section

variable [Platform] {a address : String}

/-- A lower-cased string is ASCII if only such characters of it are not. -/
theorem ascii_toLower (hlower : SimpleLowercase) {s : String} :
    Ascii (toLower s) ↔ ∀ c ∈ s.toList, 128 ≤ c.toNat → FoldsIn c := by
  simp only [Ascii, toLower, String.toList_ofList, List.forall_mem_map]
  refine forall₂_congr (fun c _ => ?_)
  rcases Nat.lt_or_ge c.toNat 128 with hc | hc
  · rw [hlower.ascii c hc]
    exact ⟨fun _ hge => absurd hge (Nat.not_le.mpr hc), fun _ => (toLower_ascii hc).1⟩
  · rw [hlower.folds c hc]
    exact ⟨fun h _ => h, fun h => h hc⟩

theorem sameUpToCase_toLower (hlower : SimpleLowercase) {s : String} (hs : Ascii s) :
    SameUpToCase s (toLower s) := by
  simp only [SameUpToCase, toLower, String.toList_ofList, List.map_map]
  refine List.map_congr_left (fun c hc => ?_)
  rw [Function.comp_apply, hlower.ascii c (hs c hc), (toLower_ascii (hs c hc)).2]

/-- An address whose normal form is ASCII is ASCII itself, unless it is one of the
    spellings that fold in. -/
theorem ascii_of_normalized (hlower : SimpleLowercase) (h : normalizeEmail a = .ok address) :
    (Ascii address → Ascii (trimSpace a)) ↔ Unfolded a := by
  rw [(normalizeEmail_eq_ok h).2, ascii_toLower hlower]
  constructor
  · intro hascii
    by_contra hnot
    rw [Unfolded, not_or] at hnot
    push Not at hnot
    obtain ⟨⟨c, hc, hfolds⟩, hall⟩ := hnot
    have := hascii hall c hc
    have := hfolds.not_ascii
    omega
  · intro hun hall c hc
    by_contra hge
    rw [Nat.not_lt] at hge
    rcases hun with hnone | ⟨c', hc', hge', hfolds'⟩
    · exact hnone c hc (hall c hc hge)
    · exact hfolds' (hall c' hc' hge')

end

/-! ## Tokens asked for by address -/

/-- The address a token is asked for. -/
def Call.requested? : Call → Option String
  | .createPasswordResetToken email _ => some email
  | .createPasswordResetTokenStrict email _ => some email
  | .createMagicLinkToken email _ => some email
  | _ => none

section

variable [Platform] {cfg : Config} {w₀ : World} {as : List (system cfg).Action} {c : Run cfg}

/-- The call behind `e` stored the token for the account it found under the address,
    or, if it found none, for the address itself. -/
def IssuedTo (c : Run cfg) (e : Entry cfg) (t : Token) (address : String) : Prop :=
  (∃ k ∈ c.trace, k.tid = e.tid ∧ ∃ u ∈ k.pre.users, k.event = ⟨.getUserByEmail address, .ok u⟩ ∧
    u.email = address ∧ u.id = t.userID) ∨ (t.userID = .nil ∧ t.email = address)

theorem MayMint.requested {call : Call} {h : Hist} {purpose : TokenPurpose} {uid : UUID}
    {email a : String} (hmay : MayMint cfg call h purpose uid email)
    (ha : call.requested? = some a) :
    ∃ address, normalizeEmail a = .ok address ∧
      ((∃ u, Did h (.getUserByEmail address) (.ok u) ∧ u.id = uid) ∨
        (uid = .nil ∧ email = address)) := by
  cases hmay with
  | resetToken hemail hu | resetTokenStrict hemail hu | knownLink hemail hu =>
    cases ha
    exact ⟨_, hemail, Or.inl ⟨_, hu, rfl⟩⟩
  | unknownLink hemail _ _ =>
    cases ha
    exact ⟨_, hemail, Or.inr ⟨rfl, rfl⟩⟩
  | _ => cases ha

theorem issued_to_normalized (hrun : (Config.start w₀).run as = some c) {e : Entry cfg}
    (he : e ∈ c.trace) {t : Token} (hop : e.op = .createToken t) {a : String}
    (ha : e.call.requested? = some a) :
    ∃ address, normalizeEmail a = .ok address ∧ IssuedTo c e t address := by
  have hv := run_trace_valid hrun
  obtain ⟨later, past, htrace⟩ := List.append_of_mem he
  have hallow := (Valid.entry (htrace ▸ hv)).2.2.1
  rw [hop] at hallow
  obtain ⟨address, hnormal, ⟨u, hd, hid⟩ | ⟨hnil, hemail⟩⟩ := hallow.2.requested ha
  · obtain ⟨k, hk, htid, hev⟩ := mem_history.mp hd
    have hk : k ∈ c.trace := by rw [htrace]; simp [hk]
    obtain ⟨hmem, hemail, -⟩ := serve_getUserByEmail (hv.served hk hev)
    exact ⟨address, hnormal, Or.inl ⟨k, hk, htid, u, hmem, hev, hemail, hid⟩⟩
  · exact ⟨address, hnormal, Or.inr ⟨hnil, hemail⟩⟩

end

/-- Exactly the spellings that do not fold in behave: their normal form is ASCII only
    if they are the same address up to case, and a token asked for by one that is not
    ASCII is not issued to an ASCII address. -/
theorem ascii_reached_iff [Platform] (hlower : SimpleLowercase) :
    (∀ a address, normalizeEmail a = .ok address →
      ((Ascii address → Ascii (trimSpace a) ∧ SameUpToCase (trimSpace a) address) ↔ Unfolded a)) ∧
    ∀ (cfg : Config) (w₀ : World) (as : List (system cfg).Action) (c : Run cfg),
      (Config.start w₀).run as = some c →
      ∀ e ∈ c.trace, ∀ t a, e.op = .createToken t → e.call.requested? = some a →
        ∃ address, IssuedTo c e t address ∧
          ((¬ Ascii (trimSpace a) → ¬ Ascii address) ↔ Unfolded a) := by
  refine ⟨fun a address h => ?_, fun cfg w₀ as c hrun e he t a hop ha => ?_⟩
  · rw [← ascii_of_normalized hlower h]
    refine ⟨fun hboth haddress => (hboth haddress).1, fun hascii haddress => ?_⟩
    rw [(normalizeEmail_eq_ok h).2]
    exact ⟨hascii haddress, sameUpToCase_toLower hlower (hascii haddress)⟩
  · obtain ⟨address, hnormal, hissued⟩ := issued_to_normalized hrun he hop ha
    refine ⟨address, hissued, ?_⟩
    rw [← ascii_of_normalized hlower hnormal]
    exact not_imp_not

section

open Scenario

/-- The plain platform, with the lower case of Unicode as far as it matters here. -/
@[reducible] def folding : Platform :=
  { plain with
    toLowerRune := fun c =>
      if c = kelvinSign then 'k' else if c = capitalIWithDot then 'i' else c.toLower }

attribute [local instance] folding

theorem folding_simpleLowercase : SimpleLowercase where
  ascii c hc := by
    have hk : c ≠ kelvinSign := by
      rintro rfl
      exact absurd hc (by decide)
    have hi : c ≠ capitalIWithDot := by
      rintro rfl
      exact absurd hc (by decide)
    exact (if_neg hk).trans (if_neg hi)
  folds c hc := by
    by_cases hk : c = kelvinSign
    · subst hk
      decide
    · by_cases hi : c = capitalIWithDot
      · subst hi
        decide
      · have hkept : Platform.toLowerRune c = c :=
          ((if_neg hk).trans (if_neg hi)).trans (toLower_of_not_ascii hc)
        rw [hkept]
        simp only [FoldsIn, hk, hi, or_self, iff_false]
        omega

/-- The address of the account, spelled with a Kelvin sign. -/
def kelvinSpelling : String := String.ofList [kelvinSign, '@', 'x']

/-- Somebody registers, and somebody else asks for a reset. -/
def resetBySpelling : List (Call × List Choice) :=
  blocks 0 [(.register "k@x" [1] {}, 8), (.createPasswordResetToken kelvinSpelling {}, 5)]

/-- A reset token for `k@x` is issued to whoever asks for it with a Kelvin sign. -/
theorem kelvin_reaches :
    normalizeEmail kelvinSpelling = .ok "k@x" ∧ Ascii "k@x" ∧ ¬ Ascii (trimSpace kelvinSpelling) ∧
      ∃ c : Run config, (Run.empty config).runBlocks resetBySpelling = some c ∧
        ∃ e ∈ c.trace, e.call = .createPasswordResetToken kelvinSpelling {} ∧
          ∃ u ∈ c.world.users.rows, u.email = "k@x" ∧
            ∃ t ∈ c.world.tokens.rows, e.op = .createToken t ∧ t.userID = u.id := by
  refine ⟨by decide +kernel, by decide, by decide, ?_⟩
  exact computed (by decide +kernel)

/-- The account is reached by the spelling it was registered with. -/
theorem ascii_reached_iff_ascii :
    SimpleLowercase ∧ (Ascii "k@x" → Ascii (trimSpace "K@X") ∧ SameUpToCase (trimSpace "K@X") "k@x") := by
  have hunfolded : (trimSpace "K@X").toList.all fun c => ¬ FoldsIn c := by decide
  refine ⟨folding_simpleLowercase, ((ascii_reached_iff folding_simpleLowercase).1 "K@X" "k@x" ?_).mpr ?_⟩
  · decide +kernel
  · exact Or.inl fun c hc => of_decide_eq_true (List.all_eq_true.mp hunfolded c hc)

end

end Sulis
