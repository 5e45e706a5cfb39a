-- SUMMARY: When the address that normalization returns is itself a normal form, and the addresses that outgrow the limit.
import Mathlib.Algebra.BigOperators.Group.List.Basic
import Mathlib.Data.List.DropRight
import Mathlib.Tactic.Ring
import Sulis.Properties.AsciiAddress

/-!
# Normal forms of addresses

`normalizeEmail` measures an address before it lower-cases it. Most letters keep
their size in lower case, or shrink; a few take a byte more. An address made of
enough of those passes the check, and the form it is stored in does not.
-/

namespace Sulis

section

variable [Platform]

/-- Lower case is final and no white space comes or goes, and the case of a bare
    address does not matter to `mail.ParseAddress`. -/
structure CaseBlind : Prop where
  lower : ∀ c, Platform.toLowerRune (Platform.toLowerRune c) = Platform.toLowerRune c
  space : ∀ c, isSpace (Platform.toLowerRune c) = isSpace c
  parse : ∀ s, Platform.parseAddress s = some s → Platform.parseAddress (toLower s) = some (toLower s)

/-- The bytes that lower-casing adds to a text. -/
def lowerGrowth (s : String) : Int :=
  (s.toList.map (fun c => ((Platform.toLowerRune c).utf8Size : Int) - c.utf8Size)).sum

/-- There is room below the limit for what lower-casing adds. -/
def HasRoom (email : String) : Prop :=
  (trimSpace email).utf8ByteSize + lowerGrowth (trimSpace email) ≤ 254

/-! ## Trimming and lower-casing -/

omit [Platform] in
theorem trimSpace_trimSpace (s : String) : trimSpace (trimSpace s) = trimSpace s := by
  -- What is left begins with a prefix of a list that does not begin with a space.
  have hfront : ((s.toList.dropWhile isSpace).rdropWhile isSpace).dropWhile isSpace =
      (s.toList.dropWhile isSpace).rdropWhile isSpace := by
    rw [List.dropWhile_eq_self_iff]
    intro hpos
    have hstarts := List.rdropWhile_prefix isSpace (s.toList.dropWhile isSpace)
    rw [hstarts.getElem hpos]
    exact List.dropWhile_get_zero_not _ _ _
  simp only [trimSpace, ← List.rdropWhile.eq_1, String.toList_ofList, hfront,
    List.rdropWhile_idempotent]

theorem trimSpace_toLower (hblind : CaseBlind) (s : String) :
    trimSpace (toLower s) = toLower (trimSpace s) := by
  have hspace : isSpace ∘ Platform.toLowerRune = isSpace := funext hblind.space
  simp only [trimSpace, toLower, String.toList_ofList, List.dropWhile_map, ← List.map_reverse, hspace]

theorem toLower_toLower (hblind : CaseBlind) (s : String) : toLower (toLower s) = toLower s := by
  simp only [toLower, String.toList_ofList, List.map_map]
  exact congrArg String.ofList (List.map_congr_left (fun c _ => hblind.lower c))

omit [Platform] in
theorem size_ofList (cs : List Char) :
    (String.ofList cs).utf8ByteSize = (cs.map Char.utf8Size).sum := by
  induction cs with
  | nil => rfl
  | cons c cs ih =>
    rw [← List.singleton_append, String.ofList_append, String.utf8ByteSize_append,
      ← String.singleton_eq_ofList, String.utf8ByteSize_singleton, ih]
    rfl

/-- The size of a text in lower case. -/
theorem size_toLower (s : String) :
    ((toLower s).utf8ByteSize : Int) = s.utf8ByteSize + lowerGrowth s := by
  have hchars : ∀ cs : List Char, (((cs.map Platform.toLowerRune).map Char.utf8Size).sum : Int) =
      (cs.map Char.utf8Size).sum +
        (cs.map (fun c => ((Platform.toLowerRune c).utf8Size : Int) - c.utf8Size)).sum := by
    intro cs
    induction cs with
    | nil => rfl
    | cons c cs ih =>
      simp only [List.map_cons, List.sum_cons, Nat.cast_add, ih]
      ring
  have hsize := size_ofList s.toList
  rw [String.ofList_toList] at hsize
  rw [toLower, size_ofList, hsize, hchars, lowerGrowth]

/-! ## Accepted addresses -/

/-- What comes out of `normalizeEmail` goes through it again if it is short enough. -/
theorem normalizeEmail_again (hblind : CaseBlind) {email address : String}
    (h : normalizeEmail email = .ok address) :
    normalizeEmail address = .ok address ↔ address.utf8ByteSize ≤ 254 := by
  obtain ⟨hne, -, hparse, rfl⟩ := normalizeEmail_eq_ok_iff.mp h
  have htrim : trimSpace (toLower (trimSpace email)) = toLower (trimSpace email) := by
    rw [trimSpace_toLower hblind, trimSpace_trimSpace]
  have hne' : toLower (trimSpace email) ≠ "" := by
    intro hempty
    have hlist := congrArg String.toList hempty
    simp only [toLower, String.toList_ofList, String.toList_empty, List.map_eq_nil_iff] at hlist
    exact hne (String.toList_eq_nil_iff.mp hlist)
  rw [normalizeEmail_eq_ok_iff, htrim]
  refine ⟨fun hall => hall.2.1, fun hsize => ?_⟩
  exact ⟨hne', hsize, hblind.parse _ hparse, (toLower_toLower hblind _).symm⟩

/-- An accepted address has a normal form within the limit, and one that is its own
    normal form, exactly if there was room for it to grow. -/
theorem normal_form_iff_hasRoom (hblind : CaseBlind) {email address : String}
    (h : normalizeEmail email = .ok address) :
    (address.utf8ByteSize ≤ 254 ∧ normalizeEmail address = .ok address) ↔ HasRoom email := by
  have hsize := size_toLower (trimSpace email)
  rw [normalizeEmail_again hblind h, and_self, HasRoom, ← hsize, (normalizeEmail_eq_ok h).2]
  omega

end

/-! ## A letter that grows -/

section

open Scenario

/-- A capital A with a stroke takes two bytes, the small one three. -/
def strokedCapitalA : Char := Char.ofNat 0x23A
def strokedSmallA : Char := Char.ofNat 0x2C65

/-- The plain platform, with the lower case of ASCII and of that letter. -/
@[reducible] def stroking : Platform :=
  { plain with
    toLowerRune := fun c => if c = strokedCapitalA then strokedSmallA else c.toLower }

attribute [local instance] stroking

/-- Nothing is white space in lower case only. -/
private theorem asciiLower_table : ∀ n < 128,
    isSpace (Char.ofNat n).toLower = isSpace (Char.ofNat n) := by
  decide +kernel

theorem isSpace_asciiLower (c : Char) : isSpace c.toLower = isSpace c := by
  rcases Nat.lt_or_ge c.toNat 128 with hc | hc
  · have htable := asciiLower_table c.toNat hc
    rwa [Char.ofNat_toNat] at htable
  · rw [toLower_of_not_ascii hc]

theorem stroking_caseBlind : CaseBlind where
  lower c := by
    by_cases hc : c = strokedCapitalA
    · subst hc
      decide
    · have hlower : Platform.toLowerRune c = c.toLower := if_neg hc
      rw [hlower]
      rcases Nat.lt_or_ge c.toNat 128 with hascii | hascii
      · have hne : c.toLower ≠ strokedCapitalA := by
          intro heq
          have := (toLower_ascii hascii).1
          rw [heq] at this
          exact absurd this (by decide)
        exact (if_neg hne).trans (toLower_ascii hascii).2
      · rw [toLower_of_not_ascii hascii, hlower, toLower_of_not_ascii hascii]
  space c := by
    by_cases hc : c = strokedCapitalA
    · subst hc
      decide
    · have hlower : Platform.toLowerRune c = c.toLower := if_neg hc
      rw [hlower, isSpace_asciiLower]
  parse _ _ := rfl

/-- As long as an address may be. -/
def strokedAddress : String :=
  String.ofList (List.replicate 125 strokedCapitalA ++ ['@', 'a', '.', 'b'])

theorem trimSpace_strokedAddress : trimSpace strokedAddress = strokedAddress := by
  rw [trimSpace, strokedAddress, String.toList_ofList]
  exact congrArg String.ofList (by decide +kernel)

/-- It is accepted, and what is stored for it is too long to be accepted. -/
theorem stroked_address_outgrows :
    ∃ address, normalizeEmail strokedAddress = .ok address ∧ 254 < address.utf8ByteSize ∧
      normalizeEmail address = .error .invalidEmail := by
  have hsize : strokedAddress.utf8ByteSize = 254 := by
    rw [strokedAddress, size_ofList]
    decide +kernel
  have hgrown : (toLower strokedAddress).utf8ByteSize = 379 := by
    rw [toLower, strokedAddress, String.toList_ofList, size_ofList]
    decide +kernel
  have hne : strokedAddress ≠ "" := by
    intro hempty
    rw [hempty] at hsize
    exact absurd hsize (by decide)
  have hagain : trimSpace (toLower strokedAddress) = toLower strokedAddress := by
    rw [trimSpace_toLower stroking_caseBlind, trimSpace_strokedAddress]
  refine ⟨toLower strokedAddress, ?_, by omega, ?_⟩
  · rw [normalizeEmail_eq_ok_iff, trimSpace_strokedAddress]
    exact ⟨hne, by omega, rfl, rfl⟩
  · simp only [normalizeEmail, hagain]
    exact if_pos (Or.inr (by omega))

theorem normal_form_iff_hasRoom_ascii :
    normalizeEmail " A@B.c" = .ok "a@b.c" ∧
      ("a@b.c".utf8ByteSize ≤ 254 ∧ normalizeEmail "a@b.c" = .ok "a@b.c" ↔ HasRoom " A@B.c") :=
  ⟨by decide +kernel, normal_form_iff_hasRoom stroking_caseBlind (by decide +kernel)⟩

end

end Sulis
