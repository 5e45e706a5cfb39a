-- SUMMARY: The codes that are accepted at a time are those of RFC 4226 for the counters around it, and the oldest match counts.
import Mathlib.Data.List.GetD
import Sulis.Calendar.Digits
import Sulis.Totp.Scenario

/-!
# The acceptance window

`hotp` is the value of RFC 4226, with every byte it takes taken by an index that is in
range. The window is walked by shifting the time, and a shift by whole periods is a shift of
the counter.
-/

namespace Sulis.Totp

/-! ## The value of a sum -/

/-- A sum of the hash functions there are. -/
abbrev Sum : Type := { sum : Bytes // 20 ≤ sum.length }

/-- Where dynamic truncation starts: the low four bits of the last byte. -/
def Sum.offset (sum : Sum) : Nat :=
  (sum.1.get ⟨sum.1.length - 1, by have := sum.2; omega⟩ &&& 0x0f).toNat

theorem Sum.offset_lt (sum : Sum) : sum.offset < 16 := by
  rw [offset, UInt8.toNat_and]
  exact lt_of_le_of_lt Nat.and_le_right (by decide)

/-- The four bytes that are taken are there. -/
theorem Sum.offset_in_range (sum : Sum) : sum.offset + 4 ≤ sum.1.length := by
  have hoffset := sum.offset_lt
  have hlength := sum.2
  omega

/-- One of the four bytes. -/
def Sum.byte (sum : Sum) (i : Fin 4) : UInt8 :=
  sum.1.get ⟨sum.offset + i, by have := sum.offset_in_range; omega⟩

/-- The 31-bit number they make up. -/
def Sum.number (sum : Sum) : Nat :=
  (sum.byte 0 &&& 0x7f).toNat * 2 ^ 24 + (sum.byte 1).toNat * 2 ^ 16 + (sum.byte 2).toNat * 2 ^ 8 +
    (sum.byte 3).toNat

/-- The value of RFC 4226: its last decimal digits, with zeros in front. -/
def hotp (digits : Nat) (sum : Sum) : String :=
  String.ofList (Calendar.pad digits (sum.number % 10 ^ digits))

theorem toNat_and_low (b : UInt8) : (b &&& 0x0f).toNat = b.toNat % 16 := by
  rw [UInt8.toNat_and]
  exact Nat.and_two_pow_sub_one_eq_mod b.toNat 4

theorem toNat_and_sign (b : UInt8) : (b &&& 0x7f).toNat = b.toNat % 128 := by
  rw [UInt8.toNat_and]
  exact Nat.and_two_pow_sub_one_eq_mod b.toNat 7

theorem Sum.getD_last (sum : Sum) : (sum.1.getD (sum.1.length - 1) 0).toNat % 16 = sum.offset := by
  have hlast : sum.1.length - 1 < sum.1.length := by have := sum.2; omega
  rw [offset, toNat_and_low, List.getD_eq_getElem _ _ hlast]
  rfl

theorem Sum.getD_byte (sum : Sum) (i : Fin 4) : sum.1.getD (sum.offset + i) 0 = sum.byte i := by
  have hin : sum.offset + i < sum.1.length := by have := sum.offset_in_range; omega
  rw [byte, List.getD_eq_getElem _ _ hin]
  rfl

theorem Sum.uint32At_eq (sum : Sum) : uint32At sum.1 sum.offset % 2 ^ 31 = sum.number := by
  have h₀ := sum.getD_byte 0
  have h₁ := sum.getD_byte 1
  have h₂ := sum.getD_byte 2
  have h₃ := sum.getD_byte 3
  have hb₁ := (sum.byte 1).toNat_lt
  have hb₂ := (sum.byte 2).toNat_lt
  have hb₃ := (sum.byte 3).toNat_lt
  have hlist : (List.range 4).map (fun i => (sum.1.getD (sum.offset + i) 0).toNat) =
      [(sum.byte 0).toNat, (sum.byte 1).toNat, (sum.byte 2).toNat, (sum.byte 3).toNat] := by
    simp [List.range_succ, ← h₀, ← h₁, ← h₂, ← h₃]
  rw [uint32At, hlist, number, toNat_and_sign]
  simp only [List.foldl_cons, List.foldl_nil]
  omega

/-- What the package computes of a sum is its value. -/
theorem truncate_eq_hotp (digits : Nat) (sum : Sum) : truncate digits sum = hotp digits sum := by
  unfold truncate hotp
  dsimp only
  rw [sum.getD_last, sum.uint32At_eq]
  rfl

/-- A code has as many digits as configured. -/
theorem hotp_digits {digits : Nat} (hdigits : 0 < digits) (sum : Sum) :
    (hotp digits sum).toList.length = digits ∧ Calendar.AllDigits (hotp digits sum).toList := by
  have hlt : sum.number % 10 ^ digits < 10 ^ digits := Nat.mod_lt _ (Nat.pow_pos (by decide))
  rw [hotp, String.toList_ofList]
  exact ⟨Calendar.length_pad hdigits hlt, Calendar.allDigits_pad _ _⟩

/-! ## Comparing codes -/

theorem or_eq_zero {a b : UInt8} : a ||| b = 0 ↔ a = 0 ∧ b = 0 := by
  rw [← UInt8.toNat_inj, UInt8.toNat_or, ← UInt8.toNat_inj, ← UInt8.toNat_inj]
  exact Nat.or_eq_zero_iff

/-- Nothing is left of the differences only if there were none. -/
theorem foldl_or_eq_zero {bs : List UInt8} {acc : UInt8} :
    bs.foldl (· ||| ·) acc = 0 ↔ acc = 0 ∧ ∀ b ∈ bs, b = 0 := by
  induction bs generalizing acc with
  | nil => simp
  | cons b bs ih =>
    rw [List.foldl_cons, ih, or_eq_zero, List.forall_mem_cons, and_assoc]

theorem zipWith_xor_zero {as bs : List UInt8} (hlen : as.length = bs.length) :
    (∀ b ∈ as.zipWith (· ^^^ ·) bs, b = 0) ↔ as = bs := by
  induction as generalizing bs with
  | nil =>
    cases bs with
    | nil => simp
    | cons b bs => cases hlen
  | cons a as ih =>
    cases bs with
    | nil => cases hlen
    | cons b bs =>
      rw [List.zipWith_cons_cons, List.forall_mem_cons, ih (Nat.succ.inj hlen), List.cons.injEq,
        UInt8.xor_eq_zero_iff]

theorem bytes_inj {a b : String} (h : a.toUTF8.data.toList = b.toUTF8.data.toList) : a = b :=
  String.toByteArray_inj.mp (ByteArray.ext (Array.toList_inj.mp h))

/-- The comparison of all bytes is equality. -/
theorem subtle_eq_true {a b : String} : subtle a b = true ↔ a = b := by
  unfold subtle
  split
  · rename_i hsize
    constructor
    · intro h
      cases h
    · rintro rfl
      exact absurd rfl hsize
  · rename_i hsize
    have hlen : a.toUTF8.data.toList.length = b.toUTF8.data.toList.length := not_not.mp hsize
    rw [decide_eq_true_iff, foldl_or_eq_zero, zipWith_xor_zero hlen]
    exact ⟨fun h => bytes_inj h.2, fun h => ⟨rfl, by rw [h]⟩⟩

/-! ## Shifting the time -/

section

variable [Digest] {cfg : Config} {secret code : String} {key : Bytes} {t : Time}

/-- The code of a counter. -/
def codeOf (cfg : Config) (key : Bytes) (counter : Nat) : String :=
  hotp cfg.digits (Digest.hmac cfg.algorithm key (putUint64 counter))

/-- The number of whole periods since the epoch. -/
def periods (cfg : Config) (t : Time) : Int := unix t / cfg.period

/-- The counter is at most the skew away from the time. -/
def InWindow (cfg : Config) (t : Time) (counter : Nat) : Prop :=
  periods cfg t - cfg.skew ≤ counter ∧ counter ≤ periods cfg t + cfg.skew

omit [Digest] in
theorem unix_shift (t : Time) (n : Int) : unix (t + n * second) = unix t + n :=
  Int.add_mul_ediv_right _ _ (by decide)

omit [Digest] in
/-- A shift by whole periods shifts the counter, which is undefined below zero. -/
theorem counterAt_shift (hperiod : 0 < cfg.period) (i : Int) :
    counterAt (t + i * cfg.period * second) cfg.period =
      if 0 ≤ periods cfg t + i then some (periods cfg t + i).toNat else none := by
  have hpos : (0 : Int) < cfg.period := Int.natCast_pos.mpr hperiod
  have hshift : (unix t + i * cfg.period) / cfg.period = periods cfg t + i :=
    Int.add_mul_ediv_right _ _ hpos.ne'
  have hsign : unix t + i * cfg.period < 0 ↔ ¬ 0 ≤ periods cfg t + i := by
    rw [← hshift, Int.ediv_nonneg_iff_of_pos hpos, not_le]
  rw [counterAt, unix_shift]
  by_cases hneg : unix t + i * cfg.period < 0
  · rw [if_pos hneg, if_neg (hsign.mp hneg)]
  · rw [if_neg hneg, if_pos (not_not.mp fun h => hneg (hsign.mpr h)), ← hshift]
    obtain ⟨n, hn⟩ := Int.eq_ofNat_of_zero_le (not_lt.mp hneg)
    rw [hn, ← Int.natCast_ediv]
    rfl

theorem generateCode_shift (hperiod : 0 < cfg.period)
    (hkey : base32DecodeString (toUpper secret) = some key) (i : Int) :
    generateCode secret (t + i * cfg.period * second) cfg =
      if 0 ≤ periods cfg t + i then some (codeOf cfg key (periods cfg t + i).toNat) else none := by
  unfold generateCode
  rw [hkey, counterAt_shift hperiod]
  split
  · simp only [Option.bind_eq_bind, Option.bind_some, truncate_eq_hotp]
    rfl
  · rfl

/-! ## The search -/

/-- The step of the window has the code. -/
def Hits (cfg : Config) (key : Bytes) (code : String) (t : Time) (i : Int) : Prop :=
  0 ≤ periods cfg t + i ∧ code = codeOf cfg key (periods cfg t + i).toNat

instance (i : Int) : Decidable (Hits cfg key code t i) := inferInstanceAs (Decidable (_ ∧ _))

/-- The loop ends at the first step with the code. -/
theorem matchCodeLoop_eq (hperiod : 0 < cfg.period)
    (hkey : base32DecodeString (toUpper secret) = some key) (is : List Int) :
    matchCodeLoop secret code t cfg is =
      (is.find? (fun i => Hits cfg key code t i)).map (fun i => (periods cfg t + i).toNat) := by
  induction is with
  | nil => rfl
  | cons i is ih =>
    unfold matchCodeLoop
    dsimp only
    rw [generateCode_shift hperiod hkey, counterAt_shift hperiod, ih, List.find?_cons]
    by_cases hpos : 0 ≤ periods cfg t + i
    · by_cases hcode : code = codeOf cfg key (periods cfg t + i).toNat
      · have hsame : subtle code (codeOf cfg key (periods cfg t + i).toNat) = true :=
          subtle_eq_true.mpr hcode
        have hhit : Hits cfg key code t i := ⟨hpos, hcode⟩
        simp [hpos, hhit, hsame]
      · have hne : ¬ subtle code (codeOf cfg key (periods cfg t + i).toNat) = true :=
          fun h => hcode (subtle_eq_true.mp h)
        simp [hpos, Hits, hne, hcode]
    · simp [hpos, Hits]

/-- The steps of the window, from the oldest on. -/
def steps (skew : Nat) : List Int := (List.range (2 * skew + 1)).map (fun i : Nat => (i : Int) - skew)

omit [Digest] in
theorem mem_steps {skew : Nat} {i : Int} : i ∈ steps skew ↔ -(skew : Int) ≤ i ∧ i ≤ skew := by
  simp only [steps, List.mem_map, List.mem_range]
  constructor
  · rintro ⟨n, hn, rfl⟩
    omega
  · rintro ⟨hlo, hhi⟩
    exact ⟨(i + skew).toNat, by omega, by omega⟩

omit [Digest] in
theorem steps_pairwise (skew : Nat) : (steps skew).Pairwise (· < ·) := by
  refine List.pairwise_map.mpr (List.pairwise_lt_range.imp fun h => ?_)
  omega

/-- The counter is in the window and has the code. -/
def Matches (cfg : Config) (key : Bytes) (code : String) (t : Time) (counter : Nat) : Prop :=
  InWindow cfg t counter ∧ code = codeOf cfg key counter

/-- The steps that hit are the counters that match. -/
theorem matches_iff {counter : Nat} : Matches cfg key code t counter ↔
    ∃ i ∈ steps cfg.skew, Hits cfg key code t i ∧ (periods cfg t + i).toNat = counter := by
  constructor
  · rintro ⟨⟨hlo, hhi⟩, hcode⟩
    have hstep : (periods cfg t + (counter - periods cfg t)).toNat = counter := by omega
    refine ⟨counter - periods cfg t, mem_steps.mpr ⟨by omega, by omega⟩, ⟨by omega, ?_⟩, hstep⟩
    rw [hstep]
    exact hcode
  · rintro ⟨i, hi, ⟨hpos, hcode⟩, rfl⟩
    obtain ⟨hlo, hhi⟩ := mem_steps.mp hi
    exact ⟨⟨by omega, by omega⟩, hcode⟩

theorem matchCode_eq (hperiod : 0 < cfg.period)
    (hkey : base32DecodeString (toUpper secret) = some key) :
    matchCode cfg secret code t = ((steps cfg.skew).find? (fun i => Hits cfg key code t i)).map
      (fun i => (periods cfg t + i).toNat) := by
  have hsteps : matchCode cfg secret code t = matchCodeLoop secret code t cfg (steps cfg.skew) := by
    unfold matchCode steps
    congr 1
    simp [List.bind_eq_flatMap, List.map_eq_flatMap, List.flatMap_assoc]
  rw [hsteps, matchCodeLoop_eq hperiod hkey]

theorem matchCode_eq_none (hperiod : 0 < cfg.period)
    (hkey : base32DecodeString (toUpper secret) = some key) :
    matchCode cfg secret code t = none ↔ ∀ counter, ¬ Matches cfg key code t counter := by
  rw [matchCode_eq hperiod hkey, Option.map_eq_none_iff, List.find?_eq_none]
  constructor
  · intro h counter hmatch
    obtain ⟨i, hi, hhit, -⟩ := matches_iff.mp hmatch
    exact h i hi (decide_eq_true hhit)
  · intro h i hi hhit
    exact h _ (matches_iff.mpr ⟨i, hi, of_decide_eq_true hhit, rfl⟩)

/-- `matchCode` finds the oldest counter that matches. -/
theorem matchCode_oldest (hperiod : 0 < cfg.period)
    (hkey : base32DecodeString (toUpper secret) = some key) {counter : Nat}
    (h : matchCode cfg secret code t = some counter) :
    Matches cfg key code t counter ∧ ∀ other, Matches cfg key code t other → counter ≤ other := by
  rw [matchCode_eq hperiod hkey, Option.map_eq_some_iff] at h
  obtain ⟨i, hfind, rfl⟩ := h
  obtain ⟨hhit, before, after, hsteps, hbefore⟩ := List.find?_eq_some_iff_append.mp hfind
  have hi : i ∈ steps cfg.skew := List.mem_of_find?_eq_some hfind
  refine ⟨matches_iff.mpr ⟨i, hi, of_decide_eq_true hhit, rfl⟩, fun other hother => ?_⟩
  obtain ⟨j, hj, hhit', rfl⟩ := matches_iff.mp hother
  -- A step before the one that was found does not hit, and those after it are later.
  have hle : i ≤ j := by
    have hsorted := steps_pairwise cfg.skew
    rw [hsteps] at hj hsorted
    rcases List.mem_append.mp hj with hj | hj
    · have hmiss := hbefore j hj
      rw [decide_eq_true hhit'] at hmiss
      cases hmiss
    · rcases List.mem_cons.mp hj with rfl | hj
      · exact le_rfl
      · exact ((List.pairwise_cons.mp (List.pairwise_append.mp hsorted).2.1).1 j hj).le
  omega

omit [Digest] in
/-- A service that was made has passed each guard of `NewService`. -/
private theorem passed_guard {p : Prop} [Decidable p] {err : Err} {next : Except Err Unit}
    (h : (if p then .error err else next) = .ok ()) : ¬ p ∧ next = .ok () := by
  split at h
  · cases h
  · exact ⟨‹¬ p›, h⟩

omit [Digest] in
/-- What `NewService` has checked of the numbers. -/
theorem Service.bounds (s : Service) :
    6 ≤ s.cfg.digits ∧ s.cfg.digits ≤ 8 ∧ 15 ≤ s.cfg.period ∧ s.cfg.period ≤ 300 ∧ s.cfg.skew ≤ 4 := by
  obtain ⟨-, h⟩ := passed_guard s.accepted
  obtain ⟨-, h⟩ := passed_guard h
  obtain ⟨-, h⟩ := passed_guard h
  obtain ⟨-, h⟩ := passed_guard h
  obtain ⟨-, h⟩ := passed_guard h
  obtain ⟨hdigits, h⟩ := passed_guard h
  obtain ⟨hperiod, h⟩ := passed_guard h
  obtain ⟨hskew, -⟩ := passed_guard h
  omega

/-- A code is accepted exactly if it is that of a counter in the window, the counter found is one
    of those, and every code has the digits it should have. The bytes it is made of are there. -/
theorem acceptance_window_exact (s : Service) (hkey : base32DecodeString (toUpper secret) = some key) :
    ((∃ counter, matchCode s.cfg secret code t = some counter) ↔
      ∃ counter, InWindow s.cfg t counter ∧ code = codeOf s.cfg key counter) ∧
    (∀ counter, matchCode s.cfg secret code t = some counter →
      InWindow s.cfg t counter ∧ code = codeOf s.cfg key counter) ∧
    (∀ t' code', generateCode secret t' s.cfg = some code' →
      code'.toList.length = s.cfg.digits ∧ Calendar.AllDigits code'.toList) ∧
    ∀ sum : Sum, sum.1.length - 1 < sum.1.length ∧
      (sum.1.getD (sum.1.length - 1) 0).toNat % 16 + 4 ≤ sum.1.length := by
  obtain ⟨hdigits, -, hperiod, -⟩ := s.bounds
  have hpos : 0 < s.cfg.period := by omega
  refine ⟨⟨?_, ?_⟩, fun counter h => (matchCode_oldest hpos hkey h).1, ?_, fun sum => ⟨?_, ?_⟩⟩
  · rintro ⟨counter, h⟩
    exact ⟨counter, (matchCode_oldest hpos hkey h).1⟩
  · rintro ⟨counter, h⟩
    cases hmatch : matchCode s.cfg secret code t with
    | some found => exact ⟨found, rfl⟩
    | none => exact absurd h ((matchCode_eq_none hpos hkey).mp hmatch counter)
  · intro t' code' h
    have hzero := generateCode_shift (t := t') hpos hkey 0
    rw [Int.zero_mul, Int.zero_mul, Int.add_zero, h] at hzero
    split at hzero
    · cases hzero
      exact hotp_digits (by omega) _
    · cases hzero
  · have hlength := sum.2
    omega
  · rw [sum.getD_last]
    exact sum.offset_in_range

end

section

open Sulis.Totp.Scenario

attribute [local instance] plain

/-- Ninety seconds after the epoch the code of the second step is accepted, and that of the first
    is not. -/
theorem acceptance_window_exact_thirdPeriod :
    (∃ counter, matchCode service.cfg "" "000002" (90 * second) = some counter) ∧
      ¬ ∃ counter, matchCode service.cfg "" "000001" (90 * second) = some counter := by
  have hkey : base32DecodeString (toUpper "") = some [] := by decide
  refine ⟨(acceptance_window_exact service hkey).1.mpr ⟨2, ?_, by decide +kernel⟩, ?_⟩
  · exact ⟨by decide, by decide⟩
  · rw [(acceptance_window_exact service hkey).1]
    rintro ⟨counter, ⟨hlo, hhi⟩, hcode⟩
    have hrange : counter = 2 ∨ counter = 3 ∨ counter = 4 := by
      change (3 : Int) - 1 ≤ counter at hlo
      change (counter : Int) ≤ 3 + 1 at hhi
      omega
    rcases hrange with rfl | rfl | rfl
    · exact absurd hcode (by decide +kernel)
    · exact absurd hcode (by decide +kernel)
    · exact absurd hcode (by decide +kernel)

end

end Sulis.Totp
