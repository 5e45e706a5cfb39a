-- SUMMARY: Base64 inverts: the unpadded encoding of password hashes, and the padded one of ciphertexts.
import Sulis.Model.Password

/-!
# Base64

Decoding inverts encoding, for `base64.RawStdEncoding` and for `base64.StdEncoding`,
which differs from it in the padding it writes and insists on.
-/

namespace Sulis


private theorem base64Char_table : ∀ n < 64, base64Value (base64Char n) = some n ∧
    base64Char n ≠ '$' ∧ base64Char n ≠ '=' ∧ base64Char n ≠ '\n' ∧ base64Char n ≠ '\r' := by
  decide

theorem base64Char_ascii : ∀ n < 64, (base64Char n).toNat < 128 := by
  decide

theorem base64Value_base64Char {n : Nat} (hn : n < 64) : base64Value (base64Char n) = some n :=
  (base64Char_table n hn).1

/-- The values a text of base64 stands for. -/
def base64Values : Bytes → List Nat
  | [] => []
  | [a] => [a.toNat / 4, a.toNat % 4 * 16]
  | [a, b] => [a.toNat / 4, a.toNat % 4 * 16 + b.toNat / 16, b.toNat % 16 * 4]
  | a :: b :: c :: rest =>
    (a.toNat / 4) :: (a.toNat % 4 * 16 + b.toNat / 16) :: (b.toNat % 16 * 4 + c.toNat / 64) ::
      (c.toNat % 64) :: base64Values rest

theorem base64Encode_eq_map (bs : Bytes) : base64Encode bs = (base64Values bs).map base64Char := by
  fun_induction base64Values bs with
  | case1 => rfl
  | case2 a => rfl
  | case3 a b => rfl
  | case4 a b c rest ih => simp [base64Encode, ih]

theorem base64Values_lt (bs : Bytes) : ∀ n ∈ base64Values bs, n < 64 := by
  fun_induction base64Values bs with
  | case1 => simp
  | case2 a =>
    have ha := a.toNat_lt
    simp
    omega
  | case3 a b =>
    have ha := a.toNat_lt
    have hb := b.toNat_lt
    simp
    omega
  | case4 a b c rest ih =>
    have ha := a.toNat_lt
    have hb := b.toNat_lt
    have hc := c.toNat_lt
    simp only [List.mem_cons, forall_eq_or_imp]
    exact ⟨by omega, by omega, by omega, by omega, ih⟩

/-- A byte is put together from the bits it was cut into. -/
theorem UInt8.ofNat_eq_of_toNat {n : Nat} {b : UInt8} (h : n % 256 = b.toNat) : UInt8.ofNat n = b := by
  apply UInt8.toNat_inj.mp
  rw [UInt8.toNat_ofNat']
  exact h

theorem base64Quanta_base64Values (bs : Bytes) : base64Quanta (base64Values bs) = some bs := by
  fun_induction base64Values bs with
  | case1 => rfl
  | case2 a =>
    have ha := a.toNat_lt
    simp only [base64Quanta, Option.some.injEq, List.cons.injEq, and_true]
    exact UInt8.ofNat_eq_of_toNat (by omega)
  | case3 a b =>
    have ha := a.toNat_lt
    have hb := b.toNat_lt
    simp only [base64Quanta, Option.some.injEq, List.cons.injEq, and_true]
    exact ⟨UInt8.ofNat_eq_of_toNat (by omega), UInt8.ofNat_eq_of_toNat (by omega)⟩
  | case4 a b c rest ih =>
    have ha := a.toNat_lt
    have hb := b.toNat_lt
    have hc := c.toNat_lt
    simp only [base64Quanta, ih, Option.bind_eq_bind, Option.bind_some, Option.pure_def,
      Option.some.injEq, List.cons.injEq, and_true]
    exact ⟨UInt8.ofNat_eq_of_toNat (by omega), UInt8.ofNat_eq_of_toNat (by omega),
      UInt8.ofNat_eq_of_toNat (by omega)⟩

theorem mem_base64Encode {bs : Bytes} {c : Char} (hc : c ∈ base64Encode bs) :
    c ≠ '$' ∧ c ≠ '=' ∧ c ≠ '\n' ∧ c ≠ '\r' := by
  rw [base64Encode_eq_map] at hc
  obtain ⟨n, hn, rfl⟩ := List.mem_map.mp hc
  exact (base64Char_table n (base64Values_lt bs n hn)).2

theorem mapM_base64Value {ns : List Nat} (hns : ∀ n ∈ ns, n < 64) :
    (ns.map base64Char).mapM base64Value = some ns := by
  induction ns with
  | nil => rfl
  | cons n ns ih =>
    have hn := hns n List.mem_cons_self
    have htail := ih (fun m hm => hns m (List.mem_cons_of_mem _ hm))
    simp [List.mapM_cons, base64Value_base64Char hn, htail]

/-- Nothing of an encoding is skipped. -/
theorem filter_base64Encode (bs : Bytes) :
    (base64Encode bs).filter (fun c => c ≠ '\n' ∧ c ≠ '\r') = base64Encode bs := by
  rw [List.filter_eq_self]
  intro c hc
  exact decide_eq_true (mem_base64Encode hc).2.2

theorem quanta_base64Encode (bs : Bytes) :
    ((base64Encode bs).mapM base64Value).bind base64Quanta = some bs := by
  rw [base64Encode_eq_map, mapM_base64Value (base64Values_lt bs)]
  exact base64Quanta_base64Values bs

theorem base64Decode_base64Encode (bs : Bytes) : base64Decode (base64Encode bs) = some bs := by
  rw [base64Decode, filter_base64Encode]
  exact quanta_base64Encode bs

/-! ## Padding -/

/-- The padding after so many characters. -/
def base64Padding (n : Nat) : List Char := List.replicate ((4 - n % 4) % 4) '='

/-- `base64.StdEncoding.EncodeToString` -/
def base64StdEncode (bs : Bytes) : List Char :=
  base64Encode bs ++ base64Padding (base64Encode bs).length

/-- `base64.StdEncoding.DecodeString`: the padding must be exactly what is missing from
    the last group, and nothing may follow it. -/
def base64StdDecode (cs : List Char) : Option Bytes :=
  let cs := cs.filter (fun c => c ≠ '\n' ∧ c ≠ '\r')
  let body := cs.takeWhile (· ≠ '=')
  if cs.dropWhile (· ≠ '=') = base64Padding body.length then
    (body.mapM base64Value).bind base64Quanta
  else none

/-- The text of an encoding is ASCII. -/
theorem base64StdEncode_ascii {bs : Bytes} {c : Char} (hc : c ∈ base64StdEncode bs) :
    c.toNat < 128 := by
  rcases List.mem_append.mp hc with hc | hc
  · rw [base64Encode_eq_map] at hc
    obtain ⟨n, hn, rfl⟩ := List.mem_map.mp hc
    exact base64Char_ascii n (base64Values_lt bs n hn)
  · rw [List.eq_of_mem_replicate hc]
    decide

theorem base64StdDecode_base64StdEncode (bs : Bytes) :
    base64StdDecode (base64StdEncode bs) = some bs := by
  have hbody : ∀ c ∈ base64Encode bs, decide (c ≠ '=') = true := fun c hc =>
    decide_eq_true (mem_base64Encode hc).2.1
  have hpad : ∀ n, (base64Padding n).filter (fun c => c ≠ '\n' ∧ c ≠ '\r') = base64Padding n := by
    intro n
    rw [List.filter_eq_self]
    intro c hc
    rw [List.eq_of_mem_replicate hc]
    decide
  have htake : ∀ n, (base64Padding n).takeWhile (· ≠ '=') = [] := by
    intro n
    cases h : base64Padding n with
    | nil => rfl
    | cons c cs =>
      have hc : c = '=' := List.eq_of_mem_replicate (h ▸ List.mem_cons_self)
      simp [hc]
  have hdrop : ∀ n, (base64Padding n).dropWhile (· ≠ '=') = base64Padding n := by
    intro n
    have happend := List.takeWhile_append_dropWhile (p := (· ≠ '=')) (l := base64Padding n)
    rwa [htake, List.nil_append] at happend
  simp only [base64StdDecode, base64StdEncode, List.filter_append, filter_base64Encode, hpad,
    List.takeWhile_append_of_pos hbody, List.dropWhile_append_of_pos hbody, htake, hdrop,
    List.append_nil, if_true]
  exact quanta_base64Encode bs

end Sulis
