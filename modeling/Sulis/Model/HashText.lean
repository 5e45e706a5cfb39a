-- SUMMARY: The text of a password hash read back: decimal numbers and the six parts between dollar signs.
import Sulis.Model.Base64

/-!
# Reading a hash back

`decodeHash` inverts the text that `hashPassword` writes, as long as the parameters
and the lengths of salt and key pass its bounds. The bounds are compared last, so
out of them the text still parses and is then refused.
-/

namespace Sulis

/-! ## Numbers -/

/-- A number in decimal. -/
def decimal (n : Nat) : List Char := Nat.toDigits 10 n

theorem isDigit_of_mem_decimal {n : Nat} {c : Char} (hc : c ∈ decimal n) : c.isDigit :=
  Nat.isDigit_of_mem_toDigits (by decide) (by decide) hc

theorem decimal_ne_nil (n : Nat) : decimal n ≠ [] := Nat.toDigits_ne_nil

theorem toList_toString_nat (n : Nat) : (toString n).toList = decimal n := by
  rw [Nat.toString_eq_ofList_toDigits, String.toList_ofList, decimal]

/-- What stops a number: the end of the text, or a character that is no digit. -/
def StopsNumber (rest : List Char) : Prop := ∀ c cs, rest = c :: cs → c.isDigit = false

theorem stopsNumber_nil : StopsNumber [] := fun _ _ h => nomatch h

theorem stopsNumber_cons {c : Char} (hc : c.isDigit = false) (cs : List Char) :
    StopsNumber (c :: cs) := by
  rintro _ _ ⟨⟩
  exact hc

theorem takeWhile_decimal (n : Nat) {rest : List Char} (hrest : StopsNumber rest) :
    (decimal n ++ rest).takeWhile Char.isDigit = decimal n := by
  rw [List.takeWhile_append_of_pos (fun c hc => isDigit_of_mem_decimal hc)]
  cases rest with
  | nil => simp
  | cons c cs => simp [hrest c cs rfl]

private theorem digit_not_space_table : ∀ n < 128, (Char.ofNat n).isDigit →
    Char.ofNat n ≠ '\n' ∧ isSpace (Char.ofNat n) = false := by
  decide

/-- A digit is not skipped. -/
theorem not_space_of_isDigit {c : Char} (hc : c.isDigit) : c ≠ '\n' ∧ isSpace c = false := by
  have hlt : c.toNat < 128 := by
    simp only [Char.isDigit, Bool.and_eq_true, decide_eq_true_eq] at hc
    have h : c.val ≤ 57 := hc.2
    have : c.val.toNat ≤ 57 := h
    have : c.toNat = c.val.toNat := rfl
    omega
  have htable := digit_not_space_table c.toNat hlt
  rw [Char.ofNat_toNat] at htable
  exact htable hc

theorem skipSpace_decimal (n : Nat) (rest : List Char) :
    skipSpace (decimal n ++ rest) = some (decimal n ++ rest) := by
  cases hdigits : decimal n with
  | nil => exact absurd hdigits (decimal_ne_nil n)
  | cons c cs =>
    have hmem : c ∈ decimal n := by
      rw [hdigits]
      exact List.mem_cons_self
    have hc := isDigit_of_mem_decimal hmem
    obtain ⟨hline, hspace⟩ := not_space_of_isDigit hc
    simp [skipSpace, hline, hspace]

theorem decimalValue_decimal (n : Nat) : decimalValue (decimal n) = n :=
  Nat.ofDigitChars_ten_toDigits

/-- A number that fits is read back, up to what stops it. -/
theorem scanUint_decimal (bits : Nat) {n : Nat} (hn : n < 2 ^ bits) {rest : List Char}
    (hrest : StopsNumber rest) : scanUint bits (decimal n ++ rest) = some (n, rest) := by
  have hne : ¬ (decimal n = [] ∨ 2 ^ bits ≤ n) := by
    rw [not_or]
    exact ⟨decimal_ne_nil n, Nat.not_le.mpr hn⟩
  simp only [scanUint, skipSpace_decimal, takeWhile_decimal n hrest, decimalValue_decimal,
    Option.bind_eq_bind, Option.bind_some, if_neg hne, List.drop_left]

theorem scanLit_append (lit : String) (rest : List Char) :
    scanLit lit (lit.toList ++ rest) = some rest := by
  have hstarts : lit.toList.isPrefixOf (lit.toList ++ rest) :=
    List.isPrefixOf_iff_prefix.mpr (List.prefix_append _ _)
  rw [scanLit, if_pos hstarts, ← String.length_toList, List.drop_left]

/-! ## The parts of a hash -/

/-- The text of the cost parameters. -/
def paramsText (params : Argon2Params) : List Char :=
  "m=".toList ++ (decimal params.memory.toNat ++ (",t=".toList ++ (decimal params.iterations.toNat ++
    (",p=".toList ++ decimal params.parallelism.toNat))))

theorem scanParams_paramsText (params : Argon2Params) :
    scanParams (paramsText params) =
      some (params.memory, params.iterations, params.parallelism) := by
  have hcomma : ∀ (lit : String) (rest : List Char), lit.toList.head? = some ',' →
      StopsNumber (lit.toList ++ rest) := by
    intro lit rest hhead
    obtain ⟨cs, hcs⟩ := List.head?_eq_some_iff.mp hhead
    rw [hcs]
    exact stopsNumber_cons (by decide) _
  have hm := fun rest => scanUint_decimal 32 params.memory.toNat_lt (hcomma ",t=" rest rfl)
  have ht := fun rest => scanUint_decimal 32 params.iterations.toNat_lt (hcomma ",p=" rest rfl)
  have hp := scanUint_decimal 8 params.parallelism.toNat_lt stopsNumber_nil
  rw [List.append_nil] at hp
  simp only [scanParams, paramsText, scanLit_append, hm, ht, hp, Option.bind_eq_bind,
    Option.bind_some, Option.pure_def, UInt32.ofNat_toNat, UInt8.ofNat_toNat]

/-- The text between the dollar signs, the first of which begins the hash. -/
def hashParts (params : Argon2Params) (salt hash : Bytes) : List (List Char) :=
  [[], "argon2id".toList, "v=19".toList, paramsText params, base64Encode salt, base64Encode hash]

theorem splitOn_hashParts (params : Argon2Params) (salt hash : Bytes) :
    (['$'].intercalate (hashParts params salt hash)).splitOn '$' = hashParts params salt hash := by
  have hdecimal : ∀ n, '$' ∉ decimal n := by
    intro n hmem
    exact absurd (isDigit_of_mem_decimal hmem) (by decide)
  have hbase64 : ∀ bs, '$' ∉ base64Encode bs := fun bs hmem => (mem_base64Encode hmem).1 rfl
  refine List.splitOn_intercalate '$' ?_ (by simp [hashParts])
  simp [hashParts, paramsText, hdecimal, hbase64]

/-- A hash as a text. -/
def hashText (params : Argon2Params) (salt hash : Bytes) : String :=
  String.ofList (['$'].intercalate (hashParts params salt hash))

/-- The bounds `decodeHash` puts on what it read. -/
def InBounds (params : Argon2Params) (saltLength keyLength : Nat) : Prop :=
  params.parallelism ≠ 0 ∧ (params.iterations ≠ 0 ∧ params.iterations ≤ 1024) ∧
    (8 * params.parallelism.toUInt32 ≤ params.memory ∧ params.memory ≤ 4194304) ∧
    (8 ≤ saltLength ∧ saltLength ≤ 64) ∧ 16 ≤ keyLength ∧ keyLength ≤ 128

instance (params : Argon2Params) (saltLength keyLength : Nat) :
    Decidable (InBounds params saltLength keyLength) :=
  inferInstanceAs (Decidable (_ ∧ _))

theorem not_inBounds_iff {params : Argon2Params} {saltLength keyLength : Nat} :
    ¬ InBounds params saltLength keyLength ↔
      params.parallelism = 0 ∨ (params.iterations = 0 ∨ 1024 < params.iterations) ∨
        (params.memory < 8 * params.parallelism.toUInt32 ∨ 4194304 < params.memory) ∨
        (saltLength < 8 ∨ 64 < saltLength) ∨ (keyLength < 16 ∨ 128 < keyLength) := by
  simp only [InBounds, not_and_or, ne_eq, not_not, UInt32.not_le, Nat.not_le]

/-- What `decodeHash` makes of the text of a hash. -/
theorem decodeHash_hashText (params : Argon2Params) (salt hash : Bytes) :
    decodeHash (hashText params salt hash) =
      if InBounds params salt.length hash.length then
        .ok ({ params with
          saltLength := UInt32.ofNat salt.length, keyLength := UInt32.ofNat hash.length }, salt, hash)
      else .error (.other "sulis: hash parameters out of bounds") := by
  have hversion : scanVersion "v=19".toList = some (argon2Version : Int) := by decide
  rw [decodeHash, hashText, String.toList_ofList, splitOn_hashParts]
  simp only [hashParts, ne_eq, not_true_eq_false, if_false, hversion, scanParams_paramsText,
    base64Decode_base64Encode, ← not_inBounds_iff, ite_not]

variable [Platform]

/-- The key of a candidate, as `hashPassword` and `verifyPassword` derive it. -/
def deriveKey (candidate : Bytes) (params : Argon2Params) (pepper salt : Bytes) : Bytes :=
  Platform.idKey (applyPepper candidate pepper) salt
    params.iterations params.memory params.parallelism params.keyLength

theorem hashPassword_eq_hashText (password : Bytes) (params : Argon2Params) (pepper salt : Bytes) :
    hashPassword password params pepper salt =
      hashText params salt (deriveKey (normalizePassword password) params pepper salt) := by
  have hjoin : ∀ a b c d e f : List Char, ['$'].intercalate [a, b, c, d, e, f] =
      a ++ '$' :: (b ++ '$' :: (c ++ '$' :: (d ++ '$' :: (e ++ '$' :: f)))) := by
    intro a b c d e f
    simp [List.intercalate]
  -- The version is part of a literal on one side and a number on the other.
  have hhead : "$argon2id$v=".toList ++ decimal argon2Version =
      '$' :: ("argon2id".toList ++ '$' :: "v=19".toList) := by decide
  have hm : "$m=".toList = '$' :: "m=".toList := by decide
  have hdollar : "$".toList = ['$'] := by decide
  rw [← String.toList_inj, hashText, String.toList_ofList, hashParts, hjoin, paramsText]
  unfold hashPassword
  simp only [String.toList_append]
  simp only [toList_toString_nat, String.toList_ofList, hhead, hm, hdollar, deriveKey,
    List.append_assoc, List.cons_append, List.nil_append]

end Sulis
