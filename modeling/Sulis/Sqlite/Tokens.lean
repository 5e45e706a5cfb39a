-- SUMMARY: The SQLite token store, and that it does as the in-memory one.
import Sulis.Model.Memstore
import Sulis.Sqlite.Scan

/-!
# The SQLite token store

`token.go` over the table `tokens`, whose primary key is the ID and whose hashes are
unique. A token that names no user has `NULL` there, which no comparison matches.
-/

namespace Sulis.Sqlite

open Relational Store Sulis.Sql

/-! ## Rows -/

structure TokenRow where
  id : UUID
  userID : Option UUID
  tokenHash : String
  /-- `string(token.Purpose)`, a cast that changes nothing. -/
  purpose : TokenPurpose
  expiresAt : String
  createdAt : String
  used : Int
  email : String
  nonceHash : String
  deriving DecidableEq, Repr

/-- `PRIMARY KEY` on the ID and `UNIQUE` on the hash -/
def TokenRow.conflict (a b : TokenRow) : Bool := a.id = b.id ∨ a.tokenHash = b.tokenHash

abbrev TokenTable : Type := Relation TokenRow.conflict

def nullableIDArg (id : UUID) : Option UUID := if id = .nil then none else some id

/-- `NULL` gives the nil ID. -/
def scanID : Option UUID → UUID
  | none => .nil
  | some id => id

def boolToInt (b : Bool) : Int := if b then 1 else 0

def encodeToken (token : Token) : TokenRow where
  id := token.id
  userID := nullableIDArg token.userID
  tokenHash := token.tokenHash
  purpose := token.purpose
  expiresAt := formatTime token.expiresAt
  createdAt := formatTime token.createdAt
  used := boolToInt token.used
  email := token.email
  nonceHash := token.nonceHash

/-- `scanToken`, of a row that is there. -/
def readToken (row : TokenRow) : Result Err Token := do
  let expiresAt ← readTime row.expiresAt
  let createdAt ← readTime row.createdAt
  return {
    id := row.id
    userID := scanID row.userID
    tokenHash := row.tokenHash
    purpose := row.purpose
    expiresAt := expiresAt
    createdAt := createdAt
    used := row.used != 0
    email := row.email
    nonceHash := row.nonceHash }

/-! ## Calls -/

namespace TokenTable

/-- `WHERE token_hash = ? AND purpose = ?` -/
def isToken (hash : String) (purpose : TokenPurpose) (row : TokenRow) : Bool :=
  row.tokenHash = hash ∧ row.purpose = purpose

/-- `WHERE token_hash = ? AND purpose = ? AND used = 0` -/
def isUnused (hash : String) (purpose : TokenPurpose) (row : TokenRow) : Bool :=
  row.tokenHash = hash ∧ row.purpose = purpose ∧ row.used = 0

/-- `SET used = 1` -/
def markUsed (row : TokenRow) : TokenRow := { row with used := 1 }

def createToken (t : TokenTable) (token : Token) : Result Err Unit × TokenTable :=
  match t.insert (encodeToken token) with
  | some t' => (.ok (), t')
  | none => (.error (.storage "creating a token"), t)

/-- `UPDATE … RETURNING`, which returns the rows as it leaves them. What made it find
    nothing is asked afterwards. -/
def consumeToken (t : TokenTable) (hash : String) (purpose : TokenPurpose) :
    Result Err Token × TokenTable :=
  match t.update (isUnused hash purpose) markUsed with
  | none => (.error (.storage "reading a token"), t)
  | some t' =>
    match scanRow .tokenNotFound readToken ((t.select (isUnused hash purpose)).map markUsed) with
    | .ok token => (.ok token, t')
    | .error (.sentinel .tokenNotFound) =>
      match t'.select (isToken hash purpose) with
      | [] => (.error (.sentinel .tokenNotFound), t)
      | _ :: _ => (.error (.sentinel .tokenAlreadyUsed), t)
    | .error err => (.error err, t)

/-- The texts are compared, not the instants. -/
def deleteExpiredTokens (t : TokenTable) (now : Time) : Result Err Unit × TokenTable :=
  (.ok (), t.delete fun row => row.expiresAt < formatTime now)

/-- The argument is never `NULL`, and a `NULL` in the row is not equal to it. -/
def deleteUserTokens (t : TokenTable) (userID : UUID) (purpose : TokenPurpose) :
    Result Err Unit × TokenTable :=
  (.ok (), t.delete fun row => row.userID = some userID ∧ row.purpose = purpose)

end TokenTable

/-! ## Tokens the columns can hold -/

structure TokenFits (token : Token) : Prop where
  expiresAt : InRange token.expiresAt
  createdAt : InRange token.createdAt

theorem scanID_nullableIDArg (id : UUID) : scanID (nullableIDArg id) = id := by
  unfold nullableIDArg
  split
  · rename_i hnil
    rw [hnil, scanID]
  · rfl

theorem nullableIDArg_eq_some {id id' : UUID} : nullableIDArg id = some id' ↔ id = id' ∧ id' ≠ .nil := by
  unfold nullableIDArg
  split
  · rename_i hnil
    rw [hnil]
    simp only [reduceCtorEq, false_iff, not_and_not_right]
    exact Eq.symm
  · rename_i hnil
    rw [Option.some_inj]
    exact ⟨fun heq => ⟨heq, heq ▸ hnil⟩, And.left⟩

theorem boolToInt_bne_zero (b : Bool) : (boolToInt b != 0) = b := by cases b <;> rfl

theorem readToken_encodeToken {token : Token} (h : TokenFits token) :
    readToken (encodeToken token) = .ok token := by
  simp only [readToken, encodeToken, readTime_formatTime h.expiresAt, readTime_formatTime h.createdAt,
    scanID_nullableIDArg, boolToInt_bne_zero]
  rfl

theorem TokenRow.conflict_symm (a b : TokenRow) : a.conflict b = b.conflict a := by
  simp only [conflict, eq_comm]

theorem conflict_encodeToken {a b : Token} :
    (encodeToken a).conflict (encodeToken b) ↔ a.id = b.id ∨ a.tokenHash = b.tokenHash :=
  decide_eq_true_iff

theorem isUnused_encodeToken {hash : String} {purpose : TokenPurpose} {token : Token} :
    TokenTable.isUnused hash purpose (encodeToken token) ↔
      (token.tokenHash = hash ∧ token.purpose = purpose) ∧ token.used = false := by
  rw [TokenTable.isUnused, decide_eq_true_iff, and_assoc]
  refine and_congr Iff.rfl (and_congr Iff.rfl ?_)
  cases hused : token.used <;> simp [encodeToken, hused, boolToInt]

/-- The text of the deadline has not passed if the deadline has not. -/
theorem encodeToken_kept {token : Token} {now : Time} (h : InRange token.expiresAt)
    (hnow : InRange now) :
    decide (¬ token.expiresAt < now) = !decide ((encodeToken token).expiresAt < formatTime now) := by
  simp only [encodeToken, formatTime_lt_iff h hnow, decide_not]

/-! ## Doing as the in-memory store does -/

/-- The table has the rows of the in-memory store. -/
abbrev SameTokens (s : TokenStore) (t : TokenTable) : Prop := Mirrors encodeToken TokenFits s t

namespace SameTokens

variable {s : TokenStore} {t : TokenTable} {token : Token} {hash : String} {purpose : TokenPurpose}

theorem createToken (h : SameTokens s t) (hfits : TokenFits token)
    (hfresh : ∀ tok ∈ s, tok.id ≠ token.id ∧ tok.tokenHash ≠ token.tokenHash) :
    Agree SameTokens (s.createToken token) (t.createToken token) := by
  have hfree : ∀ tok ∈ s, (encodeToken token).conflict (encodeToken tok) = false := by
    intro tok htok
    rw [Bool.eq_false_iff, ne_eq, conflict_encodeToken, not_or]
    exact ⟨(hfresh tok htok).1.symm, (hfresh tok htok).2.symm⟩
  obtain ⟨t', ht', henc⟩ := h.encodes.insert (fun tok htok => (hfresh tok htok).1) hfree
  unfold TokenTable.createToken
  rw [ht']
  exact ⟨rfl, h.put henc hfits⟩

theorem deleteExpiredTokens {now : Time} (h : SameTokens s t) (hnow : InRange now) :
    Agree SameTokens (s.deleteExpiredTokens now) (t.deleteExpiredTokens now) :=
  ⟨rfl, h.delete fun tok htok => encodeToken_kept (h.valid tok htok).expiresAt hnow⟩

theorem deleteUserTokens (h : SameTokens s t) (userID : UUID) (purpose : TokenPurpose) :
    Agree SameTokens (s.deleteUserTokens userID purpose) (t.deleteUserTokens userID purpose) := by
  unfold TokenStore.deleteUserTokens TokenTable.deleteUserTokens
  by_cases hnil : userID = .nil
  · -- No row has the nil ID: a token without a user has `NULL`.
    have hnone : s.filter (fun _ => true) = s := by
      simp only [Table.filter, List.filter_true]
    rw [if_pos hnil]
    refine ⟨rfl, hnone ▸ h.delete fun tok _ => ?_⟩
    simp [encodeToken, nullableIDArg_eq_some, hnil]
  · rw [if_neg hnil]
    refine ⟨rfl, h.delete fun tok _ => ?_⟩
    simp [encodeToken, nullableIDArg_eq_some, hnil]

/-! ### Consumption -/

/-- The hash alone makes a row the only one. -/
theorem only_hash (h : SameTokens s t) {a b : Token} (ha : a ∈ s) (hb : b ∈ s)
    (hhash : a.tokenHash = b.tokenHash) : b = a := by
  by_contra hne
  have hapart := h.encodes.apart TokenRow.conflict_symm ha hb hne
  rw [Bool.eq_false_iff, ne_eq, conflict_encodeToken] at hapart
  exact hapart (Or.inr hhash)

/-- Nothing unused matches: the token is spent, or there is none. -/
theorem consumeToken_refused (h : SameTokens s t)
    (hnone : ∀ tok ∈ s, tok.tokenHash = hash ∧ tok.purpose = purpose → tok.used = true) (order : Nat) :
    Agree SameTokens (s.consumeToken hash purpose order) (t.consumeToken hash purpose) := by
  have hunused : ∀ tok ∈ s, ¬ TokenTable.isUnused hash purpose (encodeToken tok) := by
    intro tok htok hfound
    obtain ⟨hmatch, hused⟩ := isUnused_encodeToken.mp hfound
    rw [hnone tok htok hmatch] at hused
    cases hused
  unfold TokenTable.consumeToken TokenStore.consumeToken
  rw [h.encodes.update_none hunused, h.encodes.select_eq_nil hunused]
  simp only [List.map_nil, scanRow]
  rw [h.encodes.select_pick (q := fun tok => tok.tokenHash = hash ∧ tok.purpose = purpose)]
  · cases hpick : s.pick (fun tok => tok.tokenHash = hash ∧ tok.purpose = purpose) order with
    | none => exact ⟨rfl, h⟩
    | some tok =>
      obtain ⟨htok, hmatch⟩ := Table.pick_eq_some hpick
      simp only [hnone tok htok (of_decide_eq_true hmatch), if_true]
      exact ⟨rfl, h⟩
  · exact fun tok _ => Iff.rfl
  · intro a ha b hb hmatch hmatch'
    exact h.only_hash ha hb ((of_decide_eq_true hmatch).1.trans (of_decide_eq_true hmatch').1.symm)

theorem consumeToken_landed (h : SameTokens s t) (htoken : token ∈ s) (hused : token.used = false)
    (order : Nat) :
    Agree SameTokens (s.consumeToken token.tokenHash token.purpose order)
      (t.consumeToken token.tokenHash token.purpose) := by
  have hfits : TokenFits { token with used := true } :=
    ⟨(h.valid token htoken).expiresAt, (h.valid token htoken).createdAt⟩
  have hfound : ∀ b ∈ s,
      TokenTable.isUnused token.tokenHash token.purpose (encodeToken b) ↔ b = token := by
    intro b hb
    rw [isUnused_encodeToken]
    constructor
    · rintro ⟨⟨hhash, -⟩, -⟩
      exact h.only_hash htoken hb hhash.symm
    · rintro rfl
      exact ⟨⟨rfl, rfl⟩, hused⟩
  have hselect := h.encodes.select_eq_singleton htoken ((hfound token htoken).mpr rfl)
    fun b hb hb' => (hfound b hb).mp hb'
  have hset : TokenTable.markUsed (encodeToken token) = encodeToken { token with used := true } := rfl
  obtain ⟨t', ht', henc⟩ :=
    h.encodes.restamp TokenRow.conflict_symm htoken hfound hset rfl fun _ => rfl
  have hpick : s.pick (fun tok => tok.tokenHash = token.tokenHash ∧ tok.purpose = token.purpose) order =
      some token := by
    cases hpick : s.pick (fun tok => tok.tokenHash = token.tokenHash ∧ tok.purpose = token.purpose)
        order with
    | none => exact absurd (by simp) (Table.pick_eq_none.mp hpick token htoken)
    | some tok =>
      obtain ⟨htok, hmatch⟩ := Table.pick_eq_some hpick
      rw [h.only_hash htoken htok (of_decide_eq_true hmatch).1.symm]
  unfold TokenTable.consumeToken TokenStore.consumeToken
  rw [ht', hselect, hpick]
  simp only [List.map_cons, List.map_nil, hset, scanRow, readToken_encodeToken hfits, hused,
    Bool.false_eq_true, if_false]
  exact ⟨rfl, h.put henc hfits⟩

theorem consumeToken (h : SameTokens s t) (hash : String) (purpose : TokenPurpose) (order : Nat) :
    Agree SameTokens (s.consumeToken hash purpose order) (t.consumeToken hash purpose) := by
  by_cases hunused : ∃ tok ∈ s, (tok.tokenHash = hash ∧ tok.purpose = purpose) ∧ tok.used = false
  · obtain ⟨tok, htok, ⟨rfl, rfl⟩, hused⟩ := hunused
    exact h.consumeToken_landed htok hused order
  · refine h.consumeToken_refused (fun tok htok hmatch => ?_) order
    cases hused : tok.used with
    | true => rfl
    | false => exact absurd ⟨tok, htok, hmatch, hused⟩ hunused

end SameTokens

end Sulis.Sqlite
