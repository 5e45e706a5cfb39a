-- SUMMARY: The SQLite user store, and that it does as the in-memory one.
import Sulis.Model.Memstore
import Sulis.Sqlite.Scan

/-!
# The SQLite user store

`user.go` over the table `users`, whose primary key is the ID. The address is unique
too, and compared without regard to the case of ASCII letters. `metadata` is left out,
as it is in the data model.
-/

namespace Sulis.Sqlite

open Relational Store Sulis.Sql

/-- `COLLATE NOCASE` -/
def noCase (a b : String) : Bool := a.toList.map Char.toLower = b.toList.map Char.toLower

structure UserRow where
  id : UUID
  email : String
  passwordHash : String
  createdAt : String
  updatedAt : String
  emailVerifiedAt : Option String
  pendingEmail : String
  disabledAt : Option String
  disabledReason : String
  lockedUntil : Option String
  failedLoginAttempts : Int
  version : Int
  deriving DecidableEq, Repr

/-- `PRIMARY KEY` on the ID and `UNIQUE` on the address -/
def UserRow.conflict (a b : UserRow) : Bool := a.id = b.id ∨ noCase a.email b.email

abbrev UserTable : Type := Relation UserRow.conflict

/-- The columns a write passes, at a version. -/
def userRow (user : User) (version : Int) : UserRow where
  id := user.id
  email := user.email
  passwordHash := user.passwordHash
  createdAt := formatTime user.createdAt
  updatedAt := formatTime user.updatedAt
  emailVerifiedAt := nullableTime user.emailVerifiedAt
  pendingEmail := user.pendingEmail
  disabledAt := nullableTime user.disabledAt
  disabledReason := user.disabledReason
  lockedUntil := nullableTime user.lockedUntil
  failedLoginAttempts := user.failedLoginAttempts
  version := version

/-- `scanUser`, of a row that is there. -/
def readUser (row : UserRow) : Result Err User := do
  let createdAt ← readTime row.createdAt
  let updatedAt ← readTime row.updatedAt
  let emailVerifiedAt ← readNullableTime row.emailVerifiedAt
  let disabledAt ← readNullableTime row.disabledAt
  let lockedUntil ← readNullableTime row.lockedUntil
  return {
    id := row.id
    email := row.email
    passwordHash := row.passwordHash
    createdAt := createdAt
    updatedAt := updatedAt
    emailVerifiedAt := emailVerifiedAt
    pendingEmail := row.pendingEmail
    disabledAt := disabledAt
    disabledReason := row.disabledReason
    lockedUntil := lockedUntil
    failedLoginAttempts := row.failedLoginAttempts
    version := uint64 row.version }

namespace UserTable

/-- `WHERE id = ?` -/
def hasID (id : UUID) (row : UserRow) : Bool := row.id = id

/-- The row starts at version 0, whatever the user says. -/
def createUser (t : UserTable) (user : User) : Result Err Unit × UserTable :=
  match t.insert (userRow user 0) with
  | some t' => (.ok (), t')
  | none => (.error (.sentinel .userAlreadyExists), t)

def getUserByID (t : UserTable) (id : UUID) : Result Err User :=
  scanRow .userNotFound readUser (t.select (hasID id))

def getUserByEmail (t : UserTable) (email : String) : Result Err User :=
  scanRow .userNotFound readUser (t.select fun row => noCase row.email email)

/-- `WHERE id = ? AND version = ?` -/
def isVersion (user : User) (row : UserRow) : Bool :=
  row.id = user.id ∧ row.version = int64 user.version

/-- `SET …, version = version + 1`: every column but the ID. -/
def rewrite (user : User) (row : UserRow) : UserRow :=
  { userRow user (row.version + 1) with id := row.id }

/-- The version is part of what the statement looks for. Which of the two made it find
    nothing is asked afterwards. -/
def updateUser (t : UserTable) (user : User) : Result Err Unit × UserTable :=
  match t.update (isVersion user) (rewrite user) with
  | none => (.error (.sentinel .userAlreadyExists), t)
  | some t' =>
    if (t.select (isVersion user)).length = 0 then
      match t'.select (hasID user.id) with
      | [] => (.error (.sentinel .userNotFound), t)
      | _ :: _ => (.error (.sentinel .concurrentUpdate), t)
    else (.ok (), t')

def deleteUser (t : UserTable) (id : UUID) : Result Err Unit × UserTable :=
  (.ok (), t.delete (hasID id))

end UserTable

/-! ## Users the columns can hold -/

/-- An address without ASCII capitals. -/
def NoCapitals (email : String) : Prop := ∀ c ∈ email.toList, ¬ c.isUpper

instance : DecidablePred NoCapitals := fun email =>
  List.decidableBAll (fun c : Char => ¬ c.isUpper) email.toList

def userTimes (user : User) : List Time :=
  [user.createdAt, user.updatedAt] ++ user.emailVerifiedAt.toList ++ user.disabledAt.toList ++
    user.lockedUntil.toList

structure UserFits (user : User) : Prop where
  noCapitals : NoCapitals user.email
  times : ∀ t ∈ userTimes user, InRange t
  version : user.version < 2 ^ 63

def encodeUser (user : User) : UserRow := userRow user (int64 user.version)

theorem map_toLower_of_noCapitals {email : String} (h : NoCapitals email) :
    email.toList.map Char.toLower = email.toList := by
  refine (List.map_congr_left fun c hc => ?_).trans (List.map_id _)
  have hnot : ¬ (c.val ≥ 'A'.val ∧ c.val ≤ 'Z'.val) := fun hupper => h c hc (decide_eq_true hupper)
  exact dif_neg hnot

/-- Among addresses without capitals the collation is equality. -/
theorem noCase_iff {a b : String} (ha : NoCapitals a) (hb : NoCapitals b) : noCase a b ↔ a = b := by
  rw [noCase, decide_eq_true_eq, map_toLower_of_noCapitals ha, map_toLower_of_noCapitals hb,
    String.toList_inj]

theorem readUser_encodeUser {user : User} (h : UserFits user) : readUser (encodeUser user) = .ok user := by
  have htimes := h.times
  simp only [userTimes, List.mem_append, List.mem_cons, Option.mem_toList] at htimes
  have hcreated : InRange user.createdAt := htimes _ (by simp)
  have hupdated : InRange user.updatedAt := htimes _ (by simp)
  have hverified : ∀ t, user.emailVerifiedAt = some t → InRange t := fun t ht => htimes t (by simp [ht])
  have hdisabled : ∀ t, user.disabledAt = some t → InRange t := fun t ht => htimes t (by simp [ht])
  have hlocked : ∀ t, user.lockedUntil = some t → InRange t := fun t ht => htimes t (by simp [ht])
  simp only [readUser, encodeUser, userRow, readTime_formatTime hcreated, readTime_formatTime hupdated,
    readNullableTime_nullableTime hverified, readNullableTime_nullableTime hdisabled,
    readNullableTime_nullableTime hlocked, int64_of_lt h.version, uint64_of_lt h.version]
  rfl

theorem hasID_encodeUser {id : UUID} {u : User} : UserTable.hasID id (encodeUser u) ↔ u.id = id :=
  decide_eq_true_iff

theorem UserRow.conflict_symm (a b : UserRow) : a.conflict b = b.conflict a := by
  simp only [conflict, noCase, eq_comm]

theorem conflict_encodeUser {u v : User} (hu : UserFits u) (hv : UserFits v) :
    (encodeUser u).conflict (encodeUser v) ↔ u.id = v.id ∨ u.email = v.email := by
  rw [UserRow.conflict, decide_eq_true_eq]
  exact or_congr Iff.rfl (noCase_iff hu.noCapitals hv.noCapitals)

/-! ## Doing as the in-memory store does -/

/-- The table has the rows of the in-memory store. -/
abbrev SameUsers (s : UserStore) (t : UserTable) : Prop := Mirrors encodeUser UserFits s t

namespace SameUsers

variable {s : UserStore} {t : UserTable} {user : User} {id : UUID} {email : String}

theorem createUser (h : SameUsers s t) (hfits : UserFits user) (hversion : user.version = 0) :
    Agree SameUsers (s.createUser user) (t.createUser user) := by
  have hrow : userRow user 0 = encodeUser user := by
    rw [encodeUser, hversion]
    rfl
  have hconflict : ∀ u ∈ s, (encodeUser user).conflict (encodeUser u) ↔
      user.id = u.id ∨ user.email = u.email :=
    fun u hu => conflict_encodeUser hfits (h.valid u hu)
  unfold UserTable.createUser
  rw [hrow]
  by_cases htaken : ∃ u ∈ s, user.id = u.id ∨ user.email = u.email
  · obtain ⟨u, hu, hclash⟩ := htaken
    rw [h.encodes.insert_eq_none hu ((hconflict u hu).mpr hclash), UserStore.createUser_of_taken hu hclash]
    exact ⟨rfl, h⟩
  · push Not at htaken
    have hfree : ∀ u ∈ s, (encodeUser user).conflict (encodeUser u) = false := by
      intro u hu
      rw [Bool.eq_false_iff, ne_eq, hconflict u hu]
      exact not_or.mpr (htaken u hu)
    obtain ⟨t', ht', henc⟩ := h.encodes.insert (fun u hu => (htaken u hu).1.symm) hfree
    rw [ht', UserStore.createUser_of_free htaken]
    exact ⟨rfl, h.put henc hfits⟩

theorem getUserByID (h : SameUsers s t) (id : UUID) :
    t.getUserByID id = asSentinel (s.getUserByID id) := by
  unfold UserTable.getUserByID UserStore.getUserByID
  rw [h.encodes.select_get? fun u _ => hasID_encodeUser]
  cases hget : s.get? id with
  | none => rfl
  | some u => exact readUser_encodeUser (h.valid u (Table.get?_eq_some.mp hget).1)

theorem getUserByEmail (h : SameUsers s t) (hemail : NoCapitals email) (order : Nat) :
    t.getUserByEmail email = asSentinel (s.getUserByEmail email order) := by
  unfold UserTable.getUserByEmail UserStore.getUserByEmail
  rw [h.encodes.select_pick (q := fun u => u.email = email)]
  · cases hpick : s.pick (fun u => u.email = email) order with
    | none => rfl
    | some u => exact readUser_encodeUser (h.valid u (Table.pick_eq_some hpick).1)
  · intro u hu
    rw [decide_eq_true_eq]
    exact noCase_iff (h.valid u hu).noCapitals hemail
  · -- Two rows with one address would be in conflict.
    intro u hu v hv hmail hmail'
    rw [decide_eq_true_eq] at hmail hmail'
    by_contra hne
    have hapart := h.encodes.apart UserRow.conflict_symm hu hv hne
    rw [Bool.eq_false_iff, ne_eq, conflict_encodeUser (h.valid u hu) (h.valid v hv)] at hapart
    exact hapart (Or.inr (hmail.trans hmail'.symm))

theorem deleteUser (h : SameUsers s t) (id : UUID) :
    Agree SameUsers (s.deleteUser id) (t.deleteUser id) :=
  ⟨rfl, h.erase fun _ _ => hasID_encodeUser⟩

/-! ### Updates -/

theorem isVersion_encodeUser {u : User} (hu : UserFits u) (hversion : user.version < 2 ^ 63) :
    UserTable.isVersion user (encodeUser u) ↔ u.id = user.id ∧ u.version = user.version := by
  simp only [UserTable.isVersion, encodeUser, userRow, int64_of_lt hu.version, int64_of_lt hversion,
    decide_eq_true_eq, Nat.cast_inj]

theorem rewrite_encodeUser {u : User} (hid : u.id = user.id) (hversion : u.version + 1 < 2 ^ 63) :
    UserTable.rewrite user (encodeUser u) = encodeUser { user with version := u.version + 1 } := by
  have hnext : int64 u.version + 1 = int64 (u.version + 1) := by
    rw [int64_of_lt hversion, int64_of_lt (by omega)]
    rfl
  simp only [UserTable.rewrite, encodeUser, userRow, hnext, hid]

/-- A write that finds no row of its version, and why. -/
theorem updateUser_stale (h : SameUsers s t) (hversion : user.version < 2 ^ 63)
    (hnone : ∀ u ∈ s, u.id = user.id → u.version ≠ user.version) :
    Agree SameUsers (s.updateUser user) (t.updateUser user) := by
  have hstale : ∀ u ∈ s, ¬ UserTable.isVersion user (encodeUser u) := by
    intro u hu hfound
    obtain ⟨hid, heq⟩ := (isVersion_encodeUser (h.valid u hu) hversion).mp hfound
    exact hnone u hu hid heq
  unfold UserTable.updateUser UserStore.updateUser
  rw [h.encodes.update_none hstale, h.encodes.select_eq_nil hstale]
  simp only [List.length_nil, if_pos]
  rw [h.encodes.select_get? fun u _ => hasID_encodeUser]
  cases hget : s.get? user.id with
  | none => exact ⟨rfl, h⟩
  | some u =>
    obtain ⟨hu, hid⟩ := Table.get?_eq_some.mp hget
    simp only [hnone u hu hid, ne_eq, not_false_eq_true, if_true]
    exact ⟨rfl, h⟩

theorem updateUser (h : SameUsers s t) (hemail : NoCapitals user.email)
    (htimes : ∀ time ∈ userTimes user, InRange time) (hversion : user.version + 1 < 2 ^ 63) :
    Agree SameUsers (s.updateUser user) (t.updateUser user) := by
  have hlt : user.version < 2 ^ 63 := by omega
  by_cases hcurrent : ∃ u ∈ s, u.id = user.id ∧ u.version = user.version
  case neg =>
    exact h.updateUser_stale hlt fun u hu hid heq => hcurrent ⟨u, hu, hid, heq⟩
  obtain ⟨u, hu, hid, heq⟩ := hcurrent
  have hnew : UserFits { user with version := u.version + 1 } := ⟨hemail, htimes, heq ▸ hversion⟩
  have hfound : ∀ v ∈ s, UserTable.isVersion user (encodeUser v) ↔ v = u := by
    intro v hv
    rw [isVersion_encodeUser (h.valid v hv) hlt]
    constructor
    · rintro ⟨hid', -⟩
      exact Table.eq_of_mem hv hu (hid'.trans hid.symm)
    · rintro rfl
      exact ⟨hid, heq⟩
  have hset := rewrite_encodeUser hid (heq ▸ hversion)
  have hselect : t.select (UserTable.isVersion user) = [encodeUser u] :=
    h.encodes.select_eq_singleton hu ((hfound u hu).mpr rfl) fun v hv hv' => (hfound v hv).mp hv'
  unfold UserTable.updateUser
  rw [hselect]
  by_cases htaken : ∃ v ∈ s, v.id ≠ user.id ∧ v.email = user.email
  · obtain ⟨v, hv, hne, hmail⟩ := htaken
    have hclash := (conflict_encodeUser hnew (h.valid v hv)).mpr (Or.inr hmail.symm)
    have hother : v ≠ u := fun huv => hne (huv ▸ hid)
    rw [h.encodes.update_eq_none UserRow.conflict_symm hu hfound hset hid.symm hv hother hclash,
      UserStore.updateUser_of_taken hu hid heq hv hne hmail]
    exact ⟨rfl, h⟩
  · push Not at htaken
    have hfree : ∀ v ∈ s, v ≠ u →
        (encodeUser { user with version := u.version + 1 }).conflict (encodeUser v) = false := by
      intro v hv hne
      rw [Bool.eq_false_iff, ne_eq, conflict_encodeUser hnew (h.valid v hv)]
      have hid' : v.id ≠ user.id := fun heq' => hne (Table.eq_of_mem hv hu (heq'.trans hid.symm))
      rintro (hsame | hsame)
      · exact hid' hsame.symm
      · exact htaken v hv hid' hsame.symm
    obtain ⟨t', ht', henc⟩ := h.encodes.update UserRow.conflict_symm hu hfound hset hid.symm hfree
    rw [ht', UserStore.updateUser_of_free hu hid heq htaken]
    exact ⟨rfl, h.put henc hnew⟩

end SameUsers

end Sulis.Sqlite
