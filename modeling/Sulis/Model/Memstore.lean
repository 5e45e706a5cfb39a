-- SUMMARY: The in-memory user, session and token stores, each method one atomic step on a keyed table.
import Sulis.Model.Types
import Sulis.Store.Table

/-!
# The in-memory stores

`memstore/user.go`, `memstore/session.go`, `memstore/token.go`. Every method
holds the store's mutex from start to end, so it is a function from one table to
the next. The copies the Go methods make on the way in and out are what Lean
values are anyway.

Methods that stop at the first match of a map iteration take the iteration order
as their last argument.
-/

namespace Sulis

abbrev UserStore : Type := Store.Table User.id
abbrev SessionStore : Type := Store.Table Session.id
abbrev TokenStore : Type := Store.Table Token.id

/-! ## Users -/

namespace UserStore

/-- `emailTakenLocked`: a user other than `exceptID` holds the address. -/
def emailTaken (s : UserStore) (email : String) (exceptID : UUID) : Bool :=
  s.rows.any (fun u => u.id ≠ exceptID ∧ u.email = email)

def createUser (s : UserStore) (user : User) : Except Err Unit × UserStore :=
  if (s.get? user.id).isSome then (.error .userAlreadyExists, s)
  else if s.emailTaken user.email user.id then (.error .userAlreadyExists, s)
  else (.ok (), s.put user)

def getUserByID (s : UserStore) (id : UUID) : Except Err User :=
  match s.get? id with
  | some u => .ok u
  | none => .error .userNotFound

def getUserByEmail (s : UserStore) (email : String) (order : Nat) : Except Err User :=
  match s.pick (fun u => u.email = email) order with
  | some u => .ok u
  | none => .error .userNotFound

/-- The write lands only on the version it was made from, and the row it leaves
    has the next one. -/
def updateUser (s : UserStore) (user : User) : Except Err Unit × UserStore :=
  match s.get? user.id with
  | none => (.error .userNotFound, s)
  | some existing =>
    if existing.version ≠ user.version then (.error .concurrentUpdate, s)
    else if s.emailTaken user.email user.id then (.error .userAlreadyExists, s)
    else (.ok (), s.put { user with version := existing.version + 1 })

/-- Deleting a user who is not there is no error. -/
def deleteUser (s : UserStore) (id : UUID) : Except Err Unit × UserStore := (.ok (), s.erase id)

theorem emailTaken_eq_false {s : UserStore} {email : String} {exceptID : UUID} :
    s.emailTaken email exceptID = false ↔ ∀ u ∈ s, u.id ≠ exceptID → u.email ≠ email := by
  simp [emailTaken, Store.Table.mem_def]

/-- A user is created only under an ID and an address nobody holds. -/
theorem createUser_cases (s : UserStore) (user : User) :
    s.createUser user = (.error .userAlreadyExists, s) ∨
      ((∀ u ∈ s, u.id ≠ user.id) ∧ (∀ u ∈ s, u.email ≠ user.email) ∧
        s.createUser user = (.ok (), s.put user)) := by
  unfold createUser
  split
  · exact Or.inl rfl
  · rename_i hid
    split
    · exact Or.inl rfl
    · rename_i hemail
      simp only [Bool.not_eq_true, Option.isSome_eq_false_iff, Option.isNone_iff_eq_none,
        Store.Table.get?_eq_none, emailTaken_eq_false] at hid hemail
      exact Or.inr ⟨hid, fun u hu => hemail u hu (hid u hu), rfl⟩

theorem createUser_of_taken {s : UserStore} {user u : User} (hu : u ∈ s)
    (hclash : user.id = u.id ∨ user.email = u.email) :
    s.createUser user = (.error .userAlreadyExists, s) := by
  rcases createUser_cases s user with herr | ⟨hid, hemail, -⟩
  · exact herr
  · rcases hclash with h | h
    · exact absurd h.symm (hid u hu)
    · exact absurd h.symm (hemail u hu)

theorem createUser_of_free {s : UserStore} {user : User}
    (hfree : ∀ u ∈ s, user.id ≠ u.id ∧ user.email ≠ u.email) :
    s.createUser user = (.ok (), s.put user) := by
  have hid : s.get? user.id = none :=
    Store.Table.get?_eq_none.mpr fun u hu => (hfree u hu).1.symm
  have hemail : s.emailTaken user.email user.id = false :=
    emailTaken_eq_false.mpr fun u hu _ => (hfree u hu).2.symm
  simp [createUser, hid, hemail]

theorem getUserByID_eq_ok {s : UserStore} {id : UUID} {u : User} :
    s.getUserByID id = .ok u ↔ u ∈ s ∧ u.id = id := by
  rw [← Store.Table.get?_eq_some, getUserByID]
  cases s.get? id <;> simp

theorem getUserByEmail_eq_ok {s : UserStore} {email : String} {order : Nat} {u : User}
    (h : s.getUserByEmail email order = .ok u) : u ∈ s ∧ u.email = email := by
  unfold getUserByEmail at h
  split at h
  · rename_i u' hpick
    cases h
    obtain ⟨hmem, hp⟩ := Store.Table.pick_eq_some hpick
    exact ⟨hmem, by simpa using hp⟩
  · cases h

theorem getUserByEmail_eq_error {s : UserStore} {email : String} {order : Nat} {err : Err}
    (h : s.getUserByEmail email order = .error err) : ∀ u ∈ s, u.email ≠ email := by
  unfold getUserByEmail at h
  split at h
  · cases h
  · rename_i hpick
    intro u hu
    simpa using Store.Table.pick_eq_none.mp hpick u hu

theorem getUserByID_error {s : UserStore} {id : UUID} {err : Err}
    (h : s.getUserByID id = .error err) : err = .userNotFound := by
  unfold getUserByID at h
  split at h
  · cases h
  · exact (Except.error.inj h).symm

theorem getUserByEmail_error {s : UserStore} {email : String} {order : Nat} {err : Err}
    (h : s.getUserByEmail email order = .error err) : err = .userNotFound := by
  unfold getUserByEmail at h
  split at h
  · cases h
  · exact (Except.error.inj h).symm

/-- Why an update is refused. -/
theorem updateUser_error {s : UserStore} {user : User} {err : Err}
    (h : (s.updateUser user).1 = .error err) :
    err = .concurrentUpdate ∨ err = .userNotFound ∨
      (err = .userAlreadyExists ∧ ∃ u ∈ s, u.id ≠ user.id ∧ u.email = user.email) := by
  unfold updateUser at h
  split at h
  · exact Or.inr (Or.inl (Except.error.inj h).symm)
  · split at h
    · exact Or.inl (Except.error.inj h).symm
    · split at h
      · rename_i htaken
        refine Or.inr (Or.inr ⟨(Except.error.inj h).symm, ?_⟩)
        by_contra hnot
        push Not at hnot
        rw [emailTaken_eq_false.mpr hnot] at htaken
        cases htaken
      · cases h

/-- An update lands only on the version it was made from, and not on an address
    somebody else holds. -/
theorem updateUser_cases (s : UserStore) (user : User) :
    (∃ err, s.updateUser user = (.error err, s)) ∨
      ∃ existing ∈ s, existing.id = user.id ∧ existing.version = user.version ∧
        (∀ u ∈ s, u.id ≠ user.id → u.email ≠ user.email) ∧
        s.updateUser user = (.ok (), s.put { user with version := user.version + 1 }) := by
  unfold updateUser
  split
  · exact Or.inl ⟨_, rfl⟩
  · rename_i existing hget
    obtain ⟨hmem, hid⟩ := Store.Table.get?_eq_some.mp hget
    split
    · exact Or.inl ⟨_, rfl⟩
    · rename_i hversion
      have hversion : existing.version = user.version := not_not.mp hversion
      split
      · exact Or.inl ⟨_, rfl⟩
      · rename_i hemail
        rw [Bool.not_eq_true, emailTaken_eq_false] at hemail
        exact Or.inr ⟨existing, hmem, hid, hversion, hemail, by rw [hversion]⟩

/-- An update is refused as outdated exactly if the row has gone on. -/
theorem updateUser_outdated_iff {s : UserStore} {user u : User} (hu : u ∈ s) (hid : u.id = user.id) :
    (s.updateUser user).1 = .error .concurrentUpdate ↔ u.version ≠ user.version := by
  unfold updateUser
  rw [Store.Table.get?_eq_some.mpr ⟨hu, hid⟩]
  dsimp only
  split
  · rename_i hne
    exact iff_of_true rfl hne
  · rename_i heq
    refine iff_of_false ?_ heq
    split
    · exact fun h => by cases h
    · exact fun h => by cases h

theorem updateUser_of_taken {s : UserStore} {user u v : User} (hu : u ∈ s) (hid : u.id = user.id)
    (hversion : u.version = user.version) (hv : v ∈ s) (hne : v.id ≠ user.id)
    (hemail : v.email = user.email) : s.updateUser user = (.error .userAlreadyExists, s) := by
  have htaken : s.emailTaken user.email user.id = true :=
    List.any_eq_true.mpr ⟨v, hv, by simp [hne, hemail]⟩
  simp [updateUser, Store.Table.get?_eq_some.mpr ⟨hu, hid⟩, hversion, htaken]

theorem updateUser_of_free {s : UserStore} {user u : User} (hu : u ∈ s) (hid : u.id = user.id)
    (hversion : u.version = user.version) (hfree : ∀ v ∈ s, v.id ≠ user.id → v.email ≠ user.email) :
    s.updateUser user = (.ok (), s.put { user with version := u.version + 1 }) := by
  simp [updateUser, Store.Table.get?_eq_some.mpr ⟨hu, hid⟩, hversion, emailTaken_eq_false.mpr hfree]

end UserStore

/-! ## Sessions -/

namespace SessionStore

def createSession (s : SessionStore) (session : Session) : Except Err Unit × SessionStore :=
  (.ok (), s.put session)

def getSessionByTokenHash (s : SessionStore) (tokenHash : String) (order : Nat) :
    Except Err Session :=
  match s.pick (fun sess => sess.tokenHash = tokenHash) order with
  | some sess => .ok sess
  | none => .error .sessionNotFound

def listUserSessions (s : SessionStore) (userID : UUID) : List Session :=
  s.rows.filter (fun sess => sess.userID = userID)

/-- Scoped to the owner: somebody else's session is not found. -/
def deleteSession (s : SessionStore) (userID id : UUID) : Except Err Unit × SessionStore :=
  match s.get? id with
  | none => (.error .sessionNotFound, s)
  | some sess =>
    if sess.userID ≠ userID then (.error .sessionNotFound, s)
    else (.ok (), s.erase id)

def deleteUserSessions (s : SessionStore) (userID : UUID) : Except Err Unit × SessionStore :=
  (.ok (), s.filter (fun sess => sess.userID ≠ userID))

def deleteUserSessionsExcept (s : SessionStore) (userID keepSessionID : UUID) :
    Except Err Unit × SessionStore :=
  (.ok (), s.filter (fun sess => ¬ (sess.userID = userID ∧ sess.id ≠ keepSessionID)))

def updateAuthenticatedAt (s : SessionStore) (id : UUID) (at_ : Time) :
    Except Err Unit × SessionStore :=
  match s.get? id with
  | none => (.error .sessionNotFound, s)
  | some sess => (.ok (), s.put { sess with authenticatedAt := at_ })

def touchSession (s : SessionStore) (id : UUID) (lastSeen : Time) (idleExpires : Option Time) :
    Except Err Unit × SessionStore :=
  match s.get? id with
  | none => (.error .sessionNotFound, s)
  | some sess => (.ok (), s.put { sess with lastSeenAt := lastSeen, idleExpiresAt := idleExpires })

def cleanExpired (s : SessionStore) (now : Time) : Except Err Unit × SessionStore :=
  (.ok (), s.filter (fun sess => ¬ sess.expiresAt < now))

theorem getSessionByTokenHash_eq_ok {s : SessionStore} {tokenHash : String} {order : Nat}
    {sess : Session} (h : s.getSessionByTokenHash tokenHash order = .ok sess) :
    sess ∈ s ∧ sess.tokenHash = tokenHash := by
  unfold getSessionByTokenHash at h
  split at h
  · rename_i sess' hpick
    cases h
    obtain ⟨hmem, hp⟩ := Store.Table.pick_eq_some hpick
    exact ⟨hmem, by simpa using hp⟩
  · cases h

/-- The only row with the hash is found in whichever order the rows are visited. -/
theorem getSessionByTokenHash_of_mem {s : SessionStore} {sess : Session} (hmem : sess ∈ s)
    (honly : ∀ sess' ∈ s, sess'.tokenHash = sess.tokenHash → sess' = sess) (order : Nat) :
    s.getSessionByTokenHash sess.tokenHash order = .ok sess := by
  unfold getSessionByTokenHash
  split
  · rename_i sess' hpick
    obtain ⟨hmem', hhash⟩ := Store.Table.pick_eq_some hpick
    rw [honly sess' hmem' (by simpa using hhash)]
  · rename_i hpick
    exact absurd (decide_eq_true rfl) (Store.Table.pick_eq_none.mp hpick sess hmem)

theorem deleteSession_of_mem {s : SessionStore} {sess : Session} (hmem : sess ∈ s) :
    s.deleteSession sess.userID sess.id = (.ok (), s.erase sess.id) := by
  simp [deleteSession, Store.Table.get?_eq_some.mpr ⟨hmem, rfl⟩]

theorem deleteSession_cases (s : SessionStore) (userID id : UUID) :
    s.deleteSession userID id = (.error .sessionNotFound, s) ∨
      ∃ sess ∈ s, sess.id = id ∧ sess.userID = userID ∧
        s.deleteSession userID id = (.ok (), s.erase id) := by
  unfold deleteSession
  split
  · exact Or.inl rfl
  · rename_i sess hget
    obtain ⟨hmem, hid⟩ := Store.Table.get?_eq_some.mp hget
    split
    · exact Or.inl rfl
    · rename_i howner
      exact Or.inr ⟨sess, hmem, hid, not_not.mp howner, rfl⟩

theorem updateAuthenticatedAt_cases (s : SessionStore) (id : UUID) (at_ : Time) :
    s.updateAuthenticatedAt id at_ = (.error .sessionNotFound, s) ∨
      ∃ sess ∈ s, sess.id = id ∧
        s.updateAuthenticatedAt id at_ = (.ok (), s.put { sess with authenticatedAt := at_ }) := by
  unfold updateAuthenticatedAt
  split
  · exact Or.inl rfl
  · rename_i sess hget
    obtain ⟨hmem, hid⟩ := Store.Table.get?_eq_some.mp hget
    exact Or.inr ⟨sess, hmem, hid, rfl⟩

theorem touchSession_cases (s : SessionStore) (id : UUID) (lastSeen : Time)
    (idleExpires : Option Time) :
    s.touchSession id lastSeen idleExpires = (.error .sessionNotFound, s) ∨
      ∃ sess ∈ s, sess.id = id ∧
        s.touchSession id lastSeen idleExpires =
          (.ok (), s.put { sess with lastSeenAt := lastSeen, idleExpiresAt := idleExpires }) := by
  unfold touchSession
  split
  · exact Or.inl rfl
  · rename_i sess hget
    obtain ⟨hmem, hid⟩ := Store.Table.get?_eq_some.mp hget
    exact Or.inr ⟨sess, hmem, hid, rfl⟩

end SessionStore

/-! ## Tokens -/

namespace TokenStore

def createToken (s : TokenStore) (token : Token) : Except Err Unit × TokenStore :=
  (.ok (), s.put token)

/-- Find and mark in one step: of any number of callers one gets the token. -/
def consumeToken (s : TokenStore) (hash : String) (purpose : TokenPurpose) (order : Nat) :
    Except Err Token × TokenStore :=
  match s.pick (fun t => t.tokenHash = hash ∧ t.purpose = purpose) order with
  | none => (.error .tokenNotFound, s)
  | some t =>
    if t.used then (.error .tokenAlreadyUsed, s)
    else (.ok { t with used := true }, s.put { t with used := true })

def deleteExpiredTokens (s : TokenStore) (now : Time) : Except Err Unit × TokenStore :=
  (.ok (), s.filter (fun t => ¬ t.expiresAt < now))

/-- Tokens issued before an account exists name no user and are not deleted. -/
def deleteUserTokens (s : TokenStore) (userID : UUID) (purpose : TokenPurpose) :
    Except Err Unit × TokenStore :=
  if userID = .nil then (.ok (), s)
  else (.ok (), s.filter (fun t => ¬ (t.userID = userID ∧ t.purpose = purpose)))

theorem consumeToken_cases (s : TokenStore) (hash : String) (purpose : TokenPurpose)
    (order : Nat) :
    (∃ err, s.consumeToken hash purpose order = (.error err, s)) ∨
      ∃ t ∈ s, t.tokenHash = hash ∧ t.purpose = purpose ∧ t.used = false ∧
        s.consumeToken hash purpose order =
          (.ok { t with used := true }, s.put { t with used := true }) := by
  unfold consumeToken
  split
  · exact Or.inl ⟨_, rfl⟩
  · rename_i t hpick
    obtain ⟨hmem, hp⟩ := Store.Table.pick_eq_some hpick
    simp only [decide_eq_true_eq] at hp
    split
    · exact Or.inl ⟨_, rfl⟩
    · rename_i hused
      exact Or.inr ⟨t, hmem, hp.1, hp.2, by simpa using hused, rfl⟩

end TokenStore

end Sulis
