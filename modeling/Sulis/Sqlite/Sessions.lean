-- SUMMARY: The SQLite session store, and that it does as the in-memory one.
import Sulis.Model.Memstore
import Sulis.Sqlite.Scan

/-!
# The SQLite session store

`session.go` over the table `sessions`, whose primary key is the ID and whose token
hashes are unique.
-/

namespace Sulis.Sqlite

open Relational Store Sulis.Sql

/-- `encoding/json` on a map of metadata; `none` is an error. -/
class Json where
  marshal : List (String × String) → Option String
  unmarshal : String → Option (List (String × String))

/-! ## Rows -/

structure SessionRow where
  id : UUID
  userID : UUID
  tokenHash : String
  expiresAt : String
  createdAt : String
  authenticatedAt : String
  method : String
  lastSeenAt : String
  idleExpiresAt : Option String
  ip : String
  userAgent : String
  metadata : Option String
  deriving DecidableEq, Repr

/-- `PRIMARY KEY` on the ID and `UNIQUE` on the hash -/
def SessionRow.conflict (a b : SessionRow) : Bool := a.id = b.id ∨ a.tokenHash = b.tokenHash

abbrev SessionTable : Type := Relation SessionRow.conflict

def sessionRow (session : Session) (metadata : Option String) : SessionRow where
  id := session.id
  userID := session.userID
  tokenHash := session.tokenHash
  expiresAt := formatTime session.expiresAt
  createdAt := formatTime session.createdAt
  authenticatedAt := formatTime session.authenticatedAt
  method := session.method.name
  lastSeenAt := formatTime session.lastSeenAt
  idleExpiresAt := nullableTime session.idleExpiresAt
  ip := session.ip
  userAgent := session.userAgent
  metadata := metadata

section

variable [Json]

/-- A nil map is `NULL`. -/
def marshalJSON : Option (List (String × String)) → Result Err (Option String)
  | none => .ok none
  | some metadata =>
    match Json.marshal metadata with
    | some text => .ok (some text)
    | none => .error (.storage "encoding a JSON column")

def unmarshalJSON : Option String → Result Err (Option (List (String × String)))
  | none => .ok none
  | some text =>
    if text = "" then .ok none
    else
      match Json.unmarshal text with
      | some metadata => .ok (some metadata)
      | none => .error (.storage "decoding a JSON column")

/-- `scanSession`, of a row that is there. -/
def readSession (row : SessionRow) : Result Err Session := do
  let expiresAt ← readTime row.expiresAt
  let createdAt ← readTime row.createdAt
  let authenticatedAt ← readTime row.authenticatedAt
  let lastSeenAt ← readTime row.lastSeenAt
  let idleExpiresAt ← readNullableTime row.idleExpiresAt
  let metadata ← unmarshalJSON row.metadata
  return {
    id := row.id
    userID := row.userID
    tokenHash := row.tokenHash
    expiresAt := expiresAt
    createdAt := createdAt
    authenticatedAt := authenticatedAt
    method := ⟨row.method⟩
    lastSeenAt := lastSeenAt
    idleExpiresAt := idleExpiresAt
    ip := row.ip
    userAgent := row.userAgent
    metadata := metadata }

/-! ## Calls -/

namespace SessionTable

/-- `WHERE id = ?` -/
def hasID (id : UUID) (row : SessionRow) : Bool := row.id = id

/-- `WHERE user_id = ?` -/
def ownedBy (userID : UUID) (row : SessionRow) : Bool := row.userID = userID

/-- `WHERE id = ? AND user_id = ?` -/
def isOwn (userID id : UUID) (row : SessionRow) : Bool := row.id = id ∧ row.userID = userID

def createSession (t : SessionTable) (session : Session) : Result Err Unit × SessionTable :=
  match marshalJSON session.metadata with
  | .error err => (.error err, t)
  | .ok metadata =>
    match t.insert (sessionRow session metadata) with
    | some t' => (.ok (), t')
    | none => (.error (.storage "creating a session"), t)

def getSessionByTokenHash (t : SessionTable) (tokenHash : String) : Result Err Session :=
  scanRow .sessionNotFound readSession (t.select fun row => row.tokenHash = tokenHash)

def listUserSessions (t : SessionTable) (userID : UUID) : Result Err (List Session) :=
  scanRows readSession (t.select (ownedBy userID))

def deleteSession (t : SessionTable) (userID id : UUID) : Result Err Unit × SessionTable :=
  if (t.select (isOwn userID id)).length = 0 then (.error (.sentinel .sessionNotFound), t)
  else (.ok (), t.delete (isOwn userID id))

def deleteUserSessions (t : SessionTable) (userID : UUID) : Result Err Unit × SessionTable :=
  (.ok (), t.delete (ownedBy userID))

def deleteUserSessionsExcept (t : SessionTable) (userID keepSessionID : UUID) :
    Result Err Unit × SessionTable :=
  (.ok (), t.delete fun row => row.userID = userID ∧ row.id ≠ keepSessionID)

/-- The texts are compared, not the instants. -/
def cleanExpired (t : SessionTable) (now : Time) : Result Err Unit × SessionTable :=
  (.ok (), t.delete fun row => row.expiresAt < formatTime now)

/-- `UPDATE sessions SET … WHERE id = ?`, where no row is an error. -/
def stamp (t : SessionTable) (id : UUID) (set : SessionRow → SessionRow) (doing : String) :
    Result Err Unit × SessionTable :=
  match t.update (hasID id) set with
  | none => (.error (.storage doing), t)
  | some t' =>
    if (t.select (hasID id)).length = 0 then (.error (.sentinel .sessionNotFound), t')
    else (.ok (), t')

def updateAuthenticatedAt (t : SessionTable) (id : UUID) (at_ : Time) :
    Result Err Unit × SessionTable :=
  t.stamp id (fun row => { row with authenticatedAt := formatTime at_ })
    "stamping a session's authenticated_at"

def touchSession (t : SessionTable) (id : UUID) (lastSeen : Time) (idleExpires : Option Time) :
    Result Err Unit × SessionTable :=
  t.stamp id
    (fun row =>
      { row with lastSeenAt := formatTime lastSeen, idleExpiresAt := nullableTime idleExpires })
    "touching a session"

end SessionTable

end

/-! ## Sessions the columns can hold -/

def sessionTimes (session : Session) : List Time :=
  [session.expiresAt, session.createdAt, session.authenticatedAt, session.lastSeenAt] ++
    session.idleExpiresAt.toList

structure SessionFits (session : Session) : Prop where
  times : ∀ t ∈ sessionTimes session, InRange t
  noMetadata : session.metadata = none

def encodeSession (session : Session) : SessionRow := sessionRow session none

theorem SessionRow.conflict_symm (a b : SessionRow) : a.conflict b = b.conflict a := by
  simp only [conflict, eq_comm]

theorem conflict_encodeSession {a b : Session} :
    (encodeSession a).conflict (encodeSession b) ↔ a.id = b.id ∨ a.tokenHash = b.tokenHash :=
  decide_eq_true_iff

theorem hasID_encodeSession {id : UUID} {sess : Session} :
    SessionTable.hasID id (encodeSession sess) ↔ sess.id = id :=
  decide_eq_true_iff

theorem SessionFits.inRange {sess : Session} (h : SessionFits sess) :
    InRange sess.expiresAt ∧ InRange sess.createdAt ∧ InRange sess.authenticatedAt ∧
      InRange sess.lastSeenAt ∧ ∀ t, sess.idleExpiresAt = some t → InRange t := by
  have htimes := h.times
  simp only [sessionTimes, List.mem_append, List.mem_cons, Option.mem_toList] at htimes
  exact ⟨htimes _ (by simp), htimes _ (by simp), htimes _ (by simp), htimes _ (by simp),
    fun t ht => htimes t (by simp [ht])⟩

theorem readSession_encodeSession [Json] {sess : Session} (h : SessionFits sess) :
    readSession (encodeSession sess) = .ok sess := by
  obtain ⟨hexpires, hcreated, hauth, hseen, hidle⟩ := h.inRange
  simp only [readSession, encodeSession, sessionRow, readTime_formatTime hexpires,
    readTime_formatTime hcreated, readTime_formatTime hauth, readTime_formatTime hseen,
    readNullableTime_nullableTime hidle, unmarshalJSON, ← h.noMetadata]
  rfl

/-- The text of the deadline has not passed if the deadline has not. -/
theorem sessionRow_kept {sess : Session} {now : Time} (metadata : Option String)
    (h : InRange sess.expiresAt) (hnow : InRange now) :
    decide (¬ sess.expiresAt < now) = !decide ((sessionRow sess metadata).expiresAt < formatTime now) := by
  simp only [sessionRow, formatTime_lt_iff h hnow, decide_not]

/-! ## Doing as the in-memory store does -/

/-- The table has the rows of the in-memory store. -/
abbrev SameSessions (s : SessionStore) (t : SessionTable) : Prop := Mirrors encodeSession SessionFits s t

namespace SameSessions

variable {s : SessionStore} {t : SessionTable} {session : Session} {userID id : UUID}

theorem createSession [Json] (h : SameSessions s t) (hfits : SessionFits session)
    (hfresh : ∀ sess ∈ s, sess.id ≠ session.id ∧ sess.tokenHash ≠ session.tokenHash) :
    Agree SameSessions (s.createSession session) (t.createSession session) := by
  have hfree : ∀ sess ∈ s, (encodeSession session).conflict (encodeSession sess) = false := by
    intro sess hsess
    rw [Bool.eq_false_iff, ne_eq, conflict_encodeSession, not_or]
    exact ⟨(hfresh sess hsess).1.symm, (hfresh sess hsess).2.symm⟩
  obtain ⟨t', ht', henc⟩ := h.encodes.insert (fun sess hsess => (hfresh sess hsess).1) hfree
  unfold SessionTable.createSession
  simp only [hfits.noMetadata, marshalJSON]
  change Agree _ _ (match t.insert (encodeSession session) with | some t' => _ | none => _)
  rw [ht']
  exact ⟨rfl, h.put henc hfits⟩

theorem getSessionByTokenHash [Json] (h : SameSessions s t) (tokenHash : String) (order : Nat) :
    t.getSessionByTokenHash tokenHash = asSentinel (s.getSessionByTokenHash tokenHash order) := by
  unfold SessionTable.getSessionByTokenHash SessionStore.getSessionByTokenHash
  rw [h.encodes.select_pick (q := fun sess => sess.tokenHash = tokenHash)]
  · cases hpick : s.pick (fun sess => sess.tokenHash = tokenHash) order with
    | none => rfl
    | some sess => exact readSession_encodeSession (h.valid sess (Table.pick_eq_some hpick).1)
  · exact fun sess _ => Iff.rfl
  · -- Two rows with one hash would be in conflict.
    intro a ha b hb hhash hhash'
    rw [decide_eq_true_eq] at hhash hhash'
    by_contra hne
    have hapart := h.encodes.apart SessionRow.conflict_symm ha hb hne
    rw [Bool.eq_false_iff, ne_eq, conflict_encodeSession] at hapart
    exact hapart (Or.inr (hhash.trans hhash'.symm))

theorem listUserSessions [Json] (h : SameSessions s t) (userID : UUID) :
    ∃ found, t.listUserSessions userID = .ok found ∧ found.Perm (s.listUserSessions userID) :=
  scanRows_perm h.encodes.select fun sess hsess =>
    readSession_encodeSession (h.valid sess (List.mem_of_mem_filter hsess))

theorem deleteSession (h : SameSessions s t) (userID id : UUID) :
    Agree SameSessions (s.deleteSession userID id) (t.deleteSession userID id) := by
  have hfound : ∀ sess : Session, SessionTable.isOwn userID id (encodeSession sess) ↔
      sess.id = id ∧ sess.userID = userID := fun sess => decide_eq_true_iff
  unfold SessionTable.deleteSession
  by_cases hown : ∃ sess ∈ s, sess.id = id ∧ sess.userID = userID
  · obtain ⟨sess, hsess, rfl, rfl⟩ := hown
    rw [SessionStore.deleteSession_of_mem hsess]
    have hsame : ∀ b ∈ s, b.id = sess.id → b = sess := fun b hb hid => Table.eq_of_mem hb hsess hid
    have hselect := h.encodes.select_eq_singleton hsess ((hfound sess).mpr ⟨rfl, rfl⟩)
      fun b hb hb' => hsame b hb ((hfound b).mp hb').1
    simp only [hselect, List.length_singleton, one_ne_zero, if_false]
    refine ⟨rfl, h.erase fun b hb => (hfound b).trans ⟨And.left, fun hid => ⟨hid, ?_⟩⟩⟩
    rw [hsame b hb hid]
  · have hnone : ∀ sess ∈ s, ¬ (sess.id = id ∧ sess.userID = userID) :=
      fun sess hsess hboth => hown ⟨sess, hsess, hboth⟩
    have hselect := h.encodes.select_eq_nil fun sess hsess => mt (hfound sess).mp (hnone sess hsess)
    simp only [hselect, List.length_nil, if_true]
    rcases SessionStore.deleteSession_cases s userID id with herr | ⟨sess, hsess, hid, huser, -⟩
    · rw [herr]
      exact ⟨rfl, h⟩
    · exact absurd ⟨hid, huser⟩ (hnone sess hsess)

theorem deleteUserSessions (h : SameSessions s t) (userID : UUID) :
    Agree SameSessions (s.deleteUserSessions userID) (t.deleteUserSessions userID) :=
  ⟨rfl, h.delete fun _ _ => decide_not⟩

theorem deleteUserSessionsExcept (h : SameSessions s t) (userID keepSessionID : UUID) :
    Agree SameSessions (s.deleteUserSessionsExcept userID keepSessionID)
      (t.deleteUserSessionsExcept userID keepSessionID) :=
  ⟨rfl, h.delete fun _ _ => decide_not⟩

theorem cleanExpired {now : Time} (h : SameSessions s t) (hnow : InRange now) :
    Agree SameSessions (s.cleanExpired now) (t.cleanExpired now) :=
  ⟨rfl, h.delete fun sess hsess => sessionRow_kept none (h.valid sess hsess).inRange.1 hnow⟩

/-! ### Stamps -/

/-- A stamp on one session, if its columns are those of the session the in-memory store leaves. -/
theorem stamp {set : SessionRow → SessionRow} {doing : String} (h : SameSessions s t)
    (update : Session → Session) (hset : ∀ sess, set (encodeSession sess) = encodeSession (update sess))
    (hkeep : ∀ sess, (update sess).id = sess.id ∧ (update sess).tokenHash = sess.tokenHash)
    (hfits : ∀ sess, SessionFits sess → SessionFits (update sess)) (id : UUID) :
    Agree SameSessions
      (match s.get? id with
        | none => (.error Err.sessionNotFound, s)
        | some sess => (.ok (), s.put (update sess)))
      (t.stamp id set doing) := by
  unfold SessionTable.stamp
  rw [h.encodes.select_get? fun _ _ => hasID_encodeSession]
  cases hget : s.get? id with
  | none =>
    have hnone : ∀ sess ∈ s, ¬ SessionTable.hasID id (encodeSession sess) :=
      fun sess hsess => mt hasID_encodeSession.mp (Table.get?_eq_none.mp hget sess hsess)
    rw [h.encodes.update_none hnone]
    exact ⟨rfl, h⟩
  | some sess =>
    obtain ⟨hsess, rfl⟩ := Table.get?_eq_some.mp hget
    have hfound : ∀ b ∈ s, SessionTable.hasID sess.id (encodeSession b) ↔ b = sess := by
      intro b hb
      rw [hasID_encodeSession]
      exact ⟨fun hid => Table.eq_of_mem hb hsess hid, fun heq => by rw [heq]⟩
    have hindex : ∀ row, (encodeSession (update sess)).conflict row = (encodeSession sess).conflict row := by
      intro row
      rw [SessionRow.conflict, SessionRow.conflict, decide_eq_decide]
      simp only [encodeSession, sessionRow, (hkeep sess).1, (hkeep sess).2]
    obtain ⟨t', ht', henc⟩ := h.encodes.restamp SessionRow.conflict_symm hsess hfound (hset sess)
      (hkeep sess).1 hindex
    rw [ht']
    exact ⟨rfl, h.put henc (hfits sess (h.valid sess hsess))⟩

theorem updateAuthenticatedAt {at_ : Time} (h : SameSessions s t) (hat : InRange at_) (id : UUID) :
    Agree SameSessions (s.updateAuthenticatedAt id at_) (t.updateAuthenticatedAt id at_) := by
  refine h.stamp (fun sess => { sess with authenticatedAt := at_ }) (fun _ => rfl)
    (fun _ => ⟨rfl, rfl⟩) (fun sess hfits => ⟨?_, hfits.noMetadata⟩) id
  obtain ⟨hexpires, hcreated, -, hseen, hidle⟩ := hfits.inRange
  simpa [sessionTimes, hexpires, hcreated, hat, hseen] using hidle

theorem touchSession {lastSeen : Time} {idleExpires : Option Time} (h : SameSessions s t)
    (hlast : InRange lastSeen) (hidle : ∀ time, idleExpires = some time → InRange time) (id : UUID) :
    Agree SameSessions (s.touchSession id lastSeen idleExpires) (t.touchSession id lastSeen idleExpires) := by
  refine h.stamp
    (fun sess => { sess with lastSeenAt := lastSeen, idleExpiresAt := idleExpires })
    (fun _ => rfl) (fun _ => ⟨rfl, rfl⟩) (fun sess hfits => ⟨?_, hfits.noMetadata⟩) id
  obtain ⟨hexpires, hcreated, hauth, -, -⟩ := hfits.inRange
  simpa [sessionTimes, hexpires, hcreated, hauth, hlast] using hidle

end SameSessions

end Sulis.Sqlite
