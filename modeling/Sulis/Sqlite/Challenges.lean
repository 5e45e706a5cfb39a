-- SUMMARY: The SQLite store of challenges: what is consumed is the last thing saved, once, until its time is up, and sweeps go unnoticed.
import Sulis.Sqlite.Tokens

/-!
# The SQLite challenge store

`ChallengeStore` of `passkey.go` over the table `passkey_challenges`. Unlike the in-memory
store it lets challenges expire: what is consumed too late is deleted and refused, and a
sweep deletes what nobody consumed. As long as the clock does not go back, what a call is
answered depends on the saves and consumptions before it and not on the sweeps.
-/

namespace Sulis.Sqlite

open Relational Store Sulis.Sql

/-! ## Rows -/

structure ChallengeRow where
  challengeKey : String
  sessionData : Bytes
  createdAt : String
  expiresAt : String
  deriving DecidableEq, Repr

/-- `PRIMARY KEY` on the key of the ceremony -/
def ChallengeRow.conflict (a b : ChallengeRow) : Bool := a.challengeKey = b.challengeKey

abbrev ChallengeTable : Type := Relation ChallengeRow.conflict

inductive ChallengeErr
  /-- `ErrChallengeNotFound` of package `sqlite` -/
  | challengeNotFound
  deriving DecidableEq, Repr

def defaultChallengeTTL : Duration := 5 * 60 * 1000000000

/-- `ttl`, of the field `TTL` -/
def ttl (configured : Duration) : Duration :=
  if configured > 0 then configured else defaultChallengeTTL

/-- What `SaveChallenge` stores at a time. -/
def challengeRow (configured : Duration) (key : String) (data : Bytes) (now : Time) : ChallengeRow where
  challengeKey := key
  sessionData := data
  createdAt := formatTime now
  expiresAt := formatTime (now + ttl configured)

/-! ## Calls -/

namespace ChallengeTable

/-- `WHERE challenge_key = ?` -/
def hasKey (key : String) (row : ChallengeRow) : Bool := row.challengeKey = key

/-- `DO UPDATE SET …`: every column but the key is the excluded row's. -/
def overwrite (old excluded : ChallengeRow) : ChallengeRow :=
  { excluded with challengeKey := old.challengeKey }

def saveChallenge (t : ChallengeTable) (configured : Duration) (key : String) (data : Bytes)
    (now : Time) : Result ChallengeErr Unit × ChallengeTable :=
  match t.upsert (challengeRow configured key data now) overwrite with
  | some t' => (.ok (), t')
  | none => (.error (.storage "saving a passkey challenge"), t)

/-- What is made of a row that `DELETE … RETURNING` has deleted. -/
def readChallenge (now : Time) (row : ChallengeRow) : Result ChallengeErr Bytes :=
  match readTime row.expiresAt with
  | .error err => .error err
  | .ok expiry =>
    if ¬ now < expiry then .error (.sentinel .challengeNotFound) else .ok row.sessionData

/-- The row is gone, whatever is made of it. -/
def consumeChallenge (t : ChallengeTable) (key : String) (now : Time) :
    Result ChallengeErr Bytes × ChallengeTable :=
  (scanRow .challengeNotFound (readChallenge now) (t.select (hasKey key)), t.delete (hasKey key))

/-- The texts are compared, not the instants. -/
def deleteExpiredChallenges (t : ChallengeTable) (now : Time) :
    Result ChallengeErr Unit × ChallengeTable :=
  (.ok (), t.delete fun row => row.expiresAt < formatTime now)

end ChallengeTable

/-! ## Challenges that are held -/

/-- A challenge in the table, with the time it was saved at. -/
structure Held where
  key : String
  data : Bytes
  savedAt : Time
  deriving DecidableEq, Repr

variable {configured : Duration}

def encodeHeld (configured : Duration) (held : Held) : ChallengeRow :=
  challengeRow configured held.key held.data held.savedAt

/-- The year of the deadline has four digits. -/
def HeldFits (configured : Duration) (held : Held) : Prop := InRange (held.savedAt + ttl configured)

abbrev SameChallenges (configured : Duration) (s : Table Held.key) (t : ChallengeTable) : Prop :=
  Mirrors (encodeHeld configured) (HeldFits configured) s t

theorem hasKey_encodeHeld {key : String} {held : Held} :
    ChallengeTable.hasKey key (encodeHeld configured held) ↔ held.key = key :=
  decide_eq_true_iff

namespace SameChallenges

variable {s : Table Held.key} {t : ChallengeTable} {key : String} {now : Time}

theorem saveChallenge (h : SameChallenges configured s t) (hnow : InRange (now + ttl configured))
    (key : String) (data : Bytes) :
    ∃ t', t.saveChallenge configured key data now = (.ok (), t') ∧
      SameChallenges configured (s.put ⟨key, data, now⟩) t' := by
  have hset : ∀ held : Held, held.key = key → ChallengeTable.overwrite (encodeHeld configured held)
      (encodeHeld configured ⟨key, data, now⟩) = encodeHeld configured ⟨key, data, now⟩ := by
    intro held hkey
    simp only [ChallengeTable.overwrite, encodeHeld, challengeRow, hkey]
  obtain ⟨t', ht', henc⟩ := h.encodes.upsert (a := ⟨key, data, now⟩)
    (fun a b => decide_eq_true_iff.trans eq_comm) (fun a b => by simp only [ChallengeRow.conflict, eq_comm]) hset
  refine ⟨t', ?_, h.put henc hnow⟩
  unfold ChallengeTable.saveChallenge
  change (match t.upsert (encodeHeld configured ⟨key, data, now⟩) _ with | some t' => _ | none => _) = _
  rw [ht']

/-- What a consumption makes of what is held. -/
def answer (configured : Duration) (now : Time) : Option Held → Result ChallengeErr Bytes
  | some held =>
    if now < held.savedAt + ttl configured then .ok held.data
    else .error (.sentinel .challengeNotFound)
  | none => .error (.sentinel .challengeNotFound)

theorem consumeChallenge (h : SameChallenges configured s t) (key : String) (now : Time) :
    (t.consumeChallenge key now).1 = answer configured now (s.get? key) ∧
      SameChallenges configured (s.erase key) (t.consumeChallenge key now).2 := by
  refine ⟨?_, h.erase fun held _ => hasKey_encodeHeld⟩
  unfold ChallengeTable.consumeChallenge
  rw [h.encodes.select_get? fun held _ => hasKey_encodeHeld]
  cases hget : s.get? key with
  | none => rfl
  | some held =>
    have hfits := h.valid held (Table.get?_eq_some.mp hget).1
    simp only [Option.toList_some, List.map_cons, List.map_nil, scanRow, answer,
      ChallengeTable.readChallenge, encodeHeld, challengeRow, readTime_formatTime hfits]
    rw [ite_not]

theorem deleteExpiredChallenges (h : SameChallenges configured s t) (hnow : InRange now) :
    SameChallenges configured (s.filter fun held => ¬ held.savedAt + ttl configured < now)
      (t.deleteExpiredChallenges now).2 := by
  refine h.delete fun held hheld => ?_
  simp only [encodeHeld, challengeRow, formatTime_lt_iff (h.valid held hheld) hnow, decide_not]

end SameChallenges

/-! ## Sequences of calls -/

inductive ChallengeOp
  | saveChallenge (key : String) (data : Bytes)
  | consumeChallenge (key : String)
  | deleteExpiredChallenges

structure ChallengeCall where
  op : ChallengeOp
  /-- `time.Now()` -/
  now : Time

inductive ChallengeReply
  | done (res : Result ChallengeErr Unit)
  | data (res : Result ChallengeErr Bytes)
  deriving DecidableEq

def ChallengeTable.step (t : ChallengeTable) (configured : Duration) (call : ChallengeCall) :
    ChallengeReply × ChallengeTable :=
  match call.op with
  | .saveChallenge key data =>
    let res := t.saveChallenge configured key data call.now
    (.done res.1, res.2)
  | .consumeChallenge key =>
    let res := t.consumeChallenge key call.now
    (.data res.1, res.2)
  | .deleteExpiredChallenges =>
    let res := t.deleteExpiredChallenges call.now
    (.done res.1, res.2)

/-- The replies to a sequence of calls. -/
def ChallengeTable.run (t : ChallengeTable) (configured : Duration) :
    List ChallengeCall → List ChallengeReply
  | [] => []
  | call :: rest =>
    (t.step configured call).1 :: ChallengeTable.run (t.step configured call).2 configured rest

/-- What was last saved under a key, unless it was consumed. The most recent call comes
    first. Sweeps are passed over. -/
def lastSave (key : String) : List ChallengeCall → Option Held
  | [] => none
  | ⟨.saveChallenge key' data, now⟩ :: past =>
    if key' = key then some ⟨key, data, now⟩ else lastSave key past
  | ⟨.consumeChallenge key', _⟩ :: past => if key' = key then none else lastSave key past
  | ⟨.deleteExpiredChallenges, _⟩ :: past => lastSave key past

/-- What a call is answered, by the calls before it. -/
def expected (configured : Duration) (past : List ChallengeCall) (call : ChallengeCall) :
    ChallengeReply :=
  match call.op with
  | .saveChallenge .. | .deleteExpiredChallenges => .done (.ok ())
  | .consumeChallenge key =>
    .data (SameChallenges.answer configured call.now (lastSave key past))

def expectedRun (configured : Duration) (past : List ChallengeCall) :
    List ChallengeCall → List ChallengeReply
  | [] => []
  | call :: rest => expected configured past call :: expectedRun configured (call :: past) rest

/-- The years of the times that are stored or compared have four digits. -/
def ChallengeCall.Fits (configured : Duration) (call : ChallengeCall) : Prop :=
  InRange call.now ∧ InRange (call.now + ttl configured)

/-- The table holds what was last saved under each key, or that has expired by now. -/
def Remembers (configured : Duration) (past : List ChallengeCall) (now : Time) (s : Table Held.key) :
    Prop :=
  ∀ key, s.get? key = lastSave key past ∨
    s.get? key = none ∧ ∀ held, lastSave key past = some held → held.savedAt + ttl configured ≤ now

namespace Remembers

variable {past : List ChallengeCall} {s : Table Held.key} {now now' : Time} {key : String} {data : Bytes}

theorem mono (h : Remembers configured past now s) (hle : now ≤ now') :
    Remembers configured past now' s := by
  intro key
  refine (h key).imp_right (And.imp_right fun hexpired held hheld => ?_)
  exact (hexpired held hheld).trans hle

theorem saveChallenge (h : Remembers configured past now s) :
    Remembers configured (⟨.saveChallenge key data, now'⟩ :: past) now (s.put ⟨key, data, now'⟩) := by
  intro key'
  by_cases hkey : key = key'
  · subst hkey
    exact Or.inl (by simp [lastSave, Table.get?_put])
  · rw [Table.get?_put_of_ne (by exact hkey), lastSave, if_neg hkey]
    exact h key'

theorem consumeChallenge (h : Remembers configured past now s) :
    Remembers configured (⟨.consumeChallenge key, now'⟩ :: past) now (s.erase key) := by
  intro key'
  by_cases hkey : key = key'
  · subst hkey
    exact Or.inl (by rw [Table.get?_erase_self, lastSave, if_pos rfl])
  · rw [Table.get?_erase_of_ne hkey, lastSave, if_neg hkey]
    exact h key'

theorem deleteExpiredChallenges (h : Remembers configured past now s) :
    Remembers configured (⟨.deleteExpiredChallenges, now⟩ :: past) now
      (s.filter fun held => ¬ held.savedAt + ttl configured < now) := by
  intro key
  rw [lastSave]
  cases hget : s.get? key with
  | none =>
    have hnone : (s.filter fun held => ¬ held.savedAt + ttl configured < now).get? key = none :=
      Table.get?_eq_none.mpr fun held hheld =>
        Table.get?_eq_none.mp hget held (Table.mem_filter.mp hheld).1
    rw [hnone]
    exact hget ▸ h key
  | some held =>
    obtain ⟨hheld, hkey⟩ := Table.get?_eq_some.mp hget
    have hlast : lastSave key past = some held := by
      rcases h key with heq | ⟨hnone, -⟩
      · exact heq ▸ hget
      · rw [hnone] at hget
        cases hget
    by_cases hexpired : held.savedAt + ttl configured < now
    · refine Or.inr ⟨Table.get?_eq_none.mpr fun held' hheld' hkey' => ?_, fun held' hheld' => ?_⟩
      · obtain ⟨hmem, hkept⟩ := Table.mem_filter.mp hheld'
        obtain rfl := Table.eq_of_mem hmem hheld (hkey'.trans hkey.symm)
        exact of_decide_eq_true hkept hexpired
      · obtain rfl := Option.some.inj (hlast.symm.trans hheld')
        exact Int.le_of_lt hexpired
    · rw [hlast]
      exact Or.inl (Table.get?_eq_some.mpr ⟨Table.mem_filter.mpr ⟨hheld, decide_eq_true hexpired⟩, hkey⟩)

/-- What is gone too soon would be refused anyway. -/
theorem answer_eq (h : Remembers configured past now s) (key : String) :
    SameChallenges.answer configured now (s.get? key) =
      SameChallenges.answer configured now (lastSave key past) := by
  rcases h key with heq | ⟨hnone, hexpired⟩
  · rw [heq]
  · rw [hnone]
    cases hlast : lastSave key past with
    | none => rfl
    | some held =>
      have hlate : ¬ now < held.savedAt + ttl configured := Int.not_lt.mpr (hexpired held hlast)
      rw [SameChallenges.answer, SameChallenges.answer, if_neg hlate]

end Remembers

/-- From a table that holds what the past has left, at a time before all that follows. -/
theorem SameChallenges.run {s : Table Held.key} {t : ChallengeTable} {past : List ChallengeCall}
    {now : Time} (h : SameChallenges configured s t) (hpast : Remembers configured past now s)
    {calls : List ChallengeCall} (hfits : ∀ call ∈ calls, call.Fits configured)
    (hafter : ∀ call ∈ calls, now ≤ call.now) (hclock : calls.Pairwise fun a b => a.now ≤ b.now) :
    t.run configured calls = expectedRun configured past calls := by
  induction calls generalizing s t past now with
  | nil => rfl
  | cons call rest ih =>
    obtain ⟨hbefore, hrest⟩ := List.pairwise_cons.mp hclock
    obtain ⟨hnow, hdeadline⟩ := hfits call List.mem_cons_self
    have hpast' := hpast.mono (hafter call List.mem_cons_self)
    -- The rest goes on from what this call leaves.
    have goOn {s' : Table Held.key} {t' : ChallengeTable} (h' : SameChallenges configured s' t')
        (hleft : Remembers configured (call :: past) call.now s') :
        t'.run configured rest = expectedRun configured (call :: past) rest :=
      ih h' hleft (fun later hlater => hfits later (List.mem_cons_of_mem call hlater)) hbefore hrest
    obtain ⟨op, now'⟩ := call
    cases op with
    | saveChallenge key data =>
      obtain ⟨t', ht', hsame⟩ := h.saveChallenge hdeadline key data
      simp only [ChallengeTable.run, ChallengeTable.step, expectedRun, expected, ht']
      rw [goOn hsame hpast'.saveChallenge]
    | consumeChallenge key =>
      obtain ⟨hreply, hsame⟩ := h.consumeChallenge key now'
      simp only [ChallengeTable.run, ChallengeTable.step, expectedRun, expected, hreply,
        hpast'.answer_eq key]
      rw [goOn hsame hpast'.consumeChallenge]
    | deleteExpiredChallenges =>
      have hsame := h.deleteExpiredChallenges hnow
      simp only [ChallengeTable.run, ChallengeTable.step, expectedRun, expected]
      rw [goOn hsame hpast'.deleteExpiredChallenges]
      rfl

/-- While the clock does not go back, a consumption is answered with what was last saved under
    its key, if that was not consumed since and its time is not up. Sweeps never show. -/
theorem challenges_consumed_once_in_time (configured : Duration) (calls : List ChallengeCall)
    (hfits : ∀ call ∈ calls, call.Fits configured)
    (hclock : calls.Pairwise fun a b => a.now ≤ b.now) :
    ChallengeTable.run .empty configured calls = expectedRun configured [] calls := by
  cases calls with
  | nil => rfl
  | cons call rest =>
    have hstart : Remembers configured [] call.now Table.empty := fun key =>
      Or.inl (Table.get?_eq_none.mpr fun held hheld => absurd hheld (Table.not_mem_empty held))
    refine SameChallenges.run Mirrors.empty hstart hfits ?_ hclock
    exact List.forall_mem_cons.mpr ⟨Int.le_refl _, (List.pairwise_cons.mp hclock).1⟩

/-- Five minutes and a nanosecond after it was saved, a challenge is swept. One that is
    consumed after exactly five minutes is too late as well. -/
def challengeCalls : List ChallengeCall :=
  [⟨.saveChallenge "login" [1], 5⟩, ⟨.saveChallenge "login" [2], 6⟩, ⟨.consumeChallenge "login", 7⟩,
    ⟨.consumeChallenge "login", 8⟩, ⟨.saveChallenge "login" [3], 9⟩,
    ⟨.saveChallenge "register" [4], 10⟩, ⟨.deleteExpiredChallenges, 300000000010⟩,
    ⟨.consumeChallenge "register", 300000000010⟩, ⟨.consumeChallenge "login", 300000000010⟩]

theorem challenges_consumed_once_in_time_challengeCalls :
    ChallengeTable.run .empty 0 challengeCalls =
      [.done (.ok ()), .done (.ok ()), .data (.ok [2]),
        .data (.error (.sentinel .challengeNotFound)), .done (.ok ()), .done (.ok ()), .done (.ok ()),
        .data (.error (.sentinel .challengeNotFound)),
        .data (.error (.sentinel .challengeNotFound))] := by
  rw [challenges_consumed_once_in_time 0 challengeCalls]
  · decide
  · unfold challengeCalls ChallengeCall.Fits InRange
    decide
  · decide

end Sulis.Sqlite
