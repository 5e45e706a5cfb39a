-- SUMMARY: Whatever calls the library issues, the SQLite stores and the in-memory stores give the same replies.
import Sulis.Sqlite.Recovery
import Sulis.Sqlite.Sessions
import Sulis.Sqlite.Tokens
import Sulis.Sqlite.Totp
import Sulis.Sqlite.Users

/-!
# The SQLite stores are the in-memory stores

Five stores, all their calls, and sequences of calls in any order. A call comes with the
reading of the clock it would make, which is the same for both, and with the order in
which a loop of the in-memory store visits its map, which may be any.
-/

namespace Sulis.Sqlite

open Relational Store Sulis.Sql Sulis.Totp Sulis.Recovery

/-! ## Calls and replies -/

inductive Op
  | createUser (user : User)
  | getUserByID (id : UUID)
  | getUserByEmail (email : String)
  | updateUser (user : User)
  | deleteUser (id : UUID)
  | createSession (session : Session)
  | getSessionByTokenHash (tokenHash : String)
  | listUserSessions (userID : UUID)
  | deleteSession (userID id : UUID)
  | deleteUserSessions (userID : UUID)
  | deleteUserSessionsExcept (userID keepSessionID : UUID)
  | cleanExpired
  | updateAuthenticatedAt (id : UUID) (at_ : Time)
  | touchSession (id : UUID) (lastSeen : Time) (idleExpires : Option Time)
  | createToken (token : Token)
  | consumeToken (hash : String) (purpose : TokenPurpose)
  | deleteExpiredTokens
  | deleteUserTokens (userID : UUID) (purpose : TokenPurpose)
  | getActiveTOTP (userID : UUID)
  | getPendingTOTP (userID : UUID)
  | enrollPending (cred : Credential)
  | replacePending (cred : Credential)
  | confirmEnrollment (userID pendingID : UUID) (counter : Nat)
  | saveTOTP (cred : Credential)
  | deleteTOTP (userID : UUID)
  | replaceCodes (userID : UUID) (hashes : List String)
  | consumeCode (userID : UUID) (hash : String)
  | countCodes (userID : UUID)
  | deleteCodes (userID : UUID)

structure Call where
  op : Op
  /-- `time.Now()` -/
  now : Time
  /-- In which order the in-memory store visits a map. -/
  order : Nat

inductive Reply
  | done (res : Result Sulis.Err Unit)
  | user (res : Result Sulis.Err User)
  | session (res : Result Sulis.Err Session)
  | sessions (res : Result Sulis.Err (List Session))
  | token (res : Result Sulis.Err Token)
  | totp (res : Result Totp.Err Unit)
  | credential (res : Result Totp.Err Credential)
  | codes (res : Result Recovery.Err Unit)
  | count (res : Result Recovery.Err Nat)

/-- Equal, where the order of a list carries no meaning. -/
def Reply.Same : Reply → Reply → Prop
  | .sessions (.ok found), .sessions (.ok found') => found.Perm found'
  | reply, reply' => reply = reply'

/-! ## The two implementations -/

/-- The stores of package `memstore`. -/
structure Memory where
  users : UserStore := .empty
  sessions : SessionStore := .empty
  tokens : TokenStore := .empty
  totp : TOTPStore := {}
  codes : RecoveryStore := .empty

/-- The tables of the schema. -/
structure Database where
  users : UserTable := .empty
  sessions : SessionTable := .empty
  tokens : TokenTable := .empty
  totp : TOTPTables := {}
  codes : CodeTable := .empty

def Memory.step (m : Memory) (call : Call) : Reply × Memory :=
  let onUsers (res : Except Sulis.Err Unit × UserStore) : Reply × Memory :=
    (.done (asSentinel res.1), { m with users := res.2 })
  let onSessions (res : Except Sulis.Err Unit × SessionStore) : Reply × Memory :=
    (.done (asSentinel res.1), { m with sessions := res.2 })
  let onTokens (res : Except Sulis.Err Unit × TokenStore) : Reply × Memory :=
    (.done (asSentinel res.1), { m with tokens := res.2 })
  let onTotp (res : Except Totp.Err Unit × TOTPStore) : Reply × Memory :=
    (.totp (asSentinel res.1), { m with totp := res.2 })
  let onCodes (res : Except Recovery.Err Unit × RecoveryStore) : Reply × Memory :=
    (.codes (asSentinel res.1), { m with codes := res.2 })
  match call.op with
  | .createUser user => onUsers (m.users.createUser user)
  | .getUserByID id => (.user (asSentinel (m.users.getUserByID id)), m)
  | .getUserByEmail email => (.user (asSentinel (m.users.getUserByEmail email call.order)), m)
  | .updateUser user => onUsers (m.users.updateUser user)
  | .deleteUser id => onUsers (m.users.deleteUser id)
  | .createSession session => onSessions (m.sessions.createSession session)
  | .getSessionByTokenHash tokenHash =>
    (.session (asSentinel (m.sessions.getSessionByTokenHash tokenHash call.order)), m)
  | .listUserSessions userID => (.sessions (.ok (m.sessions.listUserSessions userID)), m)
  | .deleteSession userID id => onSessions (m.sessions.deleteSession userID id)
  | .deleteUserSessions userID => onSessions (m.sessions.deleteUserSessions userID)
  | .deleteUserSessionsExcept userID keep => onSessions (m.sessions.deleteUserSessionsExcept userID keep)
  | .cleanExpired => onSessions (m.sessions.cleanExpired call.now)
  | .updateAuthenticatedAt id at_ => onSessions (m.sessions.updateAuthenticatedAt id at_)
  | .touchSession id lastSeen idleExpires => onSessions (m.sessions.touchSession id lastSeen idleExpires)
  | .createToken token => onTokens (m.tokens.createToken token)
  | .consumeToken hash purpose =>
    let res := m.tokens.consumeToken hash purpose call.order
    (.token (asSentinel res.1), { m with tokens := res.2 })
  | .deleteExpiredTokens => onTokens (m.tokens.deleteExpiredTokens call.now)
  | .deleteUserTokens userID purpose => onTokens (m.tokens.deleteUserTokens userID purpose)
  | .getActiveTOTP userID => (.credential (asSentinel (m.totp.getActiveTOTP userID)), m)
  | .getPendingTOTP userID => (.credential (asSentinel (m.totp.getPendingTOTP userID)), m)
  | .enrollPending cred => onTotp (m.totp.enrollPending cred)
  | .replacePending cred => onTotp (m.totp.replacePending cred)
  | .confirmEnrollment userID pendingID counter =>
    let res := m.totp.confirmEnrollment userID pendingID counter
    (.credential (asSentinel res.1), { m with totp := res.2 })
  | .saveTOTP cred => onTotp (m.totp.saveTOTP cred)
  | .deleteTOTP userID => onTotp (m.totp.deleteTOTP userID)
  | .replaceCodes userID hashes => onCodes (m.codes.replaceCodes userID hashes)
  | .consumeCode userID hash =>
    let res := m.codes.consumeCode userID hash
    (.count (asSentinel res.1), { m with codes := res.2 })
  | .countCodes userID => (.count (asSentinel (m.codes.countCodes userID)), m)
  | .deleteCodes userID => onCodes (m.codes.deleteCodes userID)

def Database.step [Json] (d : Database) (call : Call) : Reply × Database :=
  let onUsers (res : Result Sulis.Err Unit × UserTable) : Reply × Database :=
    (.done res.1, { d with users := res.2 })
  let onSessions (res : Result Sulis.Err Unit × SessionTable) : Reply × Database :=
    (.done res.1, { d with sessions := res.2 })
  let onTokens (res : Result Sulis.Err Unit × TokenTable) : Reply × Database :=
    (.done res.1, { d with tokens := res.2 })
  let onTotp (res : Result Totp.Err Unit × TOTPTables) : Reply × Database :=
    (.totp res.1, { d with totp := res.2 })
  let onCodes (res : Result Recovery.Err Unit × CodeTable) : Reply × Database :=
    (.codes res.1, { d with codes := res.2 })
  match call.op with
  | .createUser user => onUsers (d.users.createUser user)
  | .getUserByID id => (.user (d.users.getUserByID id), d)
  | .getUserByEmail email => (.user (d.users.getUserByEmail email), d)
  | .updateUser user => onUsers (d.users.updateUser user)
  | .deleteUser id => onUsers (d.users.deleteUser id)
  | .createSession session => onSessions (d.sessions.createSession session)
  | .getSessionByTokenHash tokenHash => (.session (d.sessions.getSessionByTokenHash tokenHash), d)
  | .listUserSessions userID => (.sessions (d.sessions.listUserSessions userID), d)
  | .deleteSession userID id => onSessions (d.sessions.deleteSession userID id)
  | .deleteUserSessions userID => onSessions (d.sessions.deleteUserSessions userID)
  | .deleteUserSessionsExcept userID keep => onSessions (d.sessions.deleteUserSessionsExcept userID keep)
  | .cleanExpired => onSessions (d.sessions.cleanExpired call.now)
  | .updateAuthenticatedAt id at_ => onSessions (d.sessions.updateAuthenticatedAt id at_)
  | .touchSession id lastSeen idleExpires => onSessions (d.sessions.touchSession id lastSeen idleExpires)
  | .createToken token => onTokens (d.tokens.createToken token)
  | .consumeToken hash purpose =>
    let res := d.tokens.consumeToken hash purpose
    (.token res.1, { d with tokens := res.2 })
  | .deleteExpiredTokens => onTokens (d.tokens.deleteExpiredTokens call.now)
  | .deleteUserTokens userID purpose => onTokens (d.tokens.deleteUserTokens userID purpose)
  | .getActiveTOTP userID => (.credential (d.totp.getActiveTOTP userID), d)
  | .getPendingTOTP userID => (.credential (d.totp.getPendingTOTP userID), d)
  | .enrollPending cred => onTotp (d.totp.enrollPending cred)
  | .replacePending cred => onTotp (d.totp.replacePending cred)
  | .confirmEnrollment userID pendingID counter =>
    let res := d.totp.confirmEnrollment userID pendingID counter
    (.credential res.1, { d with totp := res.2 })
  | .saveTOTP cred => onTotp (d.totp.saveTOTP cred)
  | .deleteTOTP userID => onTotp (d.totp.deleteTOTP userID)
  | .replaceCodes userID hashes => onCodes (d.codes.replaceCodes userID hashes call.now)
  | .consumeCode userID hash =>
    let res := d.codes.consumeCode userID hash
    (.count res.1, { d with codes := res.2 })
  | .countCodes userID => (.count (d.codes.countCodes userID), d)
  | .deleteCodes userID => onCodes (d.codes.deleteCodes userID)

/-- The replies to a sequence of calls. -/
def Memory.run (m : Memory) : List Call → List Reply
  | [] => []
  | call :: rest => (m.step call).1 :: Memory.run (m.step call).2 rest

def Database.run [Json] (d : Database) : List Call → List Reply
  | [] => []
  | call :: rest => (d.step call).1 :: Database.run (d.step call).2 rest

/-! ## Calls as the library issues them -/

/-- Users are created at version 0 and enrollments at counter 0, no counter reaches
    2^63, addresses have no ASCII capitals, the years of all times have four digits, and
    there is no metadata. -/
def Call.Issued (call : Call) : Prop :=
  match call.op with
  | .createUser user => UserFits user ∧ user.version = 0
  | .getUserByEmail email => NoCapitals email
  | .updateUser user =>
    NoCapitals user.email ∧ (∀ t ∈ userTimes user, InRange t) ∧ user.version + 1 < 2 ^ 63
  | .createSession session => SessionFits session
  | .cleanExpired | .deleteExpiredTokens => InRange call.now
  | .updateAuthenticatedAt _ at_ => InRange at_
  | .touchSession _ lastSeen idleExpires => InRange lastSeen ∧ ∀ t, idleExpires = some t → InRange t
  | .createToken token => TokenFits token
  | .enrollPending cred | .replacePending cred => cred.lastUsedCounter = 0 ∧ InRange cred.createdAt
  | .confirmEnrollment _ _ counter => counter < 2 ^ 63
  | .saveTOTP cred => cred.lastUsedCounter < 2 ^ 63
  | .replaceCodes _ hashes => hashes.Nodup
  | _ => True

/-- Two sessions or two tokens are created with IDs and hashes of their own. -/
def Op.Apart : Op → Op → Prop
  | .createSession a, .createSession b => a.id ≠ b.id ∧ a.tokenHash ≠ b.tokenHash
  | .createToken a, .createToken b => a.id ≠ b.id ∧ a.tokenHash ≠ b.tokenHash
  | _, _ => True

/-! ## One call -/

/-- The tables have the rows of the stores. -/
structure SameState (m : Memory) (d : Database) : Prop where
  users : SameUsers m.users d.users
  sessions : SameSessions m.sessions d.sessions
  tokens : SameTokens m.tokens d.tokens
  totp : SameCredentials m.totp d.totp
  codes : SameCodes m.codes d.codes

/-- The ID and the hash of what a call creates are not in use. -/
def Room (m : Memory) : Op → Prop
  | .createSession session =>
    ∀ sess ∈ m.sessions, sess.id ≠ session.id ∧ sess.tokenHash ≠ session.tokenHash
  | .createToken token => ∀ tok ∈ m.tokens, tok.id ≠ token.id ∧ tok.tokenHash ≠ token.tokenHash
  | _ => True

/-- The same reply, and tables that have the rows of the stores again. -/
def SameStep (memory : Reply × Memory) (sqlite : Reply × Database) : Prop :=
  memory.1.Same sqlite.1 ∧ SameState memory.2 sqlite.2

theorem Reply.Same.refl (reply : Reply) : reply.Same reply := by
  unfold Same
  split
  · exact List.Perm.refl _
  · rfl

theorem SameState.empty : SameState {} {} where
  users := Mirrors.empty
  sessions := Mirrors.empty
  tokens := Mirrors.empty
  totp := ⟨Mirrors.empty, Mirrors.empty⟩
  codes := fun _ _ => iff_of_false List.not_mem_nil (Finset.notMem_empty _)

section

variable {m : Memory} {d : Database}

theorem SameState.answered {ε α : Type} {reply : Result ε α → Reply} {res : Except ε α}
    {res' : Result ε α} (h : SameState m d) (heq : res' = asSentinel res) :
    SameStep (reply (asSentinel res), m) (reply res', d) := by
  refine ⟨?_, h⟩
  rw [heq]
  exact Reply.Same.refl _

/-! A call to one of the stores leaves the others as they are. -/

theorem SameState.onUsers {memory : Except Sulis.Err Unit × UserStore}
    {sqlite : Result Sulis.Err Unit × UserTable} (h : SameState m d)
    (hagree : Agree SameUsers memory sqlite) :
    SameStep (.done (asSentinel memory.1), { m with users := memory.2 })
      (.done sqlite.1, { d with users := sqlite.2 }) :=
  SameState.answered ⟨hagree.2, h.sessions, h.tokens, h.totp, h.codes⟩ hagree.1

theorem SameState.onSessions {memory : Except Sulis.Err Unit × SessionStore}
    {sqlite : Result Sulis.Err Unit × SessionTable} (h : SameState m d)
    (hagree : Agree SameSessions memory sqlite) :
    SameStep (.done (asSentinel memory.1), { m with sessions := memory.2 })
      (.done sqlite.1, { d with sessions := sqlite.2 }) :=
  SameState.answered ⟨h.users, hagree.2, h.tokens, h.totp, h.codes⟩ hagree.1

theorem SameState.onTokens {α : Type} {reply : Result Sulis.Err α → Reply}
    {memory : Except Sulis.Err α × TokenStore} {sqlite : Result Sulis.Err α × TokenTable}
    (h : SameState m d) (hagree : Agree SameTokens memory sqlite) :
    SameStep (reply (asSentinel memory.1), { m with tokens := memory.2 })
      (reply sqlite.1, { d with tokens := sqlite.2 }) :=
  SameState.answered ⟨h.users, h.sessions, hagree.2, h.totp, h.codes⟩ hagree.1

theorem SameState.onTotp {α : Type} {reply : Result Totp.Err α → Reply}
    {memory : Except Totp.Err α × TOTPStore} {sqlite : Result Totp.Err α × TOTPTables}
    (h : SameState m d) (hagree : Agree SameCredentials memory sqlite) :
    SameStep (reply (asSentinel memory.1), { m with totp := memory.2 })
      (reply sqlite.1, { d with totp := sqlite.2 }) :=
  SameState.answered ⟨h.users, h.sessions, h.tokens, hagree.2, h.codes⟩ hagree.1

theorem SameState.onCodes {α : Type} {reply : Result Recovery.Err α → Reply}
    {memory : Except Recovery.Err α × RecoveryStore} {sqlite : Result Recovery.Err α × CodeTable}
    (h : SameState m d) (hagree : Agree SameCodes memory sqlite) :
    SameStep (reply (asSentinel memory.1), { m with codes := memory.2 })
      (reply sqlite.1, { d with codes := sqlite.2 }) :=
  SameState.answered ⟨h.users, h.sessions, h.tokens, h.totp, hagree.2⟩ hagree.1

theorem SameState.step [Json] (h : SameState m d) {call : Call} (hissued : call.Issued)
    (hroom : Room m call.op) : SameStep (m.step call) (d.step call) := by
  obtain ⟨op, now, order⟩ := call
  cases op with
  | createUser user => exact h.onUsers (h.users.createUser hissued.1 hissued.2)
  | getUserByID id => exact h.answered (h.users.getUserByID id)
  | getUserByEmail email => exact h.answered (h.users.getUserByEmail hissued order)
  | updateUser user => exact h.onUsers (h.users.updateUser hissued.1 hissued.2.1 hissued.2.2)
  | deleteUser id => exact h.onUsers (h.users.deleteUser id)
  | createSession session => exact h.onSessions (h.sessions.createSession hissued hroom)
  | getSessionByTokenHash tokenHash => exact h.answered (h.sessions.getSessionByTokenHash tokenHash order)
  | listUserSessions userID =>
    obtain ⟨found, hfound, hperm⟩ := h.sessions.listUserSessions userID
    refine ⟨?_, h⟩
    simp only [Memory.step, Database.step, hfound]
    exact hperm.symm
  | deleteSession userID id => exact h.onSessions (h.sessions.deleteSession userID id)
  | deleteUserSessions userID => exact h.onSessions (h.sessions.deleteUserSessions userID)
  | deleteUserSessionsExcept userID keep =>
    exact h.onSessions (h.sessions.deleteUserSessionsExcept userID keep)
  | cleanExpired => exact h.onSessions (h.sessions.cleanExpired hissued)
  | updateAuthenticatedAt id at_ => exact h.onSessions (h.sessions.updateAuthenticatedAt hissued id)
  | touchSession id lastSeen idleExpires =>
    exact h.onSessions (h.sessions.touchSession hissued.1 hissued.2 id)
  | createToken token => exact h.onTokens (h.tokens.createToken hissued hroom)
  | consumeToken hash purpose => exact h.onTokens (h.tokens.consumeToken hash purpose order)
  | deleteExpiredTokens => exact h.onTokens (h.tokens.deleteExpiredTokens hissued)
  | deleteUserTokens userID purpose => exact h.onTokens (h.tokens.deleteUserTokens userID purpose)
  | getActiveTOTP userID => exact h.answered (h.totp.getActiveTOTP userID)
  | getPendingTOTP userID => exact h.answered (h.totp.getPendingTOTP userID)
  | enrollPending cred => exact h.onTotp (h.totp.enrollPending hissued.1 hissued.2)
  | replacePending cred => exact h.onTotp (h.totp.replacePending hissued.1 hissued.2)
  | confirmEnrollment userID pendingID counter =>
    exact h.onTotp (h.totp.confirmEnrollment hissued userID pendingID)
  | saveTOTP cred => exact h.onTotp (h.totp.saveTOTP hissued)
  | deleteTOTP userID => exact h.onTotp (h.totp.deleteTOTP userID)
  | replaceCodes userID hashes => exact h.onCodes (h.codes.replaceCodes hissued userID now)
  | consumeCode userID hash => exact h.onCodes (h.codes.consumeCode userID hash)
  | countCodes userID => exact h.answered (h.codes.countCodes userID)
  | deleteCodes userID => exact h.onCodes (h.codes.deleteCodes userID)

end

/-! ## Rows in use -/

/-- A session keeps the ID and the hash it was created with. -/
theorem mem_sessions_step (m : Memory) (call : Call) {sess : Session}
    (hsess : sess ∈ (m.step call).2.sessions) :
    (∃ old ∈ m.sessions, sess.id = old.id ∧ sess.tokenHash = old.tokenHash) ∨
      call.op = .createSession sess := by
  have hkeep : sess ∈ m.sessions →
      ∃ old ∈ m.sessions, sess.id = old.id ∧ sess.tokenHash = old.tokenHash :=
    fun hmem => ⟨sess, hmem, rfl, rfl⟩
  obtain ⟨op, now, order⟩ := call
  cases op with
  | createSession session =>
    rcases Table.mem_put.mp hsess with rfl | ⟨hmem, -⟩
    · exact Or.inr rfl
    · exact Or.inl (hkeep hmem)
  | deleteSession userID id =>
    refine Or.inl (hkeep ?_)
    change sess ∈ (m.sessions.deleteSession userID id).2 at hsess
    rcases SessionStore.deleteSession_cases m.sessions userID id with heq | ⟨_, _, _, _, heq⟩
    · rwa [heq] at hsess
    · rw [heq] at hsess
      exact (Table.mem_erase.mp hsess).1
  | deleteUserSessions | deleteUserSessionsExcept | cleanExpired =>
    exact Or.inl (hkeep (Table.mem_filter.mp hsess).1)
  | updateAuthenticatedAt id at_ =>
    refine Or.inl ?_
    change sess ∈ (m.sessions.updateAuthenticatedAt id at_).2 at hsess
    rcases SessionStore.updateAuthenticatedAt_cases m.sessions id at_ with heq | ⟨old, hold, _, heq⟩
    · rw [heq] at hsess
      exact hkeep hsess
    · rw [heq] at hsess
      rcases Table.mem_put.mp hsess with rfl | ⟨hmem, -⟩
      · exact ⟨old, hold, rfl, rfl⟩
      · exact hkeep hmem
  | touchSession id lastSeen idleExpires =>
    refine Or.inl ?_
    change sess ∈ (m.sessions.touchSession id lastSeen idleExpires).2 at hsess
    rcases SessionStore.touchSession_cases m.sessions id lastSeen idleExpires with
      heq | ⟨old, hold, _, heq⟩
    · rw [heq] at hsess
      exact hkeep hsess
    · rw [heq] at hsess
      rcases Table.mem_put.mp hsess with rfl | ⟨hmem, -⟩
      · exact ⟨old, hold, rfl, rfl⟩
      · exact hkeep hmem
  | _ => exact Or.inl (hkeep hsess)

/-- So does a token. -/
theorem mem_tokens_step (m : Memory) (call : Call) {tok : Token}
    (htok : tok ∈ (m.step call).2.tokens) :
    (∃ old ∈ m.tokens, tok.id = old.id ∧ tok.tokenHash = old.tokenHash) ∨
      call.op = .createToken tok := by
  have hkeep : tok ∈ m.tokens → ∃ old ∈ m.tokens, tok.id = old.id ∧ tok.tokenHash = old.tokenHash :=
    fun hmem => ⟨tok, hmem, rfl, rfl⟩
  obtain ⟨op, now, order⟩ := call
  cases op with
  | createToken token =>
    rcases Table.mem_put.mp htok with rfl | ⟨hmem, -⟩
    · exact Or.inr rfl
    · exact Or.inl (hkeep hmem)
  | consumeToken hash purpose =>
    refine Or.inl ?_
    change tok ∈ (m.tokens.consumeToken hash purpose order).2 at htok
    rcases TokenStore.consumeToken_cases m.tokens hash purpose order with
      ⟨_, heq⟩ | ⟨old, hold, _, _, _, heq⟩
    · rw [heq] at htok
      exact hkeep htok
    · rw [heq] at htok
      rcases Table.mem_put.mp htok with rfl | ⟨hmem, -⟩
      · exact ⟨old, hold, rfl, rfl⟩
      · exact hkeep hmem
  | deleteExpiredTokens => exact Or.inl (hkeep (Table.mem_filter.mp htok).1)
  | deleteUserTokens userID purpose =>
    refine Or.inl (hkeep ?_)
    change tok ∈ (m.tokens.deleteUserTokens userID purpose).2 at htok
    unfold TokenStore.deleteUserTokens at htok
    split at htok
    · exact htok
    · exact (Table.mem_filter.mp htok).1
  | _ => exact Or.inl (hkeep htok)

/-- What a later call creates is still not in use. -/
theorem Room.step {m : Memory} {call : Call} {op : Op} (h : Room m op) (hapart : call.op.Apart op) :
    Room (m.step call).2 op := by
  cases op with
  | createSession session =>
    intro sess hsess
    rcases mem_sessions_step m call hsess with ⟨old, hold, hid, hhash⟩ | hcreated
    · rw [hid, hhash]
      exact h old hold
    · rw [hcreated] at hapart
      exact hapart
  | createToken token =>
    intro tok htok
    rcases mem_tokens_step m call htok with ⟨old, hold, hid, hhash⟩ | hcreated
    · rw [hid, hhash]
      exact h old hold
    · rw [hcreated] at hapart
      exact hapart
  | _ => trivial

/-! ## Every sequence of calls -/

/-- From states that have the same rows, with room for what is created. -/
theorem SameState.run [Json] {m : Memory} {d : Database} (h : SameState m d) {calls : List Call}
    (hissued : ∀ call ∈ calls, call.Issued) (hroom : ∀ call ∈ calls, Room m call.op)
    (hapart : calls.Pairwise fun call later => call.op.Apart later.op) :
    List.Forall₂ Reply.Same (m.run calls) (d.run calls) := by
  induction calls generalizing m d with
  | nil => exact List.Forall₂.nil
  | cons call rest ih =>
    obtain ⟨hcall, hrest⟩ := List.pairwise_cons.mp hapart
    obtain ⟨hreply, hstate⟩ :=
      h.step (hissued call List.mem_cons_self) (hroom call List.mem_cons_self)
    refine List.Forall₂.cons hreply (ih hstate ?_ ?_ hrest)
    · exact fun later hlater => hissued later (List.mem_cons_of_mem call hlater)
    · exact fun later hlater =>
        (hroom later (List.mem_cons_of_mem call hlater)).step (hcall later hlater)

/-- From empty stores both implementations reply the same to every call of every sequence. -/
theorem stores_equivalent [Json] (calls : List Call) (hissued : ∀ call ∈ calls, call.Issued)
    (hapart : calls.Pairwise fun call later => call.op.Apart later.op) :
    List.Forall₂ Reply.Same (Memory.run {} calls) (Database.run {} calls) := by
  refine SameState.empty.run hissued (fun call _ => ?_) hapart
  -- Nothing is in use yet.
  cases hop : call.op with
  | createSession session => exact fun sess hsess => absurd hsess (Table.not_mem_empty sess)
  | createToken token => exact fun tok htok => absurd htok (Table.not_mem_empty tok)
  | _ => trivial

/-! ### A sequence -/

section

/-- Calls without metadata need no JSON. -/
@[reducible] def noJson : Json := ⟨fun _ => none, fun _ => none⟩

attribute [local instance] noJson

def ada : User :=
  { id := 1#128, email := "ada@example.test", createdAt := 5, updatedAt := 5 }

def bob : User :=
  { id := 2#128, email := "bob@example.test", createdAt := 5, updatedAt := 5 }

def adaSession : Session :=
  { id := 3#128, userID := 1#128, tokenHash := "session", expiresAt := 5, createdAt := 5
    authenticatedAt := 5, method := .password, lastSeenAt := 5 }

/-- A token that names no user. -/
def looseToken : Token :=
  { id := 4#128, userID := .nil, tokenHash := "token", purpose := .magicLink, expiresAt := 5, createdAt := 5 }

def adaEnrollment : Credential :=
  { id := 5#128, userID := 1#128, secret := "secret", createdAt := 5 }

/-- A stale update to an address that is taken, a token without a user, a sweep and a save
    that does not raise the counter. -/
def variousCalls : List Call :=
  [⟨.createUser ada, 5, 0⟩, ⟨.createUser bob, 5, 0⟩,
    ⟨.updateUser { ada with email := bob.email, version := 1 }, 5, 0⟩,
    ⟨.createSession adaSession, 5, 0⟩, ⟨.cleanExpired, 5, 0⟩, ⟨.listUserSessions ada.id, 5, 0⟩,
    ⟨.createToken looseToken, 5, 0⟩, ⟨.deleteUserTokens .nil .magicLink, 5, 0⟩,
    ⟨.consumeToken "token" .magicLink, 5, 0⟩, ⟨.enrollPending adaEnrollment, 5, 0⟩,
    ⟨.confirmEnrollment ada.id adaEnrollment.id 7, 5, 0⟩,
    ⟨.saveTOTP { adaEnrollment with lastUsedCounter := 7 }, 5, 0⟩,
    ⟨.replaceCodes ada.id ["a", "b"], 5, 0⟩, ⟨.consumeCode ada.id "a", 5, 0⟩]

theorem inRange_five : InRange 5 := by
  unfold InRange
  decide

theorem variousCalls_issued : ∀ call ∈ variousCalls, call.Issued := by
  have hada : UserFits ada := ⟨by decide, by simp [userTimes, ada, inRange_five], by decide⟩
  have hbob : UserFits bob := ⟨by decide, by simp [userTimes, bob, inRange_five], by decide⟩
  have hsession : SessionFits adaSession := ⟨by simp [sessionTimes, adaSession, inRange_five], rfl⟩
  simp only [variousCalls, List.forall_mem_cons, Call.Issued]
  refine ⟨⟨hada, rfl⟩, ⟨hbob, rfl⟩, ⟨hbob.noCapitals, hada.times, by decide⟩, hsession, inRange_five,
    trivial, ⟨inRange_five, inRange_five⟩, trivial, trivial, ⟨rfl, inRange_five⟩, by decide, by decide,
    by decide, trivial, ?_⟩
  exact fun _ hmem => absurd hmem List.not_mem_nil

theorem stores_equivalent_variousCalls :
    List.Forall₂ Reply.Same (Memory.run {} variousCalls) (Database.run {} variousCalls) := by
  refine stores_equivalent variousCalls variousCalls_issued ?_
  simp [variousCalls, Op.Apart]

end

end Sulis.Sqlite
