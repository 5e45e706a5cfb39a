-- SUMMARY: Does the first verification cut off whoever registered the address, if the session store fails?
import Sulis.Discipline.Revocation
import Sulis.Properties.Recovery

/-!
# The first verification

Somebody may register an address that is not theirs and keep the session. When
the owner of the mailbox verifies the address, the sessions are revoked. The stamp
is written before that, and is not written twice: if the revocation fails, the
next attempt finds the address verified and has nothing left to do.
-/

namespace Sulis

open Interaction Interaction.System

/-- Calls to the session store. -/
def Op.onSessions : Op → Bool
  | .createSession _ | .getSessionByTokenHash _ | .listUserSessions _ | .deleteSession .. => true
  | .deleteUserSessions _ | .cleanExpired | .updateAuthenticatedAt .. | .touchSession .. => true
  | _ => false

section

variable [Platform] {cfg : Config}

/-- No call fails for a reason of its own, unless it goes to the session store. -/
def SessionFaultsOnly (trace : List (Entry cfg)) : Prop :=
  ∀ e ∈ trace, Op.onSessions e.op = false → e.choice.fault = none

/-- The step that verified the user for the first time, who had a password. -/
def FirstStamp (e : Entry cfg) (uid : UUID) : Prop :=
  ∃ row ∈ e.pre.users, ∃ row' ∈ e.post.users, row.id = uid ∧ row'.id = uid ∧
    row.emailVerifiedAt = none ∧ row.passwordHash ≠ "" ∧ row'.emailVerifiedAt ≠ none

/-- Operation `k` has told its caller that the user proved the address. -/
inductive ReportsVerified (c : Run cfg) (k : Nat) (uid : UUID) : Prop
  | verifyEmail (raw : String) (u : User) (hret : c.Returned k (.verifyEmail raw) (.ok u))
      (hid : u.id = uid)
  | redeemMagicLink (raw nonce : String) (ri : RequestInfo) (r : LoginResult)
      (hret : c.Returned k (.redeemMagicLink raw nonce ri) (.ok r)) (hid : r.user.id = uid)

/-- A session from before the first verification, by `e`, is accepted by operation
    `j` after a verification was reported. -/
structure EarlySessionLives (c : Run cfg) (e : Entry cfg) (j : Nat) (uid : UUID) (s : Session) :
    Prop where
  stamp : FirstStamp e uid
  issued : ∃ later past, c.trace = later ++ e :: past ∧ ∃ g ∈ past, g.op = .createSession s
  user : s.userID = uid
  reported : ∃ k < j, ReportsVerified c k uid
  after : e.tid < j
  accepted : ∃ token a, c.Returned j (.validateSession token) (.ok a) ∧ a.1.id = s.id

/-- The session store does not fail when the operation that verifies the user for
    the first time, by `e`, revokes the sessions. -/
def RevocationServed (c : Run cfg) (e : Entry cfg) (uid : UUID) : Prop :=
  ∀ d ∈ c.trace, d.tid = e.tid → d.op = .deleteUserSessions uid → d.choice.fault = none

variable {w₀ w : World} {trace later past : List (Entry cfg)} {e : Entry cfg} {uid : UUID}

/-- What verifies a user is a write by one of the operations that verify. -/
theorem FirstStamp.write (hv : Trace cfg w₀ trace w) (htrace : trace = later ++ e :: past)
    (hstamp : FirstStamp e uid) :
    Call.Verifies e.call ∧ ∃ u, e.op = .updateUser u ∧ u.id = uid ∧ u.passwordHash ≠ "" := by
  obtain ⟨row, hrow, row', hrow', rfl, hid', hnone, hpassword, hsome⟩ := hstamp
  obtain ⟨row'', hrow'', hid'', hchange⟩ := (hv.user_change htrace).row hrow
  obtain rfl : row'' = row' := Store.Table.eq_of_mem hrow'' hrow' (hid''.trans hid'.symm)
  cases hchange with
  | same heq => rw [heq] at hsome; exact absurd hnone hsome
  | commit u m hop hmay happly heq =>
    have hframe := Mutation.frame happly
    have hu : u.emailVerifiedAt ≠ none := by rw [heq] at hsome; exact hsome
    have hkept (hset : ∀ guard hash now, m ≠ .setPassword guard hash now)
        (hrehash : ∀ old new now, m ≠ .rehash old new now) : u.passwordHash ≠ "" := by
      rwa [hframe.password hset hrehash]
    by_cases hconfirm : ∃ email now, m = .confirmEmailChange email now
    · obtain ⟨email, now, rfl⟩ := hconfirm
      obtain ⟨raw, -, hcall, -⟩ := hmay.confirmed
      exact ⟨by rw [hcall]; trivial, u, hop, hframe.id, hkept (by simp) (by simp)⟩
    by_cases hverify : ∃ now, m = .stampEmailVerified now
    · obtain ⟨now, rfl⟩ := hverify
      refine ⟨?_, u, hop, hframe.id, hkept (by simp) (by simp)⟩
      rcases hmay.stamped with ⟨raw, -, -, hcall, -⟩ | ⟨raw, nonce, ri, -, -, hcall, -⟩ <;>
        rw [hcall] <;> trivial
    · rw [hframe.unverified (fun now h => hverify ⟨now, h⟩)
        (fun email now h => hconfirm ⟨email, now, h⟩)] at hu
      exact absurd hnone hu

/-- In a run that is not in the middle of an operation, the sessions of a user were
    to be revoked after the first verification. -/
theorem FirstStamp.revokes {as : List (system cfg).Action} {c : Run cfg}
    (hrun : (Config.start w₀).run as = some c) (hquiet : c.Quiescent)
    (hfaults : SessionFaultsOnly c.trace) (htrace : c.trace = later ++ e :: past)
    (hstamp : FirstStamp e uid) :
    ∃ d ∈ later, d.tid = e.tid ∧ ∃ r, d.event = ⟨.deleteUserSessions uid, r⟩ := by
  have hv := run_trace_valid hrun
  have he : e ∈ c.trace := by rw [htrace]; simp
  obtain ⟨hcall, u, hop, rfl, hpassword⟩ := hstamp.write hv htrace
  have hnofault := hfaults e he (by rw [hop]; rfl)
  obtain ⟨r, hev⟩ : ∃ r, e.event = ⟨.updateUser u, r⟩ := System.Entry.event_of_op hop
  -- A write that changed the user has succeeded.
  have hok : r = .ok () := by
    cases r with
    | ok x => rfl
    | error err =>
      have hsame := World.serve_updateUser_error (by simp [hnofault]) (hv.served he hev)
      obtain ⟨row, hrow, row', hrow', hid, hid', hnone, -, hsome⟩ := hstamp
      rw [hsame] at hrow'
      rw [Store.Table.eq_of_mem hrow hrow' (hid.trans hid'.symm)] at hnone
      exact absurd hnone hsome
  obtain ⟨call, out, hret⟩ := hquiet.returned ((run_sound hrun).bounded e he)
  have hfollowed := run_followed hrun hret (run_call hrun hret he rfl ▸ hcall)
  obtain ⟨r', hd⟩ := hfollowed (history e.tid later) u (history e.tid past)
    (by rw [htrace, history_append, history_cons_self, hev, hok]) hpassword
  obtain ⟨d, hd, htid, hdev⟩ := mem_history.mp hd
  exact ⟨d, hd, htid, r', hdev⟩

/-- If that revocation is served, the first verification cuts off every session from
    before it. -/
theorem first_verification_cuts_off {blocks : List (Call × List Choice)} {c : Run cfg} {j : Nat}
    {s : Session} (hrun : (Run.empty cfg).runBlocks blocks = some c)
    (hfaults : SessionFaultsOnly c.trace) (hserved : RevocationServed c e uid) :
    ¬ EarlySessionLives c e j uid s := by
  intro hlives
  obtain ⟨later, past, htrace, g, hg, hop⟩ := hlives.issued
  obtain ⟨token, ⟨s', u'⟩, hret, hid⟩ := hlives.accepted
  obtain ⟨as, has⟩ := Config.runBlocks_run hrun
  have hv := run_trace_valid has
  have hseq := (Config.sequential_start _).runBlocks hrun
  obtain ⟨d, hd, htid, r, hdev⟩ := hlives.stamp.revokes has hseq.quiescent hfaults htrace
  have hdc : d ∈ c.trace := by rw [htrace]; simp [hd]
  have hok : r = .ok () := by
    refine World.serve_deleteUserSessions_ok ?_ (hv.served hdc hdev)
    exact hserved d hdc htid (congrArg Sigma.fst hdev)
  subst hok
  -- The row that is accepted was in the store after the revocation.
  obtain ⟨-, row, hget, hrid⟩ := run_outcome has hret
  obtain ⟨k, hk, rfl, hkev⟩ := mem_history.mp hget
  obtain ⟨hrow, -⟩ := World.serve_getSessionByTokenHash (hv.served hk hkev)
  obtain ⟨l, m, rfl⟩ := List.append_of_mem hd
  have htrace' : c.trace = l ++ d :: (m ++ e :: past) := by rw [htrace]; simp
  obtain ⟨l₁, l₂, rfl⟩ := List.append_of_mem (hseq.mem_later htrace' hk (htid ▸ hlives.after))
  rw [htrace', List.append_assoc, List.cons_append] at hv
  exact session_swept (Valid.entry hv).1 hdev (by simp [hg]) hop hlives.user row hrow
    (hrid.symm.trans hid)

end

section

open Scenario

attribute [local instance] plain

/-- The session of whoever registered. -/
def earlySession : Session :=
  { id := ident 6, userID := ident 2, tokenHash := raw 4, expiresAt := 86400000000005
    createdAt := 5, authenticatedAt := 1, method := .password, lastSeenAt := 5 }

/-- Somebody registers; the owner of the mailbox verifies the address twice. -/
def verifiedTwice : List (Call × Nat) :=
  [(.register "a" [1] {}, 8), (.createEmailVerificationToken (ident 2), 5),
    (.verifyEmail (raw 9), 7), (.createEmailVerificationToken (ident 2), 5),
    (.verifyEmail (raw 21), 3), (.validateSession (raw 4), 4)]

/-- The first verification fails to revoke the sessions, the second one succeeds
    without trying, and the session is still accepted. -/
theorem early_session_survives :
    ∃ c e, playFailing 19 verifiedTwice = some c ∧ SessionFaultsOnly c.trace ∧
      EarlySessionLives c e 5 (ident 2) earlySession := by
  obtain ⟨c, hplay, hfaults, ⟨e, he, htid, hstamp⟩, ⟨g, hg, hgtid, hop⟩, hreport, hvalid⟩ :=
    computed (o := playFailing 19 verifiedTwice)
    (P := fun c => (∀ e ∈ c.trace, Op.onSessions e.op = false → e.choice.fault = none) ∧
      (∃ e ∈ c.trace, e.tid = 2 ∧ ∃ row ∈ e.pre.users.rows, ∃ row' ∈ e.post.users.rows,
        row.id = ident 2 ∧ row'.id = ident 2 ∧ row.emailVerifiedAt = none ∧
        row.passwordHash ≠ "" ∧ row'.emailVerifiedAt ≠ none) ∧
      (∃ g ∈ c.trace, g.tid = 0 ∧ g.op = .createSession earlySession) ∧
      succeededWith c 4 (.verifyEmail (raw 21)) (fun u => u.id = ident 2) = true ∧
      succeededWith c 5 (.validateSession (raw 4)) (fun a => a.1.id = earlySession.id) = true)
    (by decide +kernel)
  obtain ⟨u, hreport, huid⟩ := succeededWith_returned hreport
  obtain ⟨a, hvalid, hsid⟩ := succeededWith_returned hvalid
  obtain ⟨later, past, htrace⟩ := List.append_of_mem he
  have hseq := (Config.sequential_start _).runBlocks hplay
  exact ⟨c, e, hplay, hfaults,
    { stamp := hstamp
      issued := ⟨later, past, htrace, g, hseq.mem_past htrace hg (by omega), hop⟩
      user := rfl
      reported := ⟨4, by omega, .verifyEmail (raw 21) u hreport (of_decide_eq_true huid)⟩
      after := by omega
      accepted := ⟨raw 4, a, hvalid, of_decide_eq_true hsid⟩ }⟩

/-- The session store fails only later, when the session is looked up. -/
theorem first_verification_cuts_off_verifiedTwice :
    ∃ c e, playFailing 28 (verifiedTwice.take 5 ++ [(.validateSession (raw 4), 1)]) = some c ∧
      FirstStamp e (ident 2) ∧ SessionFaultsOnly c.trace ∧ RevocationServed c e (ident 2) ∧
      ¬ EarlySessionLives c e 5 (ident 2) earlySession := by
  obtain ⟨c, hplay, hfaults, e, he, hstamp, hserved⟩ :=
    computed (o := playFailing 28 (verifiedTwice.take 5 ++ [(.validateSession (raw 4), 1)]))
    (P := fun c => (∀ e ∈ c.trace, Op.onSessions e.op = false → e.choice.fault = none) ∧
      ∃ e ∈ c.trace, (∃ row ∈ e.pre.users.rows, ∃ row' ∈ e.post.users.rows,
        row.id = ident 2 ∧ row'.id = ident 2 ∧ row.emailVerifiedAt = none ∧
        row.passwordHash ≠ "" ∧ row'.emailVerifiedAt ≠ none) ∧
      ∀ d ∈ c.trace, d.tid = e.tid → d.op = .deleteUserSessions (ident 2) → d.choice.fault = none)
    (by decide +kernel)
  exact ⟨c, e, hplay, hstamp, hfaults, hserved, first_verification_cuts_off hplay hfaults hserved⟩

end

end Sulis
