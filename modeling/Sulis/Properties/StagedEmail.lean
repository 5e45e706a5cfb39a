-- SUMMARY: Staged email changes outlive a recovery of the account, and when they do not.
import Sulis.Properties.Recovery

/-!
# Staged email changes

`ChangeEmail` stages an address and hands out a token for it. Neither setting a
password nor the first verification of an address clears what is staged or purges
such tokens, so a change staged before a recovery can be confirmed after it.
-/

namespace Sulis

open Interaction Interaction.System

section

variable [Platform] {cfg : Config}

/-- The operations that prove the address of an account and nothing else. -/
def Call.ProvesEmail : Call → Prop
  | .verifyEmail .. => True
  | .redeemMagicLink .. => True
  | _ => False

/-- Operation `i` verified the user for the first time, and revoked the sessions
    because there was a password already. -/
def FirstVerifiedBy (c : Run cfg) (i : Nat) (uid : UUID) : Prop :=
  ∃ e ∈ c.trace, e.tid = i ∧ Call.ProvesEmail e.call ∧
    e.event = ⟨.deleteUserSessions uid, .ok ()⟩

/-- The step changed the address of the user. -/
def MovesEmail (e : Entry cfg) (uid : UUID) : Prop :=
  ∃ row ∈ e.pre.users, ∃ row' ∈ e.post.users, row.id = uid ∧ row'.id = uid ∧
    row'.email ≠ row.email

/-- A change of address staged before the recovery `i` is confirmed after it. -/
structure StagedChangeOutlives (c : Run cfg) (i : Nat) (uid : UUID) (t : Token) : Prop where
  recovery : PasswordSetBy c i uid ∨ FirstVerifiedBy c i uid
  issued : ∃ g ∈ c.trace, g.tid < i ∧ g.op = .createToken t
  kind : t.purpose = .emailChange
  user : t.userID = uid
  confirmed : ∃ e ∈ c.trace, i < e.tid ∧ Spends c.trace e.tid t ∧ MovesEmail e uid

/-- The address of the token is not the staged one when operation `i` runs, and is
    not staged again afterwards. -/
structure NotStaged (c : Run cfg) (i : Nat) (uid : UUID) (t : Token) : Prop where
  during : ∀ e ∈ c.trace, e.tid = i → ∀ row ∈ e.pre.users, row.id = uid →
    row.pendingEmail ≠ t.email
  after : ∀ e ∈ c.trace, i < e.tid → ∀ newEmail, e.call = .changeEmail uid newEmail →
    normalizeEmail newEmail ≠ .ok t.email

/-! ## What is staged -/

theorem normalizeEmail_ne_empty {email address : String} (h : normalizeEmail email = .ok address) :
    address ≠ "" := by
  obtain ⟨hne, rfl⟩ := normalizeEmail_eq_ok h
  intro hempty
  refine hne (String.toList_inj.mp ?_)
  simpa [toLower] using congrArg String.toList hempty

variable {w₀ w : World} {trace past : List (Entry cfg)} {uid : UUID} {address : String}

/-- Nothing but a `ChangeEmail` of the user stages an address. -/
theorem UserChange.not_staged {call : Call} {h : Hist} {op : Op} {s s' : UserStore}
    (hc : UserChange cfg call h op s s') (haddress : address ≠ "")
    (hcall : ∀ newEmail, call = .changeEmail uid newEmail → normalizeEmail newEmail ≠ .ok address)
    (hpre : ∀ row ∈ s, row.id = uid → row.pendingEmail ≠ address) :
    ∀ row ∈ s', row.id = uid → row.pendingEmail ≠ address := by
  intro row' hrow' hid'
  rcases hc.row_before hrow' with ⟨-, hmay, -⟩ | ⟨row, hrow, hid, hchange⟩
  · rw [hmay.newUser.pending]
    exact haddress.symm
  · have hid : row.id = uid := hid.symm.trans hid'
    have hpending := hpre row hrow hid
    cases hchange with
    | same heq => rw [heq]; exact hpending
    | commit u m hop hmay happly heq =>
      have hframe := (Mutation.frame happly).pending
      simp only [heq]
      cases m with
      | stageEmail email now =>
        obtain ⟨newEmail, hcalled, hemail⟩ := hmay.stageEmail
        cases happly
        rintro rfl
        exact hcall newEmail (hid ▸ hcalled) hemail
      | confirmEmailChange email now =>
        rw [(Mutation.apply_confirmEmailChange.mp happly).2]
        exact haddress.symm
      | _ =>
        rw [hframe (by simp) (by simp)]
        exact hpending

/-- The address a row is moved to was staged, and named by the token spent. -/
theorem MovesEmail.staged {e : Entry cfg} {later : List (Entry cfg)} (hv : Trace cfg w₀ trace w)
    (htrace : trace = later ++ e :: past) (hmove : MovesEmail e uid) :
    ∃ raw tok, e.call = .confirmEmailChange raw ∧ tok.userID = uid ∧
      Redeemed (history e.tid past) (hashToken raw) .emailChange tok ∧
      (∃ row ∈ e.pre.users, row.id = uid ∧ row.pendingEmail = tok.email) ∧
      ∃ row' ∈ e.post.users, row'.id = uid ∧ row'.email = tok.email := by
  obtain ⟨row, hrow, row', hrow', hid, hid', hne⟩ := hmove
  obtain ⟨row'', hrow'', hid'', hchange⟩ := (hv.user_change htrace).row hrow
  obtain rfl : row'' = row' := Store.Table.eq_of_mem hrow'' hrow' (hid''.trans (hid.trans hid'.symm))
  cases hchange with
  | same heq => exact absurd (congrArg User.email heq) hne
  | commit u m hop hmay happly heq =>
    have hframe := (Mutation.frame happly).email
    have hu : u.email ≠ row.email := by rw [heq] at hne; exact hne
    cases m with
    | confirmEmailChange email now =>
      obtain ⟨raw, tok, hcall, huser, rfl, htok⟩ := hmay.confirmed
      obtain ⟨hpending, hu'⟩ := Mutation.apply_confirmEmailChange.mp happly
      refine ⟨raw, tok, hcall, huser.trans hid, htok, ⟨row, hrow, hid, hpending⟩, row'', hrow'',
        hid', ?_⟩
      rw [heq, hu']
    | _ => exact absurd (hframe (by simp)) hu

/-- From a moment when the address is not staged, until it is staged again. -/
theorem not_staged_later {later : List (Entry cfg)} {w' : World} (hpast : Trace cfg w₀ past w')
    (hv : Trace cfg w₀ (later ++ past) w) (haddress : address ≠ "")
    (hcall : ∀ e ∈ later, ∀ newEmail, e.call = .changeEmail uid newEmail →
      normalizeEmail newEmail ≠ .ok address)
    (hpre : ∀ row ∈ w'.users, row.id = uid → row.pendingEmail ≠ address) :
    ∀ row ∈ w.users, row.id = uid → row.pendingEmail ≠ address := by
  refine Valid.world_induction
    (P := fun w : World => ∀ row ∈ w.users, row.id = uid → row.pendingEmail ≠ address)
    hpast hv hpre ?_
  intro l₁ l₂ e hlater hpre hserve hallow
  exact (user_change hpre hserve hallow).not_staged haddress (hcall e (by rw [hlater]; simp))

/-! ## The property -/

variable {c : Run cfg} {i : Nat} {t : Token} {blocks : List (Call × List Choice)}

/-- The token of a staged change carries the address, which is not empty. -/
theorem StagedChangeOutlives.email_ne_empty (hv : Trace cfg {} c.trace c.world)
    (hout : StagedChangeOutlives c i uid t) : t.email ≠ "" := by
  obtain ⟨g, hg, -, hop⟩ := hout.issued
  obtain ⟨later, past, htrace⟩ := List.append_of_mem hg
  have hmay := (createToken_spec hv htrace hop).2
  rw [hout.kind] at hmay
  obtain ⟨newEmail, -, hemail⟩ := hmay.emailChange
  exact normalizeEmail_ne_empty hemail

/-- Every operation that counts as a recovery here made some call, and none of
    them stages an address. -/
theorem StagedChangeOutlives.recovery_entry (hrun : (Run.empty cfg).runBlocks blocks = some c)
    (hout : StagedChangeOutlives c i uid t) :
    ∃ d ∈ c.trace, d.tid = i ∧ ∀ e ∈ c.trace, e.tid = i → ∀ uid' newEmail,
      e.call ≠ .changeEmail uid' newEmail := by
  obtain ⟨as, has⟩ := Config.runBlocks_run hrun
  rcases hout.recovery with hset | ⟨d, hd, htid, hproves, -⟩
  · obtain ⟨u, -, hu⟩ := (hset.recovered has).commit
    obtain ⟨d, hd, htid, -⟩ := mem_history.mp hu
    refine ⟨d, hd, htid, fun e he hei uid' newEmail hcall => ?_⟩
    cases hset with
    | changePassword old new ri hret => cases (run_call has hret he hei).symm.trans hcall
    | setInitialPassword new hret => cases (run_call has hret he hei).symm.trans hcall
    | resetPassword raw new tok hret => cases (run_call has hret he hei).symm.trans hcall
  · refine ⟨d, hd, htid, fun e he hei uid' newEmail hcall => ?_⟩
    rw [← (run_trace_valid has).call_eq he hd (hei.trans htid.symm), hcall] at hproves
    exact hproves

/-- A change whose address is no longer staged does not come through. -/
theorem staged_change_ends (hrun : (Run.empty cfg).runBlocks blocks = some c)
    (hnot : NotStaged c i uid t) : ¬ StagedChangeOutlives c i uid t := by
  intro hout
  obtain ⟨as, has⟩ := Config.runBlocks_run hrun
  have hv := run_trace_valid has
  have hseq := (Config.sequential_start _).runBlocks hrun
  obtain ⟨d, hd, rfl, hquiet⟩ := hout.recovery_entry hrun
  obtain ⟨e, he, hlt, ⟨hash, tok, hspend, hid⟩, hmove⟩ := hout.confirmed
  obtain ⟨later, past, htrace⟩ := List.append_of_mem hd
  obtain ⟨l, m, rfl⟩ := List.append_of_mem (hseq.mem_later htrace he hlt)
  have htrace' : c.trace = l ++ e :: (m ++ d :: past) := by rw [htrace]; simp
  obtain ⟨raw, tok', -, -, hred, ⟨row, hrow, hrid, hpending⟩, -⟩ := hmove.staged hv htrace'
  -- The token spent is the one that was issued, so it names the staged address.
  have hred' : Redeemed (history e.tid c.trace) (hashToken raw) .emailChange tok' :=
    hred.mono (history_suffix ⟨l ++ [e], by rw [htrace']; simp⟩ e.tid)
  obtain ⟨-, -, heq⟩ := consumed_once hv hspend hred'.did
  cases heq
  have hemail : tok.email = t.email := by
    obtain ⟨g, hg, -, hop⟩ := hout.issued
    rw [token_redeemed hv hg hop hred' hid]
  have hbefore : Trace cfg {} past d.pre := by
    rw [htrace] at hv
    exact (Valid.entry hv).1
  have hpre : Trace cfg {} ((m ++ [d]) ++ past) e.pre := by
    rw [htrace'] at hv
    simpa using (Valid.entry hv).1
  refine not_staged_later hbefore hpre (hout.email_ne_empty hv) ?_ (hnot.during d hd rfl) row hrow
    hrid (hpending.trans hemail)
  intro e' he' newEmail hcall
  have hmem : e' ∈ c.trace := by
    rw [htrace']
    rcases List.mem_append.mp he' with he' | he' <;> simp_all
  have hle : d.tid ≤ e'.tid := by
    rcases List.mem_append.mp he' with he' | he'
    · exact hseq.le_of_mem_later htrace (List.mem_append_right _ (List.mem_cons_of_mem e he'))
    · rw [List.mem_singleton.mp he']
  rcases Nat.lt_or_eq_of_le hle with hlt' | heq'
  · exact hnot.after e' hmem hlt' newEmail hcall
  · exact absurd hcall (hquiet e' hmem heq'.symm uid newEmail)

end

section

open Scenario

attribute [local instance] plain

/-- The token `ChangeEmail` hands out for the address at ticks 12 to 14. -/
def stagedToken : Token :=
  { id := ident 14, userID := ident 2, tokenHash := raw 12, purpose := .emailChange
    expiresAt := 13 + config.emailVerificationTokenDuration, createdAt := 13, email := "b" }

/-- A change of address is staged, the password is changed, and the change of
    address is confirmed all the same. -/
def stagedTakeover : List (Call × Nat) :=
  [(.register "a" [1] {}, 8), (.changeEmail (ident 2) "b", 8),
    (.changePassword (ident 2) [1] [2] {}, 9), (.confirmEmailChange (raw 12), 10)]

theorem staged_change_survives :
    ∃ c, play stagedTakeover = some c ∧ Faultless c.trace ∧
      StagedChangeOutlives c 2 (ident 2) stagedToken := by
  obtain ⟨c, hplay, hok, hset, hissued, hspent, e, he, htid, hmove⟩ :=
    computed (o := play stagedTakeover)
    (P := fun c => (∀ e ∈ c.trace, e.choice.fault = none) ∧
      succeeded c 2 (.changePassword (ident 2) [1] [2] {}) = true ∧
      (∃ g ∈ c.trace, g.tid < 2 ∧ g.op = .createToken stagedToken) ∧
      spent c 3 stagedToken = true ∧
      ∃ e ∈ c.trace, e.tid = 3 ∧ ∃ row ∈ e.pre.users.rows, ∃ row' ∈ e.post.users.rows,
        row.id = ident 2 ∧ row'.id = ident 2 ∧ row'.email ≠ row.email)
    (by decide +kernel)
  obtain ⟨a, hret⟩ := succeeded_returned hset
  exact ⟨c, hplay, hok,
    { recovery := Or.inl (.changePassword [1] [2] {} hret)
      issued := hissued
      kind := rfl
      user := rfl
      confirmed := ⟨e, he, by omega, htid ▸ spent_spends hspent, hmove⟩ }⟩

/-- Another address is staged before the password is changed, and the first one is
    refused. -/
def restaged : List (Call × Nat) :=
  [(.register "a" [1] {}, 8), (.changeEmail (ident 2) "b", 8), (.changeEmail (ident 2) "c", 8),
    (.changePassword (ident 2) [1] [2] {}, 9), (.confirmEmailChange (raw 12), 4)]

theorem staged_change_ends_restaged :
    ∃ c, play restaged = some c ∧ NotStaged c 3 (ident 2) stagedToken ∧
      ¬ StagedChangeOutlives c 3 (ident 2) stagedToken := by
  obtain ⟨c, hplay, hduring, hafter⟩ := computed (o := play restaged)
    (P := fun c => (∀ e ∈ c.trace, e.tid = 3 → ∀ row ∈ e.pre.users.rows, row.id = ident 2 →
        row.pendingEmail ≠ stagedToken.email) ∧
      ∀ e ∈ c.trace, 3 < e.tid → e.call = .confirmEmailChange (raw 12)) (by decide +kernel)
  have hnot : NotStaged c 3 (ident 2) stagedToken := by
    refine ⟨hduring, fun e he hlt newEmail hcall => ?_⟩
    cases (hafter e he hlt).symm.trans hcall
  exact ⟨c, hplay, hnot, staged_change_ends hplay hnot⟩

end

end Sulis
