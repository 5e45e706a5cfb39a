-- SUMMARY: Revocation as a barrier: the session of a request in flight slips past it only if it is stored afterwards.
import Sulis.Interaction.Overlap
import Sulis.Properties.Recovery

/-!
# Revocation and requests in flight

A revoking operation deletes the sessions that are in the store when it gets to
them. A login that has already verified the old password, or a rotation that has
already removed the old session, may store its session later than that.
-/

namespace Sulis

open Interaction Interaction.System

section

variable [Platform] {cfg : Config}

/-- Operation `i` has revoked the sessions of the user. -/
inductive RevokedBy (c : Run cfg) (i : Nat) (uid : UUID) : Prop
  | changePassword (old new : Bytes) (ri : RequestInfo)
      (hret : c.Returned i (.changePassword uid old new ri) (.ok ()))
  | resetPassword (raw : String) (new : Bytes) (tok : Token)
      (hret : c.Returned i (.resetPassword raw new) (.ok ()))
      (htok : Did (history i c.trace) (.consumeToken (hashToken raw) .passwordReset) (.ok tok))
      (huser : tok.userID = uid)
  | revokeAllSessions (hret : c.Returned i (.revokeAllSessions uid) (.ok ()))

/-- Operation `j` acts for the user on a credential from before: it is a login that
    verified the password stored in `c₀`, or rotates a session stored there. -/
inductive OnOldCredential (c₀ c : Run cfg) (j : Nat) (uid : UUID) : Prop
  | login (email : String) (password : Bytes) (ri : RequestInfo) (copy row : User)
      (hcall : ∃ out, c.Returned j (.login email password ri) out)
      (hverified : Compared cfg (history j c.trace) password copy true) (hid : copy.id = uid)
      (hrow : row ∈ c₀.world.users) (hrid : row.id = uid)
      (hsame : copy.passwordHash = row.passwordHash)
  | refreshSession (old row : Session) (hcall : ∃ out, c.Returned j (.refreshSession old) out)
      (hrow : row ∈ c₀.world.sessions) (hid : row.id = old.id) (huser : row.userID = uid)

/-- Of two overlapping operations, the first revokes the sessions of the user, and
    still there is one from before, or one the second minted on an old credential. -/
structure SlipsPast (c₀ c : Run cfg) (uid : UUID) (s : Session) : Prop where
  revoked : RevokedBy c c₀.threads.length uid
  minted : ∃ g ∈ c.trace, g.op = .createSession s ∧
    (g ∈ c₀.trace ∨ (g.tid = c₀.threads.length + 1 ∧
      OnOldCredential c₀ c (c₀.threads.length + 1) uid))
  user : s.userID = uid
  live : ∃ row ∈ c.world.sessions, row.id = s.id

/-- Thread `j` stores no session after thread `i` has deleted those of the user. -/
def StoresBefore (c : Run cfg) (i j : Nat) (uid : UUID) : Prop :=
  ∀ (later : List (Entry cfg)) (g : Entry cfg) (past : List (Entry cfg)),
    c.trace = later ++ g :: past → g.tid = j → (∃ s, g.op = .createSession s) →
    ∀ d ∈ past, d.tid = i → d.op ≠ .deleteUserSessions uid

variable {w₀ : World} {as : List (system cfg).Action} {c₀ c : Run cfg} {i : Nat} {uid : UUID}

theorem RevokedBy.sweep (hrev : RevokedBy c i uid)
    (hrevoke : cfg.revokeSessionsOnPasswordChange = true)
    (hrun : (Config.start w₀).run as = some c) :
    Did (history i c.trace) (.deleteUserSessions uid) (.ok ()) := by
  cases hrev with
  | changePassword old new ri hret =>
    exact ((PasswordSetBy.changePassword old new ri hret).recovered hrun).sessions hrevoke
  | resetPassword raw new tok hret htok huser =>
    exact ((PasswordSetBy.resetPassword raw new tok hret htok huser).recovered hrun).sessions hrevoke
  | revokeAllSessions hret => exact run_outcome hrun hret

/-- A request whose session is stored before the revocation does not slip past it. -/
theorem revocation_is_barrier {call call' : Call}
    (hrevoke : cfg.revokeSessionsOnPasswordChange = true)
    (hbefore : (Run.empty cfg).run as = some c₀) (hover : c₀.Overlap c call call')
    (horder : StoresBefore c c₀.threads.length (c₀.threads.length + 1) uid) (s : Session) :
    ¬ SlipsPast c₀ c uid s := by
  intro hslip
  obtain ⟨as', has'⟩ := hover.run
  have hrun : (Run.empty cfg).run (as ++ as') = some c := by
    rw [Config.run_append, hbefore]
    exact has'
  have hv := run_trace_valid hrun
  obtain ⟨d, hd, hdi, hdev⟩ := mem_history.mp (hslip.revoked.sweep hrevoke hrun)
  obtain ⟨l', p', htrace'⟩ := List.append_of_mem hd
  obtain ⟨g, hg, hop, hfrom⟩ := hslip.minted
  obtain ⟨row, hrow, hid⟩ := hslip.live
  have hpast : g ∈ p' := by
    rcases hfrom with hold | ⟨hgj, -⟩
    · exact (hover.before.suffix_past (run_sound hbefore).bounded has' htrace'
        (Nat.le_of_eq hdi.symm)).subset hold
    · obtain ⟨l, p, htrace⟩ := List.append_of_mem hg
      rcases append_cons_cases (htrace.symm.trans htrace') with h | ⟨mid, hp⟩ | ⟨mid, hp⟩
      · rw [h.2.1] at hgj
        omega
      · exact absurd (congrArg Sigma.fst hdev)
          (horder l g p htrace hgj ⟨s, hop⟩ d (by rw [hp]; simp) hdi)
      · rw [hp]; simp
  rw [htrace'] at hv
  exact session_swept hv hdev hpast hop hslip.user row hrow hid

end

section

open Scenario

attribute [local instance] plain

/-- A password change overlaps with a login with the old password. -/
def loginDuringChange (order : List Nat) : Option (Run config × Run config) :=
  overlap verifiedAccount (.changePassword (ident 2) [1] [2] {}) (.login "a" [1] {}) 20 order

/-- The login verifies the old password, then the password is changed and the
    sessions are revoked, and then the login stores its session. -/
def loginFinishesLast : List Nat := List.replicate 8 4 ++ List.replicate 9 3 ++ [4]

theorem login_slips_past :
    ∃ as c₀ c, (Run.empty config).run as = some c₀ ∧
      c₀.Overlap c (.changePassword (ident 2) [1] [2] {}) (.login "a" [1] {}) ∧
      Faultless c.trace ∧ ∃ s, SlipsPast c₀ c (ident 2) s := by
  obtain ⟨⟨c₀, c⟩, hover, hlen, hquiet, hok, hset, hlogin, ⟨row, hrow, hrid, hread, hemail, hverify⟩,
      g, hg, hgj, s, hs, hop, huser⟩ :=
    computed (o := loginDuringChange loginFinishesLast)
    (P := fun x => x.1.threads.length = 3 ∧ (∀ t ∈ x.2.threads, t.rest.value?.isSome) ∧
      (∀ e ∈ x.2.trace, e.choice.fault = none) ∧
      succeeded x.2 3 (.changePassword (ident 2) [1] [2] {}) = true ∧
      succeeded x.2 4 (.login "a" [1] {}) = true ∧
      (∃ row ∈ x.1.world.users.rows, row.id = ident 2 ∧
        ⟨.getUserByEmail "a", .ok row⟩ ∈ history 4 x.2.trace ∧ row.email = "a" ∧
        verifyPassword [1] row.passwordHash config.pepper = .ok (true, false)) ∧
      ∃ g ∈ x.2.trace, g.tid = 4 ∧ ∃ s ∈ x.2.world.sessions.rows,
        g.op = .createSession s ∧ s.userID = ident 2)
    (by decide +kernel)
  obtain ⟨⟨as, has⟩, hover⟩ := overlap_eq_some hover hquiet
  obtain ⟨a, hret⟩ := succeeded_returned hset
  obtain ⟨b, hret'⟩ := succeeded_returned hlogin
  have hread : Read (history 4 c.trace) row := Or.inr (by rw [hemail]; exact hread)
  have h3 : c₀.threads.length = 3 := hlen
  refine ⟨as, c₀, c, has, hover, hok, s, ?_, ?_, huser, s, hs, rfl⟩
  · rw [h3]
    exact .changePassword [1] [2] {} hret
  · rw [h3]
    refine ⟨g, hg, hop, Or.inr ⟨hgj, ?_⟩⟩
    exact .login "a" [1] {} row row ⟨_, hret'⟩ ⟨hread, _, hverify⟩ hrid hrow hrid rfl

/-- The login is done before the password is changed. -/
theorem revocation_is_barrier_loginFirst :
    ∃ as c₀ c, (Run.empty config).run as = some c₀ ∧
      c₀.Overlap c (.changePassword (ident 2) [1] [2] {}) (.login "a" [1] {}) ∧
      StoresBefore c c₀.threads.length (c₀.threads.length + 1) (ident 2) ∧
      ∀ s, ¬ SlipsPast c₀ c (ident 2) s := by
  obtain ⟨⟨c₀, c⟩, hover, hlen, hquiet, hsorted⟩ :=
    computed (o := loginDuringChange (List.replicate 9 4 ++ List.replicate 9 3))
    (P := fun x => x.1.threads.length = 3 ∧ (∀ t ∈ x.2.threads, t.rest.value?.isSome) ∧
      x.2.trace.Pairwise (fun newer older => newer.tid = 4 → older.tid ≠ 3))
    (by decide +kernel)
  obtain ⟨⟨as, has⟩, hover⟩ := overlap_eq_some hover hquiet
  have horder : StoresBefore c c₀.threads.length (c₀.threads.length + 1) (ident 2) := by
    intro later g past htrace hgj _ d hd hdi
    rw [htrace] at hsorted
    have := (List.pairwise_cons.mp (List.pairwise_append.mp hsorted).2.1).1 d hd
    simp only [hlen] at hgj hdi
    exact absurd hdi (this hgj)
  exact ⟨as, c₀, c, has, hover, horder, revocation_is_barrier rfl has hover horder⟩

end

end Sulis
