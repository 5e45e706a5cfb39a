-- SUMMARY: Which sessions that validation refuses a rotation still turns into new ones: those past a deadline, and no others.
import Sulis.Interaction.Alone
import Sulis.Properties.Lineage

/-!
# Rotation against validation

`ValidateSession` looks at both deadlines of a session and at the disabled flag.
`RefreshSession` looks at the account, and at the row only in that it must be there.
-/

namespace Sulis

open Interaction Interaction.System World

section

variable [Platform] {cfg : Config} {now : Time} {w w' : World} {s : Session} {token : String}

/-! ## Single calls -/

/-- No store fails, and the clock shows `now`. -/
def Choice.At (now : Time) (ch : Choice) : Prop := ch.time = now ∧ ch.fault = none

/-- What a program can end in alone at that time. -/
abbrev EndsAt (cfg : Config) (now : Time) {α : Type} (p : M α) (w w' : World) (r : Except Err α) :
    Prop := (system cfg).Lands (Choice.At now) p w w' r

omit [Platform] in
theorem choice_at (now : Time) : Choice.At now { time := now } := ⟨rfl, rfl⟩

theorem endsAt_store (op : Op) {α : Type} (k : op.Res → Except Err α) {r : Except Err α}
    (x : op.Res × World) (hserve : ∀ ch, Choice.At now ch → World.serve w op ch = some x) :
    EndsAt cfg now (request (.call op (fun y => .ret (k y)))) w w' r ↔ w' = x.2 ∧ r = k x.1 := by
  refine lands_call.trans ⟨?_, ?_⟩
  · rintro ⟨ch, y, w₁, hch, hs, hret⟩
    cases (hserve ch hch).symm.trans hs
    exact lands_ret.mp hret
  · intro h
    exact ⟨_, x.1, x.2, choice_at now, hserve _ (choice_at now), lands_ret.mpr h⟩

theorem endsAt_query {op : Op} {x : op.Res} {w₁ : World} {r : Except Err op.Res}
    (hserve : ∀ ch, Choice.At now ch → World.serve w op ch = some (x, w₁)) :
    EndsAt cfg now (query (.call op .ret)) w w' r ↔ w' = w₁ ∧ r = .ok x := by
  refine lands_lift.trans ⟨?_, ?_⟩
  · rintro ⟨a, rfl, ch, y, w₂, hch, hs, rfl, rfl⟩
    cases (hserve ch hch).symm.trans hs
    exact ⟨rfl, rfl⟩
  · rintro ⟨rfl, rfl⟩
    exact ⟨x, rfl, _, x, w', choice_at now, hserve _ (choice_at now), rfl, rfl⟩

omit [Platform] in
theorem store_at {ch : Choice} (hch : Choice.At now ch) {α : Type} (r : Except Err α × World) :
    w.store ch r = some r := by
  simp [World.store, hch.2]

theorem endsAt_deleteSession {uid id : UUID} {x r : Except Err Unit} {t : SessionStore}
    (hdel : w.sessions.deleteSession uid id = (x, t)) :
    EndsAt cfg now (Sessions.deleteSession uid id) w w' r ↔ w' = { w with sessions := t } ∧ r = x :=
  endsAt_store (.deleteSession uid id) (fun y => y) (x, { w with sessions := t })
    (fun _ hch => by rw [World.serve, store_at hch, World.withSessions, hdel])

theorem endsAt_createSession {s : Session} {r : Except Err Unit} :
    EndsAt cfg now (Sessions.createSession s) w w' r ↔
      w' = { w with sessions := w.sessions.put s } ∧ r = .ok () :=
  endsAt_store (.createSession s) (fun y => y) _ (fun _ hch => store_at hch _)

theorem endsAt_getUserByID {id : UUID} {r : Except Err User} :
    EndsAt cfg now (Users.getUserByID id) w w' r ↔ w' = w ∧ r = w.users.getUserByID id :=
  endsAt_store (.getUserByID id) (fun y => y) _ (fun _ hch => store_at hch _)

theorem endsAt_timeNow {r : Except Err Time} :
    EndsAt cfg now timeNow w w' r ↔ w' = w ∧ r = .ok now :=
  endsAt_query (fun ch hch => by rw [World.serve, hch.1])

theorem endsAt_markStatus {u : User} {r : Except Err Unit} :
    EndsAt cfg now (markStatus u) w w' r ↔ w' = w ∧ r = .ok () :=
  endsAt_query (fun _ _ => rfl)

theorem endsAt_emit {e : SecurityEvent} {r : Except Err Unit} :
    EndsAt cfg now (Service.emit cfg e) w w' r ↔ w' = w ∧ r = .ok () := by
  unfold Service.emit
  split
  · exact (lands_bind_ok fun _ _ => endsAt_timeNow).trans (endsAt_query (fun _ _ => rfl))
  · exact lands_pure

/-! ## The gates of a rotation -/

/-- The account is let through at that time. -/
structure Welcome (cfg : Config) (now : Time) (u : User) : Prop where
  enabled : u.disabledAt = none
  unlocked : ∀ until_, u.lockedUntil = some until_ → until_ ≤ now
  verified : ¬ (cfg.requireVerifiedEmail ∧ u.emailVerifiedAt = none)

theorem endsAt_accountStatus_ok {u : User} {r : Except Err Unit} (henabled : u.disabledAt = none)
    (hunlocked : ∀ until_, u.lockedUntil = some until_ → until_ ≤ now) :
    EndsAt cfg now (Service.accountStatus u) w w' r ↔ w' = w ∧ r = .ok () := by
  refine (lands_bind_ok fun _ _ => endsAt_markStatus).trans ?_
  rw [henabled]
  cases hl : u.lockedUntil with
  | none => exact lands_pure
  | some until_ =>
    refine (lands_bind_ok fun _ _ => endsAt_timeNow).trans ?_
    rw [if_neg (not_lt.mpr (hunlocked until_ hl))]
    exact lands_pure

/-- Whoever passes is enabled and unlocked, and who does not pass leaves nothing behind. -/
theorem endsAt_accountStatus {u : User} {r : Except Err Unit}
    (h : EndsAt cfg now (Service.accountStatus u) w w' r) : w' = w ∧ (r = .ok () →
      u.disabledAt = none ∧ ∀ until_, u.lockedUntil = some until_ → until_ ≤ now) := by
  replace h := (lands_bind_ok fun _ _ => endsAt_markStatus).mp h
  cases hd : u.disabledAt with
  | some t =>
    rw [hd] at h
    obtain ⟨rfl, rfl⟩ := lands_throw.mp h
    exact ⟨rfl, fun hr => by cases hr⟩
  | none =>
    rw [hd] at h
    cases hl : u.lockedUntil with
    | none =>
      rw [hl] at h
      obtain ⟨rfl, -⟩ := lands_pure.mp h
      exact ⟨rfl, fun _ => ⟨rfl, fun _ hsome => by cases hsome⟩⟩
    | some until_ =>
      rw [hl] at h
      replace h := (lands_bind_ok fun _ _ => endsAt_timeNow).mp h
      split at h
      · obtain ⟨rfl, rfl⟩ := lands_throw.mp h
        exact ⟨rfl, fun hr => by cases hr⟩
      · rename_i hlate
        obtain ⟨rfl, -⟩ := lands_pure.mp h
        refine ⟨rfl, fun _ => ⟨rfl, fun _ hsome => ?_⟩⟩
        cases hsome
        exact not_lt.mp hlate

/-- The environment can still draw an ID that no row has, and a token. -/
structure Stocked (cfg : Config) (w : World) : Prop where
  drawn : Drawn w
  id : ∃ id, id ≠ UUID.nil ∧ id ∉ w.ids
  token : ∃ b : Bytes, b.length = cfg.sessionTokenBytes ∧ b ∉ w.draws

/-- A rotation of the session can leave a row behind that was not there. -/
def Rotatable (cfg : Config) (now : Time) (s : Session) (w : World) : Prop :=
  ∃ w' out, EndsAt cfg now (Call.program cfg (.refreshSession s)) w w' out ∧
    ∃ row ∈ w'.sessions, row ∉ w.sessions

/-- A rotation that stores a session has found the row, and an account that is let
    through. The deadlines of the row are not looked at. -/
theorem rotatable_gates (h : Rotatable cfg now s w) :
    (∃ row ∈ w.sessions, row.id = s.id) ∧ ∃ u ∈ w.users, u.id = s.userID ∧ Welcome cfg now u := by
  obtain ⟨w', out, hends, row, hrow, hnew⟩ := h
  -- Whenever a gate refuses, the rows that are left were there before.
  have refused {w₁ : World} (hsub : ∀ row ∈ w₁.sessions, row ∈ w.sessions) (heq : w' = w₁) : False :=
    hnew (hsub row (heq ▸ hrow))
  rcases w.sessions.deleteSession_cases s.userID s.id with hdel | ⟨old, hold, hid, -, hdel⟩
  · obtain ⟨heq, -⟩ := (lands_bind_error fun _ _ => endsAt_deleteSession hdel).mp hends
    exact (refused (fun _ => id) heq).elim
  have hsub : ∀ row ∈ (w.sessions.erase s.id), row ∈ w.sessions := fun row hrow =>
    (Store.Table.mem_erase.mp hrow).1
  replace hends := (lands_bind_ok fun _ _ => endsAt_deleteSession hdel).mp hends
  rcases lands_bind.mp hends with ⟨w₁, u, huser, hends⟩ | ⟨e, -, huser⟩
  · obtain ⟨rfl, hu⟩ := endsAt_getUserByID.mp huser
    obtain ⟨humem, huid⟩ := UserStore.getUserByID_eq_ok.mp hu.symm
    rcases lands_bind.mp hends with ⟨w₂, _, hstatus, hends⟩ | ⟨e, -, hstatus⟩
    · obtain ⟨rfl, hopen⟩ := endsAt_accountStatus hstatus
      obtain ⟨henabled, hunlocked⟩ := hopen rfl
      by_cases hver : cfg.requireVerifiedEmail ∧ u.emailVerifiedAt = none
      · simp only [Service.requireVerifiedEmail, if_pos hver] at hends
        obtain ⟨heq, -⟩ := (lands_bind_error fun _ _ => lands_throw).mp hends
        exact (refused hsub heq).elim
      · exact ⟨⟨old, hold, hid⟩, u, humem, huid, henabled, hunlocked, hver⟩
    · exact (refused hsub (endsAt_accountStatus hstatus).1).elim
  · exact (refused hsub (endsAt_getUserByID.mp huser).1).elim

theorem endsAt_generateSessionToken {b : Bytes} (hb : b ∉ w.draws) :
    EndsAt cfg now (Service.generateSessionToken b.length) w { w with draws := b :: w.draws }
      (.ok (hexEncodeToString b)) := by
  refine lands_bind.mpr (Or.inl ⟨_, b, lands_lift.mpr ⟨b, rfl, ?_⟩, lands_pure.mpr ⟨rfl, rfl⟩⟩)
  exact ⟨{ time := now, bytes := b }, b, { w with draws := b :: w.draws }, ⟨rfl, rfl⟩,
    by simp [World.serve, hb], rfl, rfl⟩

theorem endsAt_newV7 {id : UUID} (hnil : id ≠ .nil) (hid : id ∉ w.ids) :
    EndsAt cfg now newV7 w { w with ids := id :: w.ids } (.ok id) := by
  refine lands_lift.mpr ⟨id, rfl, { time := now, uuid := id }, id, { w with ids := id :: w.ids },
    ⟨rfl, rfl⟩, ?_, rfl, rfl⟩
  simp [World.serve, hnil, hid]

theorem rotatable_of_gates (hstock : Stocked cfg w) (hs : s ∈ w.sessions) {u : User}
    (hu : u ∈ w.users) (huid : u.id = s.userID) (hw : Welcome cfg now u) :
    Rotatable cfg now s w := by
  obtain ⟨id, hnil, hid⟩ := hstock.id
  obtain ⟨b, hlen, hb⟩ := hstock.token
  have huser : w.users.getUserByID s.userID = .ok u := UserStore.getUserByID_eq_ok.mpr ⟨hu, huid⟩
  refine may_bind ((endsAt_deleteSession (SessionStore.deleteSession_of_mem hs)).mpr ⟨rfl, rfl⟩) ?_
  refine may_bind (endsAt_getUserByID.mpr ⟨rfl, huser.symm⟩) ?_
  refine may_bind ((endsAt_accountStatus_ok hw.enabled hw.unlocked).mpr ⟨rfl, rfl⟩) ?_
  simp only [Service.requireVerifiedEmail, if_neg hw.verified]
  refine may_bind (lands_pure.mpr ⟨rfl, rfl⟩) ?_
  rw [← hlen]
  refine may_bind (endsAt_generateSessionToken hb) ?_
  refine may_bind (endsAt_timeNow.mpr ⟨rfl, rfl⟩) ?_
  refine may_bind (endsAt_newV7 hnil hid) ?_
  refine may_bind (endsAt_createSession.mpr ⟨rfl, rfl⟩) ?_
  refine may_bind (endsAt_emit.mpr ⟨rfl, rfl⟩) (may_pure ?_)
  -- The new row has an ID that no row had.
  exact ⟨_, Store.Table.mem_put.mpr (Or.inl rfl), fun hmem => hid (hstock.drawn _ hmem)⟩

/-! ## The gates of a validation -/

/-- The session is past one of its deadlines. -/
def Overdue (now : Time) (s : Session) : Prop :=
  s.idleExpiresAt.any (· < now) = true ∨ s.expiresAt < now

/-- Validation can refuse the token. -/
def Refused (cfg : Config) (now : Time) (token : String) (w : World) : Prop :=
  ∃ w' out, EndsAt cfg now (Call.program cfg (.validateSession token)) w w' out ∧
    ∃ err, out = .error err

/-- The store holds the session, or neither its ID nor its token. -/
def StoredAs (s : Session) (w : World) : Prop :=
  ∀ row ∈ w.sessions, row.id = s.id ∨ row.tokenHash = s.tokenHash → row = s

theorem endsAt_getSession (hstored : StoredAs s w) (hs : s ∈ w.sessions)
    {r : Except Err Session} :
    EndsAt cfg now (Sessions.getSessionByTokenHash s.tokenHash) w w' r ↔ w' = w ∧ r = .ok s := by
  refine endsAt_store (.getSessionByTokenHash s.tokenHash) (fun y => y) (.ok s, w) (fun ch hch => ?_)
  rw [World.serve, store_at hch, SessionStore.getSessionByTokenHash_of_mem hs
    (fun row hrow hhash => hstored row hrow (Or.inr hhash))]

theorem may_endSession {α : Type} {kind : EventKind} {reason : String} :
    (system cfg).May (Choice.At now) (Service.endSession (α := α) cfg kind s reason) w
      (fun _ r => ∃ err, r = .error err) := by
  refine may_attempt_bind (endsAt_deleteSession (x := _) (t := _) rfl |>.mpr ⟨rfl, rfl⟩) ?_
  exact may_bind (endsAt_emit.mpr ⟨rfl, rfl⟩) (may_throw ⟨_, rfl⟩)

theorem refused_of_overdue (htoken : s.tokenHash = hashSessionToken token) (hstored : StoredAs s w)
    (hs : s ∈ w.sessions) (hover : Overdue now s) : Refused cfg now token w := by
  refine may_bind ((htoken ▸ endsAt_getSession hstored hs).mpr ⟨rfl, rfl⟩) ?_
  refine may_bind (endsAt_timeNow.mpr ⟨rfl, rfl⟩) ?_
  split
  · exact may_endSession
  · rename_i hidle
    rw [if_pos (hover.resolve_left hidle)]
    exact may_endSession

/-- The liveness touch does not fail a validation. -/
theorem touch_ok {r : Except Err Session} (h : EndsAt cfg now (Service.touch cfg s now) w w' r) :
    ∃ s', r = .ok s' := by
  unfold Service.touch at h
  split at h
  · obtain ⟨w₁, x, -, h⟩ := lands_attempt_bind.mp h
    cases x with
    | ok => exact ⟨_, (lands_pure.mp h).2⟩
    | error => exact ⟨_, (lands_pure.mp h).2⟩
  · exact ⟨_, (lands_pure.mp h).2⟩

/-- Otherwise only a missing or disabled account is refused. -/
theorem overdue_of_refused (htoken : s.tokenHash = hashSessionToken token) (hstored : StoredAs s w)
    (hs : s ∈ w.sessions) {u : User} (hu : u ∈ w.users) (huid : u.id = s.userID)
    (henabled : u.disabledAt = none) (h : Refused cfg now token w) : Overdue now s := by
  obtain ⟨w', out, hends, err, rfl⟩ := h
  have huser : w.users.getUserByID s.userID = .ok u := UserStore.getUserByID_eq_ok.mpr ⟨hu, huid⟩
  replace hends := (lands_bind_ok fun _ _ => htoken ▸ endsAt_getSession hstored hs).mp hends
  replace hends := (lands_bind_ok fun _ _ => endsAt_timeNow).mp hends
  by_contra hover
  rw [Overdue, not_or] at hover
  rw [if_neg hover.1, if_neg hover.2] at hends
  replace hends := (lands_bind_ok fun _ _ => endsAt_getUserByID.trans (by rw [huser])).mp hends
  replace hends := (lands_bind_ok fun _ _ => endsAt_markStatus).mp hends
  rw [if_neg (not_not.mpr henabled)] at hends
  rcases lands_bind.mp hends with ⟨w₁, s', -, hends⟩ | ⟨e, -, htouch⟩
  · obtain ⟨-, h⟩ := lands_pure.mp hends
    cases h
  · obtain ⟨s', h⟩ := touch_ok htouch
    cases h

/-- A rotation stores no session where validation refuses, except if the row is past a
    deadline and the account is let through. Then it does. -/
theorem refresh_refuses_iff (htoken : s.tokenHash = hashSessionToken token)
    (hstored : StoredAs s w) (hstock : Stocked cfg w) :
    (Refused cfg now token w → ¬ Rotatable cfg now s w) ↔
      (s ∈ w.sessions → Overdue now s →
        ∀ u ∈ w.users, u.id = s.userID → ¬ Welcome cfg now u) := by
  constructor
  · intro h hs hover u hu huid hw
    exact h (refused_of_overdue htoken hstored hs hover) (rotatable_of_gates hstock hs hu huid hw)
  · intro h hrefused hrotatable
    obtain ⟨⟨row, hrow, hid⟩, u, hu, huid, hw⟩ := rotatable_gates hrotatable
    have hs : s ∈ w.sessions := hstored row hrow (Or.inl hid) ▸ hrow
    exact h hs (overdue_of_refused htoken hstored hs hu huid hw.enabled hrefused) u hu huid hw

end

section

open Scenario

attribute [local instance] plain

/-- What is left to draw after the login of `loginSession`. -/
theorem loginSession_stocked : ∃ c, play (verifiedAccount ++ [(.login "a" [1] {}, 9)]) = some c ∧
    Stocked config c.world ∧ StoredAs loginSession c.world ∧ loginSession ∈ c.world.sessions ∧
    ∃ u ∈ c.world.users, u.id = loginSession.userID ∧ u.disabledAt = none ∧
      u.lockedUntil = none ∧ u.emailVerifiedAt ≠ none := by
  obtain ⟨c, hplay, hid, hb, hstored, hs, hu⟩ :=
    computed (o := play (verifiedAccount ++ [(.login "a" [1] {}, 9)]))
    (P := fun c => ident 100 ∉ c.world.ids ∧ draw 100 ∉ c.world.draws ∧
      (∀ row ∈ c.world.sessions.rows, row.id = loginSession.id ∨
        row.tokenHash = loginSession.tokenHash → row = loginSession) ∧
      loginSession ∈ c.world.sessions.rows ∧
      ∃ u ∈ c.world.users.rows, u.id = loginSession.userID ∧ u.disabledAt = none ∧
        u.lockedUntil = none ∧ u.emailVerifiedAt ≠ none)
    (by decide +kernel)
  obtain ⟨as, has⟩ := Config.runBlocks_run hplay
  exact ⟨c, hplay, ⟨run_drawn has, ⟨_, by decide, hid⟩, ⟨_, rfl, hb⟩⟩, hstored, hs, hu⟩

/-- A session is rotated a nanosecond after it has expired. -/
theorem expired_session_rotated :
    ∃ c, play (verifiedAccount ++ [(.login "a" [1] {}, 9)]) = some c ∧
      loginSession ∈ c.world.sessions ∧ loginSession.tokenHash = hashSessionToken (raw 25) ∧
      Refused config (loginSession.expiresAt + 1) (raw 25) c.world ∧
      Rotatable config (loginSession.expiresAt + 1) loginSession c.world := by
  obtain ⟨c, hplay, hstock, hstored, hs, u, hu, huid, henabled, hunlocked, hver⟩ :=
    loginSession_stocked
  have hw : Welcome config (loginSession.expiresAt + 1) u :=
    ⟨henabled, by simp [hunlocked], fun h => hver h.2⟩
  exact ⟨c, hplay, hs, rfl, refused_of_overdue rfl hstored hs (Or.inr (Int.lt_succ _)),
    rotatable_of_gates hstock hs hu huid hw⟩

theorem refresh_refuses_iff_inTime :
    ∃ c, play (verifiedAccount ++ [(.login "a" [1] {}, 9)]) = some c ∧
      loginSession ∈ c.world.sessions ∧
      (Refused config 30 (raw 25) c.world → ¬ Rotatable config 30 loginSession c.world) := by
  obtain ⟨c, hplay, hstock, hstored, hs, -⟩ := loginSession_stocked
  refine ⟨c, hplay, hs, (refresh_refuses_iff rfl hstored hstock).mpr ?_⟩
  rintro - (hidle | hexpired)
  · cases hidle
  · exact absurd hexpired (by decide)

end

end Sulis
