-- SUMMARY: The liveness stamps of a session move forward as long as validations write them in the order of their clock readings.
import Sulis.Properties.IdleExpiry

/-!
# Liveness stamps

A validation reads the session, reads the clock, and writes the reading back, with other
validations in between. The write does not look at what is stored. So a validation that
was slow to write takes `LastSeenAt` and `IdleExpiresAt` back to its own reading, and
they only move forward in runs where the writes come in the order of the readings.
-/

namespace Sulis

open Interaction Interaction.Prog Interaction.System World

section

variable [Platform] {cfg : Config}

/-! ## What a validation has done before it writes -/

/-- Before it touches a session, a validation has read the clock once and the session
    once, and found the session's stamp old enough. Afterwards it does not read the clock. -/
def Justly (cfg : Config) (h : Hist) : Op → Prop
  | .touchSession id lastSeen idleExpires =>
    idleExpires = Service.idleExpiresAt cfg lastSeen ∧ (∀ t, Did h .now t → t = lastSeen) ∧
      ∃ hash s, Did h (.getSessionByTokenHash hash) (.ok s) ∧ s.id = id ∧
        Service.sessionTouchInterval cfg ≤ lastSeen - s.lastSeenAt
  | .now => ∀ id t d r, ¬ Did h (.touchSession id t d) r
  | .createSession _ | .updateAuthenticatedAt _ _ => False
  | _ => True

/-- Any number of validations, each of any token, over one world. -/
abbrev validations (cfg : Config) : System iface where
  World := World
  Choice := Choice
  serve := World.serve
  Call := String
  Out := fun _ => Except Err (Session × User)
  body := fun token => (Service.validateSession cfg token).run

/-- One served call in a run of validations. -/
abbrev TouchEntry (cfg : Config) : Type := (validations cfg).Entry

def touching (cfg : Config) : Discipline iface := ⟨(validations cfg).Legal, Justly cfg⟩

variable {h : Hist}

theorem endSession_touching {α : Type} {kind : EventKind} {s : Session} {reason : String}
    {Q : Hist → α → Prop} (hnone : ∀ id t d r, ¬ Did h (.touchSession id t d) r) :
    Yields (touching cfg) (Service.endSession cfg kind s reason) h Q := by
  refine yields_bind (R := fun (h' : Hist) _ => ∀ id t d r, ¬ Did h' (.touchSession id t d) r) ?_ ?_
  · refine yields_attempt ⟨trivial, fun r _ => ?_⟩
    intro id t d r' hd
    rcases List.mem_cons.mp hd with heq | hd
    · cases heq
    · exact hnone id t d r' hd
  · intro _ h₁ _ hnone
    refine yields_bind (R := fun _ _ => True) ?_ fun _ _ _ _ => yields_throw
    unfold Service.emitSessionEnded Service.emit
    refine yields_ite (fun _ => ?_) fun _ => yields_pure trivial
    refine yields_bind (R := fun _ _ => True) (yields_lift ⟨hnone, fun _ _ => trivial⟩) ?_
    exact fun _ _ _ _ => yields_lift ⟨trivial, fun _ _ => trivial⟩

theorem validateSession_touching (token : String) :
    Yields (touching cfg) (Service.validateSession cfg token) [] (fun _ _ => True) := by
  refine yields_bind (yields_request (touching cfg) (.getSessionByTokenHash _) (fun r => r) trivial) ?_
  rintro s _ - ⟨_, rfl, rfl⟩
  have hread : ∀ id t d r, ¬ Did (S := iface)
      [⟨.getSessionByTokenHash (hashSessionToken token), .ok s⟩] (.touchSession id t d) r := by
    intro id t d r hd
    cases List.mem_singleton.mp hd
  refine yields_bind (yields_query (touching cfg) .now hread) ?_
  rintro now _ - rfl
  have hclock : ∀ id t d r, ¬ Did (S := iface) [⟨.now, now⟩,
      ⟨.getSessionByTokenHash (hashSessionToken token), .ok s⟩] (.touchSession id t d) r := by
    intro id t d r hd
    rcases List.mem_cons.mp hd with heq | hd
    · cases heq
    · exact hread id t d r hd
  refine yields_ite (fun _ => endSession_touching hclock) fun _ => ?_
  refine yields_ite (fun _ => endSession_touching hclock) fun _ => ?_
  refine yields_bind (yields_request (touching cfg) (.getUserByID _) (fun r => r) trivial) ?_
  rintro u _ - ⟨_, rfl, rfl⟩
  refine yields_bind (yields_query (touching cfg) (.status u) trivial) ?_
  rintro _ _ - rfl
  refine yields_ite (fun _ => yields_throw) fun _ => ?_
  refine yields_bind (R := fun _ _ => True) (yields_ite (fun hold => ?_) fun _ => yields_pure trivial)
    fun _ _ _ _ => yields_pure trivial
  refine yields_bind (R := fun _ _ => True) (yields_attempt ⟨?_, fun _ _ => trivial⟩) ?_
  · refine ⟨rfl, fun t hd => ?_, hashSessionToken token, s, ?_, rfl, hold⟩
    · simp only [Did, List.mem_cons, List.not_mem_nil, or_false] at hd
      rcases hd with heq | heq | heq | heq
      · cases heq
      · cases heq
      · cases heq
        rfl
      · cases heq
    · simp [Did]
  · intro r _ _ _
    cases r with
    | ok x => exact yields_pure trivial
    | error err => exact yields_pure trivial

/-- A trace in which every touch is one of those. -/
abbrev TouchTrace (cfg : Config) (w₀ : World) (trace : List (TouchEntry cfg)) (w : World) : Prop :=
  Valid (Y := validations cfg) (fun _ => Justly cfg) w₀ trace w

theorem run_touchTrace {w₀ : World} {as : List (validations cfg).Action} {c : (validations cfg).Config}
    (hrun : (Config.start w₀).run as = some c) : TouchTrace cfg w₀ c.trace c.world := by
  refine (Config.sound_start.run (Q := fun _ _ _ => True) (fun token => ?_) hrun).valid
  exact (validateSession_touching token).along.mono fun _ _ _ _ => trivial

/-! ## Stamps along a trace -/

/-- The clock never goes back. -/
def Clocked (trace : List (TouchEntry cfg)) : Prop :=
  trace.Pairwise fun newer older => newer.op = .now → older.op = .now →
    older.choice.time ≤ newer.choice.time

instance (trace : List (TouchEntry cfg)) : Decidable (Clocked trace) :=
  inferInstanceAs (Decidable (trace.Pairwise _))

/-- The entry is a write of the stamps of a session. -/
def touches (id : UUID) (e : TouchEntry cfg) : Bool :=
  match e.op with
  | .touchSession id' _ _ => id' = id
  | _ => false

/-- Validation `i` has read the clock after validation `j`. -/
def ReadAfter (i j : Nat) : List (TouchEntry cfg) → Prop
  | [] => False
  | n :: earlier =>
    (n.tid = i ∧ n.op = .now ∧ ∃ n' ∈ earlier, n'.tid = j ∧ n'.op = .now) ∨ ReadAfter i j earlier

/-- A validation writes the stamps of the session only after those that read the clock before
    it, never after one that read it later. -/
def WrittenInOrder (id : UUID) : List (TouchEntry cfg) → Prop
  | [] => True
  | e :: earlier =>
    (touches id e → ∀ e' ∈ earlier, touches id e' → ReadAfter e.tid e'.tid earlier) ∧
      WrittenInOrder id earlier

instance decidableReadAfter (i j : Nat) : (trace : List (TouchEntry cfg)) → Decidable (ReadAfter i j trace)
  | [] => inferInstanceAs (Decidable False)
  | _ :: earlier =>
    have := decidableReadAfter i j earlier
    inferInstanceAs (Decidable (_ ∨ _))

instance decidableWrittenInOrder (id : UUID) :
    (trace : List (TouchEntry cfg)) → Decidable (WrittenInOrder id trace)
  | [] => inferInstanceAs (Decidable True)
  | _ :: earlier =>
    have := decidableWrittenInOrder id earlier
    inferInstanceAs (Decidable (_ ∧ _))

variable {w₀ w w' : World} {id : UUID} {trace earlier later : List (TouchEntry cfg)} {e : TouchEntry cfg}

theorem WrittenInOrder.past (later : List (TouchEntry cfg)) (h : WrittenInOrder id (later ++ earlier)) :
    WrittenInOrder id earlier := by
  induction later with
  | nil => exact h
  | cons e later ih => exact ih h.2

theorem touches_iff : touches id e = true ↔ ∃ t d, e.op = .touchSession id t d := by
  unfold touches
  split
  · rename_i id' t d hop
    rw [decide_eq_true_iff]
    constructor
    · rintro rfl
      exact ⟨t, d, hop⟩
    · rintro ⟨t', d', hop'⟩
      cases hop.symm.trans hop'
      rfl
  · rename_i hne
    constructor
    · intro hfalse
      cases hfalse
    · rintro ⟨t, d, hop⟩
      exact absurd hop (hne id t d)

theorem ReadAfter.split {i j : Nat} (h : ReadAfter i j trace) :
    ∃ l n m, trace = l ++ n :: m ∧ n.tid = i ∧ n.op = .now ∧ ∃ n' ∈ m, n'.tid = j ∧ n'.op = .now := by
  induction trace with
  | nil => exact h.elim
  | cons e trace ih =>
    rcases h with ⟨htid, hop, hbefore⟩ | h
    · exact ⟨[], e, trace, rfl, htid, hop, hbefore⟩
    · obtain ⟨l, n, m, rfl, hn⟩ := ih h
      exact ⟨e :: l, n, m, rfl, hn⟩

omit [Platform] in
/-- What a call of a validation does to the sessions: it stamps one, or removes some. -/
theorem serve_stamps {op : Op} {ch : Choice} {r : op.Res} (hop : Justly cfg h op)
    (hserve : w.serve op ch = some (r, w')) {s' : Session} (hs' : s' ∈ w'.sessions) :
    s' ∈ w.sessions ∨ ∃ s ∈ w.sessions, s.id = s'.id ∧
      op = .touchSession s'.id s'.lastSeenAt s'.idleExpiresAt := by
  cases op with
  | createSession => exact hop.elim
  | updateAuthenticatedAt => exact hop.elim
  | touchSession id t d =>
    rcases store_world hserve with rfl | rfl
    · exact Or.inl hs'
    · rcases w.sessions.touchSession_cases id t d with heq | ⟨s, hs, rfl, heq⟩
      · simp only [World.withSessions, heq] at hs'
        exact Or.inl hs'
      · simp only [World.withSessions, heq] at hs'
        rcases Store.Table.mem_put.mp hs' with rfl | ⟨hs', -⟩
        · exact Or.inr ⟨s, hs, rfl, rfl⟩
        · exact Or.inl hs'
  | deleteSession uid id =>
    rcases store_world hserve with rfl | rfl
    · exact Or.inl hs'
    · rcases w.sessions.deleteSession_cases uid id with heq | ⟨_, _, _, _, heq⟩
      · simp only [World.withSessions, heq] at hs'
        exact Or.inl hs'
      · simp only [World.withSessions, heq] at hs'
        exact Or.inl (Store.Table.mem_erase.mp hs').1
  | deleteUserSessions uid =>
    rcases store_world hserve with rfl | rfl
    · exact Or.inl hs'
    · exact Or.inl (Store.Table.mem_filter.mp hs').1
  | cleanExpired =>
    rcases store_world hserve with rfl | rfl
    · exact Or.inl hs'
    · exact Or.inl (Store.Table.mem_filter.mp hs').1
  | newV7 | randRead | hasSecondFactor | allow | check | emit | now | status =>
    rw [(serve_offStore hserve trivial).2.1] at hs'
    exact Or.inl hs'
  | _ => rcases store_world hserve with rfl | rfl <;> exact Or.inl hs'

/-- The answer to a clock reading. -/
theorem reading_event (hv : TouchTrace cfg w₀ trace w) (he : e ∈ trace) (hop : e.op = .now) :
    e.event = ⟨.now, e.choice.time⟩ := by
  obtain ⟨t, hev⟩ := Entry.event_of_op hop
  have hserve := hv.served he hev
  simp only [World.serve, Option.some.injEq, Prod.mk.injEq] at hserve
  rw [hev, hserve.1]

/-- A validation writes what it has read. -/
theorem reading_eq (hv : TouchTrace cfg w₀ trace w) (he : e ∈ trace) {t : Time} {d : Option Time}
    (hop : e.op = .touchSession id t d) {n : TouchEntry cfg} (hn : n ∈ trace) (htid : n.tid = e.tid)
    (hnow : n.op = .now) : n.choice.time = t := by
  have hread := reading_event hv hn hnow
  obtain ⟨l, p, rfl⟩ := List.append_of_mem he
  obtain ⟨r, hev⟩ := Entry.event_of_op hop
  obtain ⟨-, hclock, -⟩ := hv.allowed hev
  rcases List.mem_append.mp hn with hlater | hpast
  · -- It does not read the clock again.
    obtain ⟨l₁, l₂, rfl⟩ := List.append_of_mem hlater
    rw [List.append_assoc, List.cons_append] at hv
    refine absurd (mem_history.mpr ⟨e, by simp, htid.symm, hev⟩) (hv.allowed hread id t d r)
  · rcases List.mem_cons.mp hpast with rfl | hpast
    · cases hop.symm.trans hnow
    · exact hclock _ (mem_history.mpr ⟨n, hpast, htid, hread⟩)

/-- The session is as it was, or it carries the stamp of a validation that wrote it. -/
structure Stamped (w₀ : World) (trace : List (TouchEntry cfg)) (s₀ s : Session) : Prop where
  start : s₀ ∈ w₀.sessions
  id : s₀.id = s.id
  forward : s₀.lastSeenAt ≤ s.lastSeenAt
  deadline : s.idleExpiresAt = Service.idleExpiresAt cfg s.lastSeenAt
  written : s.lastSeenAt = s₀.lastSeenAt ∨
    ∃ e ∈ trace, ∃ d, e.op = .touchSession s.id s.lastSeenAt d

theorem Stamped.mono {s₀ s : Session} (h : Stamped w₀ trace s₀ s) : Stamped w₀ (e :: trace) s₀ s where
  start := h.start
  id := h.id
  forward := h.forward
  deadline := h.deadline
  written := h.written.imp_right fun ⟨e', he', hop⟩ => ⟨e', List.mem_cons_of_mem e he', hop⟩

/-- Every stored session is stamped, at every moment of the trace. -/
def AllStamped (id : UUID) (w₀ : World) (trace : List (TouchEntry cfg)) (w : World) : Prop :=
  ∀ s ∈ w.sessions, s.id = id → ∃ s₀, Stamped w₀ trace s₀ s

/-- The stamp of the session is not older than at the start. -/
def Forward (id : UUID) (w₀ w : World) : Prop :=
  ∀ s ∈ w.sessions, s.id = id → ∃ s₀ ∈ w₀.sessions, s₀.id = id ∧ s₀.lastSeenAt ≤ s.lastSeenAt

theorem AllStamped.forward (h : AllStamped id w₀ trace w) : Forward id w₀ w := by
  intro s hs hid
  obtain ⟨s₀, hs₀⟩ := h s hs hid
  exact ⟨s₀, hs₀.start, hs₀.id.trans hid, hs₀.forward⟩

omit [Platform] in
theorem sessionTouchInterval_nonneg : 0 ≤ Service.sessionTouchInterval cfg := by
  unfold Service.sessionTouchInterval
  split
  · rename_i hidle
    exact Int.ediv_nonneg hidle.le (by decide)
  · decide

/-- A write in order does not take the stamp back. -/
theorem touch_forward {t : Time} {d : Option Time} (hop : e.op = .touchSession id t d)
    (hv : TouchTrace cfg w₀ (e :: earlier) w) (hclock : Clocked (e :: earlier))
    (horder : WrittenInOrder id (e :: earlier)) (hstamped : AllStamped id w₀ earlier e.pre)
    (hforward : ∀ g ∈ earlier, Forward id w₀ g.pre) {s : Session} (hs : s ∈ e.pre.sessions)
    (hid : s.id = id) : s.lastSeenAt ≤ t := by
  obtain ⟨s₀, hs₀⟩ := hstamped s hs hid
  rcases hs₀.written with hsame | ⟨e', he', d', hop'⟩
  · -- Nobody has written it: the copy that was read is at least as new as the row.
    obtain ⟨r, hev⟩ := Entry.event_of_op hop
    have hv' : TouchTrace cfg w₀ ([] ++ e :: earlier) w := hv
    obtain ⟨-, -, hash, copy, hread, hcopy, hold⟩ := hv'.allowed hev
    obtain ⟨g, hg, -, hgev⟩ := mem_history.mp hread
    obtain ⟨hmem, -⟩ := serve_getSessionByTokenHash (hv.served (List.mem_cons_of_mem e hg) hgev)
    obtain ⟨s₁, hs₁, hid₁, hle⟩ := hforward g hg copy hmem hcopy
    rw [hsame, Store.Table.eq_of_mem hs₀.start hs₁ (hs₀.id.trans (hid.trans hid₁.symm))]
    have hinterval : 0 ≤ Service.sessionTouchInterval cfg := sessionTouchInterval_nonneg
    exact hle.trans (sub_nonneg.mp (hinterval.trans hold))
  · -- Whoever wrote it had read the clock before.
    rw [hid] at hop'
    obtain ⟨l, n, m, rfl, htid, hn, n', hn', htid', hnow'⟩ :=
      (horder.1 (touches_iff.mpr ⟨t, d, hop⟩) e' he' (touches_iff.mpr ⟨_, d', hop'⟩)).split
    have hnewer := reading_eq hv List.mem_cons_self hop (n := n) (by simp) htid hn
    have holder := reading_eq hv (List.mem_cons_of_mem e he') hop' (n := n') (by simp [hn']) htid' hnow'
    rw [← hnewer, ← holder]
    have hpair := (List.pairwise_append.mp (List.pairwise_cons.mp hclock).2).2.1
    exact (List.pairwise_cons.mp hpair).1 n' hn' hn hnow'

/-- What an entry leaves of the session's stamp. -/
theorem entry_forward (hv : TouchTrace cfg w₀ (e :: earlier) w) (hclock : Clocked (e :: earlier))
    (horder : WrittenInOrder id (e :: earlier)) (hstamped : AllStamped id w₀ earlier e.pre)
    (hforward : ∀ g ∈ earlier, Forward id w₀ g.pre) {s' : Session} (hs' : s' ∈ e.post.sessions)
    (hid : s'.id = id) :
    ∃ s ∈ e.pre.sessions, s.id = id ∧ s.lastSeenAt ≤ s'.lastSeenAt ∧
      (s = s' ∨ e.op = .touchSession id s'.lastSeenAt s'.idleExpiresAt ∧
        s'.idleExpiresAt = Service.idleExpiresAt cfg s'.lastSeenAt) := by
  have hv' : TouchTrace cfg w₀ ([] ++ e :: earlier) w := hv
  obtain ⟨-, hserve, hallow, -⟩ := hv'.entry
  rcases serve_stamps hallow hserve hs' with hs | ⟨s, hs, heq, hop⟩
  · exact ⟨s', hs, hid, le_rfl, Or.inl rfl⟩
  · rw [hid] at heq hop
    refine ⟨s, hs, heq, touch_forward hop hv hclock horder hstamped hforward hs heq, Or.inr ⟨hop, ?_⟩⟩
    obtain ⟨r, hev⟩ := Entry.event_of_op hop
    exact (hv'.allowed hev).1

/-- The deadline of the session is the one that goes with its stamp, as it is from its creation. -/
def InStep (cfg : Config) (id : UUID) (w : World) : Prop :=
  ∀ s ∈ w.sessions, s.id = id → s.idleExpiresAt = Service.idleExpiresAt cfg s.lastSeenAt

theorem trace_stamped (hstart : InStep cfg id w₀) (hv : TouchTrace cfg w₀ trace w)
    (hclock : Clocked trace) (horder : WrittenInOrder id trace) :
    AllStamped id w₀ trace w ∧ ∀ g ∈ trace, Forward id w₀ g.pre := by
  induction hv with
  | nil =>
    refine ⟨fun s hs hid => ⟨s, hs, rfl, le_rfl, hstart s hs hid, Or.inl rfl⟩, ?_⟩
    exact fun _ hg => absurd hg List.not_mem_nil
  | cons e past hpast hserve hallow hcall ih =>
    obtain ⟨hstamped, hforward⟩ :=
      ih (List.pairwise_cons.mp hclock).2 (WrittenInOrder.past [e] horder)
    refine ⟨?_, List.forall_mem_cons.mpr ⟨hstamped.forward, hforward⟩⟩
    intro s' hs' hid
    have hv : TouchTrace cfg w₀ (e :: past) e.post := .cons e past hpast hserve hallow hcall
    obtain ⟨s, hs, hsid, hle, hsame | ⟨hop, hdeadline⟩⟩ :=
      entry_forward hv hclock horder hstamped hforward hs' hid
    · obtain ⟨s₀, hs₀⟩ := hstamped s hs hsid
      exact ⟨s₀, hsame ▸ hs₀.mono⟩
    · obtain ⟨s₀, hs₀⟩ := hstamped s hs hsid
      refine ⟨s₀, hs₀.start, hs₀.id.trans (hsid.trans hid.symm), hs₀.forward.trans hle, hdeadline, ?_⟩
      exact Or.inr ⟨e, List.mem_cons_self, _, hid ▸ hop⟩

omit [Platform] in
theorem idleExpiresAt_mono {t t' d : Time} (h : Service.idleExpiresAt cfg t = some d) (hle : t ≤ t') :
    ∃ d', Service.idleExpiresAt cfg t' = some d' ∧ d ≤ d' := by
  unfold Service.idleExpiresAt at h ⊢
  split at h
  · cases h
  · rename_i hidle
    cases h
    exact ⟨_, if_neg hidle, add_le_add_left hle _⟩

/-- In every run of validations that write in the order of their clock readings, the stamps of
    a session never move back. -/
theorem stamps_never_back (hstart : InStep cfg id w₀) {as bs : List (validations cfg).Action}
    {c c' : (validations cfg).Config} (hrun : (Config.start w₀).run as = some c)
    (hrun' : c.run bs = some c') (hclock : Clocked c'.trace) (horder : WrittenInOrder id c'.trace)
    {s s' : Session} (hs : s ∈ c.world.sessions) (hid : s.id = id) (hs' : s' ∈ c'.world.sessions)
    (hid' : s'.id = id) :
    s.lastSeenAt ≤ s'.lastSeenAt ∧
      ∀ d, s.idleExpiresAt = some d → ∃ d', s'.idleExpiresAt = some d' ∧ d ≤ d' := by
  have hv := run_touchTrace hrun
  have hv' : TouchTrace cfg w₀ c'.trace c'.world := by
    have hboth : (Config.start w₀).run (as ++ bs) = some c' := by
      rw [Config.run_append, hrun, Option.bind_some, hrun']
    exact run_touchTrace hboth
  obtain ⟨later, htrace, -⟩ := Config.run_trace hrun'
  have hclock' : ∀ {l p}, later ++ c.trace = l ++ p → Clocked p := fun {l p} heq =>
    (List.pairwise_append.mp (heq ▸ htrace ▸ hclock)).2.1
  have horder' : ∀ {l p}, later ++ c.trace = l ++ p → WrittenInOrder id p := fun {l p} heq =>
    WrittenInOrder.past l (heq ▸ htrace ▸ horder)
  -- Along the entries that were added, the stamp is never older than at the start of them.
  have hle : ∀ s' ∈ c'.world.sessions, s'.id = id → s.lastSeenAt ≤ s'.lastSeenAt := by
    rw [htrace] at hv'
    refine Valid.world_induction
      (P := fun w : World => ∀ s' ∈ w.sessions, s'.id = id → s.lastSeenAt ≤ s'.lastSeenAt) hv hv' ?_ ?_
    · intro s' hs' hid'
      rw [Store.Table.eq_of_mem hs hs' (hid.trans hid'.symm)]
    · intro l₁ l₂ e heq hpre hserve hallow hbefore s' hs' hid'
      have hsplit : later ++ c.trace = l₁ ++ e :: (l₂ ++ c.trace) := by rw [heq]; simp
      have hentry := Valid.upto (hsplit ▸ hv')
      obtain ⟨hstamped, hforward⟩ := trace_stamped hstart hpre
        (hclock' (l := l₁ ++ [e]) (by rw [hsplit]; simp)) (horder' (l := l₁ ++ [e]) (by rw [hsplit]; simp))
      obtain ⟨s₁, hs₁, hid₁, hle, -⟩ :=
        entry_forward hentry (hclock' hsplit) (horder' hsplit) hstamped hforward hs' hid'
      exact (hbefore s₁ hs₁ hid₁).trans hle
  refine ⟨hle s' hs' hid', fun d hd => ?_⟩
  obtain ⟨s₀, hs₀⟩ := (trace_stamped hstart hv (hclock' (l := later) rfl) (horder' (l := later) rfl)).1 s hs hid
  obtain ⟨s₁, hs₁⟩ := (trace_stamped hstart hv' hclock horder).1 s' hs' hid'
  rw [hs₀.deadline] at hd
  rw [hs₁.deadline]
  exact idleExpiresAt_mono hd (hle s' hs' hid')

end

section

open Scenario

attribute [local instance] plain

/-- Threads take turns as given, each step at its time. -/
def turns (order : List (Nat × Time)) : List (validations idleConfig).Action :=
  order.map (fun x => .step x.1 { time := x.2 })

/-- The configurations in the middle and at the end of a run of two validations of one token. -/
def twoValidations (first rest : List (Nat × Time)) :
    Option ((validations idleConfig).Config × (validations idleConfig).Config) :=
  ((Config.start afterCreation).run (.invoke (raw 1) :: .invoke (raw 1) :: turns first)).bind fun c =>
    (c.run (turns rest)).map (c, ·)

theorem twoValidations_run {first rest : List (Nat × Time)}
    {x : (validations idleConfig).Config × (validations idleConfig).Config}
    (h : twoValidations first rest = some x) :
    (Config.start afterCreation).run (.invoke (raw 1) :: .invoke (raw 1) :: turns first) = some x.1 ∧
      x.1.run (turns rest) = some x.2 := by
  obtain ⟨c, hrun, h⟩ := Option.bind_eq_some_iff.mp h
  obtain ⟨c', hrun', rfl⟩ := Option.map_eq_some_iff.mp h
  exact ⟨hrun, hrun'⟩

/-- The stamps of the stored sessions. -/
def stamps (w : World) : List (Time × Option Time) :=
  w.sessions.rows.map (fun s => (s.lastSeenAt, s.idleExpiresAt))

/-- The validation that read the clock first is the last to write: both stamps go back. -/
theorem slow_touch_goes_back :
    ∃ as bs, ∃ c c' : (validations idleConfig).Config,
      (Config.start afterCreation).run as = some c ∧ c.run bs = some c' ∧ Clocked c'.trace ∧
      stamps c.world = [(60, some 160)] ∧
      stamps c'.world = [(30, some 130)] := by
  obtain ⟨x, hrun, h⟩ := computed
    (o := twoValidations [(0, 30), (0, 30), (1, 60), (1, 60), (1, 60), (1, 60), (1, 60)]
      [(0, 60), (0, 60), (0, 60)])
    (P := fun x => Clocked x.2.trace ∧ stamps x.1.world = [(60, some 160)] ∧
      stamps x.2.world = [(30, some 130)]) (by decide +kernel)
  obtain ⟨hfirst, hrest⟩ := twoValidations_run hrun
  exact ⟨_, _, x.1, x.2, hfirst, hrest, h⟩

/-- Two validations at the same time, of which the first to read the clock writes first. -/
theorem stamps_never_back_inOrder :
    ∃ x, twoValidations [(0, 30), (0, 30), (1, 60), (1, 60), (0, 60), (0, 60), (0, 60)]
        [(1, 60), (1, 60), (1, 60)] = some x ∧ stamps x.1.world = [(30, some 130)] ∧
      ∃ s ∈ x.1.world.sessions, ∃ s' ∈ x.2.world.sessions, s.lastSeenAt ≤ s'.lastSeenAt := by
  obtain ⟨x, hrun, hclock, horder, hstamps, hmid, hend⟩ := computed
    (o := twoValidations [(0, 30), (0, 30), (1, 60), (1, 60), (0, 60), (0, 60), (0, 60)]
      [(1, 60), (1, 60), (1, 60)])
    (P := fun x => Clocked x.2.trace ∧ WrittenInOrder 5 x.2.trace ∧
      stamps x.1.world = [(30, some 130)] ∧ (∃ s ∈ x.1.world.sessions.rows, s.id = 5) ∧
      ∃ s ∈ x.2.world.sessions.rows, s.id = 5) (by decide +kernel)
  obtain ⟨hfirst, hrest⟩ := twoValidations_run hrun
  obtain ⟨s, hs, hid⟩ := hmid
  obtain ⟨s', hs', hid'⟩ := hend
  have hstart : InStep idleConfig 5 afterCreation := by
    intro s hs _
    rw [List.mem_singleton.mp hs]
    rfl
  exact ⟨x, hrun, hstamps, s, hs, s', hs',
    (stamps_never_back hstart hfirst hrest hclock horder hs hid hs' hid').1⟩

end

end Sulis
