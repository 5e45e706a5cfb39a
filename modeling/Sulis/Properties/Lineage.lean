-- SUMMARY: A session and what it is rotated into form a single line: one row at a time, with the identity and the proofs of the first.
import Mathlib.Logic.Relation
import Sulis.Discipline.Rotation
import Sulis.Properties.Scenario

/-!
# The lineage of a session

A rotation removes the row it was given and stores one new row. A row is removed
once and an ID is written once, so every session has one successor at most, and has
none as long as its row exists. That makes a lineage a line with one row at its end.
-/

namespace Sulis

open Interaction Interaction.System World

section

variable [Platform] {cfg : Config} {w₀ w : World} {trace later past : List (Entry cfg)}

/-! ## Where rows come from -/

/-- The session as it was first stored: before the run, or by one of its steps. -/
def Origin (w₀ : World) (trace : List (Entry cfg)) (s : Session) : Prop :=
  s ∈ w₀.sessions ∨ ∃ e ∈ trace, e.op = .createSession s

/-- A copy of a session: as it was first stored, but for the time of its last proof,
    which some step may have written. -/
def Derives (w₀ : World) (trace : List (Entry cfg)) (s : Session) : Prop :=
  ∃ s₀, Origin w₀ trace s₀ ∧ s.id = s₀.id ∧ s.userID = s₀.userID ∧ s.method = s₀.method ∧
    s.createdAt = s₀.createdAt ∧ (s.authenticatedAt = s₀.authenticatedAt ∨
      ∃ e ∈ trace, e.op = .updateAuthenticatedAt s.id s.authenticatedAt)

/-- IDs in the store were drawn. -/
def Drawn (w : World) : Prop := ∀ s ∈ w.sessions, s.id ∈ w.ids

theorem Origin.mono {s : Session} (h : Origin w₀ past s) (hsub : past ⊆ trace) :
    Origin w₀ trace s := h.imp id (fun ⟨e, he, hop⟩ => ⟨e, hsub he, hop⟩)

theorem Origin.derives {s : Session} (h : Origin w₀ trace s) : Derives w₀ trace s :=
  ⟨s, h, rfl, rfl, rfl, rfl, Or.inl rfl⟩

theorem Derives.mono {s : Session} (h : Derives w₀ past s) (hsub : past ⊆ trace) :
    Derives w₀ trace s := by
  obtain ⟨s₀, ho, hid, huser, hmethod, hcreated, hproof⟩ := h
  exact ⟨s₀, ho.mono hsub, hid, huser, hmethod, hcreated,
    hproof.imp id (fun ⟨e, he, hop⟩ => ⟨e, hsub he, hop⟩)⟩

/-- Every stored row derives from where it was first stored. -/
theorem row_derives (hv : Trace cfg w₀ trace w) {s : Session} (hs : s ∈ w.sessions) :
    Derives w₀ trace s := by
  induction hv generalizing s with
  | nil => exact Origin.derives (Or.inl hs)
  | cons e past hpast hserve _ _ ih =>
    rcases serve_session_rows hserve s hs with hop | ⟨s₁, hs₁, hkept⟩
    · exact Origin.derives (Or.inr ⟨e, List.mem_cons_self, hop⟩)
    · obtain ⟨s₀, ho, hid, huser, hmethod, hcreated, hproof⟩ :=
        (ih hs₁).mono (List.subset_cons_self e past)
      refine ⟨s₀, ho, hkept.id.trans hid, hkept.userID.trans huser, hkept.method.trans hmethod,
        hkept.createdAt.trans hcreated, ?_⟩
      rcases hkept.proof with hsame | hop
      · rw [hsame, hkept.id]
        exact hproof
      · exact Or.inr ⟨e, List.mem_cons_self, hop⟩

/-- An ID a step writes was not drawn before the run. -/
theorem created_fresh (hv : Trace cfg w₀ trace w) {e : Entry cfg} (he : e ∈ trace) {s : Session}
    (hop : e.op = .createSession s) : s.id ∉ w₀.ids := by
  obtain ⟨later, past, htrace⟩ := List.append_of_mem he
  obtain ⟨⟨now, b, h₀, hh, -⟩, -⟩ := createSession_spec hv htrace hop
  have hd : (⟨.newV7, s.id⟩ : Interaction.Event iface) ∈ history e.tid past := by
    rw [hh]; exact List.mem_cons_self
  obtain ⟨k, hk, -, hev⟩ := mem_history.mp hd
  subst htrace
  obtain ⟨l, p, rfl⟩ := List.append_of_mem hk
  have hpast := (Valid.entry hv).1
  obtain ⟨hpre, hserve, -⟩ := Valid.entry hpast
  intro hmem
  exact (serve_newV7 (Entry.served hev hserve)).2.1 (Valid.used_start (idSupply cfg) hpre hmem)

/-- In every world the package reaches, IDs in the store were drawn. -/
theorem run_drawn {as : List (system cfg).Action} {c : Run cfg}
    (hrun : (Run.empty cfg).run as = some c) : Drawn c.world := by
  intro s hs
  have hv := run_trace_valid hrun
  obtain ⟨later, g, past, s₀, htrace, hop, hsame⟩ := session_issued hv hs
  obtain ⟨⟨now, b, h₀, hh, -⟩, -⟩ := createSession_spec hv htrace hop
  have hd : (⟨.newV7, s₀.id⟩ : Interaction.Event iface) ∈ history g.tid past := by
    rw [hh]; exact List.mem_cons_self
  obtain ⟨k, hk, -, hev⟩ := mem_history.mp hd
  rw [hsame.id]
  exact Valid.used (idSupply cfg) hv (show k ∈ c.trace by rw [htrace]; simp [hk])
    (by rw [hev]; rfl)

/-- One ID belongs to one session. -/
theorem origin_unique (hv : Trace cfg w₀ trace w) (hdrawn : Drawn w₀) {s s' : Session}
    (h : Origin w₀ trace s) (h' : Origin w₀ trace s') (hid : s.id = s'.id) : s = s' := by
  rcases h with h | ⟨e, he, hop⟩
  · rcases h' with h' | ⟨e', he', hop'⟩
    · exact Store.Table.eq_of_mem h h' hid
    · exact absurd (hid ▸ hdrawn s h) (created_fresh hv he' hop')
  · rcases h' with h' | ⟨e', he', hop'⟩
    · exact absurd (hid ▸ hdrawn s' h') (created_fresh hv he hop)
    · obtain ⟨l, p, htrace⟩ := List.append_of_mem he
      obtain ⟨l', p', htrace'⟩ := List.append_of_mem he'
      obtain ⟨-, rfl, -⟩ := session_of_id hv htrace htrace' hop hop' hid.symm
      rw [hop] at hop'
      cases hop'
      rfl

/-! ## Removing a row -/

/-- A row that is removed had its origin before. -/
theorem removed_origin {e : Entry cfg} (hv : Trace cfg w₀ (later ++ e :: past) w) {uid id : UUID}
    (hev : e.event = ⟨.deleteSession uid id, .ok ()⟩) : ∃ s, Origin w₀ past s ∧ s.id = id := by
  obtain ⟨hpast, hserve, -⟩ := Valid.entry hv
  obtain ⟨⟨row, hrow, hid, -⟩, -⟩ := serve_deleteSession (Entry.served hev hserve)
  obtain ⟨s₀, ho, hid₀, -⟩ := row_derives hpast hrow
  exact ⟨s₀, ho, hid₀.symm.trans hid⟩

/-- So it is not stored by a later step. -/
theorem removed_created {e g : Entry cfg} (hv : Trace cfg w₀ (later ++ e :: past) w)
    (hdrawn : Drawn w₀) {uid id : UUID} (hev : e.event = ⟨.deleteSession uid id, .ok ()⟩)
    (hg : g ∈ later ++ e :: past) {s : Session} (hop : g.op = .createSession s) (hid : s.id = id) :
    g ∈ past := by
  obtain ⟨s₀, ho, hid₀⟩ := removed_origin hv hev
  rcases ho with h₀ | ⟨g₀, hg₀, hop₀⟩
  · exact absurd (hid.trans hid₀.symm ▸ hdrawn s₀ h₀) (created_fresh hv hg hop)
  · obtain ⟨l, p, htrace⟩ := List.append_of_mem hg
    obtain ⟨l₀, p₀, rfl⟩ := List.append_of_mem hg₀
    obtain ⟨-, rfl, -⟩ := session_of_id hv
      (show _ = (later ++ e :: l₀) ++ g₀ :: p₀ by simp) htrace hop₀ hop (hid.trans hid₀.symm)
    exact hg₀

/-- And it does not come back. -/
theorem removed_gone {e : Entry cfg} (hv : Trace cfg w₀ (later ++ e :: past) w) (hdrawn : Drawn w₀)
    {uid id : UUID} (hev : e.event = ⟨.deleteSession uid id, .ok ()⟩) :
    ∀ row ∈ w.sessions, row.id ≠ id := by
  have hgone := (serve_deleteSession (Entry.served hev (Valid.entry hv).2.1)).2
  refine session_gone (Valid.upto hv) hv hgone (fun g hg s hop hid => ?_)
  have hpast := removed_created hv hdrawn hev (List.mem_append_left _ hg) hop hid
  exact session_not_again hv (List.mem_cons_of_mem e hpast) hg hop hop rfl

/-- A row is removed once. -/
theorem removed_once (hv : Trace cfg w₀ trace w) (hdrawn : Drawn w₀) {e e' : Entry cfg}
    {later' past' : List (Entry cfg)} (htrace : trace = later ++ e :: past)
    (htrace' : trace = later' ++ e' :: past') {uid uid' id : UUID}
    (hev : e.event = ⟨.deleteSession uid id, .ok ()⟩)
    (hev' : e'.event = ⟨.deleteSession uid' id, .ok ()⟩) :
    later = later' ∧ e = e' ∧ past = past' := by
  -- The later of the two would find the row although the other had removed it.
  have older {later past mid past' : List (Entry cfg)} {e e' : Entry cfg} {uid uid' : UUID}
      (htrace : trace = later ++ e :: past) (hpast : past = mid ++ e' :: past')
      (hev : e.event = ⟨.deleteSession uid id, .ok ()⟩)
      (hev' : e'.event = ⟨.deleteSession uid' id, .ok ()⟩) : False := by
    subst htrace hpast
    obtain ⟨hpre, hserve, -⟩ := Valid.entry hv
    obtain ⟨⟨row, hrow, hid, -⟩, -⟩ := serve_deleteSession (Entry.served hev hserve)
    exact removed_gone hpre hdrawn hev' row hrow hid
  rcases append_cons_cases (htrace.symm.trans htrace') with h | ⟨mid, hp⟩ | ⟨mid, hp⟩
  · exact h
  · exact (older htrace hp hev hev').elim
  · exact (older htrace' hp hev' hev).elim

end

/-! ## The setting -/

section

variable [Platform] {cfg : Config} {w₀ : World} {root : Session} {c : Run cfg}

/-- The session an operation is called with. -/
def Call.session? : Call → Option Session
  | .refreshSession s | .reAuthenticate s _ _ => some s
  | _ => none

/-- The session an operation hands to its caller. -/
def Call.handed : (call : Call) → call.Ret → Option Session
  | .refreshSession _, (s, _) => some s
  | .reAuthenticate .., s => some s
  | .validateSession _, (s, _) => some s
  | _, _ => none

/-- A caller passes the session of the login, or one that some operation has handed out
    by now. It may be out of date. -/
def Held (c : Run cfg) (root s : Session) : Prop :=
  s = root ∨ ∃ j call out, c.Returned j call (.ok out) ∧ call.handed out = some s

/-- What any number of the four operations can reach, interleaved in any way, from a
    world that holds the session. -/
inductive Rotations (w₀ : World) (root : Session) : Run cfg → Prop
  | start (stored : root ∈ w₀.sessions) (drawn : Drawn w₀) : Rotations w₀ root (Config.start w₀)
  | invoke {c c' : Run cfg} (call : Call) (h : Rotations w₀ root c) (hcall : call.Rotates)
      (harg : ∀ s, call.session? = some s → Held c root s)
      (hact : c.act (.invoke call) = some c') : Rotations w₀ root c'
  | step {c c' : Run cfg} (i : Nat) (ch : Choice) (h : Rotations w₀ root c)
      (hact : c.act (.step i ch) = some c') : Rotations w₀ root c'

/-- A rotation of the one session stored the other. -/
def Follows (c : Run cfg) (id id' : UUID) : Prop :=
  ∃ e ∈ c.trace, ∃ old s, e.call = .refreshSession old ∧ e.op = .createSession s ∧
    old.id = id ∧ s.id = id'

/-- The session itself, and what it was rotated into. -/
def Lineage (c : Run cfg) (root : Session) : UUID → Prop :=
  Relation.ReflTransGen (Follows c) root.id

/-- A credential was proven in the lineage at that time: at the login that issued the
    session, or by a step-up whose password matched. -/
def ProvenAt (c : Run cfg) (root : Session) (t : Time) : Prop :=
  t = root.authenticatedAt ∨ ∃ e ∈ c.trace, ∃ s password ri u,
    e.call = .reAuthenticate s password ri ∧ Lineage c root s.id ∧
    Did (history e.tid c.trace) .now t ∧ Compared cfg (history e.tid c.trace) password u true ∧
    u.id = s.userID

namespace Rotations

theorem stored (h : Rotations w₀ root c) : root ∈ w₀.sessions := by
  induction h with
  | start stored => exact stored
  | invoke _ _ _ _ _ ih | step _ _ _ _ ih => exact ih

theorem drawn (h : Rotations w₀ root c) : Drawn w₀ := by
  induction h with
  | start _ drawn => exact drawn
  | invoke _ _ _ _ _ ih | step _ _ _ _ ih => exact ih

theorem run (h : Rotations w₀ root c) : ∃ as, (Config.start w₀).run as = some c := by
  induction h with
  | start => exact ⟨[], rfl⟩
  | invoke call _ _ _ hact ih =>
    obtain ⟨as, hrun⟩ := ih
    exact ⟨as ++ [.invoke call], by rw [Config.run_append, hrun]; simp [Config.run, hact]⟩
  | step i ch _ hact ih =>
    obtain ⟨as, hrun⟩ := ih
    exact ⟨as ++ [.step i ch], by rw [Config.run_append, hrun]; simp [Config.run, hact]⟩

/-- Every thread runs one of the four operations, with a session that an older thread
    handed out. -/
theorem thread (h : Rotations w₀ root c) {i : Nat} {t : (system cfg).Thread}
    (ht : c.threads[i]? = some t) : t.call.Rotates ∧ ∀ s, t.call.session? = some s →
      s = root ∨ ∃ j < i, ∃ call out, c.Returned j call (.ok out) ∧ call.handed out = some s := by
  induction h generalizing i t with
  | start => simp [Config.start] at ht
  | @invoke c c' call _ hcall harg hact ih =>
    have hact' := hact
    cases hact'
    rcases Nat.lt_trichotomy i c.threads.length with hi | rfl | hi
    · rw [List.getElem?_append_left hi] at ht
      refine (ih ht).imp id (fun hargs s hs => (hargs s hs).imp id ?_)
      rintro ⟨j, hj, call', out, hret, hout⟩
      exact ⟨j, hj, call', out, hret.act hact, hout⟩
    · simp only [List.getElem?_concat_length, Option.some.injEq] at ht
      subst ht
      refine ⟨hcall, fun s hs => (harg s hs).imp id ?_⟩
      rintro ⟨j, call', out, hret, hout⟩
      exact ⟨j, (List.getElem?_eq_some_iff.mp hret).1, call', out, hret.act hact, hout⟩
    · have := (List.getElem?_eq_some_iff.mp ht).1
      simp only [List.length_append, List.length_singleton] at this
      omega
  | @step c c' k ch _ hact ih =>
    -- A step changes no thread's call.
    obtain ⟨t₀, ht₀, hsame⟩ : ∃ t₀, c.threads[i]? = some t₀ ∧ t₀.call = t.call := by
      obtain ⟨call, op, cont, r, w, hk, -, rfl⟩ := Config.act_step hact
      by_cases hik : k = i
      · subst hik
        rw [List.getElem?_set_self (List.getElem?_eq_some_iff.mp hk).1] at ht
        cases ht
        exact ⟨_, hk, rfl⟩
      · rw [List.getElem?_set_ne hik] at ht
        exact ⟨t, ht, rfl⟩
    rw [← hsame]
    refine (ih ht₀).imp id (fun hargs s hs => (hargs s hs).imp id ?_)
    rintro ⟨j, hj, call', out, hret, hout⟩
    exact ⟨j, hj, call', out, hret.act hact, hout⟩

theorem trace (h : Rotations w₀ root c) : Trace cfg w₀ c.trace c.world := by
  obtain ⟨as, hrun⟩ := h.run
  exact run_trace_valid hrun

theorem rotates (h : Rotations w₀ root c) {e : Entry cfg} (he : e ∈ c.trace) : e.call.Rotates := by
  obtain ⟨as, hrun⟩ := h.run
  obtain ⟨t, ht, hcall⟩ := (run_sound hrun).owner e he
  exact hcall ▸ (h.thread ht).1

/-- A session is only stored by a rotation, which carries over what it was given and
    stores nothing else. -/
theorem creation (h : Rotations w₀ root c) {later past : List (Entry cfg)} {e : Entry cfg}
    (htrace : c.trace = later ++ e :: past) {s : Session} (hop : e.op = .createSession s) :
    ∃ old, e.call = .refreshSession old ∧ Carried old s ∧ Uncreated (history e.tid past) := by
  obtain ⟨as, hrun⟩ := h.run
  have hv := (run_rotation hrun).valid
  have hcall := h.rotates (e := e) (by rw [htrace]; simp)
  rw [htrace] at hv
  have hallow := (Valid.entry hv).2.2.1
  rw [hop] at hallow
  exact hallow hcall

/-- The time of a proof is only written by a step-up. -/
theorem proof (h : Rotations w₀ root c) {e : Entry cfg} (he : e ∈ c.trace) {id : UUID} {t : Time}
    (hop : e.op = .updateAuthenticatedAt id t) (hid : Lineage c root id) : ProvenAt c root t := by
  obtain ⟨as, hrun⟩ := h.run
  have hv := (run_rotation hrun).valid
  obtain ⟨later, past, htrace⟩ := List.append_of_mem he
  rw [htrace] at hv
  have hallow := (Valid.entry hv).2.2.1
  rw [hop] at hallow
  obtain ⟨old, password, ri, u, hcall, rfl, hnow, hmatch, huser⟩ := hallow (h.rotates he)
  have hs : history e.tid past <:+ history e.tid c.trace :=
    history_suffix (by rw [htrace]; exact ⟨later ++ [e], by simp⟩) e.tid
  exact Or.inr ⟨e, he, old, password, ri, u, hcall, hid, hnow.mono hs, hmatch.mono hs, huser⟩

/-! ## One successor -/

/-- A session that was rotated had its row removed by the same thread, before. -/
theorem follows_removed (h : Rotations w₀ root c) {later past : List (Entry cfg)} {e : Entry cfg}
    (htrace : c.trace = later ++ e :: past) {old s : Session} (hcall : e.call = .refreshSession old)
    (hop : e.op = .createSession s) : ∃ mid k past', past = mid ++ k :: past' ∧ k.tid = e.tid ∧
      k.event = ⟨.deleteSession old.userID old.id, .ok ()⟩ := by
  obtain ⟨k, hk, htid, hev, -⟩ := refreshed_row h.trace htrace hop hcall
  obtain ⟨mid, past', hpast⟩ := List.append_of_mem hk
  exact ⟨mid, k, past', hpast, htid, hev⟩

theorem follows_unique (h : Rotations w₀ root c) : Relator.RightUnique (Follows c) := by
  rintro id id₁ id₂ ⟨e, he, old, s, hcall, hop, hid, rfl⟩ ⟨e', he', old', s', hcall', hop', hid', rfl⟩
  obtain ⟨later, past, htrace⟩ := List.append_of_mem he
  obtain ⟨later', past', htrace'⟩ := List.append_of_mem he'
  obtain ⟨mid, k, p, hp, htid, hev⟩ := h.follows_removed htrace hcall hop
  obtain ⟨mid', k', p', hp', htid', hev'⟩ := h.follows_removed htrace' hcall' hop'
  -- Both rotations removed the one row, so they are the same thread.
  obtain ⟨-, hk, -⟩ := removed_once h.trace h.drawn
    (show c.trace = (later ++ e :: mid) ++ k :: p by rw [htrace, hp]; simp)
    (show c.trace = (later' ++ e' :: mid') ++ k' :: p' by rw [htrace', hp']; simp)
    hev (show k'.event = ⟨.deleteSession old'.userID old.id, .ok ()⟩ by rw [hev', hid', hid])
  have hsame : e'.tid = e.tid := by rw [← htid, ← htid', hk]
  -- A thread stores one session.
  have hev : e.event = e'.event := by
    refine event_once (P := fun ev : Interaction.Event iface => ∃ s, ev.1 = .createSession s) ?_
      (mem_history.mpr ⟨e, he, rfl, rfl⟩) (mem_history.mpr ⟨e', he', hsame, rfl⟩)
      ⟨s, hop⟩ ⟨s', hop'⟩
    rintro l g p htrace ⟨s, hop⟩ ⟨op, r⟩ hmem ⟨s', rfl⟩
    obtain ⟨-, -, -, hnone⟩ := h.creation htrace hop
    exact hnone s' r hmem
  have : Op.createSession s = .createSession s' := by
    rw [← hop, ← hop']
    exact congrArg Sigma.fst hev
  cases this
  rfl

/-- While its row exists, a session has no successor. -/
theorem not_follows (h : Rotations w₀ root c) {row : Session} (hrow : row ∈ c.world.sessions)
    {id : UUID} : ¬ Follows c row.id id := by
  rintro ⟨e, he, old, s, hcall, hop, hid, rfl⟩
  obtain ⟨later, past, htrace⟩ := List.append_of_mem he
  obtain ⟨mid, k, p, hp, -, hev⟩ := h.follows_removed htrace hcall hop
  have hv := h.trace
  rw [show c.trace = (later ++ e :: mid) ++ k :: p by rw [htrace, hp]; simp] at hv
  exact removed_gone hv h.drawn hev row hrow hid.symm

/-- Rows at both ends of a lineage are the same row. -/
theorem row_unique (h : Rotations w₀ root c) {row row' : Session} (hrow : row ∈ c.world.sessions)
    (hrow' : row' ∈ c.world.sessions)
    (hline : Relation.ReflTransGen (Follows c) row.id row'.id) : row = row' := by
  rcases hline.cases_head with hid | ⟨id, hfollows, -⟩
  · exact Store.Table.eq_of_mem hrow hrow' hid
  · exact absurd hfollows (h.not_follows hrow)

/-- A rotation that succeeded removed the row it was given and stored another. -/
theorem refreshed (h : Rotations w₀ root c) {i : Nat} {s : Session}
    {out : Session × String} (hret : c.Returned i (.refreshSession s) (.ok out)) :
    ∃ later k past, c.trace = later ++ k :: past ∧ k.tid = i ∧
      k.event = ⟨.deleteSession s.userID s.id, .ok ()⟩ := by
  obtain ⟨as, hrun⟩ := h.run
  have hhanded : Handed (.refreshSession s) (history i c.trace) out :=
    (run_rotation hrun).returned hret trivial out rfl
  obtain ⟨e, he, htid, hev⟩ := mem_history.mp hhanded
  obtain ⟨later, past, htrace⟩ := List.append_of_mem he
  obtain ⟨mid, k, p, hp, hktid, hkev⟩ :=
    h.follows_removed htrace (run_call hrun hret he htid) (congrArg Sigma.fst hev)
  exact ⟨later ++ e :: mid, k, p, by rw [htrace, hp]; simp, hktid.trans htid, hkev⟩

/-- Sessions stored after some moment are only followed by sessions stored after it. -/
theorem follows_later (h : Rotations w₀ root c) {later past : List (Entry cfg)}
    (htrace : c.trace = later ++ past) {id id' : UUID}
    (hid : ∃ g ∈ later, ∃ s, g.op = .createSession s ∧ s.id = id)
    (hfollows : Relation.ReflTransGen (Follows c) id id') :
    ∃ g ∈ later, ∃ s, g.op = .createSession s ∧ s.id = id' := by
  induction hfollows with
  | refl => exact hid
  | tail _ hstep ih =>
    obtain ⟨g, hg, s, hop, hid⟩ := ih
    obtain ⟨e, he, old, s', hcall, hop', hold, hid'⟩ := hstep
    have hv := h.trace
    rcases List.mem_append.mp (htrace ▸ he) with hlater | hpast
    · exact ⟨e, hlater, s', hop', hid'⟩
    · -- Otherwise the predecessor was removed before it was stored.
      obtain ⟨l, p, rfl⟩ := List.append_of_mem hpast
      obtain ⟨mid, k, p', rfl, -, hev⟩ :=
        h.follows_removed (show c.trace = (later ++ l) ++ e :: p by rw [htrace]; simp) hcall hop'
      rw [htrace, show later ++ (l ++ e :: (mid ++ k :: p')) =
        (later ++ (l ++ e :: mid)) ++ k :: p' by simp] at hv
      have hmem := removed_created hv h.drawn hev
        (by rw [List.mem_append, List.mem_append]; exact Or.inl (Or.inl hg)) hop
        (hid.trans hold.symm)
      rw [List.append_assoc] at hv
      exact absurd rfl (session_not_again hv
        (List.mem_append_right _ (List.mem_cons_of_mem k hmem)) hg hop hop)

/-- A session that was revoked has no successor. -/
theorem revoked_childless (h : Rotations w₀ root c) {later past : List (Entry cfg)} {d : Entry cfg}
    (htrace : c.trace = later ++ d :: past) {uid id id' : UUID}
    (hcall : d.call = .revokeSession uid id) (hev : d.event = ⟨.deleteSession uid id, .ok ()⟩) :
    ¬ Follows c id id' := by
  rintro ⟨e, he, old, s, hcall', hop, rfl, rfl⟩
  obtain ⟨l, p, hplace⟩ := List.append_of_mem he
  obtain ⟨mid, k, p', hp, htid, hkev⟩ := h.follows_removed hplace hcall' hop
  obtain ⟨-, rfl, -⟩ := removed_once h.trace h.drawn htrace
    (show c.trace = (l ++ e :: mid) ++ k :: p' by rw [hplace, hp]; simp) hev hkev
  have := Valid.call_eq h.trace (by rw [htrace]; simp) he htid
  rw [hcall, hcall'] at this
  cases this

/-- What follows a session that a rotation removed was stored after that. -/
theorem successors_later (h : Rotations w₀ root c) {later past : List (Entry cfg)} {k : Entry cfg}
    (htrace : c.trace = later ++ k :: past) {uid id id' : UUID}
    (hev : k.event = ⟨.deleteSession uid id, .ok ()⟩) (hne : id ≠ id')
    (hline : Relation.ReflTransGen (Follows c) id id') :
    ∃ g ∈ later, ∃ s, g.op = .createSession s ∧ s.id = id' := by
  rcases hline.cases_head with heq | ⟨next, ⟨e, he, old, s, hcall, hop, rfl, hnext⟩, hrest⟩
  · exact absurd heq hne
  · obtain ⟨l, p, hplace⟩ := List.append_of_mem he
    obtain ⟨mid, k', p', hp, -, hev'⟩ := h.follows_removed hplace hcall hop
    obtain ⟨rfl, -, -⟩ := removed_once h.trace h.drawn htrace
      (show c.trace = (l ++ e :: mid) ++ k' :: p' by rw [hplace, hp]; simp) hev hev'
    exact h.follows_later htrace ⟨e, by simp, s, hop, hnext⟩ hrest

/-- Once a session of the lineage was revoked, no session of the lineage is removed by
    a rotation. -/
theorem revoked_last (h : Rotations w₀ root c) {later past : List (Entry cfg)} {d : Entry cfg}
    (htrace : c.trace = later ++ d :: past) {uid uid' id id' : UUID}
    (hcall : d.call = .revokeSession uid id) (hev : d.event = ⟨.deleteSession uid id, .ok ()⟩)
    (hid : Lineage c root id) (hid' : Lineage c root id') {k : Entry cfg} {s : Session}
    (hk : k ∈ c.trace) (hkcall : k.call = .refreshSession s)
    (hkev : k.event = ⟨.deleteSession uid' id', .ok ()⟩) : k ∈ past := by
  obtain ⟨l, p, hplace⟩ := List.append_of_mem hk
  rcases append_cons_cases (htrace.symm.trans hplace) with ⟨-, rfl, -⟩ | ⟨mid, rfl⟩ | ⟨mid, rfl⟩
  · rw [hcall] at hkcall
    cases hkcall
  · simp
  -- The rotation came after the revocation, so it removed another session.
  have hne : id' ≠ id := by
    rintro rfl
    obtain ⟨-, rfl, -⟩ := removed_once h.trace h.drawn htrace hplace hev hkev
    rw [hcall] at hkcall
    cases hkcall
  rcases Relation.ReflTransGen.total_of_right_unique h.follows_unique hid hid' with hline | hline
  · -- The revoked one is the older, but it has no successor.
    rcases hline.cases_head with heq | ⟨next, hfollows, -⟩
    · exact absurd heq.symm hne
    · exact absurd hfollows (h.revoked_childless htrace hcall hev)
  · -- The revoked one is the younger, and was revoked before it was stored.
    obtain ⟨g, hg, s', hop, hs'⟩ := h.successors_later hplace hkev hne hline
    have hv := h.trace
    rw [htrace] at hv
    have hpast := removed_created hv h.drawn hev
      (by rw [← htrace, hplace]; exact List.mem_append_left _ hg) hop hs'
    have hv := h.trace
    rw [hplace] at hv
    exact absurd rfl (session_not_again hv (by simp [hpast]) hg hop hop)

/-! ## What a lineage carries -/

/-- Every session an operation was called with is a copy of a stored one, however old. -/
theorem argument_derives (h : Rotations w₀ root c) {i : Nat} {t : (system cfg).Thread} {s : Session}
    (ht : c.threads[i]? = some t) (harg : t.call.session? = some s) : Derives w₀ c.trace s := by
  obtain ⟨as, hrun⟩ := h.run
  induction i using Nat.strong_induction_on generalizing t s with
  | _ i ih =>
    rcases (h.thread ht).2 s harg with rfl | ⟨j, hj, call, out, hret, hout⟩
    · exact Origin.derives (Or.inl h.stored)
    have hcall : call.Rotates := (h.thread hret).1
    have hhanded := (run_rotation hrun).returned hret hcall out rfl
    cases call with
    | refreshSession old =>
      cases hout
      obtain ⟨e, he, -, hev⟩ := mem_history.mp hhanded
      exact Origin.derives (Or.inr ⟨e, he, congrArg Sigma.fst hev⟩)
    | reAuthenticate old password ri =>
      cases hout
      obtain ⟨hd, hs⟩ := hhanded
      obtain ⟨e, he, -, hev⟩ := mem_history.mp hd
      -- The argument of the step-up was a copy; only the proof is new.
      obtain ⟨s₀, ho, hid, huser, hmethod, hcreated, -⟩ := ih j hj hret rfl
      rw [hs]
      exact ⟨s₀, ho, hid, huser, hmethod, hcreated, Or.inr ⟨e, he, congrArg Sigma.fst hev⟩⟩
    | validateSession token =>
      cases hout
      obtain ⟨hash, row, hd, hid, hcarried⟩ := hhanded
      obtain ⟨e, he, -, hev⟩ := mem_history.mp hd
      have hrow := (serve_getSessionByTokenHash (h.trace.served he hev)).1
      obtain ⟨later, past, htrace⟩ := List.append_of_mem he
      have hv := h.trace
      rw [htrace] at hv ⊢
      obtain ⟨s₀, ho, hid₀, huser, hmethod, hcreated, hproof⟩ :=
        (row_derives (Valid.entry hv).1 hrow).mono (show past ⊆ later ++ e :: past by simp)
      refine ⟨s₀, ho, hid.trans hid₀, hcarried.userID.trans huser, hcarried.method.trans hmethod,
        hcarried.createdAt.trans hcreated, ?_⟩
      rw [hid, hcarried.authenticatedAt]
      exact hproof
    | revokeSession => cases hout
    | _ => exact hcall.elim

/-- What every session of the lineage has from the first. -/
structure Inherited (c : Run cfg) (root s : Session) : Prop where
  userID : s.userID = root.userID
  method : s.method = root.method
  createdAt : s.createdAt = root.createdAt
  proven : ProvenAt c root s.authenticatedAt

/-- A copy has what the stored session has. -/
theorem inherited_copy (h : Rotations w₀ root c) {s : Session} (hs : Derives w₀ c.trace s)
    (hline : Lineage c root s.id)
    (horigin : ∀ s₀, Origin w₀ c.trace s₀ → s₀.id = s.id → Inherited c root s₀) :
    Inherited c root s := by
  obtain ⟨s₀, ho, hid, huser, hmethod, hcreated, hproof⟩ := hs
  have h₀ := horigin s₀ ho hid.symm
  refine ⟨huser.trans h₀.userID, hmethod.trans h₀.method, hcreated.trans h₀.createdAt, ?_⟩
  rcases hproof with hsame | ⟨e, he, hop⟩
  · exact hsame ▸ h₀.proven
  · exact h.proof he hop hline

theorem inherited_origin (h : Rotations w₀ root c) {id : UUID} (hline : Lineage c root id) :
    ∀ s, Origin w₀ c.trace s → s.id = id → Inherited c root s := by
  -- By induction along the lineage: a rotation carries over what it was called with.
  induction hline with
  | refl =>
    intro s ho hid
    obtain rfl := origin_unique h.trace h.drawn ho (Or.inl h.stored) hid
    exact ⟨rfl, rfl, rfl, Or.inl rfl⟩
  | tail hline hstep ih =>
    rintro s ho rfl
    obtain ⟨e, he, old, s', hcall, hop, hold, hid⟩ := hstep
    obtain rfl := origin_unique h.trace h.drawn ho (Or.inr ⟨e, he, hop⟩) hid.symm
    obtain ⟨later, past, htrace⟩ := List.append_of_mem he
    obtain ⟨old', hcall', hcarried, -⟩ := h.creation htrace hop
    rw [hcall] at hcall'
    cases hcall'
    obtain ⟨as, hrun⟩ := h.run
    obtain ⟨t, ht, htcall⟩ := (run_sound hrun).owner e he
    have hderives := h.argument_derives ht (show t.call.session? = some old by rw [htcall, hcall]; rfl)
    have hinherited := h.inherited_copy hderives (hold ▸ hline) (hold ▸ ih)
    exact ⟨hcarried.userID.trans hinherited.userID, hcarried.method.trans hinherited.method,
      hcarried.createdAt.trans hinherited.createdAt,
      hcarried.authenticatedAt ▸ hinherited.proven⟩

end Rotations

/-- A session lineage never forks. At every moment it has at most one row; a session is
    rotated at most once; when a session of it is revoked, the rotations that succeed are
    those that had removed their row before; and every row belongs to the user of the login,
    with its method and time, and the time of a proof that was made in the lineage. -/
theorem lineage_never_forks (h : Rotations w₀ root c) :
    (∀ row ∈ c.world.sessions, ∀ row' ∈ c.world.sessions,
      Lineage c root row.id → Lineage c root row'.id → row = row') ∧
    (∀ i i' s s' out out', c.Returned i (.refreshSession s) (.ok out) →
      c.Returned i' (.refreshSession s') (.ok out') → s.id = s'.id → i = i') ∧
    (∀ j uid id, c.Returned j (.revokeSession uid id) (.ok ()) → Lineage c root id →
      ∃ later d past, c.trace = later ++ d :: past ∧ d.tid = j ∧
        d.event = ⟨.deleteSession uid id, .ok ()⟩ ∧
        ∀ i s out, c.Returned i (.refreshSession s) (.ok out) → Lineage c root s.id →
          ∃ k ∈ past, k.tid = i ∧ k.event = ⟨.deleteSession s.userID s.id, .ok ()⟩) ∧
    ∀ row ∈ c.world.sessions, Lineage c root row.id →
      row.userID = root.userID ∧ row.method = root.method ∧ row.createdAt = root.createdAt ∧
        ∃ t, ProvenAt c root t ∧ row.authenticatedAt ≤ t := by
  refine ⟨fun row hrow row' hrow' hline hline' => ?_, ?_, ?_, fun row hrow hline => ?_⟩
  · rcases Relation.ReflTransGen.total_of_right_unique h.follows_unique hline hline' with hl | hl
    · exact h.row_unique hrow hrow' hl
    · exact (h.row_unique hrow' hrow hl).symm
  · intro i i' s s' out out' hret hret' hid
    obtain ⟨later, k, past, htrace, rfl, hev⟩ := h.refreshed hret
    obtain ⟨later', k', past', htrace', rfl, hev'⟩ := h.refreshed hret'
    obtain ⟨-, rfl, -⟩ := removed_once h.trace h.drawn htrace htrace' hev (hid ▸ hev')
    rfl
  · intro j uid id hret hline
    obtain ⟨as, hrun⟩ := h.run
    have hd : Did (history j c.trace) (.deleteSession uid id) (.ok ()) :=
      (run_rotation hrun).returned hret trivial () rfl
    obtain ⟨d, hmem, htid, hev⟩ := mem_history.mp hd
    obtain ⟨later, past, htrace⟩ := List.append_of_mem hmem
    refine ⟨later, d, past, htrace, htid, hev, fun i s out hok hs => ?_⟩
    obtain ⟨l, k, p, hplace, rfl, hkev⟩ := h.refreshed hok
    have hk : k ∈ c.trace := by rw [hplace]; simp
    refine ⟨k, ?_, rfl, hkev⟩
    exact h.revoked_last htrace (run_call hrun hret hmem htid) hev hline hs hk
      (run_call hrun hok hk rfl) hkev
  · have hrow' := h.inherited_copy (row_derives h.trace hrow) hline (h.inherited_origin hline)
    exact ⟨hrow'.userID, hrow'.method, hrow'.createdAt, _, hrow'.proven, le_refl _⟩

end

section

open Scenario

attribute [local instance] plain

/-- The session that a thread has handed to its caller. -/
def handedBy (t : (system config).Thread) : Option Session :=
  match t.rest.value? with
  | some (.ok out) => t.call.handed out
  | _ => none

theorem held_of_handedBy {c : Run config} {root s : Session} {t : (system config).Thread}
    (ht : t ∈ c.threads) (hs : handedBy t = some s) : Held c root s := by
  unfold handedBy at hs
  split at hs
  · rename_i out hout
    obtain ⟨i, hi⟩ := List.getElem?_of_mem ht
    exact Or.inr ⟨i, t.call, out, hi.trans (by rw [← Prog.value?_eq_some hout]), hs⟩
  · cases hs

/-- A caller of one of the four operations can start it with the session it passes. -/
def admits (c : Run config) (root : Session) : (system config).Action → Bool
  | .invoke (.refreshSession s) | .invoke (.reAuthenticate s _ _) =>
    s = root ∨ ∃ t ∈ c.threads, handedBy t = some s
  | .invoke (.revokeSession ..) | .invoke (.validateSession _) => true
  | .invoke _ => false
  | .step .. => true

def rotate (root : Session) : Run config → List (system config).Action → Option (Run config)
  | c, [] => some c
  | c, a :: as => if admits c root a then (c.act a).bind (fun c' => rotate root c' as) else none

theorem Rotations.act {w₀ : World} {root : Session} {c c' : Run config} {a : (system config).Action}
    (h : Rotations w₀ root c) (ha : admits c root a = true) (hact : c.act a = some c') :
    Rotations w₀ root c' := by
  have held {s : Session} (hs : s = root ∨ ∃ t ∈ c.threads, handedBy t = some s) : Held c root s :=
    hs.elim Or.inl (fun ⟨t, ht, hs⟩ => held_of_handedBy ht hs)
  cases a with
  | step i ch => exact .step i ch h hact
  | invoke call =>
    cases call with
    | refreshSession s | reAuthenticate s _ _ =>
      refine .invoke _ h (by trivial) (fun s' hs' => ?_) hact
      cases hs'
      exact held (of_decide_eq_true ha)
    | revokeSession | validateSession => exact .invoke _ h (by trivial) (fun s hs => by cases hs) hact
    | _ => cases ha

theorem Rotations.rotate {w₀ : World} {root : Session} {c c' : Run config}
    {as : List (system config).Action} (h : Rotations w₀ root c)
    (hrun : Sulis.rotate root c as = some c') : Rotations w₀ root c' := by
  induction as generalizing c with
  | nil => cases hrun; exact h
  | cons a as ih =>
    simp only [Sulis.rotate] at hrun
    split at hrun
    · rename_i ha
      obtain ⟨c₁, hact, hrest⟩ := Option.bind_eq_some_iff.mp hrun
      exact ih (h.act ha hact) hrest
    · cases hrun

/-- The session of a login at ticks 20 to 28. -/
def loginSession : Session :=
  { id := ident 27, userID := ident 2, tokenHash := raw 25, expiresAt := 26 + config.sessionDuration
    createdAt := 26, authenticatedAt := 24, method := ⟨"password"⟩, lastSeenAt := 26 }

/-- What the first of two overlapping rotations makes of it. -/
def rotatedSession : Session :=
  { loginSession with
    id := ident 35
    tokenHash := raw 33
    expiresAt := 34 + config.sessionDuration
    lastSeenAt := 34 }

/-- Two rotations of a login's session overlap; then the one that succeeded is stepped up. -/
def rotatedTwice : Option (Run config × Run config) :=
  (play (verifiedAccount ++ [(.login "a" [1] {}, 9)])).bind (fun c₀ =>
    (rotate loginSession (Config.start c₀.world)
      (.invoke (.refreshSession loginSession) :: .invoke (.refreshSession loginSession) ::
        steps 29 [0, 1, 0, 0, 0, 0, 0, 0] ++
        .invoke (.reAuthenticate rotatedSession [1] {}) :: steps 37 [2, 2, 2, 2])).map
      (fun c => (c₀, c)))

theorem lineage_never_forks_rotatedTwice :
    ∃ c₀ c, rotatedTwice = some (c₀, c) ∧ Rotations c₀.world loginSession c ∧
      ∃ row ∈ c.world.sessions, Lineage c loginSession row.id ∧ row.id ≠ loginSession.id ∧
        (∀ row' ∈ c.world.sessions, Lineage c loginSession row'.id → row' = row) ∧
        row.userID = loginSession.userID ∧ loginSession.authenticatedAt < row.authenticatedAt ∧
        ∃ t, ProvenAt c loginSession t ∧ row.authenticatedAt ≤ t := by
  obtain ⟨⟨c₀, c⟩, hrun, hstored, ⟨e, he, hcall, hop⟩, row, hrow, hid, hproof⟩ :=
    computed (o := rotatedTwice)
    (P := fun x => loginSession ∈ x.1.world.sessions.rows ∧
      (∃ e ∈ x.2.trace, e.call = .refreshSession loginSession ∧ e.op = .createSession rotatedSession) ∧
      ∃ row ∈ x.2.world.sessions.rows, row.id = rotatedSession.id ∧
        loginSession.authenticatedAt < row.authenticatedAt)
    (by decide +kernel)
  obtain ⟨c₁, hplay, hrest⟩ := Option.bind_eq_some_iff.mp hrun
  obtain ⟨c₂, hrotate, heq⟩ := Option.map_eq_some_iff.mp hrest
  cases heq
  obtain ⟨as, has⟩ := Config.runBlocks_run hplay
  have h : Rotations c₀.world loginSession c :=
    (Rotations.start hstored (run_drawn has)).rotate hrotate
  have hline : Lineage c loginSession row.id :=
    hid ▸ .single ⟨e, he, loginSession, rotatedSession, hcall, hop, rfl, rfl⟩
  obtain ⟨hone, -, -, hcarries⟩ := lineage_never_forks h
  obtain ⟨huser, -, -, hproven⟩ := hcarries row hrow hline
  exact ⟨c₀, c, hrun, h, row, hrow, hline, hid ▸ by decide, fun row' hrow' hline' =>
    hone row' hrow' row hrow hline' hline, huser, hproof, hproven⟩

end

end Sulis
