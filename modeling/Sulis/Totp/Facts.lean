-- SUMMARY: Where active and pending credentials come from along a run, and that a promoted enrollment is never pending again.
import Sulis.Totp.Discipline

/-!
# Enrollments along a run

Every row of a slot goes back to the one step that stored it as a new enrollment. A
row becomes active by being promoted, which takes it out of the pending slot for
good.
-/

namespace Sulis.Totp

open Interaction Interaction.System Store

/-! ## What a served call does to the slots -/

/-- The call changed a slot. -/
def Writes : Interaction.Event iface → Prop
  | ⟨.enrollPending _, .ok _⟩ | ⟨.replacePending _, .ok _⟩ => True
  | ⟨.confirmEnrollment .., .ok _⟩ | ⟨.saveTOTP _, .ok _⟩ | ⟨.deleteTOTP _, .ok _⟩ => True
  | _ => False

/-- The enrollment the call stored, if it stored one. -/
def created? : Interaction.Event iface → Option Credential
  | ⟨.enrollPending cred, .ok _⟩ | ⟨.replacePending cred, .ok _⟩ => some cred
  | _ => none

/-- Everything a call can do to the slots. -/
inductive StoreStep (ev : Interaction.Event iface) (s s' : TOTPStore) : Prop
  | same (hev : ¬ Writes ev) (h : s' = s)
  | enroll (cred : Credential) (hev : ev = ⟨.enrollPending cred, .ok ()⟩)
      (hfree : ∀ r ∈ s.active, r.userID ≠ cred.userID) (h : s' = s.setPending cred)
  | replace (cred : Credential) (hev : ev = ⟨.replacePending cred, .ok ()⟩)
      (h : s' = s.setPending cred)
  | confirm (p : Credential) (counter : Nat) (hmem : p ∈ s.pending)
      (hev : ev = ⟨.confirmEnrollment p.userID p.id counter, .ok (s.promote p counter)⟩)
      (h : s' = { active := s.active.put (s.promote p counter), pending := s.pending.erase p.userID })
  | save (cred r : Credential) (hmem : r ∈ s.active) (huser : r.userID = cred.userID)
      (hid : r.id = cred.id) (hlt : r.lastUsedCounter < cred.lastUsedCounter)
      (hev : ev = ⟨.saveTOTP cred, .ok ()⟩)
      (h : s' = { s with active := s.active.put { r with lastUsedCounter := cred.lastUsedCounter } })
  | delete (userID : UUID) (hev : ev = ⟨.deleteTOTP userID, .ok ()⟩)
      (h : s' = { active := s.active.erase userID, pending := s.pending.erase userID })

/-- What stays as it was enrolled. -/
structure SameEnrollment (a b : Credential) : Prop where
  id : b.id = a.id
  userID : b.userID = a.userID
  secret : b.secret = a.secret
  createdAt : b.createdAt = a.createdAt

theorem SameEnrollment.trans {a b d : Credential} (h : SameEnrollment a b)
    (h' : SameEnrollment b d) : SameEnrollment a d :=
  ⟨h'.id.trans h.id, h'.userID.trans h.userID, h'.secret.trans h.secret,
    h'.createdAt.trans h.createdAt⟩

theorem serve_store {w w' : World} {op : Op} {ch : Choice} {r : op.Res}
    (h : w.serve op ch = some (r, w')) : StoreStep ⟨op, r⟩ w.store w'.store := by
  cases op with
  | enrollPending cred =>
    simp only [World.serve, World.withStore, Option.some.injEq, Prod.mk.injEq] at h
    obtain ⟨rfl, rfl⟩ := h
    rcases w.store.enrollPending_cases cred with hc | ⟨hfree, hc⟩
    · rw [hc]; exact .same id rfl
    · rw [hc]; exact .enroll cred rfl hfree rfl
  | replacePending cred =>
    simp only [World.serve, World.withStore, Option.some.injEq, Prod.mk.injEq] at h
    obtain ⟨rfl, rfl⟩ := h
    exact .replace cred rfl rfl
  | confirmEnrollment userID id counter =>
    simp only [World.serve, World.withStore, Option.some.injEq, Prod.mk.injEq] at h
    obtain ⟨rfl, rfl⟩ := h
    rcases w.store.confirmEnrollment_cases userID id counter with hc | ⟨p, hmem, rfl, rfl, hc⟩
    · rw [hc]; exact .same (fun hw => hw) rfl
    · rw [hc]; exact .confirm p counter hmem rfl rfl
  | saveTOTP cred =>
    simp only [World.serve, World.withStore, Option.some.injEq, Prod.mk.injEq] at h
    obtain ⟨rfl, rfl⟩ := h
    rcases w.store.saveTOTP_cases cred with ⟨err, hc⟩ | ⟨r, hmem, huser, hid, hlt, hc⟩
    · rw [hc]; exact .same id rfl
    · rw [hc]; exact .save cred r hmem huser hid hlt rfl rfl
  | deleteTOTP userID =>
    simp only [World.serve, World.withStore, Option.some.injEq, Prod.mk.injEq] at h
    obtain ⟨rfl, rfl⟩ := h
    exact .delete userID rfl rfl
  | getActiveTOTP | getPendingTOTP | now =>
    simp only [World.serve, Option.some.injEq, Prod.mk.injEq] at h
    exact .same id (by rw [h.2])
  | allow key =>
    simp only [World.serve] at h
    split at h
    · simp only [Option.some.injEq, Prod.mk.injEq] at h
      exact .same id (by rw [h.2])
    · simp only [Option.some.injEq, Prod.mk.injEq] at h
      exact .same id (by rw [h.2])
  | newV7 =>
    simp only [World.serve, Option.ite_none_left_eq_some, Option.some.injEq, Prod.mk.injEq] at h
    exact .same id (by rw [← h.2.2])
  | randRead n =>
    simp only [World.serve, Option.ite_none_left_eq_some, Option.some.injEq, Prod.mk.injEq] at h
    exact .same id (by rw [← h.2.2])

/-- A pending row was pending before, or is the enrollment that was stored. -/
theorem StoreStep.pending {ev : Interaction.Event iface} {s s' : TOTPStore} (h : StoreStep ev s s')
    {p : Credential} (hp : p ∈ s'.pending) :
    p ∈ s.pending ∨ ∃ cred, created? ev = some cred ∧ p = { cred with verified := false } := by
  cases h with
  | same _ h => exact Or.inl (h ▸ hp)
  | enroll cred hev _ h | replace cred hev h =>
    subst h hev
    rcases Table.mem_put.mp hp with rfl | ⟨hp, -⟩
    · exact Or.inr ⟨cred, rfl, rfl⟩
    · exact Or.inl hp
  | confirm _ _ _ _ h =>
    subst h
    exact Or.inl (Table.mem_erase.mp hp).1
  | save _ _ _ _ _ _ _ h => subst h; exact Or.inl hp
  | delete _ _ h => subst h; exact Or.inl (Table.mem_erase.mp hp).1

/-- An active row was active before, with another counter perhaps, or was promoted. -/
theorem StoreStep.active {ev : Interaction.Event iface} {s s' : TOTPStore} (h : StoreStep ev s s')
    {r : Credential} (hr : r ∈ s'.active) :
    (∃ r₀ ∈ s.active, SameEnrollment r₀ r) ∨
      ∃ p ∈ s.pending, SameEnrollment p r ∧
        ∃ counter cred, ev = ⟨.confirmEnrollment p.userID p.id counter, .ok cred⟩ := by
  cases h with
  | same _ h => exact Or.inl ⟨r, h ▸ hr, rfl, rfl, rfl, rfl⟩
  | enroll _ _ _ h | replace _ _ h => subst h; exact Or.inl ⟨r, hr, rfl, rfl, rfl, rfl⟩
  | confirm p counter hmem hev h =>
    subst h
    rcases Table.mem_put.mp hr with rfl | ⟨hr, -⟩
    · exact Or.inr ⟨p, hmem, ⟨rfl, rfl, rfl, rfl⟩, counter, _, hev⟩
    · exact Or.inl ⟨r, hr, rfl, rfl, rfl, rfl⟩
  | save cred r₀ hmem _ _ _ _ h =>
    subst h
    rcases Table.mem_put.mp hr with rfl | ⟨hr, -⟩
    · exact Or.inl ⟨r₀, hmem, rfl, rfl, rfl, rfl⟩
    · exact Or.inl ⟨r, hr, rfl, rfl, rfl, rfl⟩
  | delete _ _ h => subst h; exact Or.inl ⟨r, (Table.mem_erase.mp hr).1, rfl, rfl, rfl, rfl⟩

section

variable [Digest] {w w' w₀ : World} {trace later past : List Entry}

theorem entry_step {e : Entry} (hserve : World.serve e.pre e.op e.choice = some (e.res, e.post)) :
    StoreStep e.event e.pre.store e.post.store := serve_store hserve

/-! ## Where rows come from -/

/-- The ID a call has drawn. -/
def drawnID? : Interaction.Event iface → Option UUID
  | ⟨.newV7, id⟩ => some id
  | _ => none

/-- IDs are never handed out twice. -/
def idSupply : Supply (system) UUID where
  used := World.ids
  drawn? := drawnID?
  draws := by
    intro w ch op r w' hserve
    cases op with
    | newV7 =>
      simp only [World.serve, Option.ite_none_left_eq_some, not_or, Option.some.injEq,
        Prod.mk.injEq] at hserve
      obtain ⟨⟨-, hnew⟩, rfl, rfl⟩ := hserve
      exact ⟨rfl, fun _ hid => Option.some.inj hid ▸ hnew⟩
    | randRead =>
      simp only [World.serve, Option.ite_none_left_eq_some, Option.some.injEq, Prod.mk.injEq]
        at hserve
      rw [← hserve.2.2]
      exact ⟨rfl, nofun⟩
    | allow =>
      simp only [World.serve] at hserve
      split at hserve <;> (cases hserve; exact ⟨rfl, nofun⟩)
    | _ => cases hserve; exact ⟨rfl, nofun⟩

/-- What is known about a step that stored an enrollment. -/
theorem created_spec (hv : Trace w₀ trace w) {e : Entry} (htrace : trace = later ++ e :: past)
    {cred : Credential} (hcreated : created? e.event = some cred) :
    NewCredential (history e.tid past) cred ∧
      ((e.event = ⟨.enrollPending cred, .ok ()⟩ ∧
          ∃ accountName, e.call.request = .enroll cred.userID accountName) ∨
        (e.event = ⟨.replacePending cred, .ok ()⟩ ∧
          ∃ accountName, e.call.request = .replaceEnrollment cred.userID accountName)) := by
  subst htrace
  have hallow := (Valid.entry hv).2.2.1
  obtain ⟨tid, call, op, ch, r, pre, post⟩ := e
  cases op with
  | enrollPending cred' =>
    cases r with
    | error err => cases hcreated
    | ok u =>
      cases hcreated
      exact ⟨hallow.1, Or.inl ⟨rfl, hallow.2⟩⟩
  | replacePending cred' =>
    cases r with
    | error err => cases hcreated
    | ok u =>
      cases hcreated
      exact ⟨hallow.1, Or.inr ⟨rfl, hallow.2⟩⟩
  | _ => cases hcreated

/-- An ID is enrolled at one place of the trace. -/
theorem created_place (hv : Trace w₀ trace w) {later' past' : List Entry} {e e' : Entry}
    (htrace : trace = later ++ e :: past) (htrace' : trace = later' ++ e' :: past')
    {cred cred' : Credential} (h : created? e.event = some cred) (h' : created? e'.event = some cred')
    (hid : cred.id = cred'.id) : later = later' ∧ e = e' ∧ past = past' := by
  obtain ⟨⟨h₀, hh⟩, hkind⟩ := created_spec hv htrace h
  obtain ⟨⟨h₀', hh'⟩, hkind'⟩ := created_spec hv htrace' h'
  have notNow {g : Entry} {cred : Credential} {t : Time} (hc : created? g.event = some cred) :
      ∀ ev ∈ ([⟨.now, t⟩] : Hist), ev ≠ g.event := by
    rintro ev hev rfl
    rw [List.mem_singleton.mp hev] at hc
    cases hc
  exact Valid.handed_place idSupply hv htrace htrace'
    (show history e.tid past = [⟨.now, cred.createdAt⟩] ++ _ from hh)
    (show history e'.tid past' = [⟨.now, cred'.createdAt⟩] ++ _ from hh') rfl (by rw [hid]; rfl)
    (notNow h') (notNow h)

/-- The row was stored as a new enrollment by a step of the trace. -/
def Enrolled (trace : List Entry) (r : Credential) : Prop :=
  ∃ e ∈ trace, ∃ cred, created? e.event = some cred ∧ SameEnrollment cred r

theorem Enrolled.mono {r : Credential} (h : Enrolled past r) (hsub : past ⊆ trace) :
    Enrolled trace r := by
  obtain ⟨e, he, hr⟩ := h
  exact ⟨e, hsub he, hr⟩

theorem Enrolled.same {a b : Credential} (h : Enrolled trace a) (hab : SameEnrollment a b) :
    Enrolled trace b := by
  obtain ⟨e, he, cred, hcreated, hsame⟩ := h
  exact ⟨e, he, cred, hcreated, hsame.trans hab⟩

/-- One ID belongs to one enrollment. -/
theorem enrolled_unique (hv : Trace w₀ trace w) {a b : Credential} (ha : Enrolled trace a)
    (hb : Enrolled trace b) (hid : a.id = b.id) : SameEnrollment a b := by
  obtain ⟨e, he, cred, hcreated, hsame⟩ := ha
  obtain ⟨e', he', cred', hcreated', hsame'⟩ := hb
  obtain ⟨l, p, htrace⟩ := List.append_of_mem he
  obtain ⟨l', p', htrace'⟩ := List.append_of_mem he'
  obtain ⟨-, rfl, -⟩ := created_place hv htrace htrace' hcreated hcreated'
    (hsame.id.symm.trans (hid.trans hsame'.id))
  obtain rfl : cred = cred' := Option.some.inj (hcreated.symm.trans hcreated')
  exact ⟨hid.symm, hsame'.userID.trans hsame.userID.symm, hsame'.secret.trans hsame.secret.symm,
    hsame'.createdAt.trans hsame.createdAt.symm⟩

theorem rows_enrolled (hv : Trace {} trace w) :
    (∀ r ∈ w.store.active, Enrolled trace r) ∧ ∀ p ∈ w.store.pending, Enrolled trace p := by
  induction hv with
  | nil => exact ⟨fun r hr => absurd hr (Table.not_mem_empty r), fun p hp => absurd hp (Table.not_mem_empty p)⟩
  | cons e past _ hserve _ _ ih =>
    have hsub : past ⊆ e :: past := List.subset_cons_self e past
    refine ⟨fun r hr => ?_, fun p hp => ?_⟩
    · rcases (entry_step hserve).active hr with ⟨r₀, hr₀, hsame⟩ | ⟨p, hp, hsame, -⟩
      · exact ((ih.1 r₀ hr₀).mono hsub).same hsame
      · exact ((ih.2 p hp).mono hsub).same hsame
    · rcases (entry_step hserve).pending hp with hp | ⟨cred, hcreated, rfl⟩
      · exact (ih.2 p hp).mono hsub
      · exact ⟨e, List.mem_cons_self, cred, hcreated, rfl, rfl, rfl, rfl⟩

/-- A row that a call of the run found had been enrolled. -/
theorem found_enrolled (hv : Trace {} trace w) {e : Entry} (he : e ∈ trace) {r : Credential}
    (hr : r ∈ e.pre.store.active ∨ r ∈ e.pre.store.pending) : Enrolled trace r := by
  obtain ⟨later, past, rfl⟩ := List.append_of_mem he
  have hrows := rows_enrolled (Valid.entry hv).1
  exact (hr.elim (hrows.1 r) (hrows.2 r)).mono (by simp)

/-! ## Promotion -/

/-- The enrollment with that ID was promoted. -/
def Promoted (trace : List Entry) (id : UUID) : Prop :=
  ∃ e ∈ trace, ∃ userID counter cred, e.event = ⟨.confirmEnrollment userID id counter, .ok cred⟩

theorem Promoted.mono {id : UUID} (h : Promoted past id) (hsub : past ⊆ trace) :
    Promoted trace id := by
  obtain ⟨e, he, hr⟩ := h
  exact ⟨e, hsub he, hr⟩

omit [Digest] in
theorem serve_getPendingTOTP {userID : UUID} {p : Credential} (ch : Choice)
    (hserve : w.serve (.getPendingTOTP userID) ch = some (.ok p, w')) :
    p ∈ w.store.pending ∧ p.userID = userID := by
  simp only [World.serve, Option.some.injEq, Prod.mk.injEq] at hserve
  exact TOTPStore.getPendingTOTP_eq_ok.mp hserve.1

omit [Digest] in
theorem serve_getActiveTOTP {userID : UUID} {cred : Credential} (ch : Choice)
    (hserve : w.serve (.getActiveTOTP userID) ch = some (.ok cred, w')) :
    cred ∈ w.store.active ∧ cred.userID = userID := by
  simp only [World.serve, Option.some.injEq, Prod.mk.injEq] at hserve
  exact TOTPStore.getActiveTOTP_eq_ok.mp hserve.1

omit [Digest] in
/-- Served as a promotion, a call found the enrollment pending. -/
theorem promoted_pending {op : Op} {ch : Choice} {r : op.Res} (hserve : w.serve op ch = some (r, w'))
    {userID id : UUID} {counter : Nat} {cred : Credential}
    (hev : (⟨op, r⟩ : Interaction.Event iface) = ⟨.confirmEnrollment userID id counter, .ok cred⟩) :
    ∃ p ∈ w.store.pending, p.userID = userID ∧ p.id = id ∧ cred = w.store.promote p counter ∧
      w'.store = { active := w.store.active.put cred, pending := w.store.pending.erase userID } := by
  have hstep := serve_store hserve
  rw [hev] at hstep
  cases hstep with
  | same hidle => exact absurd trivial hidle
  | confirm p counter' hmem hev' h =>
    cases hev'
    exact ⟨p, hmem, rfl, rfl, rfl, h⟩
  | enroll _ hev' | replace _ hev' | save _ _ _ _ _ _ hev' | delete _ hev' => cases hev'

omit [Digest] in
/-- Served as a save, a call found the credential active. -/
theorem saved_active {op : Op} {ch : Choice} {r : op.Res} (hserve : w.serve op ch = some (r, w'))
    {cred : Credential} (hev : (⟨op, r⟩ : Interaction.Event iface) = ⟨.saveTOTP cred, .ok ()⟩) :
    ∃ row ∈ w.store.active, row.id = cred.id ∧ w'.store =
      { w.store with active := w.store.active.put { row with lastUsedCounter := cred.lastUsedCounter } } := by
  have hstep := serve_store hserve
  rw [hev] at hstep
  cases hstep with
  | same hidle => exact absurd trivial hidle
  | save _ row hmem _ hid _ hev' h =>
    cases hev'
    exact ⟨row, hmem, hid, h⟩
  | enroll _ hev' | replace _ hev' | confirm _ _ _ hev' | delete _ hev' => cases hev'

/-- A promoted enrollment is not pending, then or ever after. -/
theorem promoted_not_pending (hv : Trace {} trace w) {id : UUID} (h : Promoted trace id) :
    ∀ p ∈ w.store.pending, p.id ≠ id := by
  induction hv with
  | nil => obtain ⟨e, he, -⟩ := h; cases he
  | @cons e past hpast hserve hallow hcall ih =>
    rintro p hp rfl
    have hv : Trace {} (e :: past) e.post := .cons e past hpast hserve hallow hcall
    by_cases hearlier : Promoted past p.id
    · rcases (entry_step hserve).pending hp with hp | ⟨cred, hcreated, rfl⟩
      · exact ih hearlier p hp rfl
      · -- Its ID was enrolled before, since it was pending when it was promoted.
        obtain ⟨k, hk, userID, counter, cred', hev⟩ := hearlier
        obtain ⟨l₁, l₂, rfl⟩ := List.append_of_mem hk
        obtain ⟨hpre, hserve', -⟩ := Valid.entry hpast
        obtain ⟨q, hq, -, hqid, -⟩ := promoted_pending hserve' hev
        obtain ⟨g, hg, cred'', hcreated', hsame⟩ := (rows_enrolled hpre).2 q hq
        obtain ⟨m₁, m₂, rfl⟩ := List.append_of_mem hg
        obtain ⟨hnil, -⟩ := created_place hv (show _ = [] ++ e :: _ from rfl)
          (show _ = (e :: (l₁ ++ k :: m₁)) ++ g :: m₂ by simp) hcreated hcreated'
          (hqid.symm.trans hsame.id)
        cases hnil
    · obtain ⟨k, hk, userID, counter, cred, hev⟩ := h
      rcases List.mem_cons.mp hk with rfl | hk
      · -- The promotion took the row out, and no other user's row has that ID.
        obtain ⟨q, hq, rfl, hqid, -, hpost⟩ := promoted_pending hserve hev
        rw [hpost] at hp
        obtain ⟨hp, huser⟩ := Table.mem_erase.mp hp
        have hsame := enrolled_unique hpast ((rows_enrolled hpast).2 p hp)
          ((rows_enrolled hpast).2 q hq) hqid.symm
        exact huser hsame.userID.symm
      · exact hearlier ⟨k, hk, userID, counter, cred, hev⟩

/-- An active credential was promoted, for its user. -/
theorem active_promotion (hv : Trace {} trace w) {r : Credential} (hr : r ∈ w.store.active) :
    ∃ e ∈ trace, ∃ counter cred,
      e.event = ⟨.confirmEnrollment r.userID r.id counter, .ok cred⟩ := by
  induction hv generalizing r with
  | nil => exact absurd hr (Table.not_mem_empty r)
  | cons e past _ hserve _ _ ih =>
    rcases (entry_step hserve).active hr with ⟨r₀, hr₀, hsame⟩ | ⟨p, -, hsame, counter, cred, hev⟩
    · obtain ⟨k, hk, hev⟩ := ih hr₀
      rw [hsame.id, hsame.userID]
      exact ⟨k, List.mem_cons_of_mem e hk, hev⟩
    · rw [hsame.id, hsame.userID]
      exact ⟨e, List.mem_cons_self, counter, cred, hev⟩

theorem active_promoted (hv : Trace {} trace w) {r : Credential} (hr : r ∈ w.store.active) :
    Promoted trace r.id := by
  obtain ⟨e, he, hev⟩ := active_promotion hv hr
  exact ⟨e, he, r.userID, hev⟩

end

end Sulis.Totp
