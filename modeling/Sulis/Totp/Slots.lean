-- SUMMARY: An active credential is one confirmed enrollment, a replacement was meant to be one, and what was unenrolled stays gone.
import Sulis.Totp.Facts
import Sulis.Totp.Scenario

/-!
# What the slots mean

A credential in the active slot was enrolled once and confirmed with a code for its
secret. Beside it only a replacement can be pending, since an ordinary enrollment is
refused while there is an active credential and a promotion empties the pending slot.
-/

namespace Sulis.Totp

open Interaction Interaction.System Store

section

variable [Digest] {w : World} {trace later past : List Entry}

/-! ## Active credentials -/

/-- The enrollment goes back to this step and to no other. -/
structure EnrolledBy (trace : List Entry) (e : Entry) (r : Credential) : Prop where
  mem : e ∈ trace
  stored : ∃ cred, created? e.event = some cred ∧ SameEnrollment cred r
  call : ∃ accountName, e.call.request = .enroll r.userID accountName ∨
    e.call.request = .replaceEnrollment r.userID accountName
  only : ∀ e' ∈ trace, ∀ cred', created? e'.event = some cred' → cred'.id = r.id → e' = e

theorem Enrolled.by (hv : Trace {} trace w) {r : Credential} (h : Enrolled trace r) :
    ∃ e, EnrolledBy trace e r := by
  obtain ⟨e, he, cred, hcreated, hsame⟩ := h
  obtain ⟨l, p, htrace⟩ := List.append_of_mem he
  refine ⟨e, he, ⟨cred, hcreated, hsame⟩, ?_, fun e' he' cred' hcreated' hid => ?_⟩
  · rw [hsame.userID]
    rcases (created_spec hv htrace hcreated).2 with ⟨-, name, hcall⟩ | ⟨-, name, hcall⟩
    · exact ⟨name, Or.inl hcall⟩
    · exact ⟨name, Or.inr hcall⟩
  · obtain ⟨l', p', htrace'⟩ := List.append_of_mem he'
    exact (created_place hv htrace' htrace hcreated' hcreated (hid.trans hsame.id)).2.1

/-- The enrollment was confirmed with a code for its secret. -/
def ConfirmedBy (trace : List Entry) (e : Entry) (r : Credential) : Prop :=
  e ∈ trace ∧ ∃ code counter cred, e.call.request = .confirmEnrollment r.userID code ∧
    e.event = ⟨.confirmEnrollment r.userID r.id counter, .ok cred⟩ ∧
    Matched e.call.service (history e.tid trace) r.secret code counter

/-- The copy a code was matched against has the secret that is promoted. -/
theorem confirmed_matched (hv : Trace {} trace w) {e : Entry} (he : e ∈ trace) {userID id : UUID}
    {counter : Nat} {cred r : Credential}
    (hev : e.event = ⟨.confirmEnrollment userID id counter, .ok cred⟩) (hr : Enrolled trace r)
    (hid : r.id = id) : ∃ code, e.call.request = .confirmEnrollment userID code ∧
      Matched e.call.service (history e.tid trace) r.secret code counter := by
  obtain ⟨later, past, rfl⟩ := List.append_of_mem he
  obtain ⟨hpast, -, hallow, -⟩ := Valid.entry hv
  rw [show e.op = .confirmEnrollment userID id counter from congrArg Sigma.fst hev] at hallow
  obtain ⟨code, p, hcall, hpid, hread, hmatch⟩ := hallow
  have hsuffix : history e.tid past <:+ history e.tid (later ++ e :: past) :=
    history_suffix ⟨later ++ [e], by simp⟩ e.tid
  refine ⟨code, hcall, ?_⟩
  obtain ⟨k, hk, -, hkev⟩ := mem_history.mp hread
  obtain ⟨l, p', rfl⟩ := List.append_of_mem hk
  obtain ⟨hpre, hserve, -⟩ := Valid.entry hpast
  have hpending := (serve_getPendingTOTP k.choice (Entry.served hkev hserve)).1
  have hp : Enrolled (later ++ e :: (l ++ k :: p')) p :=
    ((rows_enrolled hpre).2 p hpending).mono (by
      intro x hx
      simp [hx])
  rw [← (enrolled_unique hv hr hp (hid.trans hpid.symm)).secret]
  exact hmatch.mono hsuffix

theorem active_confirmed (hv : Trace {} trace w) {r : Credential} (hr : r ∈ w.store.active) :
    ∃ e, ConfirmedBy trace e r := by
  obtain ⟨e, he, counter, cred, hev⟩ := active_promotion hv hr
  obtain ⟨code, hcall, hmatch⟩ := confirmed_matched hv he hev ((rows_enrolled hv).1 r hr) rfl
  exact ⟨e, he, code, counter, cred, hcall, hev, hmatch⟩

/-! ## Replacements -/

/-- The enrollment was stored as a replacement. -/
def Replacement (trace : List Entry) (p : Credential) : Prop :=
  ∃ e ∈ trace, ∃ cred accountName, e.event = ⟨.replacePending cred, .ok ()⟩ ∧
    SameEnrollment cred p ∧ e.call.request = .replaceEnrollment p.userID accountName

theorem Replacement.mono {p : Credential} (h : Replacement past p) (hsub : past ⊆ trace) :
    Replacement trace p := by
  obtain ⟨e, he, hp⟩ := h
  exact ⟨e, hsub he, hp⟩

/-- Beside an active credential only a replacement is pending. -/
theorem pending_replacement (hv : Trace {} trace w) {r p : Credential} (hr : r ∈ w.store.active)
    (hp : p ∈ w.store.pending) (huser : r.userID = p.userID) : Replacement trace p := by
  induction hv generalizing r p with
  | nil => exact absurd hr (Table.not_mem_empty r)
  | @cons e past hpast hserve hallow hcall ih =>
    have hsub : past ⊆ e :: past := List.subset_cons_self e past
    cases entry_step hserve with
    | same _ h =>
      rw [h] at hr hp
      exact (ih hr hp huser).mono hsub
    | enroll cred hev hfree h =>
      rw [h] at hr hp
      rcases Table.mem_put.mp hp with rfl | ⟨hp, -⟩
      · exact absurd huser (hfree r hr)
      · exact (ih hr hp huser).mono hsub
    | replace cred hev h =>
      rw [h] at hr hp
      rcases Table.mem_put.mp hp with rfl | ⟨hp, -⟩
      · have hv : Trace {} (e :: past) e.post := .cons e past hpast hserve hallow hcall
        obtain ⟨-, ⟨hev', -⟩ | ⟨-, name, hname⟩⟩ := created_spec hv (show _ = [] ++ e :: past from rfl)
          (show created? e.event = some cred by rw [hev]; rfl)
        · rw [hev] at hev'
          cases hev'
        · exact ⟨e, List.mem_cons_self, cred, name, hev, ⟨rfl, rfl, rfl, rfl⟩, hname⟩
      · exact (ih hr hp huser).mono hsub
    | confirm q counter hmem hev h =>
      -- The promotion empties the pending slot of its user.
      rw [h] at hr hp
      obtain ⟨hp, huser'⟩ := Table.mem_erase.mp hp
      rcases Table.mem_put.mp hr with rfl | ⟨hr, -⟩
      · exact absurd huser.symm huser'
      · exact (ih hr hp huser).mono hsub
    | save cred r₀ hmem _ _ _ _ h =>
      rw [h] at hr hp
      rcases Table.mem_put.mp hr with rfl | ⟨hr, -⟩
      · exact (ih hmem hp huser).mono hsub
      · exact (ih hr hp huser).mono hsub
    | delete userID hev h =>
      rw [h] at hr hp
      exact (ih (Table.mem_erase.mp hr).1 (Table.mem_erase.mp hp).1 huser).mono hsub

/-! ## Unenrolling -/

/-- No slot holds the enrollment. -/
def Absent (id : UUID) (w : World) : Prop :=
  (∀ r ∈ w.store.active, r.id ≠ id) ∧ ∀ p ∈ w.store.pending, p.id ≠ id

theorem unenrolled_absent {d g : Entry} (hv : Trace {} (later ++ d :: past) w) {userID : UUID}
    (hdel : d.event = ⟨.deleteTOTP userID, .ok ()⟩) (hg : g ∈ past) {cred : Credential}
    (hcreated : created? g.event = some cred) (huser : cred.userID = userID) :
    Absent cred.id w := by
  have hpost : Trace {} (d :: past) d.post := Valid.upto hv
  obtain ⟨hpast, hserve, -⟩ := Valid.entry hv
  have henrolled : Enrolled past cred := ⟨g, hg, cred, hcreated, rfl, rfl, rfl, rfl⟩
  refine Valid.world_induction (P := Absent cred.id) hpost hv ?_ ?_
  · -- The rows of that user are gone, and nobody else's row has the ID.
    have hgone {r : Credential} (hr : Enrolled past r) (hother : r.userID ≠ userID) :
        r.id ≠ cred.id := fun hid =>
      hother ((enrolled_unique hpast hr henrolled hid).userID.symm.trans huser)
    cases entry_step hserve with
    | delete userID' hev h =>
      rw [hdel] at hev
      cases hev
      refine ⟨fun r hr => ?_, fun p hp => ?_⟩
      · rw [h] at hr
        obtain ⟨hr, hother⟩ := Table.mem_erase.mp hr
        exact hgone ((rows_enrolled hpast).1 r hr) hother
      · rw [h] at hp
        obtain ⟨hp, hother⟩ := Table.mem_erase.mp hp
        exact hgone ((rows_enrolled hpast).2 p hp) hother
    | same hidle => rw [hdel] at hidle; exact absurd trivial hidle
    | enroll _ hev | replace _ hev | confirm _ _ _ hev | save _ _ _ _ _ _ hev =>
      rw [hdel] at hev
      cases hev
  · -- It only comes back if it is enrolled again, and an ID is enrolled once.
    intro l₁ l₂ e hlater hpre hserve' _ ⟨hactive, hpending⟩
    refine ⟨fun r hr => ?_, fun p hp => ?_⟩
    · rcases (entry_step hserve').active hr with ⟨r₀, hr₀, hsame⟩ | ⟨p, hp, hsame, -⟩
      · exact hsame.id ▸ hactive r₀ hr₀
      · exact hsame.id ▸ hpending p hp
    · rcases (entry_step hserve').pending hp with hp | ⟨cred', hcreated', rfl⟩
      · exact hpending p hp
      · intro hid
        obtain ⟨m₁, m₂, rfl⟩ := List.append_of_mem hg
        obtain ⟨hplace, -⟩ := created_place hv
          (show _ = l₁ ++ e :: (l₂ ++ d :: (m₁ ++ g :: m₂)) by rw [hlater]; simp)
          (show _ = (l₁ ++ e :: (l₂ ++ d :: m₁)) ++ g :: m₂ by rw [hlater]; simp)
          hcreated' hcreated hid
        have := congrArg List.length hplace
        simp at this

/-- The slots keep their meaning. Every active credential is one enrollment, confirmed with
    a code for its very secret. What is pending beside an active credential, and whatever
    takes over from one, was stored by `ReplaceEnrollment`. After an `Unenroll` no
    enrollment of the user from before is active. -/
theorem slots_keep_meaning {as : List (system).Action} {c : Run} (hrun : Run.empty.run as = some c) :
    (∀ r ∈ c.world.store.active,
      (∃ e, EnrolledBy c.trace e r) ∧ ∃ e, ConfirmedBy c.trace e r) ∧
    (∀ r ∈ c.world.store.active, ∀ p ∈ c.world.store.pending, r.userID = p.userID →
      Replacement c.trace p) ∧
    (∀ e ∈ c.trace, ∀ userID id counter cred,
      e.event = ⟨.confirmEnrollment userID id counter, .ok cred⟩ →
      (∃ old ∈ e.pre.store.active, old.userID = userID) → Replacement c.trace cred) ∧
    ∀ j s userID, c.Returned j ⟨s, .unenroll userID⟩ (.ok ()) →
      ∃ later d past, c.trace = later ++ d :: past ∧ d.tid = j ∧
        d.event = ⟨.deleteTOTP userID, .ok ()⟩ ∧
        ∀ g ∈ past, ∀ cred, created? g.event = some cred → cred.userID = userID →
          ∀ r ∈ c.world.store.active, r.id ≠ cred.id := by
  have hv := (run_sound hrun).valid
  refine ⟨fun r hr => ⟨((rows_enrolled hv).1 r hr).by hv, active_confirmed hv hr⟩,
    fun r hr p hp huser => pending_replacement hv hr hp huser, ?_, ?_⟩
  · rintro e he userID id counter cred hev ⟨old, hold, huser⟩
    obtain ⟨later, past, htrace⟩ := List.append_of_mem he
    rw [htrace] at hv ⊢
    obtain ⟨hpast, hserve, -⟩ := Valid.entry hv
    obtain ⟨p, hp, hpuser, -, rfl, -⟩ := promoted_pending hserve hev
    obtain ⟨k, hk, cred, name, hkev, hsame, hcall⟩ :=
      pending_replacement hpast hold hp (huser.trans hpuser.symm)
    exact ⟨k, by simp [hk], cred, name, hkev, ⟨hsame.id, hsame.userID, hsame.secret,
      hsame.createdAt⟩, hcall⟩
  · intro j s userID hret
    have hd : Did (history j c.trace) (.deleteTOTP userID) (.ok ()) :=
      (run_sound hrun).returned hret () rfl
    obtain ⟨d, hmem, htid, hev⟩ := mem_history.mp hd
    obtain ⟨later, past, htrace⟩ := List.append_of_mem hmem
    rw [htrace] at hv
    exact ⟨later, d, past, htrace, htid, hev, fun g hg cred hcreated huser =>
      (unenrolled_absent hv hev hg hcreated huser).1⟩

end

section

open Sulis.Totp.Scenario

attribute [local instance] plain

/-- Beside a confirmed enrollment a replacement is stored, while an ordinary one is
    refused. -/
def replaced : List Act :=
  .start (.enroll 7#128 "a") :: steps 0 100 4 ++
    .start (.confirmEnrollment 7#128 "000100") :: steps 1 100 3 ++
    .start (.replaceEnrollment 7#128 "a") :: .start (.enroll 7#128 "a") ::
    steps 2 101 3 ++ steps 3 101 4 ++ [.step 2 101]

theorem slots_keep_meaning_replaced :
    ∃ c, play replaced = some c ∧ result c 3 = some (.error .totpAlreadyEnrolled) ∧
      ∃ r ∈ c.world.store.active, ∃ p ∈ c.world.store.pending, r.userID = p.userID ∧
        (∃ e, EnrolledBy c.trace e r) ∧ (∃ e, ConfirmedBy c.trace e r) ∧ Replacement c.trace p := by
  obtain ⟨c, hplay, hrefused, r, hr, p, hp, huser⟩ := computed (o := play replaced)
    (P := fun c => result c 3 = some (.error .totpAlreadyEnrolled) ∧
      ∃ r ∈ c.world.store.active.rows, ∃ p ∈ c.world.store.pending.rows, r.userID = p.userID)
    (by decide +kernel)
  obtain ⟨hactive, hpending, -⟩ := slots_keep_meaning hplay
  exact ⟨c, hplay, hrefused, r, hr, p, hp, huser, (hactive r hr).1, (hactive r hr).2,
    hpending r hr p hp huser⟩

end

end Sulis.Totp
