-- SUMMARY: The counters accepted for a credential only ever rise, and a replacement starts from where the credential it replaces was.
import Sulis.Totp.Facts
import Sulis.Totp.Scenario

/-!
# No code is accepted twice

The store writes down the time step of every code that is accepted. What it holds for
the active credential bounds all of them, and it raises it with each.
-/

namespace Sulis.Totp

open Interaction Interaction.System Store

/-- The time step for which the store accepted a code for the credential. -/
def accepted? (id : UUID) : Interaction.Event iface → Option Nat
  | ⟨.confirmEnrollment _ pendingID counter, .ok _⟩ => if pendingID = id then some counter else none
  | ⟨.saveTOTP cred, .ok _⟩ => if cred.id = id then some cred.lastUsedCounter else none
  | _ => none

/-- The code an operation is called with. -/
def Request.code? : Request → Option String
  | .confirmEnrollment _ code | .validate _ code => some code
  | _ => none

section

variable [Digest] {w : World} {trace later past : List Entry}

/-- The time steps accepted for the credential, most recent first. -/
def accepted (id : UUID) (trace : List Entry) : List Nat :=
  trace.filterMap (fun e => accepted? id e.event)

theorem accepted_cons_none {id : UUID} {e : Entry} (h : accepted? id e.event = none) :
    accepted id (e :: past) = accepted id past := List.filterMap_cons_none h

theorem accepted_cons_some {id : UUID} {e : Entry} {n : Nat} (h : accepted? id e.event = some n) :
    accepted id (e :: past) = n :: accepted id past := List.filterMap_cons_some h

omit [Digest] in
theorem accepted?_none {ev : Interaction.Event iface} (h : ¬ Writes ev) (id : UUID) :
    accepted? id ev = none := by
  obtain ⟨op, r⟩ := ev
  cases op with
  | confirmEnrollment | saveTOTP =>
    cases r with
    | ok => exact absurd trivial h
    | error => rfl
  | _ => rfl

/-- Nothing is accepted for a credential before it is promoted. -/
theorem accepted_promoted (hv : Trace {} trace w) {id : UUID} {n : Nat} (hn : n ∈ accepted id trace) :
    Promoted trace id := by
  obtain ⟨e, he, hacc⟩ := List.mem_filterMap.mp hn
  obtain ⟨later, past, rfl⟩ := List.append_of_mem he
  obtain ⟨hpast, hserve, -⟩ := Valid.entry hv
  have hsub : past ⊆ later ++ e :: past := by simp
  cases entry_step hserve with
  | same hidle => rw [accepted?_none hidle] at hacc; cases hacc
  | enroll _ hev | replace _ hev | delete _ hev =>
    rw [hev] at hacc
    cases hacc
  | confirm p counter _ hev =>
    rw [hev] at hacc
    obtain ⟨rfl, -⟩ := Option.ite_none_right_eq_some.mp hacc
    exact ⟨e, he, p.userID, counter, _, hev⟩
  | save cred r hmem _ hid _ hev =>
    rw [hev] at hacc
    obtain ⟨rfl, -⟩ := Option.ite_none_right_eq_some.mp hacc
    exact hid ▸ (active_promoted hpast hmem).mono hsub

/-- Nothing was accepted for an enrollment that is pending. -/
theorem accepted_pending (hv : Trace {} trace w) {p : Credential} (hp : p ∈ w.store.pending) :
    accepted p.id trace = [] := by
  refine List.eq_nil_iff_forall_not_mem.mpr (fun n hn => ?_)
  exact promoted_not_pending hv (accepted_promoted hv hn) p hp rfl

/-- The counter of an active credential bounds every time step accepted for it. -/
theorem accepted_le (hv : Trace {} trace w) {r : Credential} (hr : r ∈ w.store.active) :
    ∀ n ∈ accepted r.id trace, n ≤ r.lastUsedCounter := by
  induction hv generalizing r with
  | nil => exact absurd hr (Table.not_mem_empty r)
  | @cons e past hpast hserve hallow hcall ih =>
    -- Rows of different users have different IDs.
    have hother {a b : Credential} (ha : Enrolled past a) (hb : Enrolled past b)
        (huser : a.userID ≠ b.userID) : b.id ≠ a.id := fun hid =>
      huser (enrolled_unique hpast ha hb hid.symm).userID.symm
    have hactive := (rows_enrolled hpast).1
    cases entry_step hserve with
    | same hidle h =>
      rw [accepted_cons_none (accepted?_none hidle _)]
      exact ih (h ▸ hr)
    | enroll cred hev _ h | replace cred hev h =>
      rw [accepted_cons_none (by rw [hev]; rfl)]
      exact ih (by rw [h] at hr; exact hr)
    | delete userID hev h =>
      rw [accepted_cons_none (by rw [hev]; rfl)]
      rw [h] at hr
      exact ih (Table.mem_erase.mp hr).1
    | confirm p counter hmem hev h =>
      rw [h] at hr
      rcases Table.mem_put.mp hr with rfl | ⟨hr, huser⟩
      · rw [accepted_cons_some (n := counter) (by rw [hev]; exact if_pos rfl)]
        rw [show (e.pre.store.promote p counter).id = p.id from rfl, accepted_pending hpast hmem]
        intro n hn
        rw [List.mem_singleton.mp hn]
        exact TOTPStore.le_carriedCounter _ counter
      · have hid : p.id ≠ r.id := hother (hactive r hr) ((rows_enrolled hpast).2 p hmem) huser
        rw [accepted_cons_none (by rw [hev]; exact if_neg hid)]
        exact ih hr
    | save cred r₀ hmem huser hid hlt hev h =>
      rw [h] at hr
      rcases Table.mem_put.mp hr with rfl | ⟨hr, huser'⟩
      · rw [accepted_cons_some (n := cred.lastUsedCounter) (by rw [hev]; exact if_pos hid.symm)]
        intro n hn
        rcases List.mem_cons.mp hn with rfl | hn
        · exact le_refl _
        · exact ((ih hmem n hn).trans_lt hlt).le
      · have hid' : r₀.id ≠ r.id := hother (hactive r hr) (hactive r₀ hmem) huser'
        rw [accepted_cons_none (by rw [hev]; exact if_neg (hid ▸ hid'))]
        exact ih hr

/-- The time steps accepted for a credential rise strictly. -/
theorem accepted_rising (hv : Trace {} trace w) (id : UUID) :
    (accepted id trace).Pairwise (· > ·) := by
  induction hv with
  | nil => exact .nil
  | @cons e past hpast hserve hallow hcall ih =>
    cases hacc : accepted? id e.event with
    | none => rw [accepted_cons_none hacc]; exact ih
    | some n =>
      rw [accepted_cons_some hacc]
      refine List.pairwise_cons.mpr ⟨fun m hm => ?_, ih⟩
      cases entry_step hserve with
      | same hidle => rw [accepted?_none hidle] at hacc; cases hacc
      | enroll _ hev | replace _ hev | delete _ hev => rw [hev] at hacc; cases hacc
      | confirm p counter hmem hev =>
        rw [hev] at hacc
        obtain ⟨rfl, -⟩ := Option.ite_none_right_eq_some.mp hacc
        rw [accepted_pending hpast hmem] at hm
        cases hm
      | save cred r hmem _ hid hlt hev =>
        rw [hev] at hacc
        obtain ⟨rfl, hn⟩ := Option.ite_none_right_eq_some.mp hacc
        cases hn
        exact (accepted_le hpast hmem m (hid ▸ hm)).trans_lt hlt

/-- An operation that accepts a code has had its time step written down, with the credential
    that has the secret the code belongs to. -/
theorem accepted_returned {as : List (system).Action} {c : Run} (hrun : Run.empty.run as = some c)
    {i : Nat} {call : Call} {out : call.request.Ret} (hret : c.Returned i call (.ok out))
    {code : String} (hcode : call.request.code? = some code) :
    ∃ e ∈ c.trace, e.tid = i ∧ ∃ (cred : Credential) (counter : Nat), accepted? cred.id e.event = some counter ∧
      cred ∈ e.post.store.active ∧ Matched call.service (history i c.trace) cred.secret code counter := by
  have hv := (run_sound hrun).valid
  have hout := (run_sound hrun).returned hret out rfl
  obtain ⟨s, request⟩ := call
  cases request with
  | confirmEnrollment userID code' =>
    cases hcode
    obtain ⟨id, counter, cred, hd, code', p, hcall, rfl, hread, hmatch⟩ := hout
    cases hcall
    obtain ⟨e, he, htid, hev⟩ := mem_history.mp hd
    obtain ⟨k, hk, -, hkev⟩ := mem_history.mp hread
    obtain ⟨hp, -⟩ := serve_getPendingTOTP k.choice (Valid.served hv hk hkev)
    obtain ⟨q, hq, -, hid, rfl, hpost⟩ := promoted_pending (Valid.served hv he hev) rfl
    -- What is promoted was enrolled with the secret that was read.
    have hsame := enrolled_unique hv (found_enrolled hv hk (Or.inr hp)) (found_enrolled hv he (Or.inr hq))
      hid.symm
    refine ⟨e, he, htid, e.pre.store.promote q counter, counter, by rw [hev]; exact if_pos hid.symm, ?_, ?_⟩
    · rw [hpost]
      exact Table.mem_put.mpr (Or.inl rfl)
    · rw [show (e.pre.store.promote q counter).secret = p.secret from hsame.secret]
      exact hmatch
  | validate userID code' =>
    cases hcode
    obtain ⟨cred, hd, userID', code', old, hcall, hcred, hread, hmatch⟩ := hout
    cases hcall
    obtain ⟨e, he, htid, hev⟩ := mem_history.mp hd
    obtain ⟨k, hk, -, hkev⟩ := mem_history.mp hread
    obtain ⟨hold, -⟩ := serve_getActiveTOTP k.choice (Valid.served hv hk hkev)
    obtain ⟨r, hr, hid, hpost⟩ := saved_active (Valid.served hv he hev) rfl
    have hsame := enrolled_unique hv (found_enrolled hv hk (Or.inl hold)) (found_enrolled hv he (Or.inl hr))
      (by rw [hid, hcred])
    refine ⟨e, he, htid, { r with lastUsedCounter := cred.lastUsedCounter }, cred.lastUsedCounter,
      by rw [hev]; exact if_pos hid.symm, ?_, ?_⟩
    · rw [hpost]
      exact Table.mem_put.mpr (Or.inl rfl)
    · rw [show r.secret = old.secret from hsame.secret]
      exact hmatch
  | enroll | replaceEnrollment | unenroll => cases hcode

/-- No code is accepted twice. In the order in which the store commits them, the time
    steps accepted for a credential rise strictly; every operation that accepts a code
    has its time step among them; and a credential that takes over starts at or above the
    counter of the one it replaces. -/
theorem code_accepted_once {as : List (system).Action} {c : Run} (hrun : Run.empty.run as = some c) :
    (∀ id, (accepted id c.trace).Pairwise (· > ·)) ∧
    (∀ i call out code, c.Returned i call (.ok out) → call.request.code? = some code →
      ∃ e ∈ c.trace, e.tid = i ∧ ∃ (cred : Credential) (counter : Nat), accepted? cred.id e.event = some counter ∧
        cred ∈ e.post.store.active ∧ Matched call.service (history i c.trace) cred.secret code counter) ∧
    ∀ e ∈ c.trace, ∀ userID id counter cred,
      e.event = ⟨.confirmEnrollment userID id counter, .ok cred⟩ →
      cred ∈ e.post.store.active ∧ cred.userID = userID ∧
        ∀ old ∈ e.pre.store.active, old.userID = userID → old.lastUsedCounter ≤ cred.lastUsedCounter := by
  have hv := (run_sound hrun).valid
  refine ⟨accepted_rising hv, fun i call out code hret hcode => accepted_returned hrun hret hcode, ?_⟩
  intro e he userID id counter cred hev
  obtain ⟨later, past, htrace⟩ := List.append_of_mem he
  rw [htrace] at hv
  obtain ⟨p, hp, rfl, -, rfl, hpost⟩ := promoted_pending (Valid.entry hv).2.1 hev
  refine ⟨?_, rfl, fun old hold huser => TOTPStore.le_promote hold huser⟩
  rw [hpost]
  exact Table.mem_put.mpr (Or.inl rfl)

end

section

open Sulis.Totp.Scenario

attribute [local instance] plain

/-- An enrollment is confirmed, and then one code is presented twice at the same time. -/
def presentedTwice : List Act :=
  .start (.enroll 7#128 "a") :: steps 0 100 4 ++
    .start (.confirmEnrollment 7#128 "000100") :: steps 1 100 3 ++
    [.start (.validate 7#128 "000101"), .start (.validate 7#128 "000101"), .step 2 101, .step 3 101,
      .step 2 101, .step 3 101, .step 2 101, .step 3 101]

theorem code_accepted_once_presentedTwice :
    ∃ c, play presentedTwice = some c ∧ result c 2 = some (.ok ()) ∧
      result c 3 = some (.error .totpReplayed) ∧ accepted (ident 2) c.trace = [101, 100] ∧
      (accepted (ident 2) c.trace).Pairwise (· > ·) := by
  obtain ⟨c, hplay, hfirst, hsecond, haccepted⟩ := computed (o := play presentedTwice)
    (P := fun c => result c 2 = some (.ok ()) ∧ result c 3 = some (.error .totpReplayed) ∧
      accepted (ident 2) c.trace = [101, 100])
    (by decide +kernel)
  exact ⟨c, hplay, hfirst, hsecond, haccepted, (code_accepted_once hplay).1 (ident 2)⟩

end

end Sulis.Totp
