-- SUMMARY: Sign counts rise as long as no login writes back over a count it has not read, and can fall otherwise.
import Sulis.Passkey.Scenario

/-!
# Clone detection

go-webauthn compares the count of an assertion with that of the copy it is given. The
count is written back by a later call, whatever the stored count is by then.
-/

namespace Sulis.Passkey

open Interaction Interaction.System Store

/-- The credentials an operation has read. -/
def reads (h : Hist) : List Credential :=
  h.flatMap (fun ev =>
    match ev with
    | ⟨.getCredentialsByUserID _, .ok creds⟩ => creds
    | ⟨.getCredentialByID _, .ok cred⟩ => [cred]
    | _ => [])

/-- The count the call wrote back under the raw ID. -/
def written? (credentialID : Bytes) : Interaction.Event iface → Option Nat
  | ⟨.updateCredentialAfterLogin credentialID' signCount _ _, .ok _⟩ =>
    if credentialID' = credentialID then some signCount else none
  | _ => none

theorem written?_none {ev : Interaction.Event iface} (h : ¬ Writes ev) (credentialID : Bytes) :
    written? credentialID ev = none := by
  obtain ⟨op, r⟩ := ev
  cases op with
  | updateCredentialAfterLogin =>
    cases r with
    | ok => exact absurd trivial h
    | error => rfl
  | _ => rfl

section

variable [WebAuthn] {w : World} {trace later past : List Entry} {credentialID : Bytes}

/-- The counts written back under a raw ID, most recent first. -/
def written (credentialID : Bytes) (trace : List Entry) : List Nat :=
  trace.filterMap (fun e => written? credentialID e.event)

theorem written_cons_none {e : Entry} (h : written? credentialID e.event = none) :
    written credentialID (e :: past) = written credentialID past := List.filterMap_cons_none h

theorem written_cons_some {e : Entry} {n : Nat} (h : written? credentialID e.event = some n) :
    written credentialID (e :: past) = n :: written credentialID past := List.filterMap_cons_some h

/-- If the step writes back under the raw ID, the stored count is still the one that the
    operation has read. -/
def StillCurrent (credentialID : Bytes) (e : Entry) (past : List Entry) : Prop :=
  (written? credentialID e.event).isSome →
    ∀ read ∈ reads (history e.tid past), read.credentialID = credentialID →
      ∀ row ∈ e.pre.store.rows, row.id = read.id → row.signCount = read.signCount

/-- No login with the raw ID writes back over a count that it has not read. -/
def Undisturbed (credentialID : Bytes) : List Entry → Prop
  | [] => True
  | e :: past => StillCurrent credentialID e past ∧ Undisturbed credentialID past

instance (credentialID : Bytes) (e : Entry) (past : List Entry) :
    Decidable (StillCurrent credentialID e past) :=
  inferInstanceAs (Decidable (_ → _))

instance Undisturbed.decidable (credentialID : Bytes) :
    (trace : List Entry) → Decidable (Undisturbed credentialID trace)
  | [] => .isTrue trivial
  | e :: past =>
    haveI := Undisturbed.decidable credentialID past
    inferInstanceAs (Decidable (StillCurrent credentialID e past ∧ Undisturbed credentialID past))

theorem Undisturbed.of_append (h : Undisturbed credentialID (later ++ past)) :
    Undisturbed credentialID past := by
  induction later with
  | nil => exact h
  | cons e later ih => exact ih h.2

theorem Login.mem_reads {call : Call} {h : Hist} {userID : UUID} {creds : List Credential}
    {assertion : ParsedAssertion} {returned : WaCredential}
    (hl : Login call h userID creds assertion returned) : ∀ cred ∈ creds, cred ∈ reads h := by
  intro cred hcred
  cases hl with
  | identified _ hread => exact List.mem_flatMap.mpr ⟨_, hread, hcred⟩
  | discoverable _ hread => exact List.mem_flatMap.mpr ⟨_, hread, hcred⟩

/-! ## One step -/

/-- A count that is written back was compared with the stored one. -/
theorem update_rises (hlib : WebAuthn.Answers CountedAgainst) {e : Entry}
    (hv : Trace {} (e :: past) w) (honce : registrations credentialID (e :: past) ≤ 1)
    (hcurrent : StillCurrent credentialID e past) {row : Credential} {signCount : Nat}
    {backupState : Bool} {lastUsedAt : Time} (hrow : row ∈ e.pre.store)
    (hid : row.credentialID = credentialID)
    (hev : e.event = ⟨.updateCredentialAfterLogin row.credentialID signCount backupState lastUsedAt,
      .ok ()⟩) :
    row.signCount ≤ signCount ∧ (signCount ≠ 0 → row.signCount < signCount) := by
  have hv' : Trace {} ([] ++ e :: past) w := hv
  have hpast := (Valid.entry hv').1
  obtain ⟨userID, creds, assertion, returned, hlogin, hwarning, hreturned, rfl, -⟩ :=
    Valid.allowed hv' hev
  obtain ⟨read, hread, -, hcounted⟩ := hlogin.verified hlib
  have hreadID : read.credentialID = credentialID :=
    (hcounted.id.symm.trans hreturned.symm).trans hid
  -- The row and the copy that was read are the same credential, with the same count.
  have hsuf : past <:+ e :: past := List.suffix_cons e past
  have hsame := registered_unique ((registrations_mono _ hsuf).trans honce)
    (rows_registered hpast row hrow) (hlogin.registered hpast read hread).1 hid hreadID
  have hwritten : (written? credentialID e.event).isSome := by
    rw [hev]
    exact Option.isSome_iff_exists.mpr ⟨_, if_pos hid⟩
  have hcount : row.signCount = read.signCount :=
    hcurrent hwritten read (hlogin.mem_reads read hread) hreadID row hrow
      (Credential.eq_of_registered hsame).1
  have hnot := mt hcounted.warning.mpr (by rw [hwarning]; decide)
  rw [hcounted.reported hwarning, hcount]
  simp only [Credential.toWebAuthn] at hnot
  omega

/-- A step does not lower the count of a row with the raw ID. -/
theorem step_rises (hlib : WebAuthn.Answers CountedAgainst) {e : Entry}
    (hv : Trace {} (e :: past) w) (honce : registrations credentialID (e :: past) ≤ 1)
    (hcurrent : StillCurrent credentialID e past) {row row' : Credential} (hrow : row ∈ e.pre.store)
    (hrow' : row' ∈ e.post.store) (hid : row.credentialID = credentialID) (hsame : row'.id = row.id) :
    row.signCount ≤ row'.signCount := by
  have hv' : Trace {} ([] ++ e :: past) w := hv
  -- A row that was there before is the row itself.
  have hkept {r : Credential} (hr : r ∈ e.pre.store) (hid : r.id = row.id) : r = row :=
    Table.eq_of_mem hr hrow hid
  cases entry_step (Valid.entry hv').2.1 with
  | same _ h => exact (congrArg Credential.signCount (hkept (h ▸ hrow') hsame)).ge
  | save cred hev h =>
    rcases Table.mem_put.mp (h ▸ hrow') with rfl | ⟨hr, -⟩
    · exact absurd hsame.symm (save_fresh hv hev row hrow)
    · exact (congrArg Credential.signCount (hkept hr hsame)).ge
  | update x signCount _ _ hmem hev h =>
    rcases Table.mem_put.mp (h ▸ hrow') with rfl | ⟨hr, -⟩
    · obtain rfl : x = row := hkept hmem hsame
      exact (update_rises hlib hv honce hcurrent hmem hid hev).1
    · exact (congrArg Credential.signCount (hkept hr hsame)).ge
  | delete _ _ _ _ h =>
    exact (congrArg Credential.signCount (hkept (Table.mem_erase.mp (h ▸ hrow')).1 hsame)).ge
  | deleteAll _ _ h =>
    exact (congrArg Credential.signCount (hkept (Table.mem_filter.mp (h ▸ hrow')).1 hsame)).ge
  | rename x _ _ hmem _ h =>
    rcases Table.mem_put.mp (h ▸ hrow') with rfl | ⟨hr, -⟩
    · exact (congrArg Credential.signCount (hkept hmem hsame)).ge
    · exact (congrArg Credential.signCount (hkept hr hsame)).ge

/-! ## Whole runs -/

/-- What was written back under a raw ID was written to a credential that was registered. -/
theorem written_registered (hv : Trace {} trace w) {n : Nat} (hn : n ∈ written credentialID trace) :
    ∃ row, Registered trace row ∧ row.credentialID = credentialID := by
  obtain ⟨e, he, hwritten⟩ := List.mem_filterMap.mp hn
  obtain ⟨later, past, rfl⟩ := List.append_of_mem he
  cases entry_step (Valid.entry hv).2.1 with
  | same hidle => rw [written?_none hidle] at hwritten; cases hwritten
  | save _ hev | delete _ _ _ hev | deleteAll _ hev | rename _ _ _ _ hev =>
    rw [hev] at hwritten
    cases hwritten
  | update row _ _ _ hmem hev =>
    rw [hev] at hwritten
    obtain ⟨hid, -⟩ := Option.ite_none_right_eq_some.mp hwritten
    exact ⟨row, registered_of_mem_pre hv he hmem, hid⟩

/-- Nothing was written back before the only registration of the raw ID. -/
theorem written_before_save {e : Entry} (hpast : Trace {} past w) {cred : Credential}
    (hev : e.event = ⟨.saveCredential cred, .ok ()⟩)
    (honce : registrations cred.credentialID (e :: past) ≤ 1) :
    written cred.credentialID past = [] := by
  refine List.eq_nil_iff_forall_not_mem.mpr (fun n hn => ?_)
  obtain ⟨row, ⟨cred', hcred', hsame⟩, hid⟩ := written_registered hpast hn
  have hid' : cred'.credentialID = cred.credentialID := by
    simp only [Credential.registered, Credential.mk.injEq] at hsame
    exact hsame.2.2.1.trans hid
  have hpos : 0 < registrations cred.credentialID past :=
    List.countP_pos_iff.mpr ⟨cred', hcred', decide_eq_true hid'⟩
  have hcons : saved (e :: past) = cred :: saved past :=
    List.filterMap_cons_some (by rw [hev]; rfl)
  have hsucc : registrations cred.credentialID (e :: past) =
      registrations cred.credentialID past + 1 := by
    unfold registrations
    rw [hcons, List.countP_cons_of_pos (by simp)]
  omega

/-- The stored count bounds everything that was written back. -/
theorem written_le (hlib : WebAuthn.Answers CountedAgainst) (hv : Trace {} trace w)
    (honce : registrations credentialID trace ≤ 1) (hund : Undisturbed credentialID trace)
    {row : Credential} (hrow : row ∈ w.store) (hid : row.credentialID = credentialID) :
    ∀ n ∈ written credentialID trace, n ≤ row.signCount := by
  induction hv generalizing row with
  | nil => exact absurd hrow (Table.not_mem_empty row)
  | @cons e past hpast hserve hallow hcall ih =>
    have hv : Trace {} (e :: past) e.post := .cons e past hpast hserve hallow hcall
    have honce' := (registrations_mono credentialID (List.suffix_cons e past)).trans honce
    have hbefore {r : Credential} (hr : r ∈ e.pre.store) (hid : r.credentialID = credentialID) :
        ∀ n ∈ written credentialID past, n ≤ r.signCount := ih honce' hund.2 hr hid
    cases entry_step hserve with
    | same hidle h =>
      rw [written_cons_none (written?_none hidle _)]
      exact hbefore (h ▸ hrow) hid
    | save cred hev h =>
      rw [written_cons_none (by rw [hev]; rfl)]
      rcases Table.mem_put.mp (h ▸ hrow) with rfl | ⟨hr, -⟩
      · subst hid
        rw [written_before_save hpast hev honce]
        exact fun n hn => absurd hn List.not_mem_nil
      · exact hbefore hr hid
    | delete _ _ _ hev h =>
      rw [written_cons_none (by rw [hev]; rfl)]
      exact hbefore (Table.mem_erase.mp (h ▸ hrow)).1 hid
    | deleteAll _ hev h =>
      rw [written_cons_none (by rw [hev]; rfl)]
      exact hbefore (Table.mem_filter.mp (h ▸ hrow)).1 hid
    | rename x _ _ hmem hev h =>
      rw [written_cons_none (by rw [hev]; rfl)]
      rcases Table.mem_put.mp (h ▸ hrow) with rfl | ⟨hr, -⟩
      · exact hbefore (r := x) hmem hid
      · exact hbefore hr hid
    | update x signCount _ _ hmem hev h =>
      rcases Table.mem_put.mp (h ▸ hrow) with rfl | ⟨hr, hne⟩
      · obtain ⟨hle, -⟩ := update_rises hlib hv honce hund.1 hmem hid hev
        rw [written_cons_some (n := signCount) (by rw [hev]; exact if_pos hid)]
        intro n hn
        rcases List.mem_cons.mp hn with rfl | hn
        · exact le_refl n
        · exact (hbefore hmem hid n hn).trans hle
      · -- Another row was written to, and that one does not have the raw ID.
        have hother : x.credentialID ≠ credentialID := fun hxid =>
          hne (Credential.eq_of_registered (registered_unique honce'
            (rows_registered hpast row hr) (rows_registered hpast x hmem) hid hxid)).1
        rw [written_cons_none (by rw [hev]; exact if_neg hother)]
        exact hbefore hr hid

/-- A count that is not zero is above everything written back before. -/
theorem written_lt (hlib : WebAuthn.Answers CountedAgainst) (hv : Trace {} trace w)
    (honce : registrations credentialID trace ≤ 1) (hund : Undisturbed credentialID trace)
    {e : Entry} (htrace : trace = later ++ e :: past) {n : Nat}
    (hwritten : written? credentialID e.event = some n) (hn : n ≠ 0) :
    ∀ m ∈ written credentialID past, m < n := by
  subst htrace
  have hupto := Valid.upto hv
  have honce' := (registrations_mono credentialID (List.suffix_append later _)).trans honce
  have hund' := hund.of_append
  have hpast := (Valid.entry hv).1
  cases entry_step (Valid.entry hv).2.1 with
  | same hidle => rw [written?_none hidle] at hwritten; cases hwritten
  | save _ hev | delete _ _ _ hev | deleteAll _ hev | rename _ _ _ _ hev =>
    rw [hev] at hwritten
    cases hwritten
  | update row signCount _ _ hmem hev =>
    rw [hev] at hwritten
    obtain ⟨hid, hsome⟩ := Option.ite_none_right_eq_some.mp hwritten
    obtain rfl := Option.some.inj hsome
    obtain ⟨-, hlt⟩ := update_rises hlib hupto honce' hund'.1 hmem hid hev
    intro m hm
    have hle := written_le hlib hpast
      ((registrations_mono _ (List.suffix_cons e past)).trans honce') hund'.2 hmem hid m hm
    exact hle.trans_lt (hlt hn)

/-- A login that succeeded wrote back the count it was called with. -/
theorem LoggedIn.written (hlib : WebAuthn.Answers CountedAgainst) {as : List (system).Action}
    {c : Run} (hrun : Run.empty.run as = some c) {i : Nat} {call : Call} {cred : Credential}
    (hlogged : LoggedIn c i call cred) {assertion : ParsedAssertion}
    (hpresented : call.request.assertion? = some assertion) :
    ∃ later e past, c.trace = later ++ e :: past ∧ e.tid = i ∧
      written? assertion.rawID e.event = some assertion.signCount := by
  have hv := (run_sound hrun).valid
  obtain ⟨id, signCount, backupState, lastUsedAt, hupdate, -⟩ := hlogged.wroteBack hrun
  obtain ⟨out, hret⟩ := hlogged.returned
  obtain ⟨e, he, htid, hev⟩ := mem_history.mp hupdate
  have hcall := call_of_returned hrun hret he htid
  obtain ⟨later, past, htrace⟩ := List.append_of_mem he
  obtain ⟨userID, creds, assertion', returned, hlogin, hwarning, rfl, rfl, -⟩ :=
    Valid.allowed (htrace ▸ hv) hev
  rw [hcall] at hlogin
  obtain rfl : assertion' = assertion := Option.some.inj (hlogin.presented.symm.trans hpresented)
  obtain ⟨read, -, hraw, hcounted⟩ := hlogin.verified hlib
  refine ⟨later, e, past, htrace, htid, ?_⟩
  rw [hev]
  exact (if_pos (hcounted.id.trans hraw)).trans (congrArg some (hcounted.reported hwarning))

/-- Clone detection, for a raw ID that was registered once and whose logins never write
    back over a count they have not read: the stored count never falls, and no two
    successful logins presented the same count, unless it was zero. -/
theorem sign_counts_rise (hlib : WebAuthn.Answers CountedAgainst) {as : List (system).Action}
    {c : Run} (hrun : Run.empty.run as = some c) {credentialID : Bytes}
    (honce : registrations credentialID c.trace ≤ 1) (hund : Undisturbed credentialID c.trace) :
    (∀ e ∈ c.trace, ∀ row ∈ e.pre.store, ∀ row' ∈ e.post.store,
      row.credentialID = credentialID → row'.id = row.id → row.signCount ≤ row'.signCount) ∧
    ∀ i j call call' cred cred' assertion assertion', LoggedIn c i call cred →
      LoggedIn c j call' cred' → i ≠ j → call.request.assertion? = some assertion →
      call'.request.assertion? = some assertion' → assertion.rawID = credentialID →
      assertion'.rawID = credentialID → assertion.signCount ≠ 0 →
      assertion.signCount ≠ assertion'.signCount := by
  have hv := (run_sound hrun).valid
  refine ⟨fun e he row hrow row' hrow' hid hsame => ?_, ?_⟩
  · obtain ⟨later, past, htrace⟩ := List.append_of_mem he
    rw [htrace] at hv honce hund
    have honce' := (registrations_mono credentialID (List.suffix_append later _)).trans honce
    exact step_rises hlib (Valid.upto hv) honce' hund.of_append.1 hrow hrow' hid hsame
  · intro i j call call' cred cred' assertion assertion' hlogged hlogged' hij hpresented hpresented'
      hraw hraw' hzero heq
    obtain ⟨l, e, p, htrace, htid, hwritten⟩ := hlogged.written hlib hrun hpresented
    obtain ⟨l', e', p', htrace', htid', hwritten'⟩ := hlogged'.written hlib hrun hpresented'
    rw [hraw] at hwritten
    rw [hraw', ← heq] at hwritten'
    have hbelow {l p : List Entry} {e e' : Entry} (htrace : c.trace = l ++ e :: p) (he' : e' ∈ p)
        (hwritten : written? credentialID e.event = some assertion.signCount)
        (hwritten' : written? credentialID e'.event = some assertion.signCount) : False :=
      lt_irrefl _ (written_lt hlib hv honce hund htrace hwritten hzero _
        (List.mem_filterMap.mpr ⟨e', he', hwritten'⟩))
    rcases append_cons_cases (htrace.symm.trans htrace') with ⟨-, rfl, -⟩ | ⟨mid, hp⟩ | ⟨mid, hp⟩
    · exact hij (htid.symm.trans htid')
    · exact hbelow htrace (by rw [hp]; simp) hwritten hwritten'
    · exact hbelow htrace' (by rw [hp]; simp) hwritten' hwritten

end

section

open Sulis.Passkey.Scenario

attribute [local instance] plain

/-- User `7` registers a passkey, and begins two logins with it. -/
def twoCeremonies : List Act :=
  .start (.beginRegistration { id := 7#128 }) :: steps 0 3 ++
    .start (.finishRegistrationResponse { id := 7#128 } [9, 1, 0]) :: steps 1 5 ++
    .start (.beginLogin { id := 7#128 }) :: steps 2 4 ++
    .start (.beginLogin { id := 7#128 }) :: steps 3 4

/-- The first of the logins, with the given count. -/
def firstLogin (count : UInt8) : Request :=
  .finishLoginResponse { id := 7#128 } (ident 13) [9, 1, count]

/-- The second of the logins, with the given count. -/
def secondLogin (count : UInt8) : Request :=
  .finishLoginResponse { id := 7#128 } (ident 18) [9, 1, count]

/-- One login after the other. -/
def oneAfterTheOther : List Act :=
  twoCeremonies ++ .start (firstLogin 3) :: steps 4 6 ++ .start (secondLogin 5) :: steps 5 6

theorem sign_counts_rise_oneAfterTheOther :
    ∃ c s s' cred cred', play oneAfterTheOther = some c ∧
      LoggedIn c 4 ⟨s, firstLogin 3⟩ cred ∧ LoggedIn c 5 ⟨s', secondLogin 5⟩ cred' ∧
      (∀ e ∈ c.trace, ∀ row ∈ e.pre.store, ∀ row' ∈ e.post.store,
        row.credentialID = [9] → row'.id = row.id → row.signCount ≤ row'.signCount) ∧
      c.world.store.rows.map Credential.signCount = [5] := by
  obtain ⟨c, hplay, hfirst, hsecond, honce, hund, hcount⟩ := computed (o := play oneAfterTheOther)
    (P := fun c => (loggedIn? c 4).map Prod.fst = some (firstLogin 3) ∧
      (loggedIn? c 5).map Prod.fst = some (secondLogin 5) ∧ registrations [9] c.trace ≤ 1 ∧
      Undisturbed [9] c.trace ∧ c.world.store.rows.map Credential.signCount = [5])
    (by decide +kernel)
  obtain ⟨s, cred, hlogged⟩ := loggedIn_of_request hfirst
  obtain ⟨s', cred', hlogged'⟩ := loggedIn_of_request hsecond
  exact ⟨c, s, s', cred, cred', hplay, hlogged, hlogged',
    (sign_counts_rise plain_counts hplay honce hund).1, hcount⟩

/-- The second login has read the credential when the first one writes back. -/
def bothAtOnce (count count' : UInt8) : List Act :=
  twoCeremonies ++ [.start (firstLogin count), .start (secondLogin count'), .step 4 0, .step 5 0] ++
    steps 4 5 ++ steps 5 5

/-- Two logins that overlap present the same count and both succeed, and the count that is
    stored falls when the login with the lower one writes back last. -/
theorem clone_passes_beside_login :
    WebAuthn.Answers CountedAgainst ∧
      (∃ c s s' cred cred', play (bothAtOnce 5 5) = some c ∧ registrations [9] c.trace ≤ 1 ∧
        LoggedIn c 4 ⟨s, firstLogin 5⟩ cred ∧ LoggedIn c 5 ⟨s', secondLogin 5⟩ cred') ∧
      ∃ c s s' cred cred', play (bothAtOnce 5 3) = some c ∧ registrations [9] c.trace ≤ 1 ∧
        LoggedIn c 4 ⟨s, firstLogin 5⟩ cred ∧ LoggedIn c 5 ⟨s', secondLogin 3⟩ cred' ∧
        ∃ e ∈ c.trace, ∃ row ∈ e.pre.store, ∃ row' ∈ e.post.store,
          row'.id = row.id ∧ row.signCount = 5 ∧ row'.signCount = 3 := by
  refine ⟨plain_counts, ?_, ?_⟩
  · obtain ⟨c, hplay, honce, hfirst, hsecond⟩ := computed (o := play (bothAtOnce 5 5))
      (P := fun c => registrations [9] c.trace ≤ 1 ∧
        (loggedIn? c 4).map Prod.fst = some (firstLogin 5) ∧
        (loggedIn? c 5).map Prod.fst = some (secondLogin 5))
      (by decide +kernel)
    obtain ⟨s, cred, hlogged⟩ := loggedIn_of_request hfirst
    obtain ⟨s', cred', hlogged'⟩ := loggedIn_of_request hsecond
    exact ⟨c, s, s', cred, cred', hplay, honce, hlogged, hlogged'⟩
  · obtain ⟨c, hplay, honce, hfirst, hsecond, hfalls⟩ := computed (o := play (bothAtOnce 5 3))
      (P := fun c => registrations [9] c.trace ≤ 1 ∧
        (loggedIn? c 4).map Prod.fst = some (firstLogin 5) ∧
        (loggedIn? c 5).map Prod.fst = some (secondLogin 3) ∧
        ∃ e ∈ c.trace, ∃ row ∈ e.pre.store.rows, ∃ row' ∈ e.post.store.rows,
          row'.id = row.id ∧ row.signCount = 5 ∧ row'.signCount = 3)
      (by decide +kernel)
    obtain ⟨s, cred, hlogged⟩ := loggedIn_of_request hfirst
    obtain ⟨s', cred', hlogged'⟩ := loggedIn_of_request hsecond
    exact ⟨c, s, s', cred, cred', hplay, honce, hlogged, hlogged', hfalls⟩

end

end Sulis.Passkey
