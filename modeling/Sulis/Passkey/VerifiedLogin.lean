-- SUMMARY: A login returns and writes to the credential it verified as long as its raw ID was registered once, and not otherwise.
import Sulis.Passkey.Scenario

/-!
# A login returns the credential that was verified

An assertion is verified against a copy of a credential of the user. What is then written
back, and what is returned, is looked up anew by the raw credential ID, over the
credentials of all users.
-/

namespace Sulis.Passkey

open Interaction Interaction.System Store

section

variable [WebAuthn]

/-- When thread `i` wrote back what it had verified, go-webauthn had let its assertion
    through for the user, with the key of the credential. -/
def VerifiedBy (c : Run) (i : Nat) (call : Call) (userID : UUID) (verified : Credential) : Prop :=
  ∃ later e past creds assertion returned lastUsedAt,
    c.trace = later ++ e :: past ∧ e.tid = i ∧
    e.event = ⟨.updateCredentialAfterLogin returned.id returned.signCount returned.backupState
      lastUsedAt, .ok ()⟩ ∧
    Login call (history i past) userID creds assertion returned ∧
    verified ∈ creds ∧ VerifiedWith verified.toWebAuthn assertion returned

variable {w : World} {trace later past : List Entry}

/-- What a login writes, it writes to a row with the raw ID of its assertion. -/
theorem login_step (hlib : WebAuthn.Answers VerifiedWith) (hv : Trace {} trace w) {e : Entry}
    (he : e ∈ trace) {assertion : ParsedAssertion}
    (hpresented : e.call.request.assertion? = some assertion) :
    e.post.store = e.pre.store ∨
      ∃ row ∈ e.pre.store, row.credentialID = assertion.rawID ∧
        ∃ row', row'.id = row.id ∧ e.post.store = e.pre.store.put row' := by
  obtain ⟨later, past, rfl⟩ := List.append_of_mem he
  -- Anything but a login would have no assertion.
  have notOther {request : Request} (hreq : e.call.request = request)
      (hnone : request.assertion? = none) : False := by
    rw [hreq, hnone] at hpresented
    cases hpresented
  cases entry_step (Valid.entry hv).2.1 with
  | same _ h => exact Or.inl h
  | save cred hev =>
    obtain ⟨-, user, body, hreq, -⟩ := Valid.allowed hv hev
    exact (notOther hreq rfl).elim
  | delete _ _ _ hev | deleteAll _ hev | rename _ _ _ _ hev =>
    exact (notOther (Valid.allowed hv hev) rfl).elim
  | update row signCount backupState lastUsedAt hmem hev h =>
    obtain ⟨userID, creds, assertion', returned, hlogin, -, hid, -⟩ := Valid.allowed hv hev
    obtain rfl : assertion' = assertion := Option.some.inj (hlogin.presented.symm.trans hpresented)
    obtain ⟨cred, -, hraw, hsame, -⟩ := hlogin.verified hlib
    refine Or.inr ⟨row, hmem, hid.trans (hsame.trans hraw), { row with
      signCount := signCount, backupState := backupState, lastUsedAt := some lastUsedAt }, rfl, h⟩

/-- A login that succeeded wrote back what it had verified. -/
theorem LoggedIn.verified (hlib : WebAuthn.Answers VerifiedWith) {as : List (system).Action} {c : Run}
    (hrun : Run.empty.run as = some c) {i : Nat} {call : Call} {cred : Credential}
    (hlogged : LoggedIn c i call cred) {assertion : ParsedAssertion}
    (hpresented : call.request.assertion? = some assertion) :
    cred.credentialID = assertion.rawID ∧ Registered c.trace cred ∧
      ∃ userID verified, VerifiedBy c i call userID verified ∧ verified.userID = userID ∧
        verified.credentialID = assertion.rawID ∧ Registered c.trace verified := by
  have hv := (run_sound hrun).valid
  obtain ⟨credentialID, signCount, backupState, lastUsedAt, hupdate, hread⟩ :=
    hlogged.wroteBack hrun
  obtain ⟨hcred, hcredID⟩ := did_getCredentialByID hv hread
  obtain ⟨out, hret⟩ := hlogged.returned
  obtain ⟨e, he, rfl, hev⟩ := mem_history.mp hupdate
  have hcall := call_of_returned hrun hret he rfl
  obtain ⟨later, past, htrace⟩ := List.append_of_mem he
  have hv' := htrace ▸ hv
  obtain ⟨userID, creds, assertion', returned, hlogin, -, rfl, rfl, rfl⟩ := Valid.allowed hv' hev
  rw [hcall] at hlogin
  obtain rfl : assertion' = assertion := Option.some.inj (hlogin.presented.symm.trans hpresented)
  obtain ⟨verified, hmem, hraw, hwith⟩ := hlogin.verified hlib
  obtain ⟨hregistered, huser⟩ := hlogin.registered (Valid.entry hv').1 verified hmem
  have hsuffix : past <:+ c.trace := by
    rw [htrace]
    exact (List.suffix_cons e past).trans (List.suffix_append later _)
  refine ⟨hcredID.trans (hwith.1.trans hraw), hcred, userID, verified, ?_, huser, hraw,
    hregistered.mono hsuffix⟩
  exact ⟨later, e, past, creds, assertion', returned, lastUsedAt, htrace, rfl, hev, hlogin, hmem,
    hwith⟩

/-- A login whose raw ID was registered once returns the credential that was verified: it
    belongs to the user the login is for, has the key that verified the assertion, and is
    the only row that the login wrote to. -/
theorem login_returns_verified (hlib : WebAuthn.Answers VerifiedWith) {as : List (system).Action}
    {c : Run} (hrun : Run.empty.run as = some c) {i : Nat} {call : Call} {cred : Credential}
    (hlogged : LoggedIn c i call cred) {assertion : ParsedAssertion}
    (hpresented : call.request.assertion? = some assertion)
    (honce : registrations assertion.rawID c.trace ≤ 1) :
    ∃ userID verified, VerifiedBy c i call userID verified ∧ cred.userID = userID ∧
      cred.publicKey = verified.publicKey ∧ cred.id = verified.id ∧
      ∀ e ∈ c.trace, e.tid = i → ∀ row ∈ e.pre.store, row.id ≠ cred.id → row ∈ e.post.store := by
  obtain ⟨hcredID, hcred, userID, verified, hby, huser, hraw, hregistered⟩ :=
    hlogged.verified hlib hrun hpresented
  have hv := (run_sound hrun).valid
  obtain ⟨hid, huserID, hkey⟩ :=
    Credential.eq_of_registered (registered_unique honce hcred hregistered hcredID hraw)
  refine ⟨userID, verified, hby, huserID.trans huser, hkey, hid, ?_⟩
  intro e he htid row hrow hother
  obtain ⟨out, hret⟩ := hlogged.returned
  have hcall := call_of_returned hrun hret he htid
  rcases login_step hlib hv he (hcall.symm ▸ hpresented) with h | ⟨row', hrow', hraw', new, hnew, h⟩
  · rw [h]
    exact hrow
  · -- The row that was written to has the raw ID too, so it is the same credential.
    have hsame := registered_unique honce (registered_of_mem_pre hv he hrow') hcred hraw' hcredID
    have hnewID : new.id = cred.id := hnew.trans (Credential.eq_of_registered hsame).1
    rw [h]
    exact Table.mem_put.mpr (Or.inr ⟨hrow, hnewID ▸ hother⟩)

end

section

open Sulis.Passkey.Scenario

attribute [local instance] plain

/-- A login of user `7`, who says so. -/
def identifiedLogin : Request := .finishLoginResponse { id := 7#128 } (ident 13) [9, 1, 5]

/-- A login that leaves it to the response who logs in. -/
def discoverableLogin : Request :=
  .finishDiscoverableLoginResponse (ident 24) ([9, 1, 6] ++ uuidBytes 7#128)

/-- User `7` registers a passkey and logs in with it in both ways. -/
def loggedInTwice : List Act :=
  .start (.beginRegistration { id := 7#128 }) :: steps 0 3 ++
    .start (.finishRegistrationResponse { id := 7#128 } [9, 1, 0]) :: steps 1 5 ++
    .start (.beginLogin { id := 7#128 }) :: steps 2 4 ++ .start identifiedLogin :: steps 3 6 ++
    .start .beginDiscoverableLogin :: steps 4 3 ++ .start discoverableLogin :: steps 5 6

theorem login_returns_verified_loggedInTwice :
    ∃ c s s' cred cred', play loggedInTwice = some c ∧
      LoggedIn c 3 ⟨s, identifiedLogin⟩ cred ∧ LoggedIn c 5 ⟨s', discoverableLogin⟩ cred' ∧
      (∃ userID verified, VerifiedBy c 3 ⟨s, identifiedLogin⟩ userID verified ∧
        cred.userID = userID ∧ cred.publicKey = verified.publicKey) ∧
      ∃ userID verified, VerifiedBy c 5 ⟨s', discoverableLogin⟩ userID verified ∧
        cred'.userID = userID ∧ cred'.publicKey = verified.publicKey := by
  obtain ⟨c, hplay, hfirst, hsecond, honce⟩ := computed (o := play loggedInTwice)
    (P := fun c => (loggedIn? c 3).map Prod.fst = some identifiedLogin ∧
      (loggedIn? c 5).map Prod.fst = some discoverableLogin ∧ registrations [9] c.trace ≤ 1)
    (by decide +kernel)
  obtain ⟨s, cred, hlogged⟩ := loggedIn_of_request hfirst
  obtain ⟨s', cred', hlogged'⟩ := loggedIn_of_request hsecond
  obtain ⟨userID, verified, hby, huser, hkey, -⟩ :=
    login_returns_verified plain_verifies hplay hlogged rfl honce
  obtain ⟨userID', verified', hby', huser', hkey', -⟩ :=
    login_returns_verified plain_verifies hplay hlogged' rfl honce
  exact ⟨c, s, s', cred, cred', hplay, hlogged, hlogged', ⟨userID, verified, hby, huser, hkey⟩,
    userID', verified', hby', huser', hkey'⟩

/-- A login of user `8`, with the key that user `8` registered. -/
def impostorLogin : Request := .finishLoginResponse { id := 8#128 } (ident 23) [9, 2, 5]

/-- User `8` registers a passkey under the raw ID of the passkey of user `7`, with a key
    of its own, and logs in with that. The store is scanned in another order each time. -/
def sharedRawID : List Act :=
  .start (.beginRegistration { id := 7#128 }) :: steps 0 3 ++
    .start (.finishRegistrationResponse { id := 7#128 } [9, 1, 0]) :: steps 1 5 ++
    .start (.beginRegistration { id := 8#128 }) :: steps 2 3 ++
    .start (.finishRegistrationResponse { id := 8#128 } [9, 2, 0]) :: steps 3 5 ++
    .start (.beginLogin { id := 8#128 }) :: steps 4 4 ++ .start impostorLogin :: steps 5 4 ++
    [.step 5 1, .step 5 0]

/-- The login of user `8` returns the passkey of user `7`, and counts against that. -/
theorem another_users_passkey_returned :
    WebAuthn.Answers VerifiedWith ∧
      ∃ c s cred, play sharedRawID = some c ∧ LoggedIn c 5 ⟨s, impostorLogin⟩ cred ∧
        cred.userID = 7#128 ∧ cred.publicKey = [1] ∧
        (¬ ∃ userID verified, VerifiedBy c 5 ⟨s, impostorLogin⟩ userID verified ∧
          cred.userID = userID) ∧
        c.world.store.rows.map (fun row => (row.userID, row.publicKey, row.signCount)) =
          [(7#128, [1], 5), (8#128, [2], 0)] := by
  refine ⟨plain_verifies, ?_⟩
  obtain ⟨c, hplay, hreturned, hrows⟩ := computed (o := play sharedRawID)
    (P := fun c =>
      (loggedIn? c 5).map (fun r => (r.1, r.2.userID, r.2.publicKey)) =
        some (impostorLogin, 7#128, [1]) ∧
      c.world.store.rows.map (fun row => (row.userID, row.publicKey, row.signCount)) =
        [(7#128, [1], 5), (8#128, [2], 0)])
    (by decide +kernel)
  obtain ⟨⟨request, cred⟩, hcred, hsame⟩ := Option.map_eq_some_iff.mp hreturned
  simp only [Prod.mk.injEq] at hsame
  obtain ⟨rfl, huser, hkey⟩ := hsame
  obtain ⟨s, hlogged⟩ := loggedIn_of hcred
  refine ⟨c, s, cred, hplay, hlogged, huser, hkey, ?_, hrows⟩
  rintro ⟨userID, verified, ⟨_, _, _, _, _, _, _, _, _, _, hlogin, _⟩, hsame⟩
  -- The login can only have been verified for user `8`.
  cases hlogin with
  | identified hcall =>
    cases hcall
    rw [huser] at hsame
    exact absurd hsame (by decide)
  | discoverable hcall => cases hcall

end

end Sulis.Passkey
