-- SUMMARY: Where stored credentials come from along a run, and what a login has read and written.
import Sulis.Passkey.Discipline

/-!
# Credentials along a run

Every row goes back to the registration that stored it, and keeps what was registered.
A raw ID that was registered once therefore names one credential, whenever and however
it is looked up.
-/

namespace Sulis.Passkey

open Interaction Interaction.System Store

/-! ## What a served call does to the credentials -/

/-- The call changed the credentials. -/
def Writes : Interaction.Event iface → Prop
  | ⟨.saveCredential _, .ok _⟩ | ⟨.updateCredentialAfterLogin .., .ok _⟩ => True
  | ⟨.deleteCredential .., .ok _⟩ | ⟨.deleteCredentialsByUserID _, .ok _⟩ => True
  | ⟨.renameCredential .., .ok _⟩ => True
  | _ => False

/-- Everything a call can do to the credentials. -/
inductive StoreStep (ev : Interaction.Event iface) (s s' : PasskeyStore) : Prop
  | same (hev : ¬ Writes ev) (h : s' = s)
  | save (cred : Credential) (hev : ev = ⟨.saveCredential cred, .ok ()⟩) (h : s' = s.put cred)
  | update (row : Credential) (signCount : Nat) (backupState : Bool) (lastUsedAt : Time)
      (hmem : row ∈ s)
      (hev : ev = ⟨.updateCredentialAfterLogin row.credentialID signCount backupState lastUsedAt,
        .ok ()⟩)
      (h : s' = s.put { row with
        signCount := signCount, backupState := backupState, lastUsedAt := some lastUsedAt })
  | delete (userID id : UUID) (allowLast : Bool)
      (hev : ev = ⟨.deleteCredential userID id allowLast, .ok ()⟩) (h : s' = s.erase id)
  | deleteAll (userID : UUID) (hev : ev = ⟨.deleteCredentialsByUserID userID, .ok ()⟩)
      (h : s' = s.filter (fun cred => cred.userID ≠ userID))
  | rename (row : Credential) (userID : UUID) (name : String) (hmem : row ∈ s)
      (hev : ev = ⟨.renameCredential userID row.id name, .ok ()⟩)
      (h : s' = s.put { row with name := name })

theorem serve_store {w w' : World} {op : Op} {ch : Choice} {r : op.Res}
    (h : w.serve op ch = some (r, w')) : StoreStep ⟨op, r⟩ w.store w'.store := by
  cases op with
  | saveCredential cred =>
    simp only [World.serve, World.withStore, Option.some.injEq, Prod.mk.injEq] at h
    obtain ⟨rfl, rfl⟩ := h
    exact .save cred rfl rfl
  | updateCredentialAfterLogin credentialID signCount backupState lastUsedAt =>
    simp only [World.serve, World.withStore, Option.some.injEq, Prod.mk.injEq] at h
    obtain ⟨rfl, rfl⟩ := h
    rcases w.store.updateCredentialAfterLogin_cases credentialID signCount backupState lastUsedAt
      ch.order with hc | ⟨row, hmem, rfl, hc⟩
    · rw [hc]; exact .same id rfl
    · rw [hc]; exact .update row signCount backupState lastUsedAt hmem rfl rfl
  | deleteCredential userID id allowLast =>
    simp only [World.serve, World.withStore, Option.some.injEq, Prod.mk.injEq] at h
    obtain ⟨rfl, rfl⟩ := h
    rcases w.store.deleteCredential_cases userID id allowLast with ⟨err, hc⟩ | hc
    · rw [hc]; exact .same (fun hw => hw) rfl
    · rw [hc]; exact .delete userID id allowLast rfl rfl
  | deleteCredentialsByUserID userID =>
    simp only [World.serve, World.withStore, Option.some.injEq, Prod.mk.injEq] at h
    obtain ⟨rfl, rfl⟩ := h
    exact .deleteAll userID rfl rfl
  | renameCredential userID id name =>
    simp only [World.serve, World.withStore, Option.some.injEq, Prod.mk.injEq] at h
    obtain ⟨rfl, rfl⟩ := h
    rcases w.store.renameCredential_cases userID id name with hc | ⟨row, hmem, rfl, hc⟩
    · rw [hc]; exact .same (fun hw => hw) rfl
    · rw [hc]; exact .rename row userID name hmem rfl rfl
  | getCredentialsByUserID | getCredentialByID | emit | now | createChallenge =>
    simp only [World.serve, Option.some.injEq, Prod.mk.injEq] at h
    exact .same id (by rw [h.2])
  | saveChallenge | consumeChallenge =>
    simp only [World.serve, World.withChallenges, Option.some.injEq, Prod.mk.injEq] at h
    exact .same id (by rw [← h.2])
  | newV7 =>
    simp only [World.serve, Option.ite_none_left_eq_some, Option.some.injEq, Prod.mk.injEq] at h
    exact .same id (by rw [← h.2.2])

/-- What stays as it was registered. -/
def Credential.registered (c : Credential) : Credential :=
  { c with signCount := 0, name := "", backupState := false, lastUsedAt := none }

theorem Credential.eq_of_registered {a b : Credential} (h : a.registered = b.registered) :
    a.id = b.id ∧ a.userID = b.userID ∧ a.publicKey = b.publicKey := by
  simp only [Credential.registered, Credential.mk.injEq] at h
  exact ⟨h.1, h.2.1, h.2.2.2.1⟩

/-- The credential the call stored, if it stored one. -/
def saved? : Interaction.Event iface → Option Credential
  | ⟨.saveCredential cred, .ok _⟩ => some cred
  | _ => none

/-- A row was there before, with other bookkeeping perhaps, or is the one that was stored. -/
theorem StoreStep.mem {ev : Interaction.Event iface} {s s' : PasskeyStore} (h : StoreStep ev s s')
    {r : Credential} (hr : r ∈ s') :
    (∃ r₀ ∈ s, r₀.registered = r.registered) ∨ saved? ev = some r := by
  cases h with
  | same _ h => exact Or.inl ⟨r, h ▸ hr, rfl⟩
  | save cred hev h =>
    subst h hev
    rcases Table.mem_put.mp hr with rfl | ⟨hr, -⟩
    · exact Or.inr rfl
    · exact Or.inl ⟨r, hr, rfl⟩
  | update row _ _ _ hmem _ h | rename row _ _ hmem _ h =>
    subst h
    rcases Table.mem_put.mp hr with rfl | ⟨hr, -⟩
    · exact Or.inl ⟨row, hmem, rfl⟩
    · exact Or.inl ⟨r, hr, rfl⟩
  | delete _ _ _ _ h => subst h; exact Or.inl ⟨r, (Table.mem_erase.mp hr).1, rfl⟩
  | deleteAll _ _ h => subst h; exact Or.inl ⟨r, (Table.mem_filter.mp hr).1, rfl⟩

section

variable [WebAuthn] {w w' w₀ : World} {trace later past : List Entry}

theorem entry_step {e : Entry} (hserve : World.serve e.pre e.op e.choice = some (e.res, e.post)) :
    StoreStep e.event e.pre.store e.post.store := serve_store hserve

/-! ## Where rows come from -/

/-- The credentials that were registered, most recent first. -/
def saved (trace : List Entry) : List Credential := trace.filterMap (fun e => saved? e.event)

/-- How often a raw ID was registered. -/
def registrations (credentialID : Bytes) (trace : List Entry) : Nat :=
  (saved trace).countP (fun cred => cred.credentialID = credentialID)

/-- The row was registered by a step of the trace. -/
def Registered (trace : List Entry) (r : Credential) : Prop :=
  ∃ cred ∈ saved trace, cred.registered = r.registered

theorem Registered.mono {r : Credential} (h : Registered past r) (hsuf : past <:+ trace) :
    Registered trace r := by
  obtain ⟨cred, hcred, hsame⟩ := h
  exact ⟨cred, (hsuf.filterMap _).subset hcred, hsame⟩

theorem rows_registered (hv : Trace {} trace w) : ∀ r ∈ w.store, Registered trace r := by
  induction hv with
  | nil => exact fun r hr => absurd hr (Table.not_mem_empty r)
  | cons e past _ hserve _ _ ih =>
    intro r hr
    rcases (entry_step hserve).mem hr with ⟨r₀, hr₀, hsame⟩ | hsaved
    · obtain ⟨cred, hcred, hsame₀⟩ := (ih r₀ hr₀).mono (List.suffix_cons e past)
      exact ⟨cred, hcred, hsame₀.trans hsame⟩
    · exact ⟨r, List.mem_filterMap.mpr ⟨e, List.mem_cons_self, hsaved⟩, rfl⟩

theorem registrations_mono (credentialID : Bytes) (hsuf : past <:+ trace) :
    registrations credentialID past ≤ registrations credentialID trace :=
  (hsuf.filterMap _).sublist.countP_le

omit [WebAuthn] in
/-- What a test finds at most once, it finds in one way. -/
theorem eq_of_countP_le_one {α : Type} {p : α → Bool} {l : List α} (h : l.countP p ≤ 1) {a b : α}
    (ha : a ∈ l) (hb : b ∈ l) (hpa : p a) (hpb : p b) : a = b := by
  rw [List.countP_eq_length_filter] at h
  have hfa := List.mem_filter.mpr ⟨ha, hpa⟩
  have hfb := List.mem_filter.mpr ⟨hb, hpb⟩
  match hl : l.filter p with
  | [] => rw [hl] at hfa; cases hfa
  | [x] =>
    rw [hl] at hfa hfb
    rw [List.mem_singleton.mp hfa, List.mem_singleton.mp hfb]
  | _ :: _ :: _ => simp [hl] at h

/-- A raw ID that was registered once belongs to one credential. -/
theorem registered_unique {credentialID : Bytes} (honce : registrations credentialID trace ≤ 1)
    {a b : Credential} (ha : Registered trace a) (hb : Registered trace b)
    (hida : a.credentialID = credentialID) (hidb : b.credentialID = credentialID) :
    a.registered = b.registered := by
  obtain ⟨cred, hcred, hsame⟩ := ha
  obtain ⟨cred', hcred', hsame'⟩ := hb
  have hid : cred.credentialID = credentialID := (congrArg Credential.credentialID hsame).trans hida
  have hid' : cred'.credentialID = credentialID :=
    (congrArg Credential.credentialID hsame').trans hidb
  have heq : cred = cred' :=
    eq_of_countP_le_one honce hcred hcred' (decide_eq_true hid) (decide_eq_true hid')
  rw [← hsame, ← hsame', heq]

/-! ## Fresh IDs -/

/-- The ID a call has drawn. -/
def drawnID? : Interaction.Event iface → Option UUID
  | ⟨.newV7, id⟩ => some id
  | _ => none

/-- IDs are never handed out twice. -/
def idSupply : Supply (system) UUID where
  used := World.ids
  drawn? := drawnID?
  draws := by
    intro w ch op r w' hserve
    cases op with
    | newV7 =>
      simp only [World.serve, Option.ite_none_left_eq_some, not_or, Option.some.injEq,
        Prod.mk.injEq] at hserve
      obtain ⟨⟨-, hnew⟩, rfl, rfl⟩ := hserve
      exact ⟨rfl, fun _ hid => Option.some.inj hid ▸ hnew⟩
    | _ => cases hserve; exact ⟨rfl, nofun⟩

omit [WebAuthn] in
theorem saved?_eq_some {ev : Interaction.Event iface} {cred : Credential} (h : saved? ev = some cred) :
    ev = ⟨.saveCredential cred, .ok ()⟩ := by
  obtain ⟨op, r⟩ := ev
  cases op with
  | saveCredential cred' =>
    cases r with
    | error => cases h
    | ok => cases h; rfl
  | _ => cases h

/-- A credential is stored under an ID that no row has. -/
theorem save_fresh {e : Entry} (hv : Trace {} (e :: past) w) {cred : Credential}
    (hev : e.event = ⟨.saveCredential cred, .ok ()⟩) : ∀ row ∈ e.pre.store, row.id ≠ cred.id := by
  intro row hrow hid
  have hv' : Trace {} ([] ++ e :: past) w := hv
  obtain ⟨cred', hcred', hsame⟩ := rows_registered (Valid.entry hv').1 row hrow
  obtain ⟨e', he', hsaved⟩ := List.mem_filterMap.mp hcred'
  have hev' := saved?_eq_some hsaved
  obtain ⟨l, p, hpast⟩ := List.append_of_mem he'
  have hv'' : Trace {} ((e :: l) ++ e' :: p) w := by rw [hpast] at hv; exact hv
  obtain ⟨⟨h₀, hh⟩, -⟩ := Valid.allowed hv' hev
  obtain ⟨⟨h₀', hh'⟩, -⟩ := Valid.allowed hv'' hev'
  have notNow {t : Time} {cred : Credential} {r : Except Err Unit} :
      ∀ ev ∈ ([⟨.now, t⟩] : Hist), ev ≠ ⟨.saveCredential cred, r⟩ := by
    rintro ev hev rfl
    cases List.mem_singleton.mp hev
  -- Its ID was drawn once, so both steps would be the same one.
  have hplace := Valid.handed_place idSupply hv (show _ = [] ++ e :: past from rfl)
    (show e :: past = (e :: l) ++ e' :: p by rw [hpast]; rfl)
    (show history e.tid past = [⟨.now, cred.createdAt⟩] ++ _ from hh)
    (show history e'.tid p = [⟨.now, cred'.createdAt⟩] ++ _ from hh') rfl
    (by rw [← hid, ← (Credential.eq_of_registered hsame).1]; rfl) (hev' ▸ notNow) (hev ▸ notNow)
  cases hplace.1

/-! ## What was read -/

omit [WebAuthn] in
theorem serve_getCredentialByID {credentialID : Bytes} {cred : Credential} {ch : Choice}
    (hserve : w.serve (.getCredentialByID credentialID) ch = some (.ok cred, w')) :
    cred ∈ w.store ∧ cred.credentialID = credentialID := by
  simp only [World.serve, Option.some.injEq, Prod.mk.injEq] at hserve
  exact PasskeyStore.getCredentialByID_eq_ok hserve.1

omit [WebAuthn] in
theorem serve_getCredentialsByUserID {userID : UUID} {creds : List Credential} {ch : Choice}
    (hserve : w.serve (.getCredentialsByUserID userID) ch = some (.ok creds, w')) :
    ∀ cred ∈ creds, cred ∈ w.store ∧ cred.userID = userID := by
  simp only [World.serve, Option.some.injEq, Prod.mk.injEq] at hserve
  exact PasskeyStore.getCredentialsByUserID_eq_ok hserve.1

/-- A row that was in the store before a step of the trace was registered in the trace. -/
theorem registered_of_mem_pre (hv : Trace {} trace w) {e : Entry} (he : e ∈ trace) {r : Credential}
    (hr : r ∈ e.pre.store) : Registered trace r := by
  obtain ⟨later, past, rfl⟩ := List.append_of_mem he
  exact (rows_registered (Valid.entry hv).1 r hr).mono
    ((List.suffix_cons e past).trans (List.suffix_append later _))

theorem did_getCredentialByID (hv : Trace {} trace w) {i : Nat} {credentialID : Bytes}
    {cred : Credential} (hd : Did (history i trace) (.getCredentialByID credentialID) (.ok cred)) :
    Registered trace cred ∧ cred.credentialID = credentialID := by
  obtain ⟨e, he, -, hev⟩ := mem_history.mp hd
  obtain ⟨hmem, hid⟩ := serve_getCredentialByID (Valid.served hv he hev)
  exact ⟨registered_of_mem_pre hv he hmem, hid⟩

theorem did_getCredentialsByUserID (hv : Trace {} trace w) {i : Nat} {userID : UUID}
    {creds : List Credential} (hd : Did (history i trace) (.getCredentialsByUserID userID) (.ok creds)) :
    ∀ cred ∈ creds, Registered trace cred ∧ cred.userID = userID := by
  obtain ⟨e, he, -, hev⟩ := mem_history.mp hd
  intro cred hcred
  obtain ⟨hmem, huser⟩ := serve_getCredentialsByUserID (Valid.served hv he hev) cred hcred
  exact ⟨registered_of_mem_pre hv he hmem, huser⟩

/-- A login reads credentials of the user it is for. -/
theorem Login.registered (hv : Trace {} trace w) {i : Nat} {call : Call} {userID : UUID}
    {creds : List Credential} {assertion : ParsedAssertion} {returned : WaCredential}
    (hl : Login call (history i trace) userID creds assertion returned) :
    ∀ cred ∈ creds, Registered trace cred ∧ cred.userID = userID := by
  cases hl with
  | identified _ hread => exact did_getCredentialsByUserID hv hread
  | discoverable _ hread =>
    intro cred hcred
    obtain rfl := List.mem_singleton.mp hcred
    exact ⟨(did_getCredentialByID hv hread).1, rfl⟩

/-- What go-webauthn let through, it verified against a credential that was read. -/
theorem Login.verified {related : WaCredential → ParsedAssertion → WaCredential → Prop}
    (hlib : WebAuthn.Answers related) {call : Call} {h : Hist} {userID : UUID}
    {creds : List Credential} {assertion : ParsedAssertion} {returned : WaCredential}
    (hl : Login call h userID creds assertion returned) :
    ∃ cred ∈ creds, cred.credentialID = assertion.rawID ∧
      related cred.toWebAuthn assertion returned := by
  have unmap {user : User} {given : WaCredential}
      (hgiven : given ∈ (webauthnUser user creds).webAuthnCredentials)
      (h : given.id = assertion.rawID ∧ related given assertion returned) :
      ∃ cred ∈ creds, cred.credentialID = assertion.rawID ∧
        related cred.toWebAuthn assertion returned := by
    obtain ⟨cred, hcred, rfl⟩ := List.mem_map.mp hgiven
    exact ⟨cred, hcred, h⟩
  cases hl with
  | identified _ _ _ hvalid =>
    obtain ⟨given, hgiven, h⟩ := hlib _ _ _ _ _ _ (Or.inl hvalid)
    exact unmap hgiven h
  | discoverable _ _ _ _ hvalid =>
    obtain ⟨given, hgiven, h⟩ := hlib _ _ _ _ _ _ (Or.inr hvalid)
    exact unmap hgiven h

/-! ## Successful logins -/

/-- The assertion a login is called with. -/
def Request.assertion? : Request → Option ParsedAssertion
  | .finishLoginResponse _ _ body | .finishDiscoverableLoginResponse _ body =>
    (WebAuthn.parseCredentialRequestResponseBytes body).toOption
  | _ => none

/-- Thread `i` is a login and has returned the credential. -/
inductive LoggedIn (c : Run) (i : Nat) : Call → Credential → Prop
  | identified {s : Service} {user : User} {ceremonyID : UUID} {body : Bytes} {cred : Credential}
      (hret : c.Returned i ⟨s, .finishLoginResponse user ceremonyID body⟩ (.ok cred)) :
      LoggedIn c i ⟨s, .finishLoginResponse user ceremonyID body⟩ cred
  | discoverable {s : Service} {ceremonyID : UUID} {body : Bytes} {cred : Credential}
      (hret : c.Returned i ⟨s, .finishDiscoverableLoginResponse ceremonyID body⟩ (.ok cred)) :
      LoggedIn c i ⟨s, .finishDiscoverableLoginResponse ceremonyID body⟩ cred

section

variable {c : Run} {i : Nat} {call : Call} {cred : Credential}

theorem LoggedIn.returned (h : LoggedIn c i call cred) : ∃ out, c.Returned i call out := by
  cases h with
  | identified hret | discoverable hret => exact ⟨_, hret⟩

theorem Login.presented {h : Hist} {userID : UUID} {creds : List Credential}
    {assertion : ParsedAssertion} {returned : WaCredential}
    (hl : Login call h userID creds assertion returned) :
    call.request.assertion? = some assertion := by
  cases hl with
  | identified hcall _ hparse => rw [hcall, Request.assertion?, hparse]; rfl
  | discoverable hcall _ _ hparse => rw [hcall, Request.assertion?, hparse]; rfl

theorem LoggedIn.wroteBack {as : List (system).Action} (hrun : Run.empty.run as = some c)
    (h : LoggedIn c i call cred) : WroteBack (history i c.trace) cred := by
  cases h with
  | identified hret | discoverable hret => exact (run_sound hrun).returned hret cred rfl

/-- The calls of a thread are made for the operation it runs. -/
theorem call_of_returned {as : List (system).Action} (hrun : Run.empty.run as = some c)
    {out : Except Err call.request.Ret} (hret : c.Returned i call out) {e : Entry}
    (he : e ∈ c.trace) (htid : e.tid = i) : e.call = call := by
  obtain ⟨t, ht, hcall⟩ := (run_sound hrun).owner e he
  rw [htid, hret] at ht
  obtain rfl := Option.some.inj ht
  exact hcall.symm

end

end

end Sulis.Passkey
