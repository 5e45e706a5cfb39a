-- SUMMARY: What one served call can do to each store, and what its answer says about the stores.
import Sulis.Model.Effects

/-!
# What a served call does

`World.serve` read backwards. One lemma per store lists everything a call can do
to it, whatever faults it meets; the others say what a successful answer means.
-/

namespace Sulis.World

variable {w w' : World} {ch : Choice}

theorem store_cases {α : Type} {r : Except Err α × World} {x : Except Err α}
    (h : w.store ch r = some (x, w')) :
    (ch.fault = none ∧ r = (x, w')) ∨
      ∃ f, ch.fault = some f ∧ x = .error f.err ∧
        (f.applied = false ∧ w' = w ∨ f.applied = true ∧ w' = r.2) := by
  unfold store at h
  split at h
  · rename_i hf
    exact Or.inl ⟨hf, by simpa using h⟩
  · rename_i f hf
    simp only [Option.some.injEq, Prod.mk.injEq] at h
    refine Or.inr ⟨f, hf, h.1.symm, ?_⟩
    cases hb : f.applied with
    | false => exact Or.inl ⟨rfl, by simpa [hb] using h.2.symm⟩
    | true => exact Or.inr ⟨rfl, by simpa [hb] using h.2.symm⟩

/-- A call that succeeds met no fault. -/
theorem store_ok {α : Type} {r : Except Err α × World} {a : α}
    (h : w.store ch r = some (.ok a, w')) : ch.fault = none ∧ r = (.ok a, w') := by
  rcases store_cases h with h | ⟨f, _, hx, _⟩
  · exact h
  · cases hx

theorem store_faultless {α : Type} {r : Except Err α × World} {x : Except Err α}
    (hf : ch.fault = none) (h : w.store ch r = some (x, w')) : r = (x, w') := by
  rcases store_cases h with ⟨-, heq⟩ | ⟨f, hsome, -⟩
  · exact heq
  · rw [hf] at hsome
    cases hsome

/-- Whatever happened, the world is the one before or the one without a fault. -/
theorem store_world {α : Type} {r : Except Err α × World} {x : Except Err α}
    (h : w.store ch r = some (x, w')) : w' = w ∨ w' = r.2 := by
  rcases store_cases h with ⟨_, rfl⟩ | ⟨f, _, _, h⟩
  · exact Or.inr rfl
  · exact h.imp And.right And.right

/-! ## Calls that do not go to a store -/

/-- The call is answered by the environment and changes nothing. -/
def Answers : Op → Prop
  | .hasSecondFactor _ | .allow _ | .check _ | .emit _ | .now | .status _ => True
  | _ => False

/-- The call does not go to a store. -/
def OffStore : Op → Prop
  | .newV7 | .randRead _ => True
  | op => Answers op

theorem serve_answer {op : Op} {r : op.Res} (h : w.serve op ch = some (r, w'))
    (hop : Answers op) : w' = w := by
  cases op with
  | hasSecondFactor | allow | check | emit | now | status =>
    simp only [serve, Option.some.injEq, Prod.mk.injEq] at h
    exact h.2.symm
  | _ => exact hop.elim

theorem serve_offStore {op : Op} {r : op.Res} (h : w.serve op ch = some (r, w'))
    (hop : OffStore op) :
    w'.users = w.users ∧ w'.sessions = w.sessions ∧ w'.tokens = w.tokens := by
  cases op with
  | newV7 | randRead =>
    simp only [serve, Option.ite_none_left_eq_some, Option.some.injEq, Prod.mk.injEq] at h
    rw [← h.2.2]
    exact ⟨rfl, rfl, rfl⟩
  | hasSecondFactor | allow | check | emit | now | status =>
    rw [serve_answer h trivial]
    exact ⟨rfl, rfl, rfl⟩
  | _ => exact hop.elim

/-! ## Users -/

/-- Everything a call can do to the users. -/
inductive UserStep (op : Op) (s s' : UserStore) : Prop
  | same (h : s' = s)
  | create (u : User) (hop : op = .createUser u) (hid : ∀ u' ∈ s, u'.id ≠ u.id)
      (hemail : ∀ u' ∈ s, u'.email ≠ u.email) (h : s' = s.put u)
  | update (u existing : User) (hop : op = .updateUser u) (hmem : existing ∈ s)
      (hid : existing.id = u.id) (hversion : existing.version = u.version)
      (hemail : ∀ u' ∈ s, u'.id ≠ u.id → u'.email ≠ u.email)
      (h : s' = s.put { u with version := u.version + 1 })

theorem serve_users {op : Op} {r : op.Res} (h : w.serve op ch = some (r, w')) :
    UserStep op w.users w'.users := by
  cases op with
  | createUser u =>
    rcases store_world h with rfl | rfl
    · exact .same rfl
    · rcases w.users.createUser_cases u with heq | ⟨hid, hemail, heq⟩
      · exact .same (by simp only [withUsers, heq])
      · exact .create u rfl hid hemail (by simp only [withUsers, heq])
  | updateUser u =>
    rcases store_world h with rfl | rfl
    · exact .same rfl
    · rcases w.users.updateUser_cases u with ⟨err, heq⟩ | ⟨e, hmem, hid, hv, hemail, heq⟩
      · exact .same (by simp only [withUsers, heq])
      · exact .update u e rfl hmem hid hv hemail (by simp only [withUsers, heq])
  | newV7 | randRead | hasSecondFactor | allow | check | emit | now | status =>
    exact .same (serve_offStore h trivial).1
  | _ => rcases store_world h with rfl | rfl <;> exact .same rfl

theorem serve_getUserByID {id : UUID} {u : User}
    (h : w.serve (.getUserByID id) ch = some (.ok u, w')) : u ∈ w.users ∧ u.id = id ∧ w' = w := by
  obtain ⟨_, heq⟩ := store_ok h
  simp only [Prod.mk.injEq, UserStore.getUserByID_eq_ok] at heq
  exact ⟨heq.1.1, heq.1.2, heq.2.symm⟩

theorem serve_getUserByEmail {email : String} {u : User}
    (h : w.serve (.getUserByEmail email) ch = some (.ok u, w')) :
    u ∈ w.users ∧ u.email = email ∧ w' = w := by
  obtain ⟨_, heq⟩ := store_ok h
  simp only [Prod.mk.injEq] at heq
  obtain ⟨hmem, hemail⟩ := UserStore.getUserByEmail_eq_ok heq.1
  exact ⟨hmem, hemail, heq.2.symm⟩

/-- An answer "no such user" can be relied on if no fault gives it. -/
theorem serve_getUserByEmail_notFound {email : String} {err : Err}
    (hf : ∀ f, ch.fault = some f → f.err.is .userNotFound = false)
    (h : w.serve (.getUserByEmail email) ch = some (.error err, w'))
    (herr : err.is .userNotFound = true) : ∀ u ∈ w.users, u.email ≠ email := by
  rcases store_cases h with ⟨-, heq⟩ | ⟨f, hsome, hx, -⟩
  · simp only [Prod.mk.injEq] at heq
    exact UserStore.getUserByEmail_eq_error heq.1
  · cases hx
    rw [hf f hsome] at herr
    cases herr

theorem serve_createUser {u : User} (h : w.serve (.createUser u) ch = some (.ok (), w')) :
    (∀ u' ∈ w.users, u'.id ≠ u.id) ∧ w'.users = w.users.put u := by
  obtain ⟨_, heq⟩ := store_ok h
  rcases w.users.createUser_cases u with hc | ⟨hid, _, hc⟩
  · simp [withUsers, hc] at heq
  · simp only [withUsers, hc, Prod.mk.injEq, true_and] at heq
    exact ⟨hid, by rw [← heq]⟩

theorem serve_updateUser {u : User} (h : w.serve (.updateUser u) ch = some (.ok (), w')) :
    ∃ existing ∈ w.users, existing.id = u.id ∧ existing.version = u.version ∧
      w'.users = w.users.put { u with version := u.version + 1 } := by
  obtain ⟨_, heq⟩ := store_ok h
  rcases w.users.updateUser_cases u with ⟨err, hc⟩ | ⟨e, hmem, hid, hv, _, hc⟩
  · simp [withUsers, hc] at heq
  · simp only [withUsers, hc, Prod.mk.injEq, true_and] at heq
    exact ⟨e, hmem, hid, hv, by rw [← heq]⟩

/-- A creation that reports an error did not happen, unless a fault hid that it
    did. -/
theorem serve_createUser_error {u : User} {err : Err}
    (hf : ∀ f, ch.fault = some f → f.applied = false)
    (h : w.serve (.createUser u) ch = some (.error err, w')) : w'.users = w.users := by
  rcases store_cases h with ⟨_, heq⟩ | ⟨f, hsome, _, ⟨_, rfl⟩ | ⟨happ, _⟩⟩
  · rcases w.users.createUser_cases u with hc | ⟨_, _, hc⟩
    · simp only [withUsers, hc, Prod.mk.injEq] at heq
      rw [← heq.2]
    · simp [withUsers, hc] at heq
  · rfl
  · rw [hf f hsome] at happ; cases happ

/-- The same for an update. -/
theorem serve_updateUser_error {u : User} {err : Err}
    (hf : ∀ f, ch.fault = some f → f.applied = false)
    (h : w.serve (.updateUser u) ch = some (.error err, w')) : w'.users = w.users := by
  rcases store_cases h with ⟨_, heq⟩ | ⟨f, hsome, _, ⟨_, rfl⟩ | ⟨happ, _⟩⟩
  · rcases w.users.updateUser_cases u with ⟨err, hc⟩ | ⟨e, _, _, _, _, hc⟩
    · simp only [withUsers, hc, Prod.mk.injEq] at heq
      rw [← heq.2]
    · simp [withUsers, hc] at heq
  · rfl
  · rw [hf f hsome] at happ; cases happ

/-! ## Sessions -/

/-- The same session, up to what a touch or a step-up changes. -/
structure SameSession (s s' : Session) : Prop where
  id : s'.id = s.id
  userID : s'.userID = s.userID
  tokenHash : s'.tokenHash = s.tokenHash

theorem SameSession.refl {s : Session} : SameSession s s := ⟨rfl, rfl, rfl⟩

theorem SameSession.trans {s s' s'' : Session} (h : SameSession s s') (h' : SameSession s' s'') :
    SameSession s s'' :=
  ⟨h'.id.trans h.id, h'.userID.trans h.userID, h'.tokenHash.trans h.tokenHash⟩

/-- What a call leaves of a session row: everything but the two things a touch
    changes, and the time of the last proof unless the call writes one. -/
structure KeptSession (op : Op) (s s' : Session) : Prop extends SameSession s s' where
  method : s'.method = s.method
  createdAt : s'.createdAt = s.createdAt
  proof : s'.authenticatedAt = s.authenticatedAt ∨
    op = .updateAuthenticatedAt s'.id s'.authenticatedAt

theorem KeptSession.refl {op : Op} {s : Session} : KeptSession op s s :=
  ⟨SameSession.refl, rfl, rfl, Or.inl rfl⟩

private theorem mem_put_kept {op : Op} {t : SessionStore} {s s₀ s' : Session} (h : s' ∈ t.put s)
    (hs₀ : s₀ ∈ t) (hkept : KeptSession op s₀ s) : ∃ s₁ ∈ t, KeptSession op s₁ s' := by
  rcases Store.Table.mem_put.mp h with rfl | ⟨hmem, _⟩
  · exact ⟨s₀, hs₀, hkept⟩
  · exact ⟨s', hmem, .refl⟩

/-- A session row that is there after a call was created by it or was there before. -/
theorem serve_session_rows {op : Op} {r : op.Res} (h : w.serve op ch = some (r, w')) :
    ∀ s ∈ w'.sessions, op = .createSession s ∨ ∃ s₀ ∈ w.sessions, KeptSession op s₀ s := by
  have same {w' : World} (heq : w'.sessions = w.sessions) :
      ∀ s ∈ w'.sessions, op = .createSession s ∨ ∃ s₀ ∈ w.sessions, KeptSession op s₀ s :=
    fun s hs => Or.inr ⟨s, heq ▸ hs, .refl⟩
  cases op with
  | createSession s =>
    rcases store_world h with rfl | rfl
    · exact same rfl
    · intro s' hs'
      rcases Store.Table.mem_put.mp hs' with rfl | ⟨hmem, _⟩
      · exact Or.inl rfl
      · exact Or.inr ⟨s', hmem, .refl⟩
  | deleteSession userID id =>
    rcases store_world h with rfl | rfl
    · exact same rfl
    · rcases w.sessions.deleteSession_cases userID id with heq | ⟨_, _, _, _, heq⟩
      · exact same (by simp only [withSessions, heq])
      · intro s hs
        simp only [withSessions, heq, Store.Table.mem_erase] at hs
        exact Or.inr ⟨s, hs.1, .refl⟩
  | deleteUserSessions userID =>
    rcases store_world h with rfl | rfl
    · exact same rfl
    · intro s hs
      exact Or.inr ⟨s, (Store.Table.mem_filter.mp hs).1, .refl⟩
  | cleanExpired =>
    rcases store_world h with rfl | rfl
    · exact same rfl
    · intro s hs
      exact Or.inr ⟨s, (Store.Table.mem_filter.mp hs).1, .refl⟩
  | updateAuthenticatedAt id at_ =>
    rcases store_world h with rfl | rfl
    · exact same rfl
    · rcases w.sessions.updateAuthenticatedAt_cases id at_ with heq | ⟨s₀, hmem, rfl, heq⟩
      · exact same (by simp only [withSessions, heq])
      · intro s hs
        simp only [withSessions, heq] at hs
        exact Or.inr (mem_put_kept hs hmem ⟨⟨rfl, rfl, rfl⟩, rfl, rfl, Or.inr rfl⟩)
  | touchSession id lastSeen idleExpires =>
    rcases store_world h with rfl | rfl
    · exact same rfl
    · rcases w.sessions.touchSession_cases id lastSeen idleExpires with heq | ⟨s₀, hmem, _, heq⟩
      · exact same (by simp only [withSessions, heq])
      · intro s hs
        simp only [withSessions, heq] at hs
        exact Or.inr (mem_put_kept hs hmem ⟨⟨rfl, rfl, rfl⟩, rfl, rfl, Or.inl rfl⟩)
  | newV7 | randRead | hasSecondFactor | allow | check | emit | now | status =>
    exact same (serve_offStore h trivial).2.1
  | _ => rcases store_world h with rfl | rfl <;> exact same rfl

theorem serve_sessions {op : Op} {r : op.Res} (h : w.serve op ch = some (r, w')) :
    ∀ s ∈ w'.sessions, op = .createSession s ∨ ∃ s₀ ∈ w.sessions, SameSession s₀ s := by
  intro s hs
  rcases serve_session_rows h s hs with hop | ⟨s₀, hs₀, hkept⟩
  · exact Or.inl hop
  · exact Or.inr ⟨s₀, hs₀, hkept.toSameSession⟩

theorem serve_getSessionByTokenHash {hash : String} {s : Session}
    (h : w.serve (.getSessionByTokenHash hash) ch = some (.ok s, w')) :
    s ∈ w.sessions ∧ s.tokenHash = hash := by
  obtain ⟨_, heq⟩ := store_ok h
  simp only [Prod.mk.injEq] at heq
  exact SessionStore.getSessionByTokenHash_eq_ok heq.1

theorem serve_deleteSession {userID id : UUID}
    (h : w.serve (.deleteSession userID id) ch = some (.ok (), w')) :
    (∃ s ∈ w.sessions, s.id = id ∧ s.userID = userID) ∧ ∀ s ∈ w'.sessions, s.id ≠ id := by
  obtain ⟨_, heq⟩ := store_ok h
  rcases w.sessions.deleteSession_cases userID id with hc | ⟨s, hmem, hid, howner, hc⟩
  · simp [withSessions, hc] at heq
  · simp only [withSessions, hc, Prod.mk.injEq, true_and] at heq
    refine ⟨⟨s, hmem, hid, howner⟩, fun s' hs' => ?_⟩
    rw [← heq] at hs'
    exact (Store.Table.mem_erase.mp hs').2

theorem serve_deleteUserSessions_ok {userID : UUID} {r : Except Err Unit} (hf : ch.fault = none)
    (h : w.serve (.deleteUserSessions userID) ch = some (r, w')) : r = .ok () := by
  exact (congrArg Prod.fst (store_faultless hf h)).symm

theorem serve_deleteUserSessions {userID : UUID}
    (h : w.serve (.deleteUserSessions userID) ch = some (.ok (), w')) :
    ∀ s ∈ w'.sessions, s.userID ≠ userID := by
  obtain ⟨_, heq⟩ := store_ok h
  intro s hs
  simp only [withSessions, SessionStore.deleteUserSessions, Prod.mk.injEq, true_and] at heq
  rw [← heq] at hs
  simpa using (Store.Table.mem_filter.mp hs).2

theorem serve_updateAuthenticatedAt {id : UUID} {at_ : Time}
    (h : w.serve (.updateAuthenticatedAt id at_) ch = some (.ok (), w')) :
    ∃ s ∈ w.sessions, s.id = id ∧ { s with authenticatedAt := at_ } ∈ w'.sessions := by
  obtain ⟨_, heq⟩ := store_ok h
  rcases w.sessions.updateAuthenticatedAt_cases id at_ with hc | ⟨s, hmem, hid, hc⟩
  · simp [withSessions, hc] at heq
  · simp only [withSessions, hc, Prod.mk.injEq, true_and] at heq
    refine ⟨s, hmem, hid, ?_⟩
    rw [← heq]
    exact Store.Table.mem_put.mpr (Or.inl rfl)

/-! ## Tokens -/

/-- The same token, up to whether it was used. -/
def SameToken (t₀ t : Token) : Prop := t = { t₀ with used := t.used }

theorem SameToken.trans {t₀ t₁ t₂ : Token} (h₁ : SameToken t₀ t₁) (h₂ : SameToken t₁ t₂) :
    SameToken t₀ t₂ := by
  rw [SameToken] at *
  rw [h₂, h₁]

/-- A token that is there after a call was created by it or was there before; once
    used it stays so. -/
theorem serve_tokens {op : Op} {r : op.Res} (h : w.serve op ch = some (r, w')) :
    ∀ t ∈ w'.tokens, op = .createToken t ∨
      ∃ t₀ ∈ w.tokens, SameToken t₀ t ∧ (t₀.used = true → t.used = true) := by
  have kept {t : Token} (ht : t ∈ w.tokens) : op = .createToken t ∨
      ∃ t₀ ∈ w.tokens, SameToken t₀ t ∧ (t₀.used = true → t.used = true) :=
    Or.inr ⟨t, ht, rfl, id⟩
  cases op with
  | createToken t =>
    rcases store_world h with rfl | rfl
    · exact fun t ht => kept ht
    · intro t' ht'
      rcases Store.Table.mem_put.mp ht' with rfl | ⟨hmem, _⟩
      · exact Or.inl rfl
      · exact kept hmem
  | consumeToken hash purpose =>
    rcases store_world h with rfl | rfl
    · exact fun t ht => kept ht
    · rcases w.tokens.consumeToken_cases hash purpose ch.order with ⟨_, heq⟩ | ⟨t, hmem, _, _, _, heq⟩
      · simp only [withTokens, heq]
        exact fun t ht => kept ht
      · intro t' ht'
        simp only [withTokens, heq] at ht'
        rcases Store.Table.mem_put.mp ht' with rfl | ⟨hmem', _⟩
        · exact Or.inr ⟨t, hmem, rfl, fun _ => rfl⟩
        · exact kept hmem'
  | deleteExpiredTokens =>
    rcases store_world h with rfl | rfl
    · exact fun t ht => kept ht
    · exact fun t ht => kept (Store.Table.mem_filter.mp ht).1
  | deleteUserTokens userID purpose =>
    rcases store_world h with rfl | rfl
    · exact fun t ht => kept ht
    · simp only [withTokens, TokenStore.deleteUserTokens]
      split
      · exact fun t ht => kept ht
      · exact fun t ht => kept (Store.Table.mem_filter.mp ht).1
  | newV7 | randRead | hasSecondFactor | allow | check | emit | now | status =>
    rw [(serve_offStore h trivial).2.2]
    exact fun t ht => kept ht
  | _ => rcases store_world h with rfl | rfl <;> exact fun t ht => kept ht

theorem serve_consumeToken {hash : String} {purpose : TokenPurpose} {tok : Token}
    (h : w.serve (.consumeToken hash purpose) ch = some (.ok tok, w')) :
    ∃ t ∈ w.tokens, t.tokenHash = hash ∧ t.purpose = purpose ∧ t.used = false ∧
      tok = { t with used := true } ∧ tok ∈ w'.tokens := by
  obtain ⟨_, heq⟩ := store_ok h
  rcases w.tokens.consumeToken_cases hash purpose ch.order with ⟨_, hc⟩ | ⟨t, hmem, hh, hp, hu, hc⟩
  · simp [withTokens, hc] at heq
  · simp only [withTokens, hc, Prod.mk.injEq, Except.ok.injEq] at heq
    refine ⟨t, hmem, hh, hp, hu, heq.1.symm, ?_⟩
    rw [← heq.2, ← heq.1]
    exact Store.Table.mem_put.mpr (Or.inl rfl)

theorem serve_deleteUserTokens {userID : UUID} {purpose : TokenPurpose} (hid : userID ≠ .nil)
    (h : w.serve (.deleteUserTokens userID purpose) ch = some (.ok (), w')) :
    ∀ t ∈ w'.tokens, ¬ (t.userID = userID ∧ t.purpose = purpose) := by
  obtain ⟨_, heq⟩ := store_ok h
  intro t ht
  simp only [withTokens, TokenStore.deleteUserTokens, if_neg hid, Prod.mk.injEq, true_and] at heq
  rw [← heq] at ht
  exact of_decide_eq_true (Store.Table.mem_filter.mp ht).2

/-! ## Randomness -/

theorem serve_newV7 {id : UUID} (h : w.serve .newV7 ch = some (id, w')) :
    id ≠ .nil ∧ id ∉ w.ids ∧ w' = { w with ids := id :: w.ids } := by
  simp only [serve, Option.ite_none_left_eq_some, not_or, Option.some.injEq, Prod.mk.injEq] at h
  obtain ⟨⟨hnil, hmem⟩, rfl, rfl⟩ := h
  exact ⟨hnil, hmem, rfl⟩

theorem serve_randRead {n : Nat} {b : Bytes} (h : w.serve (.randRead n) ch = some (b, w')) :
    b.length = n ∧ b ∉ w.draws ∧ w' = { w with draws := b :: w.draws } := by
  simp only [serve, Option.ite_none_left_eq_some, not_or, Option.some.injEq, Prod.mk.injEq] at h
  obtain ⟨⟨hlen, hmem⟩, rfl, rfl⟩ := h
  exact ⟨not_not.mp hlen, hmem, rfl⟩

/-- The ID a call has drawn. -/
def drawnID? : Interaction.Event iface → Option UUID
  | ⟨.newV7, id⟩ => some id
  | _ => none

theorem serve_ids {op : Op} {r : op.Res} (h : w.serve op ch = some (r, w')) :
    w'.ids = (drawnID? ⟨op, r⟩).toList ++ w.ids ∧ ∀ id, drawnID? ⟨op, r⟩ = some id → id ∉ w.ids := by
  cases op with
  | newV7 =>
    obtain ⟨-, hnew, rfl⟩ := serve_newV7 h
    exact ⟨rfl, fun _ hid => Option.some.inj hid ▸ hnew⟩
  | randRead n =>
    obtain ⟨-, -, rfl⟩ := serve_randRead h
    exact ⟨rfl, nofun⟩
  | hasSecondFactor | allow | check | emit | now | status =>
    rw [serve_answer h trivial]
    exact ⟨rfl, nofun⟩
  | _ => rcases store_world h with rfl | rfl <;> exact ⟨rfl, nofun⟩

/-- The random string a call has drawn. -/
def drawnBytes? : Interaction.Event iface → Option Bytes
  | ⟨.randRead _, b⟩ => some b
  | _ => none

theorem serve_draws {op : Op} {r : op.Res} (h : w.serve op ch = some (r, w')) :
    w'.draws = (drawnBytes? ⟨op, r⟩).toList ++ w.draws ∧
      ∀ b, drawnBytes? ⟨op, r⟩ = some b → b ∉ w.draws := by
  cases op with
  | newV7 =>
    obtain ⟨-, -, rfl⟩ := serve_newV7 h
    exact ⟨rfl, nofun⟩
  | randRead n =>
    obtain ⟨-, hnew, rfl⟩ := serve_randRead h
    exact ⟨rfl, fun _ hb => Option.some.inj hb ▸ hnew⟩
  | hasSecondFactor | allow | check | emit | now | status =>
    rw [serve_answer h trivial]
    exact ⟨rfl, nofun⟩
  | _ => rcases store_world h with rfl | rfl <;> exact ⟨rfl, nofun⟩

end Sulis.World
