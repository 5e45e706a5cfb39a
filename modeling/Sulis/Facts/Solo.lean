-- SUMMARY: What an operation that runs alone over stores that work does to the users.
import Sulis.Discipline.Footprint
import Sulis.Interaction.Alone
import Sulis.Model.Serve

/-!
# Operations alone

With nobody else writing and no store failing, an update of a user is computed from the
stored row and lands on it, or leaves every user as it was.
-/

namespace Sulis

open Interaction Interaction.Prog Interaction.System World

variable [Platform] {cfg : Config} {C : Choice → Prop} {w w' : World}

/-- What a program can end in alone, with choices in `C` and no store failing. -/
abbrev Solo (cfg : Config) (C : Choice → Prop) {α : Type} (p : M α) (w w' : World)
    (r : Except Err α) : Prop :=
  (system cfg).Lands (fun ch => ch.fault = none ∧ C ch) p w w' r

omit [Platform] in
theorem serve_notUser {op : Op} {ch : Choice} {r : op.Res} (hop : op.NotUser)
    (h : w.serve op ch = some (r, w')) : w'.users = w.users := by
  cases serve_users h with
  | same heq => exact heq
  | create u hcreate =>
    rw [hcreate] at hop
    exact hop.elim
  | update u existing hupdate =>
    rw [hupdate] at hop
    exact hop.elim

theorem solo_users {α : Type} {p : M α} {r : Except Err α}
    (h : Solo cfg C p w w' r) (hp : Calls Op.NotUser p) : w'.users = w.users :=
  Lands.keeps (f := World.users) (fun _ _ _ _ _ hop hs => serve_notUser hop hs) hp h

/-! ## Single calls -/

theorem solo_getUserByID {id : UUID} {r : Except Err User}
    (h : Solo cfg C (Users.getUserByID id) w w' r) : w' = w ∧ r = w.users.getUserByID id := by
  obtain ⟨ch, x, w₁, hch, hs, hret⟩ := lands_call.mp h
  obtain ⟨rfl, rfl⟩ := lands_ret.mp hret
  obtain ⟨hr, rfl⟩ := Prod.mk.inj (store_faultless hch.1 hs)
  exact ⟨rfl, hr.symm⟩

theorem solo_getUserByEmail {email : String} {r : Except Err User}
    (h : Solo cfg C (Users.getUserByEmail email) w w' r) :
    w' = w ∧ ∃ order, r = w.users.getUserByEmail email order := by
  obtain ⟨ch, x, w₁, hch, hs, hret⟩ := lands_call.mp h
  obtain ⟨rfl, rfl⟩ := lands_ret.mp hret
  obtain ⟨hr, rfl⟩ := Prod.mk.inj (store_faultless hch.1 hs)
  exact ⟨rfl, ch.order, hr.symm⟩

theorem solo_createUser {u : User} {r : Except Err Unit}
    (h : Solo cfg C (Users.createUser u) w w' r) : w.users.createUser u = (r, w'.users) := by
  obtain ⟨ch, x, w₁, hch, hs, hret⟩ := lands_call.mp h
  obtain ⟨rfl, rfl⟩ := lands_ret.mp hret
  obtain ⟨hr, rfl⟩ := Prod.mk.inj (store_faultless hch.1 hs)
  exact Prod.ext hr rfl

theorem solo_updateUser {u : User} {r : Except Err Unit}
    (h : Solo cfg C (Users.updateUser u) w w' r) : w.users.updateUser u = (r, w'.users) := by
  obtain ⟨ch, x, w₁, hch, hs, hret⟩ := lands_call.mp h
  obtain ⟨rfl, rfl⟩ := lands_ret.mp hret
  obtain ⟨hr, rfl⟩ := Prod.mk.inj (store_faultless hch.1 hs)
  exact Prod.ext hr rfl

theorem solo_timeNow {r : Except Err Time} (h : Solo cfg C timeNow w w' r) :
    w' = w ∧ ∃ ch, C ch ∧ r = .ok ch.time := by
  obtain ⟨t, rfl, ch, x, w₁, hch, hs, rfl, rfl⟩ := lands_lift.mp h
  cases hs
  exact ⟨rfl, ch, hch.2, rfl⟩

/-! ## Updates -/

/-- The mutation ran on the stored row, and what it made of the row was written. -/
structure Committed (cfg : Config) (C : Choice → Prop) {β : Type} (uid : UUID)
    (mutate : User → M (User × β)) (s s' : UserStore) (row u : User) (b : β) : Prop where
  mem : row ∈ s
  id : row.id = uid
  mutated : ∃ w₀ w₁ : World, w₀.users = s ∧ Solo cfg C (mutate row) w₀ w₁ (.ok (u, b))
  written : s.updateUser u = (.ok (), s')

theorem Committed.users_eq {β : Type} {uid : UUID} {mutate : User → M (User × β)}
    {s s' : UserStore} {row u : User} {b : β} (h : Committed cfg C uid mutate s s' row u b) :
    s' = s.put { u with version := u.version + 1 } := by
  rcases s.updateUser_cases u with ⟨err, heq⟩ | ⟨_, _, _, _, _, heq⟩
  · cases congrArg Prod.fst (heq.symm.trans h.written)
  · exact congrArg Prod.snd (h.written.symm.trans heq)

/-- Why an update that ran alone came to nothing. -/
inductive Forgone (cfg : Config) (C : Choice → Prop) {β : Type} (uid : UUID)
    (mutate : User → M (User × β)) (s : UserStore) : Err → Prop
  | missing : Forgone cfg C uid mutate s .userNotFound
  | outdated : Forgone cfg C uid mutate s .concurrentUpdate
  | taken : Forgone cfg C uid mutate s .userAlreadyExists
  | declined {row : User} {err : Err} {w₀ w₁ : World} (mem : row ∈ s) (id : row.id = uid)
      (users : w₀.users = s) (mutated : Solo cfg C (mutate row) w₀ w₁ (.error err)) :
      Forgone cfg C uid mutate s err

theorem solo_updateUserWithRetry {β : Type} {uid : UUID} {mutate : User → M (User × β)}
    (hmutate : ∀ u, Calls Op.NotUser (mutate u)) {r : Except Err (User × β)}
    (h : Solo cfg C (Service.updateUserWithRetry uid mutate) w w' r) :
    (∃ err, r = .error err ∧ w'.users = w.users ∧ Forgone cfg C uid mutate w.users err) ∨
      ∃ row u b, r = .ok (u, b) ∧ Committed cfg C uid mutate w.users w'.users row u b := by
  -- Over the attempts left: one that fails leaves the users as they were.
  have loop : ∀ n lastErr, Forgone cfg C uid mutate w.users lastErr → ∀ w₀ : World,
      w₀.users = w.users → Solo cfg C (Service.updateUserLoop uid mutate n lastErr) w₀ w' r →
      (∃ err, r = .error err ∧ w'.users = w.users ∧ Forgone cfg C uid mutate w.users err) ∨
        ∃ row u b, r = .ok (u, b) ∧ Committed cfg C uid mutate w.users w'.users row u b := by
    intro n
    induction n with
    | zero =>
      intro lastErr hlast w₀ hw₀ h
      obtain ⟨rfl, rfl⟩ := lands_throw.mp h
      exact Or.inl ⟨lastErr, rfl, hw₀, hlast⟩
    | succ n ih =>
      intro lastErr hlast w₀ hw₀ h
      rcases lands_bind.mp h with ⟨w₁, row, hget, hrest⟩ | ⟨err, rfl, hget⟩
      · obtain ⟨rfl, hrow⟩ := solo_getUserByID hget
        rw [hw₀] at hrow
        obtain ⟨hmem, hid⟩ := UserStore.getUserByID_eq_ok.mp hrow.symm
        rcases lands_bind.mp hrest with ⟨w₂, ⟨u, b⟩, hmut, hrest⟩ | ⟨err, rfl, hmut⟩
        · have hw₂ := (solo_users hmut (hmutate row)).trans hw₀
          obtain ⟨w₃, x, hupdate, hend⟩ := lands_attempt_bind.mp hrest
          replace hupdate := solo_updateUser hupdate
          rw [hw₂] at hupdate
          cases x with
          | ok _ =>
            obtain ⟨rfl, rfl⟩ := lands_pure.mp hend
            exact Or.inr ⟨row, u, b, rfl, hmem, hid, ⟨w₁, w₂, hw₀, hmut⟩, hupdate⟩
          | error err =>
            have hsame : w₃.users = w.users := by
              rcases w.users.updateUser_cases u with ⟨err', heq⟩ | ⟨_, _, _, _, _, heq⟩
              · rw [heq] at hupdate
                exact (Prod.mk.inj hupdate).2.symm
              · rw [heq] at hupdate
                cases (Prod.mk.inj hupdate).1
            have hwhy : Forgone cfg C uid mutate w.users err := by
              rcases UserStore.updateUser_error (congrArg Prod.fst hupdate) with
                rfl | rfl | ⟨rfl, -⟩
              · exact .outdated
              · exact .missing
              · exact .taken
            dsimp only at hend
            split at hend
            · exact ih err hwhy w₃ hsame hend
            · obtain ⟨rfl, rfl⟩ := lands_throw.mp hend
              exact Or.inl ⟨err, rfl, hsame, hwhy⟩
        · have hw' := (solo_users hmut (hmutate row)).trans hw₀
          exact Or.inl ⟨err, rfl, hw', .declined hmem hid hw₀ hmut⟩
      · obtain ⟨rfl, herr⟩ := solo_getUserByID hget
        have hmissing := UserStore.getUserByID_error herr.symm
        subst hmissing
        exact Or.inl ⟨_, rfl, hw₀, .missing⟩
  exact loop _ _ .outdated w rfl h

end Sulis
