-- SUMMARY: When the hash a login writes is as strong as the one it replaces, and logins that lower its costs.
import Sulis.Properties.PasswordMatch

/-!
# The strength of a replaced hash

A hash is replaced when it is weaker than the configuration in any dimension, or
matched only as it was typed. The new one has the configured parameters in every
dimension, also in those in which the old one was stronger.
-/

namespace Sulis

open Interaction Interaction.System World

/-- The parameters of a stored hash. -/
def costs (encoded : String) : Option Argon2Params :=
  match decodeHash encoded with
  | .ok (params, _, _) => some params
  | .error _ => none

/-- No cost of `new` is below that of `old`. -/
def NoWeaker (old new : Argon2Params) : Prop :=
  old.memory ≤ new.memory ∧ old.iterations ≤ new.iterations ∧ old.parallelism ≤ new.parallelism

instance (old new : Argon2Params) : Decidable (NoWeaker old new) :=
  inferInstanceAs (Decidable (_ ∧ _))

section

variable [Platform]

theorem costs_hashPassword (hkey : KeyedToLength) {params : Argon2Params} (hread : params.Readable)
    {salt : Bytes} (hsalt : salt.length = params.saltLength.toNat) (password pepper : Bytes) :
    costs (hashPassword password params pepper salt) = some params := by
  rw [costs, hashPassword_eq_hashText, decodeHash_deriveKey hkey hread hsalt]

/-- A hash a password was compared with could be decoded. -/
theorem costs_of_verified {password pepper : Bytes} {encoded : String} {r : Bool × Bool}
    (h : verifyPassword password encoded pepper = .ok r) : ∃ params, costs encoded = some params := by
  rw [verifyPassword] at h
  rw [costs]
  split at h
  · cases h
  · rename_i params salt hash hdecode
    exact ⟨params, by rw [hdecode]⟩

variable {cfg : Config} {w₀ : World} {as : List (system cfg).Action} {c : Run cfg}

/-- A password check that replaces a hash keeps its strength exactly if no parameter
    of the stored hash is above the configured one. -/
theorem rehash_noWeaker_iff (hkey : KeyedToLength) (hread : cfg.argon2.Readable)
    (hrun : (Config.start w₀).run as = some c) {e : Entry cfg} (he : e ∈ c.trace) {u row : User}
    {password : Bytes} (hev : e.event = ⟨.updateUser u, .ok ()⟩)
    (hcall : e.call.checkedPassword = some password) (hrow : e.pre.users.get? u.id = some row)
    (hchange : u.passwordHash ≠ row.passwordHash) :
    ∃ old new, costs row.passwordHash = some old ∧ costs u.passwordHash = some new ∧
      (NoWeaker old new ↔ NoWeaker old cfg.argon2) := by
  have hv := run_trace_valid hrun
  obtain ⟨later, past, htrace⟩ := List.append_of_mem he
  obtain ⟨hhash, copy, ⟨-, legacy, hverify⟩, -, hcopy⟩ :=
    rehash_replaces_verified hv htrace hev hcall hrow hchange
  rw [hcopy] at hverify
  obtain ⟨old, hold⟩ := costs_of_verified hverify
  rw [htrace] at hv
  obtain ⟨salt, hsalt, heq⟩ := hhash.salted hv
  refine ⟨old, cfg.argon2, hold, ?_, Iff.rfl⟩
  rw [heq]
  exact costs_hashPassword hkey hread hsalt _ _

end

section

open Scenario

attribute [local instance] spelling

/-- A configuration with less memory than before. -/
def tuned : Config := { config with argon2 := ⟨64, 2, 1, 16, 16⟩ }

/-- A user from before it was changed. -/
def earlierUser (hash : String) : User :=
  { id := ident 0, email := "a", createdAt := 0, updatedAt := 0, passwordHash := hash }

def earlierWorld (hash : String) : World := { users := Store.Table.empty.put (earlierUser hash) }

def tunedUser (hash : String) : User :=
  { earlierUser hash with updatedAt := 3, passwordHash := hashPassword [2] tuned.argon2 [] (draw 2) }

/-- Stronger in every dimension, and of the password as it was typed. -/
def strongLegacyHash : String := legacyHash [2] ⟨128, 3, 2, 16, 16⟩ [] (draw 0)

/-- Stronger in one dimension and weaker in another. -/
def mixedHash : String := hashPassword [2] ⟨128, 1, 1, 16, 16⟩ [] (draw 0)

/-- No stronger in any dimension. -/
def weakHash : String := hashPassword [2] ⟨64, 1, 1, 16, 16⟩ [] (draw 0)

def tunedLogin : List (system tuned).Action :=
  .invoke (.verifyPassword "a" [2] {}) :: (ticks 1 (List.replicate 6 0)).map (fun s => .step s.1 s.2)

/-- Thread `i` has run `call` and returned without an error. -/
def returnedOk (c : Run tuned) (i : Nat) (call : Call) : Bool :=
  match c.threads[i]? with
  | some ⟨call', .ret (.ok _)⟩ => call' = call
  | _ => false

theorem returnedOk_returned {c : Run tuned} {i : Nat} {call : Call}
    (h : returnedOk c i call = true) : ∃ a, c.Returned i call (.ok a) := by
  unfold returnedOk at h
  split at h
  · rename_i call' a ht
    obtain rfl : call' = call := of_decide_eq_true h
    exact ⟨a, ht⟩
  · cases h

/-- The user whose hash this is logs in, and the hash is replaced by one of the
    configured parameters. -/
def Replaced (hash : String) : Prop :=
  ∃ c : Run tuned, (Config.start (earlierWorld hash)).run tunedLogin = some c ∧
    (∃ u, c.Returned 0 (.verifyPassword "a" [2] {}) (.ok u)) ∧
    ∃ row, c.world.users.get? (ident 0) = some row ∧ costs row.passwordHash = some tuned.argon2

theorem replaced_of_run {hash : String}
    (h : ((Config.start (Y := system tuned) (earlierWorld hash)).run tunedLogin).any (fun c =>
      decide (returnedOk c 0 (.verifyPassword "a" [2] {}) = true ∧
        (c.world.users.get? (ident 0)).bind (fun row => costs row.passwordHash) =
          some tuned.argon2)) = true) : Replaced hash := by
  obtain ⟨c, hrun, hreturned, hrow⟩ := computed h
  exact ⟨c, hrun, returnedOk_returned hreturned, Option.bind_eq_some_iff.mp hrow⟩

/-- One login halves the memory cost of either hash, and lowers every cost of the one
    that was stronger throughout. -/
theorem rehash_lowers_costs :
    tuned.argon2.Readable ∧
      (costs strongLegacyHash = some ⟨128, 3, 2, 16, 16⟩ ∧ Replaced strongLegacyHash) ∧
      (costs mixedHash = some ⟨128, 1, 1, 16, 16⟩ ∧ Replaced mixedHash) ∧
      ¬ NoWeaker ⟨128, 3, 2, 16, 16⟩ tuned.argon2 ∧ ¬ NoWeaker ⟨128, 1, 1, 16, 16⟩ tuned.argon2 := by
  refine ⟨by decide, ⟨by decide +kernel, ?_⟩, ⟨by decide +kernel, ?_⟩, by decide, by decide⟩
  · exact replaced_of_run (by decide +kernel)
  · exact replaced_of_run (by decide +kernel)

theorem rehash_noWeaker_iff_raised :
    ∃ c : Run tuned, (Config.start (earlierWorld weakHash)).run tunedLogin = some c ∧
      ∃ e ∈ c.trace, e.event = ⟨.updateUser (tunedUser weakHash), .ok ()⟩ ∧
        ∃ old new, costs weakHash = some old ∧ costs (tunedUser weakHash).passwordHash = some new ∧
          (NoWeaker old new ↔ NoWeaker old tuned.argon2) := by
  obtain ⟨c, hrun, e, he, hev, hcall, hrow⟩ := computed
    (o := (Config.start (Y := system tuned) (earlierWorld weakHash)).run tunedLogin)
    (P := fun c => ∃ e ∈ c.trace, e.event = ⟨.updateUser (tunedUser weakHash), .ok ()⟩ ∧
      e.call.checkedPassword = some [2] ∧ e.pre.users.get? (ident 0) = some (earlierUser weakHash))
    (by decide +kernel)
  exact ⟨c, hrun, e, he, hev, rehash_noWeaker_iff spelling_keyedToLength (by decide) hrun he hev
    hcall hrow (by decide +kernel)⟩

end

end Sulis
