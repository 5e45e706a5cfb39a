-- SUMMARY: The order in which Go iterates the maps of the in-memory stores never shows.
import Sulis.Interaction.Environment
import Sulis.Properties.Verified

/-!
# Map order

The in-memory stores find a user by address, a session and a token by hash in a
loop over a map that stops at the first match. Go iterates a map in no fixed
order, so what such a loop returns is determined only if at most one row matches.
In every state a run can reach this is so: addresses are unique, and a hash
belongs to the one credential whose random token it was made from.

`ListUserSessions` collects all matches instead. The order of its result is the
order of the iteration, and the model has it fixed.
-/

namespace Sulis

open Interaction Interaction.System

/-- At most one row is found by each key the stores are searched for. -/
structure World.Unambiguous (w : World) : Prop where
  users : ∀ u ∈ w.users, ∀ u' ∈ w.users, u.email = u'.email → u = u'
  sessions : ∀ s ∈ w.sessions, ∀ s' ∈ w.sessions, s.tokenHash = s'.tokenHash → s = s'
  tokens : ∀ t ∈ w.tokens, ∀ t' ∈ w.tokens, t.tokenHash = t'.tokenHash → t = t'

/-! ## Lookups in an unambiguous state -/

/-- The same choice, up to the order in which a map is iterated. -/
def Choice.Reordered (ch ch' : Choice) : Prop := ∃ order, ch' = { ch with order := order }

theorem UserStore.getUserByEmail_order {s : UserStore}
    (h : ∀ u ∈ s, ∀ u' ∈ s, u.email = u'.email → u = u') (email : String) (order order' : Nat) :
    s.getUserByEmail email order = s.getUserByEmail email order' := by
  unfold getUserByEmail
  rw [Store.Table.pick_eq_of_unique (fun u hu u' hu' hp hp' => ?_) order order']
  exact h u hu u' hu' ((of_decide_eq_true hp).trans (of_decide_eq_true hp').symm)

theorem SessionStore.getSessionByTokenHash_order {s : SessionStore}
    (h : ∀ r ∈ s, ∀ r' ∈ s, r.tokenHash = r'.tokenHash → r = r') (hash : String)
    (order order' : Nat) :
    s.getSessionByTokenHash hash order = s.getSessionByTokenHash hash order' := by
  unfold getSessionByTokenHash
  rw [Store.Table.pick_eq_of_unique (fun r hr r' hr' hp hp' => ?_) order order']
  exact h r hr r' hr' ((of_decide_eq_true hp).trans (of_decide_eq_true hp').symm)

theorem TokenStore.consumeToken_order {s : TokenStore}
    (h : ∀ t ∈ s, ∀ t' ∈ s, t.tokenHash = t'.tokenHash → t = t') (hash : String)
    (purpose : TokenPurpose) (order order' : Nat) :
    s.consumeToken hash purpose order = s.consumeToken hash purpose order' := by
  unfold consumeToken
  rw [Store.Table.pick_eq_of_unique (fun t ht t' ht' hp hp' => ?_) order order']
  exact h t ht t' ht' ((of_decide_eq_true hp).1.trans (of_decide_eq_true hp').1.symm)

theorem World.serve_reordered {w : World} (hw : w.Unambiguous) (op : Op) {ch ch' : Choice}
    (hch : ch.Reordered ch') : w.serve op ch' = w.serve op ch := by
  obtain ⟨order, rfl⟩ := hch
  cases op with
  | getUserByEmail email =>
    simp only [serve, UserStore.getUserByEmail_order hw.users email order ch.order]
    rfl
  | getSessionByTokenHash hash =>
    simp only [serve, SessionStore.getSessionByTokenHash_order hw.sessions hash order ch.order]
    rfl
  | consumeToken hash purpose =>
    simp only [serve, TokenStore.consumeToken_order hw.tokens hash purpose order ch.order]
    rfl
  | _ => rfl

section

variable [Platform] {cfg : Config}

/-! ## Reachable states are unambiguous -/

variable {w : World} {trace : List (Entry cfg)}

theorem sessionHash_distinct (hinj : Function.Injective Platform.sha256Hex)
    (hv : Trace cfg {} trace w) {s s' : Session} (hs : s ∈ w.sessions) (hs' : s' ∈ w.sessions)
    (hhash : s.tokenHash = s'.tokenHash) : s = s' := by
  obtain ⟨later, g, past, s₀, htrace, hop, hsame⟩ := session_issued hv hs
  obtain ⟨later', g', past', s₀', htrace', hop', hsame'⟩ := session_issued hv hs'
  have heq : s₀ = s₀' := session_of_hash hinj hv htrace htrace' hop hop'
    (hsame.tokenHash.symm.trans (hhash.trans hsame'.tokenHash))
  refine Store.Table.eq_of_mem hs hs' ?_
  rw [hsame.id, hsame'.id, heq]

theorem tokenHash_distinct (hinj : Function.Injective Platform.sha256Hex)
    (hv : Trace cfg {} trace w) {t t' : Token} (ht : t ∈ w.tokens) (ht' : t' ∈ w.tokens)
    (hhash : t.tokenHash = t'.tokenHash) : t = t' := by
  obtain ⟨later, g, past, t₀, htrace, hop, hsame⟩ := token_issued hv ht
  obtain ⟨later', g', past', t₀', htrace', hop', hsame'⟩ := token_issued hv ht'
  have heq : t₀ = t₀' := by
    refine token_of_hash hinj hv htrace htrace' hop hop' ?_
    rw [hsame, hsame'] at hhash
    exact hhash
  refine Store.Table.eq_of_mem ht ht' ?_
  rw [hsame, hsame', heq]

theorem unambiguous (hinj : Function.Injective Platform.sha256Hex) (hv : Trace cfg {} trace w) :
    w.Unambiguous where
  users := fun _ hu _ hu' hemail => email_distinct hv hu hu' hemail
  sessions := fun _ hs _ hs' hhash => sessionHash_distinct hinj hv hs hs' hhash
  tokens := fun _ ht _ ht' hhash => tokenHash_distinct hinj hv ht ht' hhash

/-! ## The theorem -/

/-- However the maps are iterated, a run goes through the same states of the stores,
    and every operation returns the same. -/
theorem map_order_never_shows (hinj : Function.Injective Platform.sha256Hex)
    {as as' : List (system cfg).Action} {c : Run cfg}
    (has : List.Forall₂ (Action.Alike (Y := system cfg) Choice.Reordered) as as')
    (hrun : (Run.empty cfg).run as = some c) :
    ∃ c', (Run.empty cfg).run as' = some c' ∧ c'.world = c.world ∧ c'.threads = c.threads := by
  obtain ⟨c', hrun', hsame⟩ := Config.run_alike
    (P := Config.Sound (Y := system cfg) (Justified cfg) (Result cfg) {})
    (fun c a c' hc hact => hc.run (fun call => (Service.program_follows call).along)
      (show c.run [a] = some c' by simp only [Config.run, hact, Option.bind_some]))
    (fun c hc op ch ch' hch => World.serve_reordered (unambiguous hinj hc.valid) op hch)
    has Config.sound_start ⟨rfl, rfl⟩ hrun
  exact ⟨c', hrun', hsame.world, hsame.threads⟩

end

section

open Scenario

attribute [local instance] plain

/-- The same action, with the maps iterated in another order. -/
def reorder (order : Nat) : (system config).Action → (system config).Action
  | .invoke call => .invoke call
  | .step i ch => .step i { (ch : Choice) with order := order }

theorem alike_reorder (order : Nat) (as : List (system config).Action) :
    List.Forall₂ (Action.Alike (Y := system config) Choice.Reordered) as
      (as.map (reorder order)) := by
  induction as with
  | nil => exact .nil
  | cons a as ih =>
    refine .cons ?_ ih
    cases a with
    | invoke call => exact .invoke call
    | step i ch => exact .step i ⟨order, rfl⟩

/-- Two accounts; one is found by its session, the other by its address and then by
    its token. -/
def twoAccounts : List (Call × Nat) :=
  [(.register "a" [1] {}, 8), (.register "b" [2] {}, 8), (.validateSession (raw 4), 4),
    (.createPasswordResetToken "b" {}, 5), (.resetPassword (raw 21) [3], 10)]

theorem map_order_never_shows_twoAccounts :
    ∃ as c c', (Run.empty config).run as = some c ∧ c.world.users.rows.length = 2 ∧
      (Run.empty config).run (as.map (reorder 5)) = some c' ∧ c'.world = c.world ∧
      c'.threads = c.threads := by
  obtain ⟨c, hplay, hlen⟩ := computed (o := play twoAccounts)
    (P := fun c => c.world.users.rows.length = 2) (by decide +kernel)
  obtain ⟨as, hrun⟩ := Config.runBlocks_run hplay
  obtain ⟨c', hrun', hworld, hthreads⟩ :=
    map_order_never_shows (fun _ _ h => h) (alike_reorder 5 as) hrun
  exact ⟨as, c, c', hrun, hlen, hrun', hworld, hthreads⟩

end

end Sulis
