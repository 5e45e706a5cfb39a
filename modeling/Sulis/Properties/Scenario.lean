-- SUMMARY: A small concrete platform and configuration, and scripted runs over them.
import Sulis.Interaction.Overlap
import Sulis.Interaction.Sequential
import Sulis.Facts.Credentials

/-!
# Scenarios

Properties of runs are shown to have instances, or to fail, on concrete runs. A
scenario runs over a platform that is as simple as a lawful one can be, and its
environment answers the `n`-th call with the `n`-th tick: the clock reads `n`,
the next ID is `n + 1`, and the next random string ends in `n`.
-/

namespace Sulis.Scenario

open Interaction Interaction.System

/-- Hashing is the identity, every address parses, and a password key is the
    password followed by the salt. -/
@[reducible] def plain : Platform where
  sha256Hex := id
  parseAddress := some
  toLowerRune := id
  nfkc := id
  hmacSHA256 := fun key message => key ++ message
  idKey := fun password salt _ _ _ _ => password ++ salt

/-- No limiter, checker or sink, and every random string 16 bytes long. -/
def config : Config :=
  { defaultConfig with
    sessionTokenBytes := 16
    resetTokenBytes := 16
    minPasswordLength := 1
    argon2 := ⟨64, 1, 1, 16, 16⟩
    limiter := false
    passwordChecker := false }

attribute [local instance] plain

/-- The random string of the `n`-th tick. -/
def draw (n : Nat) : Bytes := List.replicate 15 0 ++ [UInt8.ofNat n]

/-- The raw token made from it. -/
def raw (n : Nat) : String := hexEncodeToString (draw n)

/-- The ID of the `n`-th tick. -/
def ident (n : Nat) : UUID := BitVec.ofNat 128 (n + 1)

def tick (n : Nat) : Choice := { time := n, uuid := ident n, bytes := draw n }

/-- Each call with the number of steps it takes, as blocks numbered on from `n`. -/
def blocks (n : Nat) : List (Call × Nat) → List (Call × List Choice)
  | [] => []
  | (call, steps) :: rest =>
    (call, (List.range steps).map (fun k => tick (n + k))) :: blocks (n + steps) rest

/-- Run one call after the other, from empty stores. -/
def play (script : List (Call × Nat)) : Option (Run config) :=
  (Run.empty config).runBlocks (blocks 0 script)

/-- The same, but the store call at tick `n` fails without taking effect. -/
def playFailing (n : Nat) (script : List (Call × Nat)) : Option (Run config) :=
  (Run.empty config).runBlocks ((blocks 0 script).map (fun b => (b.1, b.2.map (fun ch =>
    if ch.time = (n : Int) then { ch with fault := some { err := .other "unavailable" } } else ch))))

/-- An account with a verified address. -/
def verifiedAccount : List (Call × Nat) :=
  [(.register "a" [1] {}, 8), (.createEmailVerificationToken (ident 2), 5),
    (.verifyEmail (raw 9), 7)]

/-- Threads in the order they step, each with its tick. -/
def ticks (n : Nat) : List Nat → List (Nat × Choice)
  | [] => []
  | i :: rest => (i, tick n) :: ticks (n + 1) rest

/-- Let the threads step in the given order. -/
def steps (n : Nat) (order : List Nat) : List (system config).Action :=
  (ticks n order).map (fun s => .step s.1 s.2)

/-- Run a script, then two calls at the same time. -/
def overlap (script : List (Call × Nat)) (call call' : Call) (n : Nat) (order : List Nat) :
    Option (Run config × Run config) :=
  (play script).bind (fun c₀ =>
    (c₀.run (.invoke call :: .invoke call' :: steps n order)).map (fun c => (c₀, c)))

theorem overlap_eq_some {script : List (Call × Nat)} {call call' : Call} {n : Nat}
    {order : List Nat} {c₀ c : Run config} (h : overlap script call call' n order = some (c₀, c))
    (hc : c.Quiescent) :
    (∃ as, (Run.empty config).run as = some c₀) ∧ c₀.Overlap c call call' := by
  simp only [overlap, Option.bind_eq_some_iff, Option.map_eq_some_iff] at h
  obtain ⟨c₁, hplay, c₂, hrun, heq⟩ := h
  cases heq
  refine ⟨Config.runBlocks_run hplay, ?_, hc, ticks n order, hrun⟩
  exact ((Config.sequential_start _).runBlocks hplay).quiescent

/-- Thread `i` runs `call` and has succeeded with a result that passes the test. -/
def succeededWith (c : Run config) (i : Nat) (call : Call) (test : call.Ret → Bool) : Bool :=
  match c.threads[i]? with
  | some ⟨call', .ret (.ok a)⟩ => if h : call' = call then test (h ▸ a) else false
  | _ => false

def succeeded (c : Run config) (i : Nat) (call : Call) : Bool :=
  succeededWith c i call (fun _ => true)

theorem succeededWith_returned {c : Run config} {i : Nat} {call : Call} {test : call.Ret → Bool}
    (h : succeededWith c i call test = true) : ∃ a, c.Returned i call (.ok a) ∧ test a = true := by
  unfold succeededWith at h
  split at h
  · rename_i call' a ht
    split at h
    · rename_i heq
      subst heq
      exact ⟨a, ht, h⟩
    · cases h
  · cases h

theorem succeeded_returned {c : Run config} {i : Nat} {call : Call}
    (h : succeeded c i call = true) : ∃ a, c.Returned i call (.ok a) := by
  obtain ⟨a, ha, -⟩ := succeededWith_returned h
  exact ⟨a, ha⟩

/-- Thread `j` consumed the token. -/
def spent (c : Run config) (j : Nat) (t : Token) : Bool :=
  c.trace.any (fun k => k.tid = j ∧
    k.event = ⟨.consumeToken t.tokenHash t.purpose, .ok { t with used := true }⟩)

theorem spent_spends {c : Run config} {j : Nat} {t : Token} (h : spent c j t = true) :
    Spends c.trace j t := by
  obtain ⟨k, hk, htest⟩ := List.any_eq_true.mp h
  obtain ⟨htid, hev⟩ := of_decide_eq_true htest
  exact ⟨t.tokenHash, { t with used := true }, mem_history.mpr ⟨k, hk, htid, hev⟩, rfl⟩

/-- Thread `j` stored a session of the user. -/
def sessionFor (c : Run config) (j : Nat) (uid : UUID) : Bool :=
  c.trace.any (fun e =>
    match e.op with
    | .createSession s => e.tid = j ∧ s.userID = uid
    | _ => false)

theorem sessionFor_stores {c : Run config} {j : Nat} {uid : UUID}
    (h : sessionFor c j uid = true) :
    ∃ e ∈ c.trace, e.tid = j ∧ ∃ s, e.op = .createSession s ∧ s.userID = uid := by
  obtain ⟨e, he, htest⟩ := List.any_eq_true.mp h
  split at htest
  · rename_i s hop
    obtain ⟨htid, huser⟩ := of_decide_eq_true htest
    exact ⟨e, he, htid, s, hop, huser⟩
  · cases htest

end Sulis.Scenario
