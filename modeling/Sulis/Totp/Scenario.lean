-- SUMMARY: A small concrete instance of package totp, and scripted runs over it.
import Sulis.Totp.Discipline

/-!
# Scenarios

The code of a time step is its number, as long as the secret decodes. A script lists
the operations that start and the threads that step, each at a time step.
-/

namespace Sulis.Totp.Scenario

open Interaction Interaction.System

/-- A sum begins with the low half of the message, and its last byte is zero. -/
@[reducible] def plain : Digest where
  hmac := fun _ _ message => ⟨message.drop 4 ++ List.replicate 20 0, by simp⟩
  toUpperRune := id

attribute [local instance] plain

/-- Secrets are stored as they are, and there is no limiter. -/
def service : Service :=
  ⟨{ issuer := "app", noEncryption := true, noRateLimiting := true }, by decide⟩

/-- The ID drawn by the `n`-th action. -/
def ident (n : Nat) : UUID := BitVec.ofNat 128 (n + 1)

/-- An operation starts, or a thread steps during a time step. -/
inductive Act
  | start (request : Request)
  | step (i counter : Nat)

/-- The actions of a script, numbered on from `n`. -/
def actions (n : Nat) : List Act → List (system).Action
  | [] => []
  | .start request :: rest => .invoke ⟨service, request⟩ :: actions (n + 1) rest
  | .step i counter :: rest =>
    .step i { time := counter * 30 * second, uuid := ident n, bytes := List.replicate 20 0 } ::
      actions (n + 1) rest

/-- Run a script on an empty store. -/
def play (script : List Act) : Option Run := Run.empty.run (actions 0 script)

/-- One thread takes several steps during a time step. -/
def steps (i counter n : Nat) : List Act := List.replicate n (.step i counter)

/-- What a thread has returned. -/
def result (c : Run) (i : Nat) : Option (Except Err Unit) :=
  match c.threads[i]? with
  | some t => t.rest.value?.map (fun r => r.map (fun _ => ()))
  | none => none

end Sulis.Totp.Scenario
