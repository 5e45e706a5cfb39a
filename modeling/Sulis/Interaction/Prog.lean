-- SUMMARY: Programs as trees of calls to an environment, with their monad structure.
import Mathlib.Logic.Basic

/-!
# Programs that call an environment

A program either returns or makes one call and continues with the answer. The
tree keeps every answer the environment could give, so the same program can be
run alone, interleaved with others, or under faults, without being rewritten.
-/

namespace Interaction

/-- What a program may ask of its environment: the calls it can make and the
    type of answer each of them gets. -/
structure Sig where
  Op : Type
  Res : Op → Type

inductive Prog (S : Sig) (α : Type) : Type
  | ret (a : α)
  | call (op : S.Op) (k : S.Res op → Prog S α)

/-- One call that was made, with the answer it got. -/
abbrev Event (S : Sig) : Type := (op : S.Op) × S.Res op

namespace Prog

variable {S : Sig} {α β ε : Type}

/-- Sequence two programs: the second continues at every leaf of the first. -/
def bind : Prog S α → (α → Prog S β) → Prog S β
  | .ret a, f => f a
  | .call op k, f => .call op (fun r => (k r).bind f)

instance : Monad (Prog S) where
  pure := .ret
  bind := Prog.bind

/-- The value of a program that has returned. -/
def value? : Prog S α → Option α
  | .ret a => some a
  | .call _ _ => none

theorem value?_eq_some {p : Prog S α} {a : α} (h : p.value? = some a) : p = .ret a := by
  cases p with
  | ret b => simp only [value?, Option.some.injEq] at h; rw [h]
  | call op k => simp [value?] at h

/-- Run a program that may fail and hand its outcome to the caller, failed or
    not. -/
def attempt (p : ExceptT ε (Prog S) α) : ExceptT ε (Prog S) (Except ε α) :=
  ExceptT.lift p.run

/-- Run `handler` on the way out of a failure; the failure still propagates. -/
def onError (p : ExceptT ε (Prog S) α) (handler : ε → ExceptT ε (Prog S) Unit) :
    ExceptT ε (Prog S) α := do
  match ← attempt p with
  | .ok a => return a
  | .error e => do
    handler e
    throw e

/-- Run a program that may fail, and go on with `handler` if it does. -/
def recover (p : ExceptT ε (Prog S) α) (handler : ε → ExceptT ε (Prog S) α) :
    ExceptT ε (Prog S) α := do
  match ← attempt p with
  | .ok a => return a
  | .error e => handler e

end Prog

end Interaction
