-- SUMMARY: What a program can end in when it runs alone, rule by rule, and that this is what a block of a run does.
import Sulis.Interaction.Sequential
import Sulis.Interaction.Settle

/-!
# Running alone

`Runs` is the outcome of one program with nothing in between: the world it ends in
and what it returns, with the environment's choices taken from a given set. It is
an outcome of the pool as well, of a block with a single invocation.
-/

namespace Interaction

open Prog

namespace System

variable {S : Sig} {α β ε : Type}

/-- From `w`, with choices in `C`, the program can end in `w'` with the result `b`. -/
def Runs (Y : System S) (C : Y.Choice → Prop) : Prog S α → Y.World → Y.World → α → Prop
  | .ret a, w, w', b => w' = w ∧ b = a
  | .call op k, w, w', b => ∃ ch r w₁, C ch ∧ Y.serve w op ch = some (r, w₁) ∧ Y.Runs C (k r) w₁ w' b

variable {Y : System S} {C : Y.Choice → Prop} {w w' : Y.World}

theorem runs_bind {p : Prog S α} {f : α → Prog S β} {b : β} :
    Y.Runs C (p >>= f) w w' b ↔ ∃ w₁ a, Y.Runs C p w w₁ a ∧ Y.Runs C (f a) w₁ w' b := by
  induction p generalizing w with
  | ret a =>
    constructor
    · exact fun h => ⟨w, a, ⟨rfl, rfl⟩, h⟩
    · rintro ⟨_, _, ⟨rfl, rfl⟩, h⟩
      exact h
  | call op k ih =>
    constructor
    · rintro ⟨ch, r, w₁, hch, hserve, h⟩
      obtain ⟨w₂, a, hp, hf⟩ := (ih r).mp h
      exact ⟨w₂, a, ⟨ch, r, w₁, hch, hserve, hp⟩, hf⟩
    · rintro ⟨w₂, a, ⟨ch, r, w₁, hch, hserve, hp⟩, hf⟩
      exact ⟨ch, r, w₁, hch, hserve, (ih r).mpr ⟨w₂, a, hp, hf⟩⟩

/-- Run a program with the same choice at each of its calls. -/
def runWith (Y : System S) (ch : Y.Choice) : Prog S α → Y.World → Option (Y.World × α)
  | .ret a, w => some (w, a)
  | .call op k, w =>
    match Y.serve w op ch with
    | some (r, w₁) => Y.runWith ch (k r) w₁
    | none => none

theorem runs_of_runWith {ch : Y.Choice} (hch : C ch) {p : Prog S α} {a : α}
    (h : Y.runWith ch p w = some (w', a)) : Y.Runs C p w w' a := by
  induction p generalizing w with
  | ret b =>
    cases h
    exact ⟨rfl, rfl⟩
  | call op k ih =>
    unfold runWith at h
    split at h
    · rename_i r w₁ hserve
      exact ⟨ch, r, w₁, hch, hserve, ih r h⟩
    · cases h

/-- The same for a program that may fail. -/
def Lands (Y : System S) (C : Y.Choice → Prop) (p : ExceptT ε (Prog S) α) (w w' : Y.World)
    (r : Except ε α) : Prop := Y.Runs C p.run w w' r

theorem lands_of_runWith {ch : Y.Choice} (hch : C ch) {p : ExceptT ε (Prog S) α} {r : Except ε α}
    (h : Y.runWith ch p.run w = some (w', r)) : Y.Lands C p w w' r := runs_of_runWith hch h

theorem lands_ret {r r' : Except ε α} :
    Y.Lands C (ExceptT.mk (.ret r)) w w' r' ↔ w' = w ∧ r' = r := Iff.rfl

theorem lands_pure {a : α} {r : Except ε α} : Y.Lands C (pure a) w w' r ↔ w' = w ∧ r = .ok a := Iff.rfl

theorem lands_throw {e : ε} {r : Except ε α} :
    Y.Lands C (throw e : ExceptT ε (Prog S) α) w w' r ↔ w' = w ∧ r = .error e := Iff.rfl

theorem lands_call {op : S.Op} {k : S.Res op → Prog S (Except ε α)} {r : Except ε α} :
    Y.Lands C (ExceptT.mk (.call op k)) w w' r ↔ ∃ ch x w₁, C ch ∧ Y.serve w op ch = some (x, w₁) ∧
      Y.Lands C (ExceptT.mk (k x)) w₁ w' r := Iff.rfl

theorem lands_bind {p : ExceptT ε (Prog S) α} {f : α → ExceptT ε (Prog S) β} {r : Except ε β} :
    Y.Lands C (p >>= f) w w' r ↔
      (∃ w₁ a, Y.Lands C p w w₁ (.ok a) ∧ Y.Lands C (f a) w₁ w' r) ∨
        ∃ e, r = .error e ∧ Y.Lands C p w w' (.error e) := by
  refine runs_bind.trans ⟨?_, ?_⟩
  · rintro ⟨w₁, x, hp, hf⟩
    cases x with
    | ok a => exact Or.inl ⟨w₁, a, hp, hf⟩
    | error e =>
      obtain ⟨rfl, rfl⟩ := hf
      exact Or.inr ⟨e, rfl, hp⟩
  · rintro (⟨w₁, a, hp, hf⟩ | ⟨e, rfl, hp⟩)
    · exact ⟨w₁, .ok a, hp, hf⟩
    · exact ⟨w', .error e, hp, rfl, rfl⟩

/-- A program that ends in a value has ended every step in one. -/
theorem Lands.of_bind {p : ExceptT ε (Prog S) α} {f : α → ExceptT ε (Prog S) β} {b : β}
    (h : Y.Lands C (p >>= f) w w' (.ok b)) :
    ∃ w₁ a, Y.Lands C p w w₁ (.ok a) ∧ Y.Lands C (f a) w₁ w' (.ok b) := by
  rcases lands_bind.mp h with hboth | ⟨e, he, -⟩
  · exact hboth
  · cases he

/-- A step with a single outcome can be taken at once. -/
theorem lands_bind_ok {p : ExceptT ε (Prog S) α} {f : α → ExceptT ε (Prog S) β} {r : Except ε β}
    {w₁ : Y.World} {a : α} (hp : ∀ w' x, Y.Lands C p w w' x ↔ w' = w₁ ∧ x = .ok a) :
    Y.Lands C (p >>= f) w w' r ↔ Y.Lands C (f a) w₁ w' r := by
  rw [lands_bind]
  constructor
  · rintro (⟨w₂, b, hb, hf⟩ | ⟨e, -, he⟩)
    · obtain ⟨rfl, hb⟩ := (hp w₂ (.ok b)).mp hb
      cases hb
      exact hf
    · obtain ⟨-, he⟩ := (hp w' (.error e)).mp he
      cases he
  · exact fun hf => Or.inl ⟨w₁, a, (hp w₁ (.ok a)).mpr ⟨rfl, rfl⟩, hf⟩

theorem lands_bind_error {p : ExceptT ε (Prog S) α} {f : α → ExceptT ε (Prog S) β}
    {r : Except ε β} {w₁ : Y.World} {e : ε}
    (hp : ∀ w' x, Y.Lands C p w w' x ↔ w' = w₁ ∧ x = .error e) :
    Y.Lands C (p >>= f) w w' r ↔ w' = w₁ ∧ r = .error e := by
  rw [lands_bind]
  constructor
  · rintro (⟨w₂, b, hb, -⟩ | ⟨e', rfl, he⟩)
    · obtain ⟨-, hb⟩ := (hp w₂ (.ok b)).mp hb
      cases hb
    · obtain ⟨rfl, he⟩ := (hp w' (.error e')).mp he
      cases he
      exact ⟨rfl, rfl⟩
  · rintro ⟨rfl, rfl⟩
    exact Or.inr ⟨e, rfl, (hp w' (.error e)).mpr ⟨rfl, rfl⟩⟩

theorem lands_lift {p : Prog S α} {r : Except ε α} :
    Y.Lands C (ExceptT.lift p : ExceptT ε (Prog S) α) w w' r ↔ ∃ a, r = .ok a ∧ Y.Runs C p w w' a := by
  refine runs_bind.trans ⟨?_, ?_⟩
  · rintro ⟨w₁, a, hp, rfl, rfl⟩
    exact ⟨a, rfl, hp⟩
  · rintro ⟨a, rfl, hp⟩
    exact ⟨w', a, hp, rfl, rfl⟩

theorem lands_attempt_bind {p : ExceptT ε (Prog S) α} {f : Except ε α → ExceptT ε (Prog S) β}
    {r : Except ε β} : Y.Lands C (attempt p >>= f) w w' r ↔
      ∃ w₁ x, Y.Lands C p w w₁ x ∧ Y.Lands C (f x) w₁ w' r := by
  refine lands_bind.trans ⟨?_, ?_⟩
  · rintro (⟨w₁, x, hp, hf⟩ | ⟨e, -, hp⟩)
    · obtain ⟨y, hy, hp⟩ := lands_lift.mp hp
      cases hy
      exact ⟨w₁, x, hp, hf⟩
    · obtain ⟨y, hy, -⟩ := lands_lift.mp hp
      cases hy
  · rintro ⟨w₁, x, hp, hf⟩
    exact Or.inl ⟨w₁, x, lands_lift.mpr ⟨x, rfl, hp⟩, hf⟩

/-- What a program settles for is what it ends in, in a system that answers as it expects. -/
theorem Runs.settles {G : (op : S.Op) → S.Res op → Prop} {P : S.Op → Prop} {V : α → Prop}
    {p : Prog S α} {a : α} (hp : p.Settles G P V)
    (hserve : ∀ w op ch r w', C ch → Y.serve w op ch = some (r, w') → G op r)
    (h : Y.Runs C p w w' a) : V a := by
  induction p generalizing w with
  | ret b =>
    obtain ⟨-, rfl⟩ := h
    exact hp.of_ret
  | call op k ih =>
    obtain ⟨ch, r, w₁, hch, hs, hrest⟩ := h
    exact ih r (hp.of_call.2 r (hserve w op ch r w₁ hch hs)) hrest

theorem Lands.settles {G : (op : S.Op) → S.Res op → Prop} {P : S.Op → Prop}
    {V : Except ε α → Prop} {p : ExceptT ε (Prog S) α} {r : Except ε α} (hp : p.run.Settles G P V)
    (hserve : ∀ w op ch r w', C ch → Y.serve w op ch = some (r, w') → G op r)
    (h : Y.Lands C p w w' r) : V r := Runs.settles hp hserve h

/-- What no call of the program changes is the same in the end. -/
theorem Runs.keeps {γ : Type} {f : Y.World → γ} {P : S.Op → Prop} {p : Prog S α} {a : α}
    (hP : ∀ w op ch r w', P op → Y.serve w op ch = some (r, w') → f w' = f w) (hp : p.Only P)
    (h : Y.Runs C p w w' a) : f w' = f w := by
  induction p generalizing w with
  | ret b =>
    obtain ⟨rfl, -⟩ := h
    rfl
  | call op k ih =>
    obtain ⟨ch, r, w₁, -, hs, hrest⟩ := h
    exact (ih r (hp.2 r) hrest).trans (hP w op ch r w₁ hp.1 hs)

theorem Lands.keeps {γ : Type} {f : Y.World → γ} {P : S.Op → Prop} {p : ExceptT ε (Prog S) α}
    {r : Except ε α} (hP : ∀ w op ch r w', P op → Y.serve w op ch = some (r, w') → f w' = f w)
    (hp : p.run.Only P) (h : Y.Lands C p w w' r) : f w' = f w := Runs.keeps hP hp h

/-- Some outcome of the program is as described. -/
def May (Y : System S) (C : Y.Choice → Prop) (p : ExceptT ε (Prog S) α) (w : Y.World)
    (P : Y.World → Except ε α → Prop) : Prop := ∃ w' r, Y.Lands C p w w' r ∧ P w' r

theorem may_pure {a : α} {P : Y.World → Except ε α → Prop} (h : P w (.ok a)) :
    Y.May C (pure a) w P := ⟨w, .ok a, lands_pure.mpr ⟨rfl, rfl⟩, h⟩

theorem may_throw {e : ε} {P : Y.World → Except ε α → Prop} (h : P w (.error e)) :
    Y.May C (throw e) w P := ⟨w, .error e, lands_throw.mpr ⟨rfl, rfl⟩, h⟩

theorem may_bind {p : ExceptT ε (Prog S) α} {f : α → ExceptT ε (Prog S) β} {w₁ : Y.World} {a : α}
    {P : Y.World → Except ε β → Prop} (hp : Y.Lands C p w w₁ (.ok a)) (hf : Y.May C (f a) w₁ P) :
    Y.May C (p >>= f) w P := by
  obtain ⟨w', r, hf, h⟩ := hf
  exact ⟨w', r, lands_bind.mpr (Or.inl ⟨w₁, a, hp, hf⟩), h⟩

theorem may_attempt_bind {p : ExceptT ε (Prog S) α} {f : Except ε α → ExceptT ε (Prog S) β}
    {w₁ : Y.World} {x : Except ε α} {P : Y.World → Except ε β → Prop} (hp : Y.Lands C p w w₁ x)
    (hf : Y.May C (f x) w₁ P) : Y.May C (attempt p >>= f) w P := by
  obtain ⟨w', r, hf, h⟩ := hf
  exact ⟨w', r, lands_attempt_bind.mpr ⟨w₁, x, hp, hf⟩, h⟩

-- Unfolding would run the program; from here on the rules do it one call at a time.
attribute [irreducible] Lands

/-! ## In the pool -/

private theorem runs_steps {call : Y.Call} {c : Y.Config} (p : Prog S (Y.Out call))
    (hc : c.threads = [⟨call, p⟩]) {out : Y.Out call} :
    Y.Runs C p c.world w' out ↔ ∃ (chs : List Y.Choice) (c' : Y.Config), (∀ ch ∈ chs, C ch) ∧
      c.run (chs.map (.step 0)) = some c' ∧ c'.threads = [⟨call, .ret out⟩] ∧ c'.world = w' := by
  induction p generalizing c with
  | ret a =>
    constructor
    · rintro ⟨rfl, rfl⟩
      exact ⟨[], c, by simp, rfl, hc, rfl⟩
    · rintro ⟨chs, c', -, hrun, hthreads, rfl⟩
      cases chs with
      | nil =>
        cases hrun
        rw [hc] at hthreads
        cases hthreads
        exact ⟨rfl, rfl⟩
      | cons ch chs => simp [Config.run, Config.act, hc] at hrun
  | call op k ih =>
    constructor
    · rintro ⟨ch, r, w₁, hch, hserve, h⟩
      let c₁ : Y.Config := ⟨w₁, [⟨call, k r⟩], ⟨0, call, op, ch, r, c.world, w₁⟩ :: c.trace⟩
      have hact : c.act (.step 0 ch) = some c₁ := by simp [c₁, Config.act, hc, hserve]
      obtain ⟨chs, c', hchs, hrun, hthreads, hworld⟩ := (ih r (c := c₁) rfl).mp h
      refine ⟨ch :: chs, c', ?_, ?_, hthreads, hworld⟩
      · exact List.forall_mem_cons.mpr ⟨hch, hchs⟩
      · simp only [List.map_cons, Config.run, hact, Option.bind_some]
        exact hrun
    · rintro ⟨chs, c', hchs, hrun, hthreads, hworld⟩
      cases chs with
      | nil =>
        cases hrun
        rw [hc] at hthreads
        cases hthreads
      | cons ch chs =>
        simp only [List.map_cons, Config.run, Option.bind_eq_some_iff] at hrun
        obtain ⟨c₁, hact, hrun⟩ := hrun
        obtain ⟨call', op', k', r, w₁, ht, hserve, rfl⟩ := Config.act_step hact
        simp only [hc, List.getElem?_cons_zero, Option.some.injEq, Thread.mk.injEq] at ht
        obtain ⟨rfl, ht⟩ := ht
        cases ht
        have hset : c.threads.set 0 ⟨call, k r⟩ = [⟨call, k r⟩] := by rw [hc]; rfl
        refine ⟨ch, r, w₁, hchs ch List.mem_cons_self, hserve, ?_⟩
        refine (ih r (c := ⟨w₁, _, ⟨0, call, op, ch, r, c.world, w₁⟩ :: c.trace⟩) hset).mpr ?_
        exact ⟨chs, c', fun x hx => hchs x (List.mem_cons_of_mem ch hx), hrun, hthreads, hworld⟩

/-- What an invocation ends in alone is what a block does that consists of it. -/
theorem runs_iff_block {call : Y.Call} {out : Y.Out call} :
    Y.Runs C (Y.body call) w w' out ↔ ∃ (chs : List Y.Choice) (c : Y.Config), (∀ ch ∈ chs, C ch) ∧
      (Config.start w).block call chs = some c ∧ c.world = w' ∧ c.Returned 0 call out := by
  refine (runs_steps (c := ⟨w, [⟨call, Y.body call⟩], []⟩) (Y.body call) rfl).trans ⟨?_, ?_⟩
  · rintro ⟨chs, c, hchs, hrun, hthreads, hworld⟩
    refine ⟨chs, c, hchs, ?_, hworld, by simp [Config.Returned, hthreads]⟩
    simp only [Config.block, Config.run, Config.act, Config.start, List.nil_append, List.length_nil,
      Option.bind_some, hrun]
    simp [hthreads, value?]
  · rintro ⟨chs, c, hchs, hblock, hworld, hret⟩
    obtain ⟨hrun, -, hlen, -⟩ := Config.block_eq_some hblock
    refine ⟨chs, c, hchs, hrun, ?_, hworld⟩
    obtain ⟨t, ht⟩ := List.length_eq_one_iff.mp hlen
    simp only [Config.Returned, ht, List.getElem?_cons_zero, Option.some.injEq] at hret
    rw [ht, hret]

end System

end Interaction
