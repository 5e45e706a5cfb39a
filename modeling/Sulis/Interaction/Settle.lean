-- SUMMARY: What a program returns and which calls it can make, given what its environment may answer.
import Sulis.Interaction.Path

/-!
# Results

`Settles G P V p` forgets the history: as long as the environment answers within
`G`, the program only makes calls in `P`, and what it returns satisfies `V`. It is
what is left of a path proof for a part of a program whose calls nobody looks at.
-/

namespace Interaction.Prog

variable {S : Sig} {α β ε : Type}

def Settles (G : (op : S.Op) → S.Res op → Prop) (P : S.Op → Prop) (V : α → Prop) :
    Prog S α → Prop
  | .ret a => V a
  | .call op k => P op ∧ ∀ r, G op r → (k r).Settles G P V

variable {G : (op : S.Op) → S.Res op → Prop} {P : S.Op → Prop}

theorem settles_ret {V : α → Prop} {a : α} (hV : V a) : (Prog.ret a : Prog S α).Settles G P V := hV

theorem settles_call {V : α → Prop} {op : S.Op} {k : S.Res op → Prog S α} (hop : P op)
    (hk : ∀ r, G op r → (k r).Settles G P V) : (Prog.call op k).Settles G P V := ⟨hop, hk⟩

theorem Settles.of_ret {V : α → Prop} {a : α} (hp : (Prog.ret a : Prog S α).Settles G P V) : V a := hp

theorem Settles.of_call {V : α → Prop} {op : S.Op} {k : S.Res op → Prog S α}
    (hp : (Prog.call op k).Settles G P V) : P op ∧ ∀ r, G op r → (k r).Settles G P V := hp

theorem Settles.mono {V W : α → Prop} {p : Prog S α} (hp : p.Settles G P V) (hV : ∀ a, V a → W a) :
    p.Settles G P W := by
  induction p with
  | ret a => exact hV a hp
  | call op k ih => exact ⟨hp.1, fun r hr => ih r (hp.2 r hr)⟩

theorem Settles.weaken {P' : S.Op → Prop} {V : α → Prop} {p : Prog S α} (hp : p.Settles G P V)
    (hP : ∀ op, P op → P' op) : p.Settles G P' V := by
  induction p with
  | ret a => exact hp
  | call op k ih => exact ⟨hP op hp.1, fun r hr => ih r (hp.2 r hr)⟩

theorem Settles.bind {V : α → Prop} {W : β → Prop} {p : Prog S α} {f : α → Prog S β}
    (hp : p.Settles G P V) (hf : ∀ a, V a → (f a).Settles G P W) : (p >>= f).Settles G P W := by
  induction p with
  | ret a => exact hf a hp
  | call op k ih => exact ⟨hp.1, fun r hr => ih r (hp.2 r hr)⟩

theorem Only.settles {p : Prog S α} (hp : p.Only P) : p.Settles G P (fun _ => True) := by
  induction p with
  | ret a => exact settles_ret trivial
  | call op k ih => exact settles_call hp.1 (fun r _ => ih r (hp.2 r))

/-- A result is a path condition that leaves the rest of the history alone. -/
theorem Settles.along {D : Discipline S} {V : α → Prop} {p : Prog S α} (hG : D.legal = G)
    (hD : ∀ h op, P op → D.allows h op) (hp : p.Settles G P V) (h : List (Event S)) :
    p.Along D (fun h' a => Grows P h h' ∧ V a) h := by
  induction p generalizing h with
  | ret a => exact ⟨.refl h, hp⟩
  | call op k ih =>
    refine ⟨hD h op hp.1, fun r hr => ?_⟩
    refine Along.mono (ih r (hp.2 r (hG ▸ hr)) _) (fun h' a _ hq => ⟨?_, hq.2⟩)
    exact hq.1.of_cons hp.1

/-- What holds as long as the environment answers within `G` holds of every run in
    which it did. -/
theorem Along.assuming {D : Discipline S} {Q : List (Event S) → α → Prop} {p : Prog S α}
    {h : List (Event S)} (hD : ∀ h op, D.allows h op) (hp : p.Along ⟨G, D.allows⟩ Q h) :
    p.Along D (fun h' a => (∀ ev ∈ h', G ev.1 ev.2) → Q h' a) h := by
  induction p generalizing h with
  | ret a => exact fun _ => hp
  | call op k ih =>
    refine ⟨hp.1, fun r hr => ?_⟩
    by_cases hG : G op r
    · exact ih r (hp.2 r hG)
    · -- The history keeps the answer that was not expected.
      refine Along.mono (along_trivial (Q := fun _ _ => True) hD (fun _ _ => trivial) _) ?_
      exact fun h' a hsuf _ hall => absurd (hall ⟨op, r⟩ (hsuf.subset List.mem_cons_self)) hG

/-! ## Programs that may fail -/

section Results

variable {D : Discipline S} {R : List (Event S) → Except ε α → Prop}
  {Q : List (Event S) → Except ε β → Prop} {h : List (Event S)}

/-- The path condition for a program that may fail, on its result whichever it is. -/
def Results (D : Discipline S) (p : ExceptT ε (Prog S) α) (h : List (Event S))
    (Q : List (Event S) → Except ε α → Prop) : Prop := p.run.Along D Q h

theorem Results.along {p : ExceptT ε (Prog S) α} (hp : Results D p h R) : p.run.Along D R h := hp

theorem Results.mono {R' : List (Event S) → Except ε α → Prop} {p : ExceptT ε (Prog S) α}
    (hp : Results D p h R) (hR : ∀ h' r, R h' r → R' h' r) : Results D p h R' :=
  Along.mono hp (fun h' r _ => hR h' r)

theorem results_ret {r : Except ε α} (hR : R h r) : Results D (ExceptT.mk (.ret r)) h R := hR

theorem results_call {op : S.Op} {k : S.Res op → Prog S (Except ε α)} (hop : D.allows h op)
    (hk : ∀ r, D.legal op r → Results D (ExceptT.mk (k r)) (⟨op, r⟩ :: h) R) :
    Results D (ExceptT.mk (Prog.call op k)) h R := ⟨hop, hk⟩

theorem results_bind {p : ExceptT ε (Prog S) α} {f : α → ExceptT ε (Prog S) β}
    (hp : Results D p h R) (hok : ∀ a h', R h' (.ok a) → Results D (f a) h' Q)
    (herr : ∀ e h', R h' (.error e) → Q h' (.error e)) : Results D (p >>= f) h Q := by
  refine along_bind (Along.mono hp (fun h' r _ hr => ?_))
  cases r with
  | ok a => exact hok a h' hr
  | error e => exact herr e h' hr

/-- An attempt does not fail, so what follows gets its outcome. -/
theorem results_attempt_bind {p : ExceptT ε (Prog S) α} {f : Except ε α → ExceptT ε (Prog S) β}
    (hp : Results D p h R) (hf : ∀ r h', R h' r → Results D (f r) h' Q) :
    Results D (attempt p >>= f) h Q := by
  refine results_bind (R := fun h' r => ∃ x, r = .ok x ∧ R h' x) ?_ ?_ ?_
  · exact along_bind (Along.mono hp (fun h' x _ hx => ⟨x, rfl, hx⟩))
  · rintro x h' ⟨y, hy, hR⟩
    cases hy
    exact hf x h' hR
  · rintro e h' ⟨y, hy, -⟩
    cases hy

theorem Settles.results {V : Except ε α → Prop} {p : ExceptT ε (Prog S) α} (hG : D.legal = G)
    (hD : ∀ h op, P op → D.allows h op) (hp : p.run.Settles G P V) (h : List (Event S)) :
    Results D p h (fun h' r => Grows P h h' ∧ V r) := hp.along hG hD h

end Results

variable {V : Except ε α → Prop} {W : Except ε β → Prop}

theorem settles_pure {a : α} (hV : V (.ok a)) :
    (pure a : ExceptT ε (Prog S) α).run.Settles G P V := hV

theorem settles_throw {e : ε} (hV : V (.error e)) :
    (throw e : ExceptT ε (Prog S) α).run.Settles G P V := hV

theorem settles_bind {p : ExceptT ε (Prog S) α} {f : α → ExceptT ε (Prog S) β}
    (hp : p.run.Settles G P V) (hok : ∀ a, V (.ok a) → (f a).run.Settles G P W)
    (herr : ∀ e, V (.error e) → W (.error e)) : (p >>= f).run.Settles G P W := by
  refine Settles.bind hp (fun r hr => ?_)
  cases r with
  | ok a => exact hok a hr
  | error e => exact herr e hr

theorem settles_lift {V : α → Prop} {p : Prog S α} (hp : p.Settles G P V) :
    (ExceptT.lift p : ExceptT ε (Prog S) α).run.Settles G P (fun r => ∃ a, r = .ok a ∧ V a) :=
  Settles.bind hp (fun a ha => ⟨a, rfl, ha⟩)

theorem settles_attempt {p : ExceptT ε (Prog S) α} (hp : p.run.Settles G P V) :
    (attempt p).run.Settles G P (fun r => ∃ x, r = .ok x ∧ V x) := settles_lift hp

/-- An attempt does not fail, so its value is all there is to know. -/
theorem settles_attempt_bind {p : ExceptT ε (Prog S) α} {f : Except ε α → ExceptT ε (Prog S) β}
    (hp : p.run.Settles G P V) (hf : ∀ x, V x → (f x).run.Settles G P W) :
    (attempt p >>= f).run.Settles G P W := by
  refine settles_bind (settles_attempt hp) (fun x hx => ?_) (fun e he => ?_)
  · obtain ⟨y, hy, hV⟩ := hx
    cases hy
    exact hf x hV
  · obtain ⟨y, hy, -⟩ := he
    cases hy

theorem settles_onError {p : ExceptT ε (Prog S) α} {handler : ε → ExceptT ε (Prog S) Unit}
    (hp : p.run.Settles G P V) (hh : ∀ e, (handler e).run.Settles G P (fun r => ∃ x, r = .ok x)) :
    (onError p handler).run.Settles G P V := by
  refine settles_attempt_bind hp (fun x hx => ?_)
  cases x with
  | ok a => exact settles_pure hx
  | error e =>
    refine settles_bind (hh e) (fun _ _ => settles_throw hx) (fun e' he' => ?_)
    obtain ⟨x, hx⟩ := he'
    cases hx

theorem settles_ite {c : Prop} [Decidable c] {p q : ExceptT ε (Prog S) α}
    (hp : c → p.run.Settles G P V) (hq : ¬c → q.run.Settles G P V) :
    (if c then p else q).run.Settles G P V := by
  split
  · exact hp ‹_›
  · exact hq ‹_›

-- As for `Yields`, only the rules look inside.
attribute [irreducible] Settles Results

end Interaction.Prog
