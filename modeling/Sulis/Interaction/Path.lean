-- SUMMARY: A program logic on paths: which calls a program makes after which history, and what holds where it returns.
import Mathlib.Data.List.Infix
import Sulis.Interaction.Prog

/-!
# Reasoning along the paths of a program

`Along D Q p h` walks the tree of `p`, started after the calls in `h`. Every
call it can make must be allowed by the discipline `D` at the history that leads
to it, and every leaf must satisfy `Q`. Nothing is said about the state of the
environment, so one such proof serves every way of running the program.

Histories have their most recent call first.
-/

namespace Interaction

variable {S : Sig} {α β ε : Type}

/-- The call is in the history, with this answer. -/
def Did (h : List (Event S)) (op : S.Op) (r : S.Res op) : Prop := (⟨op, r⟩ : Event S) ∈ h

theorem Did.mono {h h' : List (Event S)} {op : S.Op} {r : S.Res op} (hd : Did h op r) (hs : h <:+ h') :
    Did h' op r := hs.subset hd

@[simp] theorem did_cons_self {h : List (Event S)} {op : S.Op} {r : S.Res op} :
    Did (⟨op, r⟩ :: h) op r := List.mem_cons_self

/-- The answers an environment can give, and the calls allowed after a history. -/
structure Discipline (S : Sig) where
  legal : (op : S.Op) → S.Res op → Prop
  allows : List (Event S) → S.Op → Prop

namespace Prog

/-- Every call of the program is allowed where it is made, and `Q` holds of the
    history and the value at every leaf. -/
def Along (D : Discipline S) (Q : List (Event S) → α → Prop) :
    Prog S α → List (Event S) → Prop
  | .ret a, h => Q h a
  | .call op k, h => D.allows h op ∧ ∀ r, D.legal op r → (k r).Along D Q (⟨op, r⟩ :: h)

variable {D : Discipline S} {Q R : List (Event S) → α → Prop}

/-- Leaves are only reached with a history that extends the one at the root, so
    the postcondition may be weakened knowing that. -/
theorem Along.mono {p : Prog S α} {h : List (Event S)} (hp : p.Along D Q h)
    (hQ : ∀ h' a, h <:+ h' → Q h' a → R h' a) : p.Along D R h := by
  induction p generalizing h with
  | ret a => exact hQ h a List.suffix_rfl hp
  | call op k ih =>
    refine ⟨hp.1, fun r hr => ih r (hp.2 r hr) (fun h' a hsuf => hQ h' a ?_)⟩
    exact (List.suffix_cons _ _).trans hsuf

theorem along_bind {p : Prog S α} {f : α → Prog S β} {Q : List (Event S) → β → Prop}
    {h : List (Event S)} (hp : p.Along D (fun h' a => (f a).Along D Q h') h) :
    (p >>= f).Along D Q h := by
  induction p generalizing h with
  | ret a => exact hp
  | call op k ih => exact ⟨hp.1, fun r hr => ih r (hp.2 r hr)⟩

/-- Without a discipline every program satisfies what always holds. -/
theorem along_trivial (hD : ∀ h op, D.allows h op) (hQ : ∀ h a, Q h a) {p : Prog S α}
    (h : List (Event S)) : p.Along D Q h := by
  induction p generalizing h with
  | ret a => exact hQ h a
  | call op k ih => exact ⟨hD h op, fun r _ => ih r _⟩

/-- The leaf a program stands at satisfies the postcondition. -/
theorem Along.value {p : Prog S α} {h : List (Event S)} {a : α} (hp : p.Along D Q h)
    (ha : p.value? = some a) : Q h a := by
  rw [value?_eq_some ha] at hp
  exact hp

/-! ## Programs that may fail -/

/-- The path condition for a program that may fail: nothing is asked of the
    leaves where it does. -/
def Yields (D : Discipline S) (p : ExceptT ε (Prog S) α) (h : List (Event S))
    (Q : List (Event S) → α → Prop) : Prop :=
  p.run.Along D (fun h' r => ∀ a, r = .ok a → Q h' a) h

theorem Yields.intro {p : ExceptT ε (Prog S) α} {h : List (Event S)}
    (hp : p.run.Along D (fun h' r => ∀ a, r = .ok a → Q h' a) h) : Yields D p h Q := hp

theorem Yields.along {p : ExceptT ε (Prog S) α} {h : List (Event S)} (hp : Yields D p h Q) :
    p.run.Along D (fun h' r => ∀ a, r = .ok a → Q h' a) h := hp

theorem Yields.mono {p : ExceptT ε (Prog S) α} {h : List (Event S)} (hp : Yields D p h Q)
    (hQ : ∀ h' a, h <:+ h' → Q h' a → R h' a) : Yields D p h R :=
  Along.mono hp (fun h' _ hsuf hq a ha => hQ h' a hsuf (hq a ha))

theorem yields_ret {r : Except ε α} {h : List (Event S)} (hQ : ∀ a, r = .ok a → Q h a) :
    Yields D (ExceptT.mk (.ret r)) h Q := hQ

theorem yields_pure {a : α} {h : List (Event S)} (hQ : Q h a) :
    Yields D (pure a : ExceptT ε (Prog S) α) h Q := by
  intro b hb
  cases hb
  exact hQ

theorem yields_throw {e : ε} {h : List (Event S)} :
    Yields D (throw e : ExceptT ε (Prog S) α) h Q := by
  intro a ha
  cases ha

theorem yields_bind {p : ExceptT ε (Prog S) α} {f : α → ExceptT ε (Prog S) β}
    {Q : List (Event S) → β → Prop} {h : List (Event S)} (hp : Yields D p h R)
    (hf : ∀ a h', h <:+ h' → R h' a → Yields D (f a) h' Q) : Yields D (p >>= f) h Q := by
  apply along_bind
  refine Along.mono hp (fun h' r hsuf hr => ?_)
  cases r with
  | ok a => exact hf a h' hsuf (hr a rfl)
  | error e => exact yields_throw

/-- A call that may fail: only its successful answers reach the postcondition. -/
theorem yields_call {op : S.Op} {k : S.Res op → Prog S (Except ε α)} {h : List (Event S)}
    (hop : D.allows h op)
    (hk : ∀ r, D.legal op r → Yields D (ExceptT.mk (k r)) (⟨op, r⟩ :: h) Q) :
    Yields D (ExceptT.mk (Prog.call op k)) h Q := ⟨hop, hk⟩

/-- A call whose answer is the outcome. -/
theorem yields_request (D : Discipline S) (op : S.Op) (k : S.Res op → Except ε α) {h : List (Event S)}
    (hop : D.allows h op) :
    Yields D (ExceptT.mk (Prog.call op (fun r => .ret (k r)))) h
      (fun h' a => ∃ r, h' = ⟨op, r⟩ :: h ∧ k r = .ok a) :=
  yields_call hop (fun r _ => yields_ret (fun _ ha => ⟨r, rfl, ha⟩))

theorem yields_lift {p : Prog S α} {h : List (Event S)} (hp : p.Along D Q h) :
    Yields D (ExceptT.lift p : ExceptT ε (Prog S) α) h Q := by
  apply along_bind
  refine Along.mono hp (fun h' a _ hq b hb => ?_)
  cases hb
  exact hq

/-- A call that cannot fail. -/
theorem yields_query (D : Discipline S) (op : S.Op) {h : List (Event S)} (hop : D.allows h op) :
    Yields D (ExceptT.lift (Prog.call op .ret) : ExceptT ε (Prog S) (S.Res op)) h
      (fun h' r => h' = ⟨op, r⟩ :: h) :=
  yields_lift ⟨hop, fun _ _ => rfl⟩

theorem yields_attempt {p : ExceptT ε (Prog S) α} {h : List (Event S)}
    {Q : List (Event S) → Except ε α → Prop} (hp : p.run.Along D Q h) :
    Yields D (attempt p) h Q := yields_lift hp

theorem Yields.attempt {p : ExceptT ε (Prog S) α} {h : List (Event S)} (hp : Yields D p h Q) :
    Yields D (Prog.attempt p) h (fun h' r => ∀ a, r = .ok a → Q h' a) := yields_attempt hp

theorem yields_onError {p : ExceptT ε (Prog S) α} {handler : ε → ExceptT ε (Prog S) Unit}
    {h : List (Event S)} (hp : Yields D p h Q)
    (hh : ∀ e h', h <:+ h' → Yields D (handler e) h' (fun _ _ => True)) :
    Yields D (onError p handler) h Q := by
  refine yields_bind (yields_attempt hp) (fun r h' hsuf hr => ?_)
  cases r with
  | ok a => exact yields_pure (hr a rfl)
  | error e => exact yields_bind (hh e h' hsuf) (fun _ _ _ _ => yields_throw)

theorem yields_recover {p : ExceptT ε (Prog S) α} {handler : ε → ExceptT ε (Prog S) α}
    {h : List (Event S)} (hp : Yields D p h Q)
    (hh : ∀ e h', h <:+ h' → Yields D (handler e) h' Q) : Yields D (recover p handler) h Q := by
  refine yields_bind (yields_attempt hp) (fun r h' hsuf hr => ?_)
  cases r with
  | ok a => exact yields_pure (hr a rfl)
  | error e => exact hh e h' hsuf

theorem yields_ite {c : Prop} [Decidable c] {p q : ExceptT ε (Prog S) α} {h : List (Event S)}
    (hp : c → Yields D p h Q) (hq : ¬c → Yields D q h Q) :
    Yields D (if c then p else q) h Q := by
  split
  · exact hp ‹_›
  · exact hq ‹_›

-- From here on only the rules look inside: unfolding would run the program.
attribute [irreducible] Yields

/-! ## Which calls a program can make at all -/

/-- Every call the program can make satisfies `P`, whatever the answers. -/
def Only (P : S.Op → Prop) : Prog S α → Prop
  | .ret _ => True
  | .call op k => P op ∧ ∀ r, (k r).Only P

variable {P P' : S.Op → Prop}

theorem Only.mono {p : Prog S α} (hp : p.Only P) (hP : ∀ op, P op → P' op) : p.Only P' := by
  induction p with
  | ret a => trivial
  | call op k ih => exact ⟨hP op hp.1, fun r => ih r (hp.2 r)⟩

theorem Only.bind {p : Prog S α} {f : α → Prog S β} (hp : p.Only P) (hf : ∀ a, (f a).Only P) :
    (p >>= f).Only P := by
  induction p with
  | ret a => exact hf a
  | call op k ih => exact ⟨hp.1, fun r => ih r (hp.2 r)⟩

/-- `h'` extends `h` by calls that satisfy `P`. -/
def Grows (P : S.Op → Prop) (h h' : List (Event S)) : Prop :=
  ∃ new, h' = new ++ h ∧ ∀ ev ∈ new, P ev.1

theorem Grows.refl (h : List (Event S)) : Grows P h h := ⟨[], rfl, by simp⟩

theorem Grows.suffix {h h' : List (Event S)} (hg : Grows P h h') : h <:+ h' := by
  obtain ⟨new, rfl, _⟩ := hg
  exact List.suffix_append new h

theorem Grows.mem {h h' : List (Event S)} (hg : Grows P h h') {ev : Event S} (hev : ev ∈ h') :
    P ev.1 ∨ ev ∈ h := by
  obtain ⟨new, rfl, hnew⟩ := hg
  exact (List.mem_append.mp hev).imp_left (hnew ev)

theorem Grows.of_cons {op : S.Op} {r : S.Res op} {h h' : List (Event S)}
    (hg : Grows P (⟨op, r⟩ :: h) h') (hop : P op) : Grows P h h' := by
  obtain ⟨new, rfl, hnew⟩ := hg
  refine ⟨new ++ [⟨op, r⟩], by simp, fun ev hev => ?_⟩
  rcases List.mem_append.mp hev with hev | hev
  · exact hnew ev hev
  · rw [List.mem_singleton.mp hev]
    exact hop

/-- A call outside the footprint was made before the history grew. -/
theorem Grows.split {h h' h₁ h₂ : List (Event S)} {ev : Event S} (hg : Grows P h h')
    (heq : h' = h₁ ++ ev :: h₂) (hev : ¬ P ev.1) :
    ∃ mid, h = mid ++ ev :: h₂ ∧ mid <:+ h₁ := by
  obtain ⟨new, rfl, hnew⟩ := hg
  rcases List.append_eq_append_iff.mp heq with ⟨mid, rfl, hh⟩ | ⟨mid, rfl, hmid⟩
  · exact ⟨mid, hh, List.suffix_append new mid⟩
  · cases mid with
    | nil => exact ⟨[], hmid.symm, List.nil_suffix⟩
    | cons ev' mid =>
      cases hmid
      exact absurd (hnew ev (by simp)) hev

/-- What a program can call bounds how the history grows. -/
theorem Along.only {p : Prog S α} {h : List (Event S)} (hp : p.Along D Q h) (honly : p.Only P) :
    p.Along D (fun h' a => Grows P h h' ∧ Q h' a) h := by
  induction p generalizing h with
  | ret a => exact ⟨.refl h, hp⟩
  | call op k ih =>
    refine ⟨hp.1, fun r hr => Along.mono (ih r (hp.2 r hr) (honly.2 r)) (fun h' a _ hq => ?_)⟩
    exact ⟨hq.1.of_cons honly.1, hq.2⟩

/-- A program whose footprint is allowed everywhere makes the calls of its footprint. -/
theorem Only.along {p : Prog S α} (hD : ∀ h op, P op → D.allows h op) (hp : p.Only P)
    (h : List (Event S)) : p.Along D (fun h' _ => Grows P h h') h := by
  induction p generalizing h with
  | ret a => exact .refl h
  | call op k ih =>
    refine ⟨hD h op hp.1, fun r _ => ?_⟩
    exact Along.mono (ih r (hp.2 r) _) (fun _ _ _ hg => hg.of_cons hp.1)

theorem Only.yields {p : ExceptT ε (Prog S) α} (hD : ∀ h op, P op → D.allows h op)
    (hp : p.run.Only P) (h : List (Event S)) : Yields D p h (fun h' _ => Grows P h h') :=
  .intro (Along.mono (hp.along hD h) (fun _ _ _ hg _ _ => hg))

/-- Once a fact that cannot be lost licenses every call, the rest of the program is
    free. -/
theorem yields_of_licensed {F : List (Event S) → Prop} {p : ExceptT ε (Prog S) α}
    {h : List (Event S)} (hF : F h) (hmono : ∀ h h', h <:+ h' → F h → F h')
    (hD : ∀ h op, F h → D.allows h op) : Yields D p h (fun h' _ => F h') := by
  have along : ∀ (q : Prog S (Except ε α)) (h : List (Event S)), F h →
      q.Along D (fun h' _ => F h') h := by
    intro q
    induction q with
    | ret a => exact fun h hF => hF
    | call op k ih =>
      exact fun h hF => ⟨hD h op hF, fun r _ => ih r _ (hmono h _ (List.suffix_cons _ _) hF)⟩
  exact .intro (Along.mono (along p.run h hF) (fun _ _ _ hq _ _ => hq))

theorem Yields.only {p : ExceptT ε (Prog S) α} {h : List (Event S)} (hp : Yields D p h Q)
    (honly : p.run.Only P) : Yields D p h (fun h' a => Grows P h h' ∧ Q h' a) :=
  .intro (Along.mono (hp.along.only honly) (fun _ _ _ hq a ha => ⟨hq.1, hq.2 a ha⟩))

theorem only_pure {a : α} : (pure a : ExceptT ε (Prog S) α).run.Only P := trivial

theorem only_throw {e : ε} : (throw e : ExceptT ε (Prog S) α).run.Only P := trivial

theorem only_bind {p : ExceptT ε (Prog S) α} {f : α → ExceptT ε (Prog S) β} (hp : p.run.Only P)
    (hf : ∀ a, (f a).run.Only P) : (p >>= f).run.Only P := by
  refine Only.bind hp (fun r => ?_)
  cases r with
  | ok a => exact hf a
  | error e => trivial

theorem only_lift {p : Prog S α} (hp : p.Only P) :
    (ExceptT.lift p : ExceptT ε (Prog S) α).run.Only P := Only.bind hp (fun _ => trivial)

/-- A call whose answer is the outcome. -/
theorem only_request {op : S.Op} {k : S.Res op → Except ε α} (hop : P op) :
    (ExceptT.mk (Prog.call op (fun r => .ret (k r)))).run.Only P := ⟨hop, fun _ => trivial⟩

/-- A call that cannot fail. -/
theorem only_query {op : S.Op} (hop : P op) :
    (ExceptT.lift (Prog.call op .ret) : ExceptT ε (Prog S) (S.Res op)).run.Only P :=
  only_lift ⟨hop, fun _ => trivial⟩

theorem only_attempt {p : ExceptT ε (Prog S) α} (hp : p.run.Only P) :
    (attempt p).run.Only P := only_lift hp

theorem only_onError {p : ExceptT ε (Prog S) α} {handler : ε → ExceptT ε (Prog S) Unit}
    (hp : p.run.Only P) (hh : ∀ e, (handler e).run.Only P) : (onError p handler).run.Only P := by
  refine only_bind (only_attempt hp) (fun r => ?_)
  cases r with
  | ok a => exact only_pure
  | error e => exact only_bind (hh e) (fun _ => only_throw)

theorem only_ite {c : Prop} [Decidable c] {p q : ExceptT ε (Prog S) α} (hp : p.run.Only P)
    (hq : q.run.Only P) : (if c then p else q).run.Only P := by
  split
  · exact hp
  · exact hq

/-! ## What a program leaves behind, failing or not -/

/-- The path condition for a program that may fail, with a condition on either
    kind of leaf. -/
def Ends (D : Discipline S) (p : ExceptT ε (Prog S) α) (h : List (Event S))
    (Q : List (Event S) → α → Prop) (E : List (Event S) → Prop) : Prop :=
  p.run.Along D (fun h' r => (∀ a, r = .ok a → Q h' a) ∧ ∀ e, r = .error e → E h') h

variable {E : List (Event S) → Prop}

theorem Ends.along {p : ExceptT ε (Prog S) α} {h : List (Event S)}
    (hp : Ends D p h (fun h' _ => E h') E) : p.run.Along D (fun h' _ => E h') h := by
  refine Along.mono hp (fun h' r _ hr => ?_)
  cases r with
  | ok a => exact hr.1 a rfl
  | error e => exact hr.2 e rfl

theorem ends_ret {r : Except ε α} {h : List (Event S)} (hQ : ∀ a, r = .ok a → Q h a)
    (hE : ∀ e, r = .error e → E h) : Ends D (ExceptT.mk (.ret r)) h Q E := ⟨hQ, hE⟩

theorem ends_pure {a : α} {h : List (Event S)} (hQ : Q h a) :
    Ends D (pure a : ExceptT ε (Prog S) α) h Q E := by
  refine ends_ret (fun b hb => ?_) (fun e he => ?_)
  · cases hb; exact hQ
  · cases he

theorem ends_throw {e : ε} {h : List (Event S)} (hE : E h) :
    Ends D (throw e : ExceptT ε (Prog S) α) h Q E := by
  refine ends_ret (fun b hb => ?_) (fun _ _ => hE)
  cases hb

theorem ends_call {op : S.Op} {k : S.Res op → Prog S (Except ε α)} {h : List (Event S)}
    (hop : D.allows h op)
    (hk : ∀ r, D.legal op r → Ends D (ExceptT.mk (k r)) (⟨op, r⟩ :: h) Q E) :
    Ends D (ExceptT.mk (Prog.call op k)) h Q E := ⟨hop, hk⟩

theorem ends_bind {p : ExceptT ε (Prog S) α} {f : α → ExceptT ε (Prog S) β}
    {Q : List (Event S) → β → Prop} {h : List (Event S)} (hp : Ends D p h R E)
    (hf : ∀ a h', R h' a → Ends D (f a) h' Q E) : Ends D (p >>= f) h Q E := by
  apply along_bind
  refine Along.mono hp (fun h' r _ hr => ?_)
  cases r with
  | ok a => exact hf a h' (hr.1 a rfl)
  | error e => exact ends_throw (hr.2 e rfl)

/-- A lifted program does not fail. -/
theorem ends_lift {p : Prog S α} {h : List (Event S)} (hp : p.Along D Q h) :
    Ends D (ExceptT.lift p : ExceptT ε (Prog S) α) h Q E := by
  apply along_bind
  refine Along.mono hp (fun h' a _ hq => ⟨fun b hb => ?_, fun e he => ?_⟩)
  · cases hb; exact hq
  · cases he

/-- An attempt does not fail, so what it leaves behind is told by its value. -/
theorem ends_attempt {p : ExceptT ε (Prog S) α} {h : List (Event S)} {E' : List (Event S) → Prop}
    (hp : Ends D p h Q E) :
    Ends D (attempt p) h (fun h' r => (∀ a, r = .ok a → Q h' a) ∧ ∀ e, r = .error e → E h') E' :=
  ends_lift hp

theorem ends_ite {c : Prop} [Decidable c] {p q : ExceptT ε (Prog S) α} {h : List (Event S)}
    (hp : c → Ends D p h Q E) (hq : ¬c → Ends D q h Q E) :
    Ends D (if c then p else q) h Q E := by
  split
  · exact hp ‹_›
  · exact hq ‹_›

/-- What the calls of a footprint keep holds at every leaf. -/
theorem ends_only {p : ExceptT ε (Prog S) α} (hD : ∀ h op, P op → D.allows h op)
    (hp : p.run.Only P) {h : List (Event S)} (hE : ∀ h', Grows P h h' → E h') :
    Ends D p h (fun h' _ => E h') E :=
  Along.mono (hp.along hD h) (fun h' _ _ hg => ⟨fun _ _ => hE h' hg, fun _ _ => hE h' hg⟩)

-- As for `Yields`, only the rules look inside.
attribute [irreducible] Ends

end Prog

end Interaction
