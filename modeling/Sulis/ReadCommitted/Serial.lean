-- SUMMARY: Calls executed one at a time, and what it means that concurrent calls look as if they had been.
import Sulis.ReadCommitted.Run

/-!
# Serial executions

A specification executes a call at once. A list of calls with what they returned is
serial if executing them one after the other returns just that.
-/

namespace ReadCommitted

variable {σ ρ κ γ α : Type}

/-- A call of a session, with what it returned. -/
structure Entry (γ α : Type) where
  session : Nat
  call : γ
  out : α
  deriving DecidableEq, Repr

/-- Executing the calls one after the other leads from the one state to the other, and
    each returns what it is said to. -/
def Serial (exec : σ → γ → α × σ) : σ → List (Entry γ α) → σ → Prop
  | s, [], t => s = t
  | s, e :: rest, t => (exec s e.call).1 = e.out ∧ Serial exec (exec s e.call).2 rest t

/-- The list has every call that has returned without an error of the storage, once, and
    no other call. -/
def Records (log : List (Entry γ α)) (c : Config ρ κ γ α) : Prop :=
  (log.map Entry.session).Nodup ∧
    ∀ i call out, ⟨i, call, out⟩ ∈ log ↔ c.returned i = some (call, some out)

/-- Of two calls, a log has the one or the other first. -/
theorem Records.eq_pair {log : List (Entry γ α)} {c : Config ρ κ γ α} {call call' : γ} {out out' : α}
    (h : Records log c) (hlen : c.sessions.length = 2) (hfst : c.returned 0 = some (call, some out))
    (hsnd : c.returned 1 = some (call', some out')) :
    log = [⟨0, call, out⟩, ⟨1, call', out'⟩] ∨ log = [⟨1, call', out'⟩, ⟨0, call, out⟩] := by
  obtain ⟨hnodup, hlog⟩ := h
  have hmem : ∀ e, e ∈ log ↔ e ∈ ([⟨0, call, out⟩, ⟨1, call', out'⟩] : List (Entry γ α)) := by
    rintro ⟨i, call'', out''⟩
    rw [hlog i call'' out'']
    constructor
    · intro hreturned
      obtain ⟨s, hs, -, -⟩ := Config.returned_eq_some.mp hreturned
      have hlt : i < 2 := hlen ▸ (List.getElem?_eq_some_iff.mp hs).1
      obtain rfl | rfl : i = 0 ∨ i = 1 := by omega
      · cases hfst.symm.trans hreturned
        simp
      · cases hsnd.symm.trans hreturned
        simp
    · intro hpair
      rcases List.mem_cons.mp hpair with heq | hpair
      · cases heq
        exact hfst
      · cases List.mem_singleton.mp hpair
        exact hsnd
  have hperm : log.Perm [⟨0, call, out⟩, ⟨1, call', out'⟩] :=
    (List.perm_ext_iff_of_nodup (List.Nodup.of_map _ hnodup) (by simp)).mpr hmem
  rcases List.length_eq_two.mp hperm.length_eq with ⟨a, b, rfl⟩
  have ha := (hmem a).mp (by simp)
  have hb := (hmem b).mp (by simp)
  simp only [List.mem_cons, List.not_mem_nil, or_false] at ha hb
  rcases ha with rfl | rfl <;> rcases hb with rfl | rfl <;> simp at hnodup ⊢

namespace Serial

variable {exec : σ → γ → α × σ} {s t u : σ} {log log' : List (Entry γ α)} {e e' : Entry γ α}

theorem append : Serial exec s (log ++ log') u ↔ ∃ t, Serial exec s log t ∧ Serial exec t log' u := by
  induction log generalizing s with
  | nil => simp [Serial]
  | cons e rest ih =>
    simp only [List.cons_append, Serial, ih]
    constructor
    · rintro ⟨hout, t, hlog, hlog'⟩
      exact ⟨t, ⟨hout, hlog⟩, hlog'⟩
    · rintro ⟨t, ⟨hout, hlog⟩, hlog'⟩
      exact ⟨hout, t, hlog, hlog'⟩

theorem concat (h : Serial exec s log t) (hexec : exec t e.call = (e.out, u)) :
    Serial exec s (log ++ [e]) u := by
  refine append.mpr ⟨t, h, ?_, ?_⟩
  · rw [hexec]
  · rw [hexec]
    rfl

/-- A call can be put in front of one that does the same whether or not it came first. -/
theorem insert (h : Serial exec s (log ++ e :: log') u)
    (hout : ∀ t, (exec t e'.call).1 = e'.out)
    (hnext : ∀ t, exec (exec t e'.call).2 e.call = exec t e.call) :
    Serial exec s (log ++ e' :: e :: log') u := by
  obtain ⟨t, hlog, hrest⟩ := append.mp h
  refine append.mpr ⟨t, hlog, hout t, ?_⟩
  rw [Serial, hnext t]
  exact hrest

/-- Calls that change nothing can be left out. -/
theorem filter (keep : Entry γ α → Bool) (h : Serial exec s log u)
    (hkeep : ∀ e ∈ log, keep e = false → ∀ t, (exec t e.call).1 = e.out → (exec t e.call).2 = t) :
    Serial exec s (log.filter keep) u := by
  induction log generalizing s with
  | nil => exact h
  | cons e rest ih =>
    obtain ⟨hout, hrest⟩ := h
    have ih := ih hrest fun e' he' => hkeep e' (List.mem_cons_of_mem e he')
    cases hk : keep e with
    | true =>
      rw [List.filter_cons_of_pos hk]
      exact ⟨hout, ih⟩
    | false =>
      rw [List.filter_cons_of_neg (by simp [hk])]
      rw [hkeep e List.mem_cons_self hk s hout] at ih
      exact ih

end Serial

end ReadCommitted
