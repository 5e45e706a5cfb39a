-- SUMMARY: How far a token bucket can have been drained, by the times at which it was asked.
import Mathlib.Algebra.Order.Field.Rat
import Mathlib.Algebra.Order.Group.MinMax
import Mathlib.Data.List.Perm.Subperm
import Mathlib.Tactic.Linarith

/-!
# Token buckets

A bucket of a given capacity gains one token every interval, up to its capacity, and
loses at most one for each question it is asked. Whatever it has lost, it has lost to
the questions from some moment on: since then it has gained what it gains and has lost
at most one token each. `Reserve` is this lower bound.
-/

namespace Rate

/-- The time between two instants, in intervals. -/
def elapsed (interval : ℚ) (since now : ℤ) : ℚ := ((now - since : ℤ) : ℚ) / interval

/-- How many of the questions came at this time or later. -/
def since (asked : List ℤ) (t : ℤ) : ℕ := asked.countP (fun s => t ≤ s)

/-- The level is full, or no lower than the questions from one of them on account for. -/
def Reserve (cap interval : ℚ) (asked : List ℤ) (now : ℤ) (level : ℚ) : Prop :=
  cap ≤ level ∨ ∃ t ∈ asked, cap - since asked t + elapsed interval t now ≤ level

/-- One more question now does not ask for more than the bucket gives. -/
def Ample (cap interval : ℚ) (asked : List ℤ) (now : ℤ) : Prop :=
  ∀ t ∈ asked, (since asked t : ℚ) + 1 ≤ cap + elapsed interval t now

variable {cap interval level level' : ℚ} {asked asked' : List ℤ} {t s now : ℤ}

theorem elapsed_self : elapsed interval now now = 0 := by
  simp [elapsed]

theorem elapsed_add (t s now : ℤ) :
    elapsed interval t s + elapsed interval s now = elapsed interval t now := by
  rw [elapsed, elapsed, elapsed, ← add_div, ← Int.cast_add]
  congr 2
  omega

theorem since_cons : since (s :: asked) t = since asked t + if t ≤ s then 1 else 0 := by
  simp [since, List.countP_cons]

/-- Waiting fills the bucket, up to its capacity. -/
theorem Reserve.wait (h : Reserve cap interval asked s level) (hpos : 0 ≤ elapsed interval s now) :
    Reserve cap interval asked now (min cap (level + elapsed interval s now)) := by
  rcases h with h | ⟨t, ht, h⟩
  · exact Or.inl (le_min le_rfl (by linarith))
  · rcases le_total cap (level + elapsed interval s now) with hfull | hbelow
    · exact Or.inl (le_min le_rfl hfull)
    · refine Or.inr ⟨t, ht, ?_⟩
      rw [min_eq_right hbelow, ← elapsed_add t s now]
      linarith

/-- A question takes at most one token. -/
theorem Reserve.ask (h : Reserve cap interval asked now level) (hasked : ∀ t ∈ asked, t ≤ now)
    (hle : level - 1 ≤ level') : Reserve cap interval (now :: asked) now level' := by
  rcases h with h | ⟨t, ht, h⟩
  · refine Or.inr ⟨now, List.mem_cons_self, ?_⟩
    have : (0 : ℚ) ≤ since asked now := Nat.cast_nonneg _
    rw [since_cons, if_pos le_rfl, elapsed_self]
    push_cast
    linarith
  · refine Or.inr ⟨t, List.mem_cons_of_mem _ ht, ?_⟩
    rw [since_cons, if_pos (hasked t ht)]
    push_cast
    linarith

/-- A bucket that was not asked too often has a token left. -/
theorem Reserve.one_le (h : Reserve cap interval asked now level)
    (hample : Ample cap interval asked now) (hcap : 1 ≤ cap) : 1 ≤ level := by
  rcases h with h | ⟨t, ht, h⟩
  · exact hcap.trans h
  · have := hample t ht
    linarith

/-- Fewer questions ask for less. -/
theorem Ample.subperm (h : Ample cap interval asked now) (hsub : List.Subperm asked' asked) :
    Ample cap interval asked' now := by
  intro t ht
  have hcount : (since asked' t : ℚ) ≤ since asked t := Nat.cast_le.mpr (hsub.countP_le _)
  have := h t (hsub.subset ht)
  linarith

end Rate
