-- SUMMARY: How often the default limiter lets one key through, with the questions reaching it in any order of their times.
import Sulis.Facts.Meters

/-!
# The rate of a key

The limiter reads the clock before it takes its lock, so questions can reach a bucket in
another order than that of their times. A late one adds nothing to the bucket. So what a key
gets is bounded by the burst and by the span of its times alone.
-/

namespace Sulis.MemoryLimiter

open Rate

variable {l : MemoryLimiter} {key : String} {q : Question} {qs : List Question}

/-- The bucket of the key, once there, is never dropped. -/
def Keeps (key : String) : MemoryLimiter → List Question → Prop
  | _, [] => True
  | l, q :: qs => ((l.meter key).isSome → ((l.next q).meter key).isSome) ∧ Keeps key (l.next q) qs

instance decidableKeeps (key : String) :
    (l : MemoryLimiter) → (qs : List Question) → Decidable (Keeps key l qs)
  | _, [] => inferInstanceAs (Decidable True)
  | l, q :: qs =>
    have := decidableKeeps key (l.next q) qs
    inferInstanceAs (Decidable (_ ∧ _))

/-- The questions about the key. -/
def about (key : String) (qs : List Question) : List Question := qs.filter (fun q => q.key = key)

/-- How many of them are let through. -/
def allowed (key : String) (l : MemoryLimiter) (qs : List Question) : Nat :=
  (answersTo key l qs).countP (·.isOk)

theorem about_cons_self : about key (q :: qs) = if q.key = key then q :: about key qs else about key qs := by
  simp [about, List.filter_cons]

/-- The answers about a key are those of its meter, at the times of its own questions. -/
theorem answersTo_eq (hlim : l.Limited key) (hkeeps : Keeps key l qs) :
    answersTo key l qs = (Meter.answers (l.budgetFor key).burst (l.budgetFor key).interval (l.meter key)
      ((about key qs).map Question.now)).map verdict := by
  induction qs generalizing l with
  | nil => rfl
  | cons q qs ih =>
    have hlim' : (l.next q).Limited key := next_config.limited.mpr hlim
    have hrest := ih hlim' hkeeps.2
    rw [next_config.budgetFor] at hrest
    rw [answersTo, about_cons_self, hrest]
    by_cases hkey : q.key = key
    · subst hkey
      obtain ⟨hanswer, hmeter⟩ := next_self hlim
      rw [if_pos rfl, if_pos rfl, hanswer, hmeter]
      rfl
    · rw [if_neg hkey, if_neg hkey]
      rcases next_other (l := l) hkey with hsame | hnone
      · rw [hsame]
      · -- Nothing is dropped, so there was no bucket to begin with.
        have hempty : l.meter key = none := by
          cases hm : l.meter key with
          | none => rfl
          | some m =>
            have hsome := hkeeps.1 (by rw [hm]; rfl)
            rw [hnone] at hsome
            cases hsome
        rw [hnone, hempty]

/-- Nobody else drops anything if nobody else asks. -/
theorem keeps_of_alone (hlim : l.Limited key) (halone : ∀ q ∈ qs, q.key = key) : Keeps key l qs := by
  induction qs generalizing l with
  | nil => trivial
  | cons q qs ih =>
    obtain ⟨rfl, hrest⟩ := List.forall_mem_cons.mp halone
    refine ⟨fun _ => ?_, ih (next_config.limited.mpr hlim) hrest⟩
    rw [(next_self hlim).2]
    rfl

theorem about_about : about key (about key qs) = about key qs := by
  simp [about, List.filter_filter]

/-- As long as the bucket of a key is not dropped, the key is let through at most as often as
    its burst and the span of its times give, its level stays between nothing and the burst, and
    its answers are those it would get alone. -/
theorem rate_bounded (hlim : l.Limited key) (hnone : l.meter key = none) (hkeeps : Keeps key l qs) :
    (∀ lo hi : Time, lo ≤ hi → (∀ q ∈ about key qs, lo ≤ q.now ∧ q.now ≤ hi) →
      (allowed key l qs : ℚ) ≤ (l.budgetFor key).burst + intervals (l.budgetFor key) lo hi) ∧
    (∀ before rest, qs = before ++ rest → ∀ bkt ∈ (l.after before).buckets, bkt.key = key →
      0 ≤ bkt.tokens ∧ bkt.tokens ≤ (l.budgetFor key).burst) ∧
    answersTo key l qs = answersTo key l (about key qs) := by
  refine ⟨fun lo hi hle htimes => ?_, ?_, ?_⟩
  · have hcount : (allowed key l qs) = (Meter.answers (l.budgetFor key).burst
        (l.budgetFor key).interval none ((about key qs).map Question.now)).count true := by
      rw [allowed, answersTo_eq hlim hkeeps, hnone, List.countP_map, List.count]
      refine List.countP_congr fun b _ => ?_
      cases b <;> simp [verdict, Except.isOk, Except.toBool]
    rw [hcount]
    refine Meter.count_fresh_le (Int.cast_nonneg hlim.1.le) (Int.cast_pos.mpr hlim.2) hle ?_
    intro t ht
    obtain ⟨q, hq, rfl⟩ := List.mem_map.mp ht
    exact htimes q hq
  · rintro before rest rfl bkt hbkt rfl
    obtain ⟨-, hsane⟩ := (metered_of_none hnone).after _ (meter_of_mem hbkt)
    rwa [after_config.budgetFor] at hsane
  · have halone : Keeps key l (about key qs) :=
      keeps_of_alone hlim fun q hq => of_decide_eq_true (List.mem_filter.mp hq).2
    rw [answersTo_eq hlim hkeeps, answersTo_eq hlim halone, about_about]

/-- Five questions to a limiter that lets two through and then one every ten nanoseconds. The
    second question about "a" reaches the lock after the third, with the earlier time. -/
def lateQuestion : List Question :=
  [⟨"a", 0, {}⟩, ⟨"a", 30, {}⟩, ⟨"b", 31, {}⟩, ⟨"a", 5, {}⟩, ⟨"a", 32, {}⟩]

def twoPerTen : MemoryLimiter := { budgets := [("a", ⟨2, 10⟩)], fallback := ⟨0, 0⟩, maxKeys := 3 }

theorem rate_bounded_lateQuestion :
    allowed "a" twoPerTen lateQuestion = 3 ∧
      (allowed "a" twoPerTen lateQuestion : ℚ) ≤ 2 + intervals ⟨2, 10⟩ 0 32 := by
  have hlim : twoPerTen.Limited "a" := ⟨by decide, by decide⟩
  have hkeeps : Keeps "a" twoPerTen lateQuestion := by decide +kernel
  refine ⟨by decide +kernel, (rate_bounded hlim rfl hkeeps).1 0 32 (by decide) ?_⟩
  decide

end Sulis.MemoryLimiter
