-- SUMMARY: The buckets of the default limiter hold what the questions about their keys leave them.
import Sulis.Model.Limiter
import Sulis.Rate.Reserve

/-!
# Buckets

Every bucket of a `MemoryLimiter` keeps the reserve of its key. Eviction only helps:
a key whose bucket is gone gets a full one when it is asked about again.
-/

namespace Sulis.MemoryLimiter

variable {l₀ l : MemoryLimiter} {qs : List (String × Time)} {key : String} {now past : Time}
  {bkt : Bucket}

/-- The times of the questions about a key. -/
def askedAt (qs : List (String × Time)) (key : String) : List Time :=
  (qs.filter (fun q => q.1 = key)).map Prod.snd

theorem mem_askedAt {t : Time} : t ∈ askedAt qs key ↔ (key, t) ∈ qs := by
  simp [askedAt]

theorem askedAt_cons_self : askedAt ((key, now) :: qs) key = now :: askedAt qs key := by
  simp [askedAt]

theorem askedAt_cons_of_ne {key' : String} (h : key' ≠ key) :
    askedAt ((key', now) :: qs) key = askedAt qs key := by
  simp [askedAt, h]

/-- Every key has a budget that lets something through. -/
def Positive (l : MemoryLimiter) : Prop :=
  ∀ key, 1 ≤ (l.budgetFor key).burst ∧ 0 < (l.budgetFor key).interval

/-- The reserve of a key under the budgets of `l`. -/
def Reserve (l : MemoryLimiter) (qs : List (String × Time)) (key : String) (now : Time)
    (level : ℚ) : Prop :=
  Rate.Reserve (l.budgetFor key).burst (l.budgetFor key).interval (askedAt qs key) now level

/-- The key can be asked about once more. -/
def Ample (l : MemoryLimiter) (qs : List (String × Time)) (key : String) (now : Time) : Prop :=
  Rate.Ample (l.budgetFor key).burst (l.budgetFor key).interval (askedAt qs key) now

/-- The buckets of `l` after the given questions, the last of them not after `now`,
    to a limiter with the budgets of `l₀`. -/
structure Reserved (l₀ l : MemoryLimiter) (qs : List (String × Time)) (now : Time) : Prop where
  budgets : l.budgets = l₀.budgets ∧ l.fallback = l₀.fallback
  touched : ∀ bkt ∈ l.buckets, bkt.last ≤ now ∧ ∀ t ∈ askedAt qs bkt.key, t ≤ bkt.last
  reserve : ∀ bkt ∈ l.buckets, l₀.Reserve qs bkt.key bkt.last bkt.tokens
  past : ∀ q ∈ qs, q.2 ≤ now

theorem Reserved.budgetFor (h : Reserved l₀ l qs now) (key : String) :
    l.budgetFor key = l₀.budgetFor key := by
  rw [MemoryLimiter.budgetFor, MemoryLimiter.budgetFor, h.budgets.1, h.budgets.2]

theorem reserved_start (h : ∀ bkt, ¬ bkt ∈ l₀.buckets) : Reserved l₀ l₀ [] now where
  budgets := ⟨rfl, rfl⟩
  touched := fun bkt hbkt => absurd hbkt (h bkt)
  reserve := fun bkt hbkt => absurd hbkt (h bkt)
  past := fun _ hq => absurd hq List.not_mem_nil

theorem Reserved.later (h : Reserved l₀ l qs past) (hle : past ≤ now) : Reserved l₀ l qs now where
  budgets := h.budgets
  touched := fun bkt hbkt => ⟨(h.touched bkt hbkt).1.trans hle, (h.touched bkt hbkt).2⟩
  reserve := h.reserve
  past := fun q hq => (h.past q hq).trans hle

/-! ## One question -/

theorem evictIfNeeded_spec (l : MemoryLimiter) (ch : LimiterChoice) :
    ((l.evictIfNeeded ch).budgets = l.budgets ∧ (l.evictIfNeeded ch).fallback = l.fallback) ∧
      ∀ bkt ∈ (l.evictIfNeeded ch).buckets, bkt ∈ l.buckets := by
  unfold evictIfNeeded
  split
  · exact ⟨⟨rfl, rfl⟩, fun _ h => h⟩
  · dsimp only
    split
    · exact ⟨⟨rfl, rfl⟩, fun _ h => (Store.Table.mem_filter.mp h).1⟩
    · exact ⟨⟨rfl, rfl⟩, fun _ h => (Store.Table.mem_filter.mp (Store.Table.mem_erase.mp h).1).1⟩

theorem Reserved.evict (h : Reserved l₀ l qs now) (ch : LimiterChoice) :
    Reserved l₀ (l.evictIfNeeded ch) qs now := by
  obtain ⟨hbudgets, hsub⟩ := l.evictIfNeeded_spec ch
  refine ⟨⟨hbudgets.1.trans h.budgets.1, hbudgets.2.trans h.budgets.2⟩, ?_, ?_, h.past⟩
  · exact fun bkt hbkt => h.touched bkt (hsub bkt hbkt)
  · exact fun bkt hbkt => h.reserve bkt (hsub bkt hbkt)

/-- Taking a token costs at most one, and a bucket that has one gives it. -/
theorem take_spec (l : MemoryLimiter) (bkt : Bucket) :
    (1 ≤ bkt.tokens → (l.take bkt).1 = .ok ()) ∧
      ∃ tokens, bkt.tokens - 1 ≤ tokens ∧
        (l.take bkt).2 = { l with buckets := l.buckets.put { bkt with tokens := tokens } } := by
  unfold take
  split
  · rename_i hlt
    exact ⟨fun hle => absurd hlt (not_lt.mpr hle), bkt.tokens, by linarith, rfl⟩
  · exact ⟨fun _ => rfl, bkt.tokens - 1, le_rfl, rfl⟩

theorem refill_spec {b : Budget} (hpos : 0 < b.interval) (hlast : bkt.last ≤ now)
    {asked : List Time} (h : Rate.Reserve b.burst b.interval asked bkt.last bkt.tokens) :
    (refill b now bkt).key = bkt.key ∧ (refill b now bkt).last = now ∧
      Rate.Reserve b.burst b.interval asked now (refill b now bkt).tokens := by
  have hinterval : (0 : ℚ) < b.interval := Int.cast_pos.mpr hpos
  unfold refill
  dsimp only
  split
  · rename_i hlt
    exact ⟨rfl, rfl, h.wait hlt.le⟩
  · rename_i hnot
    have hsame : bkt.last = now := by
      refine le_antisymm hlast (not_lt.mp (fun hlt => hnot ?_))
      exact div_pos (Int.cast_pos.mpr (sub_pos.mpr hlt)) hinterval
    rw [← hsame]
    exact ⟨rfl, rfl, h⟩

/-- A bucket brought up to now and asked. -/
theorem Reserved.take (h : Reserved l₀ l qs now) (hpos : l₀.Positive) (hlast : bkt.last = now)
    (hreserve : l₀.Reserve qs bkt.key now bkt.tokens) :
    Reserved l₀ (l.take bkt).2 ((bkt.key, now) :: qs) now ∧
      (l₀.Ample qs bkt.key now → (l.take bkt).1 = .ok ()) := by
  obtain ⟨hok, tokens, htokens, heq⟩ := l.take_spec bkt
  have hasked : ∀ t ∈ askedAt qs bkt.key, t ≤ now := fun t ht => h.past _ (mem_askedAt.mp ht)
  refine ⟨?_, fun hample => hok (Rate.Reserve.one_le hreserve hample ?_)⟩
  · rw [heq]
    refine ⟨h.budgets, fun bkt' hbkt' => ?_, fun bkt' hbkt' => ?_, fun q hq => ?_⟩
    · rcases Store.Table.mem_put.mp hbkt' with rfl | ⟨hmem, hne⟩
      · dsimp only
        rw [hlast, askedAt_cons_self]
        exact ⟨le_rfl, List.forall_mem_cons.mpr ⟨le_rfl, hasked⟩⟩
      · rw [askedAt_cons_of_ne hne.symm]
        exact h.touched bkt' hmem
    · rcases Store.Table.mem_put.mp hbkt' with rfl | ⟨hmem, hne⟩
      · simp only [MemoryLimiter.Reserve, hlast, askedAt_cons_self]
        exact Rate.Reserve.ask hreserve hasked htokens
      · rw [MemoryLimiter.Reserve, askedAt_cons_of_ne hne.symm]
        exact h.reserve bkt' hmem
    · rcases List.mem_cons.mp hq with rfl | hq
      · exact le_rfl
      · exact h.past q hq
  · exact_mod_cast (hpos bkt.key).1

/-- One question keeps the reserves, and is let through if its key was not asked about
    too often. -/
theorem Reserved.allow (h : Reserved l₀ l qs past) (hpos : l₀.Positive) (hle : past ≤ now)
    (key : String) (ch : LimiterChoice) :
    Reserved l₀ (l.allow key now ch).2 ((key, now) :: qs) now ∧
      (l₀.Ample qs key now → (l.allow key now ch).1 = .ok ()) := by
  have hnow := h.later hle
  have hbudget := h.budgetFor key
  have hkey := hpos key
  unfold MemoryLimiter.allow
  dsimp only
  have hactive : ¬ ((l₀.budgetFor key).burst ≤ 0 ∨ (l₀.budgetFor key).interval ≤ 0) :=
    not_or.mpr ⟨not_le.mpr (lt_of_lt_of_le one_pos hkey.1), not_le.mpr hkey.2⟩
  rw [hbudget, if_neg hactive]
  cases hget : l.buckets.get? key with
  | none =>
    exact (hnow.evict ch).take hpos rfl (Or.inl le_rfl)
  | some bkt =>
    obtain ⟨hmem, rfl⟩ := Store.Table.get?_eq_some.mp hget
    obtain ⟨hrefkey, hlast, hreserve⟩ :=
      refill_spec hkey.2 (hnow.touched bkt hmem).1 (h.reserve bkt hmem)
    have htake := hnow.take hpos hlast (show l₀.Reserve qs (refill _ now bkt).key now _ by
      rw [hrefkey]; exact hreserve)
    rw [hrefkey] at htake
    exact htake

/-! ## The default budgets -/

/-- The budget of a key is one of those listed, or the fallback. -/
theorem bestBudget_mem (key : String) (budgets : List (String × Budget)) (best : Budget × Int) :
    bestBudget key budgets best = best.1 ∨ ∃ p ∈ budgets, bestBudget key budgets best = p.2 := by
  induction budgets generalizing best with
  | nil => exact Or.inl rfl
  | cons p rest ih =>
    rw [bestBudget]
    split
    · rcases ih (p.2, p.1.length) with h | ⟨q, hq, h⟩
      · exact Or.inr ⟨p, List.mem_cons_self, h⟩
      · exact Or.inr ⟨q, List.mem_cons_of_mem _ hq, h⟩
    · rcases ih best with h | ⟨q, hq, h⟩
      · exact Or.inl h
      · exact Or.inr ⟨q, List.mem_cons_of_mem _ hq, h⟩

/-- Every default budget lets at least five through. -/
theorem new_budgetFor (key : String) :
    5 ≤ (new.budgetFor key).burst ∧ 0 < (new.budgetFor key).interval := by
  have hlisted : ∀ p ∈ new.budgets, 5 ≤ p.2.burst ∧ 0 < p.2.interval := by decide
  rcases bestBudget_mem key new.budgets (new.fallback, -1) with h | ⟨p, hp, h⟩
  · rw [MemoryLimiter.budgetFor, h]
    decide
  · rw [MemoryLimiter.budgetFor, h]
    exact hlisted p hp

theorem new_positive : new.Positive := by
  intro key
  exact ⟨le_trans (by decide) (new_budgetFor key).1, (new_budgetFor key).2⟩

end Sulis.MemoryLimiter
