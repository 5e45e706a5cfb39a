-- SUMMARY: A token bucket as a state machine: its level, how much it lets through, and when a full one can be forgotten.
import Sulis.Rate.Reserve

/-!
# Token buckets in use

A meter has a level and the time up to which it has been filled. A question at some time
first fills it up to that time, if that is later, and then takes one token if there is one.
The times of the questions are in no order: an early one that comes late finds the meter
filled further than its own time, and adds nothing.
-/

namespace Rate

structure Meter where
  tokens : ℚ
  last : ℤ

variable (cap interval : ℚ)

namespace Meter

/-- Full at the time of its first question. -/
def fresh (now : ℤ) : Meter := ⟨cap, now⟩

def refill (m : Meter) (now : ℤ) : Meter :=
  if 0 < elapsed interval m.last now then
    ⟨min cap (m.tokens + elapsed interval m.last now), now⟩
  else m

/-- Whether there is a token to take, and what is left. -/
def take (m : Meter) : Bool × Meter :=
  if m.tokens < 1 then (false, m) else (true, ⟨m.tokens - 1, m.last⟩)

/-- A question to a meter, which is made for it if there is none. -/
def ask (m : Option Meter) (now : ℤ) : Bool × Meter :=
  match m with
  | none => (fresh cap now).take
  | some m => (m.refill cap interval now).take

/-- The answers to questions at the given times. -/
def answers : Option Meter → List ℤ → List Bool
  | _, [] => []
  | m, now :: later => (ask cap interval m now).1 :: answers (some (ask cap interval m now).2) later

/-- The level is one a meter can have. -/
def Sane (m : Meter) : Prop := 0 ≤ m.tokens ∧ m.tokens ≤ cap

/-- All of the capacity is there at that time. -/
def Full (m : Meter) (now : ℤ) : Prop := cap ≤ m.tokens + elapsed interval m.last now

end Meter

variable {cap interval} {m : Meter} {now lo hi : ℤ} {times : List ℤ}

theorem elapsed_nonneg (hinterval : 0 < interval) (h : lo ≤ hi) : 0 ≤ elapsed interval lo hi :=
  div_nonneg (Int.cast_nonneg (sub_nonneg.mpr h)) hinterval.le

theorem elapsed_pos_iff (hinterval : 0 < interval) : 0 < elapsed interval lo hi ↔ lo < hi := by
  rw [elapsed, lt_div_iff₀ hinterval, zero_mul, Int.cast_pos, sub_pos]

theorem elapsed_mono (hinterval : 0 < interval) (h : now ≤ hi) :
    elapsed interval lo now ≤ elapsed interval lo hi := by
  have hrest := elapsed_nonneg hinterval h
  rw [← elapsed_add lo now hi]
  linarith

namespace Meter

/-! ## Levels -/

theorem Sane.fresh (hcap : 0 ≤ cap) : (fresh cap now).Sane cap := ⟨hcap, le_rfl⟩

theorem Sane.refill (h : m.Sane cap) (hcap : 0 ≤ cap) : (m.refill cap interval now).Sane cap := by
  unfold Meter.refill
  split
  · rename_i hpos
    exact ⟨le_min hcap (add_nonneg h.1 hpos.le), min_le_left _ _⟩
  · exact h

theorem Sane.take (h : m.Sane cap) : m.take.2.Sane cap := by
  unfold Meter.take
  split
  · exact h
  · rename_i hlt
    exact ⟨sub_nonneg.mpr (not_lt.mp hlt), by have := h.2; dsimp only; linarith⟩

/-- A question leaves a level a meter can have. -/
theorem Sane.ask {m : Option Meter} (h : ∀ x, m = some x → x.Sane cap) (hcap : 0 ≤ cap) :
    (ask cap interval m now).2.Sane cap := by
  cases m with
  | none => exact (Sane.fresh hcap).take
  | some m => exact ((h m rfl).refill hcap).take

/-! ## How much is let through -/

/-- What a question lets through comes out of the level and of what was filled in. -/
theorem refill_le (hinterval : 0 < interval) :
    m.last ≤ (m.refill cap interval now).last ∧ (m.refill cap interval now).last ≤ max m.last now ∧
      (m.refill cap interval now).tokens ≤
        m.tokens + elapsed interval m.last (m.refill cap interval now).last := by
  unfold refill
  split
  · rename_i hpos
    have hlt := (elapsed_pos_iff hinterval).mp hpos
    exact ⟨hlt.le, le_max_right _ _, min_le_right _ _⟩
  · exact ⟨le_rfl, le_max_left _ _, by rw [elapsed_self, add_zero]⟩

theorem take_eq : (m.take.1.toNat : ℚ) + m.take.2.tokens = m.tokens ∧ m.take.2.last = m.last := by
  unfold take
  split
  · exact ⟨by simp, rfl⟩
  · exact ⟨by simp, rfl⟩

/-- A question does not fill a meter beyond its own time. -/
theorem ask_last_le {m : Option Meter} (hinterval : 0 < interval) (h : ∀ x, m = some x → x.last ≤ now) :
    (ask cap interval m now).2.last ≤ now := by
  cases m with
  | none => exact take_eq.2.le
  | some m => exact take_eq.2.le.trans ((refill_le hinterval).2.1.trans (max_le (h m rfl) le_rfl))

/-- From a meter filled up to some time on, no more comes out than was in it and has been
    filled in since, whatever the order of the questions. -/
theorem count_le (hcap : 0 ≤ cap) (hinterval : 0 < interval) (h : m.Sane cap) (hlast : m.last ≤ hi)
    (htimes : ∀ t ∈ times, t ≤ hi) :
    ((answers cap interval (some m) times).count true : ℚ) ≤ m.tokens + elapsed interval m.last hi := by
  induction times generalizing m with
  | nil =>
    rw [answers, List.count_nil, Nat.cast_zero]
    exact add_nonneg h.1 (elapsed_nonneg hinterval hlast)
  | cons now later ih =>
    obtain ⟨hnow, hlater⟩ := List.forall_mem_cons.mp htimes
    let filled := m.refill cap interval now
    have hask : ask cap interval (some m) now = filled.take := rfl
    obtain ⟨-, hmax, hlevel⟩ : _ ∧ filled.last ≤ max m.last now ∧
        filled.tokens ≤ m.tokens + elapsed interval m.last filled.last := refill_le hinterval
    obtain ⟨htake, htakelast⟩ := take_eq (m := filled)
    have hfilled : filled.last ≤ hi := hmax.trans (max_le hlast hnow)
    have hrest := ih (h.refill hcap).take (m := filled.take.2) (by rwa [htakelast]) hlater
    rw [answers, hask, List.count_cons, Nat.cast_add]
    have hone : (((if filled.take.1 == true then 1 else 0 : ℕ)) : ℚ) = filled.take.1.toNat := by
      cases filled.take.1 <;> rfl
    have hsum : elapsed interval m.last filled.last + elapsed interval filled.last hi =
        elapsed interval m.last hi := elapsed_add m.last filled.last hi
    rw [hone]
    rw [htakelast] at hrest
    have hlevel' : filled.tokens ≤ m.tokens + elapsed interval m.last filled.last := hlevel
    linarith

/-- A meter that is made on the way lets no more through than its capacity and what is filled
    in between the earliest and the latest time. -/
theorem count_fresh_le (hcap : 0 ≤ cap) (hinterval : 0 < interval) (hle : lo ≤ hi)
    (htimes : ∀ t ∈ times, lo ≤ t ∧ t ≤ hi) :
    ((answers cap interval none times).count true : ℚ) ≤ cap + elapsed interval lo hi := by
  cases times with
  | nil =>
    rw [answers, List.count_nil, Nat.cast_zero]
    exact add_nonneg hcap (elapsed_nonneg hinterval hle)
  | cons now later =>
    obtain ⟨⟨hlo, hhi⟩, hlater⟩ := List.forall_mem_cons.mp htimes
    -- Refilling a meter that has just been made changes nothing.
    have hsame : answers cap interval none (now :: later) =
        answers cap interval (some (fresh cap now)) (now :: later) := by
      have hrefill : (fresh cap now).refill cap interval now = fresh cap now := by
        rw [refill, if_neg (by rw [fresh, elapsed_self]; exact lt_irrefl _)]
      simp only [answers, ask, hrefill]
    have hbefore : ∀ t ∈ now :: later, t ≤ hi :=
      List.forall_mem_cons.mpr ⟨hhi, fun t ht => (hlater t ht).2⟩
    have hcount := count_le (m := fresh cap now) hcap hinterval (Sane.fresh hcap) hhi hbefore
    have hsum : elapsed interval lo now + elapsed interval now hi = elapsed interval lo hi :=
      elapsed_add lo now hi
    have hfirst := elapsed_nonneg hinterval hlo
    rw [hsame]
    change _ ≤ cap + elapsed interval now hi at hcount
    linarith

/-! ## Forgetting a full meter -/

theorem Full.later (h : m.Full cap interval lo) (hinterval : 0 < interval) (hle : lo ≤ hi) :
    m.Full cap interval hi :=
  h.trans (add_le_add_right (elapsed_mono hinterval hle) _)

/-- Asking a full meter is asking a new one. -/
theorem ask_full (hinterval : 0 < interval) (h : m.Sane cap) (hlast : m.last ≤ now)
    (hfull : m.Full cap interval now) : ask cap interval (some m) now = ask cap interval none now := by
  have hrefill : m.refill cap interval now = fresh cap now := by
    unfold refill
    split
    · rw [min_eq_left hfull, fresh]
    · rename_i hpos
      have hsame : m.last = now :=
        le_antisymm hlast (not_lt.mp fun hlt => hpos ((elapsed_pos_iff hinterval).mpr hlt))
      rw [Full, hsame, elapsed_self, add_zero] at hfull
      rw [fresh, ← le_antisymm h.2 hfull, ← hsame]
  simp only [ask, hrefill]

end Meter

end Rate
