-- SUMMARY: The default limiter keeps a meter for each key, and a run of it seen from one key.
import Sulis.Model.Limiter
import Sulis.Rate.Meter

/-!
# Meters

To its own key a bucket is a meter: a question about the key is a question to the meter, and
a question about another key leaves the meter alone, or drops it.
-/

namespace Sulis.MemoryLimiter

open Rate

/-- One `Allow` in a run. -/
structure Question where
  key : String
  now : Time
  choice : LimiterChoice := {}

/-- The limiter after one more question. -/
def next (l : MemoryLimiter) (q : Question) : MemoryLimiter := (l.allow q.key q.now q.choice).2

def answer (l : MemoryLimiter) (q : Question) : Except Err Unit := (l.allow q.key q.now q.choice).1

def after (l : MemoryLimiter) (qs : List Question) : MemoryLimiter := qs.foldl next l

/-- The answers to the questions about one key. -/
def answersTo (key : String) : MemoryLimiter → List Question → List (Except Err Unit)
  | _, [] => []
  | l, q :: qs =>
    if q.key = key then l.answer q :: answersTo key (l.next q) qs else answersTo key (l.next q) qs

/-- The bucket of a key, as a meter. -/
def meter (l : MemoryLimiter) (key : String) : Option Meter :=
  (l.buckets.get? key).map fun bkt => ⟨bkt.tokens, bkt.last⟩

/-- What an answer is called. -/
def verdict (allowed : Bool) : Except Err Unit := if allowed then .ok () else .error .rateLimited

variable {l l' : MemoryLimiter} {key : String} {now : Time} {bkt : Bucket} {ch : LimiterChoice}
  {q : Question} {qs : List Question}

/-- The budget limits the key. -/
def Limited (l : MemoryLimiter) (key : String) : Prop :=
  0 < (l.budgetFor key).burst ∧ 0 < (l.budgetFor key).interval

/-- A question to the meter of a key. -/
def askMeter (l : MemoryLimiter) (key : String) (m : Option Meter) (now : Time) : Bool × Meter :=
  Meter.ask (l.budgetFor key).burst (l.budgetFor key).interval m now

/-! ## Budgets stay -/

/-- The two limiters have the same configuration. -/
structure SameConfig (l l' : MemoryLimiter) : Prop where
  budgets : l'.budgets = l.budgets
  fallback : l'.fallback = l.fallback
  maxKeys : l'.maxKeys = l.maxKeys

theorem SameConfig.refl : SameConfig l l := ⟨rfl, rfl, rfl⟩

theorem SameConfig.trans {l'' : MemoryLimiter} (h : SameConfig l l') (h' : SameConfig l' l'') :
    SameConfig l l'' :=
  ⟨h'.budgets.trans h.budgets, h'.fallback.trans h.fallback, h'.maxKeys.trans h.maxKeys⟩

theorem SameConfig.budgetFor (h : SameConfig l l') (key : String) : l'.budgetFor key = l.budgetFor key := by
  rw [MemoryLimiter.budgetFor, MemoryLimiter.budgetFor, h.budgets, h.fallback]

/-! ## One question -/

/-- What an eviction can leave. -/
theorem evictIfNeeded_cases (l : MemoryLimiter) (ch : LimiterChoice) :
    ((l.buckets.rows.length < l.maxKeys) ∧ l.evictIfNeeded ch = l) ∨
      ∃ kept, kept = l.buckets.filter (fun bkt => ¬ l.refilled ch.evictNow bkt) ∧
        ¬ (l.buckets.rows.length < l.maxKeys) ∧
        ((kept.rows.length < l.maxKeys ∧ l.evictIfNeeded ch = { l with buckets := kept }) ∨
          ¬ (kept.rows.length < l.maxKeys) ∧ l.evictIfNeeded ch =
            { l with buckets := kept.erase (oldestKey (kept.list (fun _ => true) ch.order) ("", 0)) }) := by
  unfold evictIfNeeded
  split
  · rename_i hlt
    exact Or.inl ⟨hlt, rfl⟩
  · rename_i hlt
    refine Or.inr ⟨_, rfl, hlt, ?_⟩
    dsimp only
    split
    · rename_i hkept
      exact Or.inl ⟨hkept, rfl⟩
    · rename_i hkept
      exact Or.inr ⟨hkept, rfl⟩

/-- An eviction drops buckets at most. -/
theorem evictIfNeeded_sub (l : MemoryLimiter) (ch : LimiterChoice) :
    SameConfig l (l.evictIfNeeded ch) ∧ ∀ bkt ∈ (l.evictIfNeeded ch).buckets, bkt ∈ l.buckets := by
  rcases l.evictIfNeeded_cases ch with ⟨-, heq⟩ | ⟨kept, rfl, -, ⟨-, heq⟩ | ⟨-, heq⟩⟩
  · rw [heq]
    exact ⟨.refl, fun _ hmem => hmem⟩
  · rw [heq]
    exact ⟨⟨rfl, rfl, rfl⟩, fun _ hmem => (Store.Table.mem_filter.mp hmem).1⟩
  · rw [heq]
    exact ⟨⟨rfl, rfl, rfl⟩, fun _ hmem => (Store.Table.mem_filter.mp (Store.Table.mem_erase.mp hmem).1).1⟩

/-- The bucket of a key with the level of a meter. -/
def toBucket (key : String) (m : Meter) : Bucket := ⟨key, m.tokens, m.last⟩

/-- The limiter with the meter of a key as it is now. -/
def store (l : MemoryLimiter) (key : String) (m : Meter) : MemoryLimiter :=
  { l with buckets := l.buckets.put (toBucket key m) }

theorem take_eq (l : MemoryLimiter) (key : String) (m : Meter) :
    l.take (toBucket key m) = (verdict m.take.1, l.store key m.take.2) := by
  unfold take Meter.take toBucket
  dsimp only
  split
  · rfl
  · rfl

/-- The limiter with room for the bucket of a key. -/
def makeRoom (l : MemoryLimiter) (key : String) (ch : LimiterChoice) : MemoryLimiter :=
  match l.buckets.get? key with
  | none => l.evictIfNeeded ch
  | some _ => l

theorem makeRoom_none (h : l.buckets.get? key = none) : l.makeRoom key ch = l.evictIfNeeded ch := by
  rw [makeRoom, h]

theorem makeRoom_some (h : l.buckets.get? key = some bkt) : l.makeRoom key ch = l := by
  rw [makeRoom, h]

theorem makeRoom_sub : SameConfig l (l.makeRoom key ch) ∧
    ∀ bkt ∈ (l.makeRoom key ch).buckets, bkt ∈ l.buckets := by
  cases hget : l.buckets.get? key with
  | none =>
    rw [makeRoom_none hget]
    exact l.evictIfNeeded_sub ch
  | some bkt =>
    rw [makeRoom_some hget]
    exact ⟨.refl, fun _ hmem => hmem⟩

/-- A question to a limited key is one to its meter. -/
theorem allow_eq (hlim : l.Limited key) :
    l.allow key now ch = (verdict (l.askMeter key (l.meter key) now).1,
      (l.makeRoom key ch).store key (l.askMeter key (l.meter key) now).2) := by
  have hactive : ¬ ((l.budgetFor key).burst ≤ 0 ∨ (l.budgetFor key).interval ≤ 0) :=
    not_or.mpr ⟨not_le.mpr hlim.1, not_le.mpr hlim.2⟩
  unfold allow
  dsimp only
  rw [if_neg hactive]
  unfold meter makeRoom
  cases hget : l.buckets.get? key with
  | none => exact take_eq _ key (Meter.fresh _ now)
  | some bkt =>
    have hkey : bkt.key = key := (Store.Table.get?_eq_some.mp hget).2
    have hrefill : refill (l.budgetFor key) now bkt = toBucket key
        (Meter.refill (l.budgetFor key).burst (l.budgetFor key).interval ⟨bkt.tokens, bkt.last⟩ now) := by
      unfold refill Meter.refill toBucket intervals elapsed
      dsimp only
      split
      · rw [hkey]
      · rw [← hkey]
    dsimp only
    rw [hrefill]
    exact take_eq l key _

theorem allow_unlimited (hlim : ¬ l.Limited key) : l.allow key now ch = (.ok (), l) := by
  refine if_pos ?_
  rwa [Limited, not_and_or, not_lt, not_lt] at hlim

theorem meter_store_self {m : Meter} : (l.store key m).meter key = some m := by
  rw [meter, store, Store.Table.get?_put]
  simp [toBucket]

theorem meter_store_of_ne {key' : String} {m : Meter} (h : key' ≠ key) :
    (l.store key' m).meter key = l.meter key := by
  rw [meter, store, Store.Table.get?_put_of_ne (by exact h), meter]

/-- A bucket that survives an eviction is as it was. -/
theorem meter_makeRoom {key' : String} :
    (l.makeRoom key' ch).meter key = l.meter key ∨ (l.makeRoom key' ch).meter key = none := by
  unfold meter
  cases hget : (l.makeRoom key' ch).buckets.get? key with
  | none => exact Or.inr rfl
  | some bkt =>
    obtain ⟨hmem, hkey⟩ := Store.Table.get?_eq_some.mp hget
    refine Or.inl ?_
    rw [Store.Table.get?_eq_some.mpr ⟨makeRoom_sub.2 bkt hmem, hkey⟩]

theorem next_eq (hlim : l.Limited q.key) :
    l.next q = (l.makeRoom q.key q.choice).store q.key (l.askMeter q.key (l.meter q.key) q.now).2 :=
  congrArg Prod.snd (allow_eq hlim)

theorem next_unlimited (hlim : ¬ l.Limited q.key) : l.next q = l :=
  congrArg Prod.snd (allow_unlimited hlim)

theorem next_config : SameConfig l (l.next q) := by
  by_cases hlim : l.Limited q.key
  · rw [next_eq hlim]
    have h : SameConfig l (l.makeRoom q.key q.choice) := makeRoom_sub.1
    exact ⟨h.budgets, h.fallback, h.maxKeys⟩
  · rw [next_unlimited hlim]
    exact .refl

theorem SameConfig.limited (h : SameConfig l l') : l'.Limited key ↔ l.Limited key := by
  rw [Limited, Limited, h.budgetFor]

/-- The key that was asked about. -/
theorem next_self (hlim : l.Limited q.key) :
    l.answer q = verdict (l.askMeter q.key (l.meter q.key) q.now).1 ∧
      (l.next q).meter q.key = some (l.askMeter q.key (l.meter q.key) q.now).2 := by
  refine ⟨congrArg Prod.fst (allow_eq hlim), ?_⟩
  rw [next_eq hlim, meter_store_self]

/-- Every other key keeps its meter, or loses it to an eviction. -/
theorem next_other (hne : q.key ≠ key) :
    (l.next q).meter key = l.meter key ∨ (l.next q).meter key = none := by
  by_cases hlim : l.Limited q.key
  · rw [next_eq hlim, meter_store_of_ne hne]
    exact meter_makeRoom
  · rw [next_unlimited hlim]
    exact Or.inl rfl

/-! ## Levels -/

/-- The level of a key is one that a meter of its budget can have, and it has a meter only if it
    is limited. -/
def Metered (l : MemoryLimiter) (key : String) : Prop :=
  ∀ m, l.meter key = some m → l.Limited key ∧ m.Sane (l.budgetFor key).burst

theorem metered_of_none (h : l.meter key = none) : l.Metered key := by
  intro m hm
  rw [h] at hm
  cases hm

theorem Metered.next (h : l.Metered key) : (l.next q).Metered key := by
  intro m hm
  rw [next_config.limited, next_config.budgetFor]
  by_cases hkey : q.key = key
  · subst hkey
    by_cases hlim : l.Limited q.key
    · rw [(next_self hlim).2] at hm
      cases hm
      refine ⟨hlim, Meter.Sane.ask (fun x hx => (h x hx).2) ?_⟩
      exact_mod_cast hlim.1.le
    · rw [next_unlimited hlim] at hm
      exact h m hm
  · rcases next_other (l := l) hkey with hsame | hnone
    · exact h m (hsame ▸ hm)
    · rw [hnone] at hm
      cases hm

theorem Metered.after (h : l.Metered key) : (l.after qs).Metered key := by
  induction qs generalizing l with
  | nil => exact h
  | cons q qs ih => exact ih h.next

theorem meter_of_mem (h : bkt ∈ l.buckets) : l.meter bkt.key = some ⟨bkt.tokens, bkt.last⟩ := by
  rw [meter, Store.Table.get?_eq_some.mpr ⟨h, rfl⟩]
  rfl

theorem after_config : SameConfig l (l.after qs) := by
  induction qs generalizing l with
  | nil => exact .refl
  | cons q qs ih => exact next_config.trans ih

end Sulis.MemoryLimiter
