-- SUMMARY: What the default limiter forgets at its cap: never more than it must, and nothing that depends on how a map is iterated.
import Mathlib.Data.List.Infix
import Sulis.Facts.Meters

/-!
# Eviction

At its cap the limiter first drops every bucket that has refilled, which changes no answer,
and only if that is not enough one more, of those that were not touched for longest.
-/

namespace Sulis.MemoryLimiter

open Rate

variable {l l' : MemoryLimiter} {key : String} {now t : Time} {bkt : Bucket} {ch : LimiterChoice}
  {q q' : Question} {qs qs' : List Question}

/-- The clock does not go back, from one question to the next and within one. Where a question
    reads it once only, the second reading is any time until the next question. -/
def Timely : Time → List Question → Prop
  | _, [] => True
  | t, q :: qs => t ≤ q.now ∧ q.now ≤ q.choice.evictNow ∧ Timely q.choice.evictNow qs

/-- The question makes the limiter forget the bucket. -/
def Dropped (l : MemoryLimiter) (q : Question) (bkt : Bucket) : Prop :=
  bkt ∈ l.buckets ∧ (l.next q).meter bkt.key = none

/-- The buckets that an eviction at the question would not find refilled. -/
def unfilled (l : MemoryLimiter) (q : Question) : Store.Table Bucket.key :=
  l.buckets.filter (fun bkt => ¬ l.refilled q.choice.evictNow bkt)

/-- No bucket has the empty key. -/
def Named (l : MemoryLimiter) : Prop := ∀ bkt ∈ l.buckets, bkt.key ≠ ""

/-! ## The oldest bucket -/

/-- The search from a bucket on ends at one that is not younger than any. -/
theorem oldestKey_spec {bkts : List Bucket} (hnamed : ∀ b ∈ bkts, b.key ≠ "") (first : Bucket)
    (hfirst : first.key ≠ "") :
    ∃ b ∈ first :: bkts, oldestKey bkts (first.key, first.last) = b.key ∧
      ∀ other ∈ first :: bkts, b.last ≤ other.last := by
  induction bkts generalizing first with
  | nil => exact ⟨first, List.mem_singleton_self _, rfl, by simp⟩
  | cons b bkts ih =>
    obtain ⟨hb, hrest⟩ := List.forall_mem_cons.mp hnamed
    rw [oldestKey]
    by_cases hlt : b.last < first.last
    · rw [if_pos (Or.inr hlt)]
      obtain ⟨m, hm, hkey, hmin⟩ := ih hrest b hb
      refine ⟨m, List.mem_cons_of_mem _ hm, hkey, List.forall_mem_cons.mpr ⟨?_, hmin⟩⟩
      exact (hmin b List.mem_cons_self).trans hlt.le
    · rw [if_neg (not_or.mpr ⟨hfirst, hlt⟩)]
      obtain ⟨m, hm, hkey, hmin⟩ := ih hrest first hfirst
      obtain ⟨hminfirst, hminrest⟩ := List.forall_mem_cons.mp hmin
      refine ⟨m, ?_, hkey, ?_⟩
      · rcases List.mem_cons.mp hm with rfl | hm
        · exact List.mem_cons_self
        · exact List.mem_cons_of_mem _ (List.mem_cons_of_mem _ hm)
      · refine List.forall_mem_cons.mpr ⟨hminfirst, List.forall_mem_cons.mpr ⟨?_, hminrest⟩⟩
        exact hminfirst.trans (not_lt.mp hlt)

/-- Of a table with named buckets one of the oldest goes. -/
theorem oldest_of_table {kept : Store.Table Bucket.key} (hnamed : ∀ b ∈ kept, b.key ≠ "")
    (hne : kept.rows ≠ []) (order : Nat) :
    ∃ b ∈ kept, oldestKey (kept.list (fun _ => true) order) ("", 0) = b.key ∧
      ∀ other ∈ kept, b.last ≤ other.last := by
  have hperm := kept.list_perm (fun _ => true) order
  rw [List.filter_eq_self.mpr (fun _ _ => rfl)] at hperm
  cases hlist : kept.list (fun _ => true) order with
  | nil =>
    rw [hlist] at hperm
    exact absurd hperm.symm.eq_nil hne
  | cons first rest =>
    rw [hlist] at hperm
    have hmem : ∀ b, b ∈ first :: rest ↔ b ∈ kept := fun b => hperm.mem_iff
    obtain ⟨b, hb, hkey, hmin⟩ := oldestKey_spec
      (fun b hb => hnamed b ((hmem b).mp (List.mem_cons_of_mem _ hb))) first
      (hnamed first ((hmem first).mp List.mem_cons_self))
    refine ⟨b, (hmem b).mp hb, ?_, fun other hother => hmin other ((hmem other).mpr hother)⟩
    rw [oldestKey, if_pos (Or.inl rfl)]
    exact hkey

/-! ## How many are tracked -/

theorem length_erase {t : Store.Table Bucket.key} (h : bkt ∈ t) :
    (t.erase bkt.key).rows.length + 1 = t.rows.length := by
  rw [(Store.Table.rows_perm_cons h).length_eq, List.length_cons]

theorem length_erase_le {t : Store.Table Bucket.key} : (t.erase key).rows.length ≤ t.rows.length :=
  List.length_filter_le _ _

/-- An eviction makes room for one more. -/
theorem evict_room (hnamed : l.Named) (hsize : (l.buckets.rows.length : Int) ≤ max l.maxKeys 1) :
    ((l.evictIfNeeded ch).buckets.rows.length : Int) < max l.maxKeys 1 := by
  rcases l.evictIfNeeded_cases ch with ⟨hlt, heq⟩ | ⟨kept, hkept, -, ⟨hlt, heq⟩ | ⟨-, heq⟩⟩
  · rw [heq]
    exact lt_max_of_lt_left hlt
  · rw [heq]
    exact lt_max_of_lt_left hlt
  · rw [heq]
    have hle : kept.rows.length ≤ l.buckets.rows.length := by
      rw [hkept]
      exact List.length_filter_le _ _
    dsimp only
    by_cases hempty : kept.rows = []
    · have hzero : (kept.erase (oldestKey (kept.list (fun _ => true) ch.order) ("", 0))).rows.length ≤
          kept.rows.length := length_erase_le
      rw [hempty, List.length_nil] at hzero
      have hone : (1 : Int) ≤ max l.maxKeys 1 := le_max_right _ _
      omega
    · have hnamed' : ∀ b ∈ kept, b.key ≠ "" := by
        intro b hb
        rw [hkept] at hb
        exact hnamed b (Store.Table.mem_filter.mp hb).1
      obtain ⟨b, hb, hkey, -⟩ := oldest_of_table hnamed' hempty ch.order
      rw [hkey]
      have hlen := length_erase hb
      omega

/-- No more keys are tracked than the cap allows, which is one at least. -/
def Bounded (l : MemoryLimiter) : Prop := (l.buckets.rows.length : Int) ≤ max l.maxKeys 1

theorem length_store {m : Meter} :
    (l.store key m).buckets.rows.length = (l.buckets.erase key).rows.length + 1 := rfl

theorem Bounded.next (h : l.Bounded) (hnamed : l.Named) : (l.next q).Bounded := by
  rw [Bounded, next_config.maxKeys]
  by_cases hlim : l.Limited q.key
  · rw [next_eq hlim, length_store]
    cases hget : l.buckets.get? q.key with
    | none =>
      rw [makeRoom_none hget]
      have hroom : ((l.evictIfNeeded q.choice).buckets.rows.length : Int) < max l.maxKeys 1 :=
        evict_room hnamed h
      have herase : ((l.evictIfNeeded q.choice).buckets.erase q.key).rows.length ≤
          (l.evictIfNeeded q.choice).buckets.rows.length := length_erase_le
      omega
    | some bkt =>
      obtain ⟨hmem, hkey⟩ := Store.Table.get?_eq_some.mp hget
      have hlen := length_erase hmem
      rw [hkey] at hlen
      rw [makeRoom_some hget, hlen]
      exact h
  · rw [next_unlimited hlim]
    exact h

/-- A bucket after a question is one from before, or that of the question. -/
theorem mem_next (h : bkt ∈ (l.next q).buckets) : bkt ∈ l.buckets ∨ bkt.key = q.key := by
  by_cases hlim : l.Limited q.key
  · rw [next_eq hlim] at h
    rcases Store.Table.mem_put.mp h with rfl | ⟨hmem, -⟩
    · exact Or.inr rfl
    · exact Or.inl (makeRoom_sub.2 bkt hmem)
  · rw [next_unlimited hlim] at h
    exact Or.inl h

theorem Named.next (h : l.Named) (hq : q.key ≠ "") : (l.next q).Named := by
  intro bkt hbkt
  rcases mem_next hbkt with hmem | hkey
  · exact h bkt hmem
  · rwa [hkey]

/-! ## What is dropped before it is full -/

theorem meter_eq_none : l.meter key = none ↔ ∀ bkt ∈ l.buckets, bkt.key ≠ key := by
  rw [meter, Option.map_eq_none_iff, Store.Table.get?_eq_none]

/-- Only an eviction drops a bucket. -/
theorem Dropped.evicted (h : Dropped l q bkt) :
    l.meter q.key = none ∧ bkt ∉ (l.evictIfNeeded q.choice).buckets := by
  obtain ⟨hmem, hgone⟩ := h
  have htracked : l.meter bkt.key ≠ none := by
    rw [meter_of_mem hmem]
    exact Option.some_ne_none _
  by_cases hlim : l.Limited q.key
  swap
  · rw [next_unlimited hlim] at hgone
    exact absurd hgone htracked
  have hne : q.key ≠ bkt.key := by
    intro heq
    rw [← heq, (next_self hlim).2] at hgone
    cases hgone
  rw [next_eq hlim, meter_store_of_ne hne] at hgone
  cases hget : l.buckets.get? q.key with
  | some _ =>
    rw [makeRoom_some hget] at hgone
    exact absurd hgone htracked
  | none =>
    rw [makeRoom_none hget, meter_eq_none] at hgone
    exact ⟨by rw [meter, hget]; rfl, fun hkept => hgone bkt hkept rfl⟩

/-- A bucket that goes before it is full is the one the search ends at, with as many others not
    full as the cap allows. -/
theorem Dropped.oldest (h : Dropped l q bkt) (hfull : ¬ l.refilled q.choice.evictNow bkt) :
    l.maxKeys ≤ (l.unfilled q).rows.length ∧
      bkt.key = oldestKey ((l.unfilled q).list (fun _ => true) q.choice.order) ("", 0) := by
  obtain ⟨-, hgone⟩ := h.evicted
  have hkept : bkt ∈ l.unfilled q := Store.Table.mem_filter.mpr ⟨h.1, decide_eq_true hfull⟩
  rcases l.evictIfNeeded_cases q.choice with ⟨-, heq⟩ | ⟨kept, rfl, -, ⟨-, heq⟩ | ⟨hcap, heq⟩⟩
  · rw [heq] at hgone
    exact absurd h.1 hgone
  · rw [heq] at hgone
    exact absurd hkept hgone
  · rw [heq] at hgone
    refine ⟨not_lt.mp hcap, ?_⟩
    by_contra hne
    exact hgone (Store.Table.mem_erase.mpr ⟨hkept, hne⟩)

/-- Only a new key drops a bucket that is not full, only at the cap, and only one of the oldest. -/
theorem dropped_minimal (hnamed : l.Named) (h : Dropped l q bkt)
    (hfull : ¬ l.refilled q.choice.evictNow bkt) :
    l.meter q.key = none ∧ l.maxKeys ≤ (l.unfilled q).rows.length ∧
      (∀ other ∈ l.unfilled q, bkt.last ≤ other.last) ∧
      ∀ other, Dropped l q other → ¬ l.refilled q.choice.evictNow other → other = bkt := by
  obtain ⟨hcap, hkey⟩ := h.oldest hfull
  have hkept : bkt ∈ l.unfilled q := Store.Table.mem_filter.mpr ⟨h.1, decide_eq_true hfull⟩
  refine ⟨h.evicted.1, hcap, ?_, fun other hother hfull' => ?_⟩
  · have hnamed' : ∀ b ∈ l.unfilled q, b.key ≠ "" :=
      fun b hb => hnamed b (Store.Table.mem_filter.mp hb).1
    obtain ⟨b, hb, hbkey, hmin⟩ := oldest_of_table hnamed' (List.ne_nil_of_mem hkept) q.choice.order
    rwa [Store.Table.eq_of_mem hkept hb (hkey.trans hbkey)]
  · exact Store.Table.eq_of_mem hother.1 h.1 ((hother.oldest hfull').2.trans hkey.symm)

/-! ## What is dropped when it is full -/

/-- The question drops the bucket of the key before it is full. -/
def lost (key : String) (l : MemoryLimiter) (q : Question) : Bool :=
  match l.buckets.get? key with
  | none => false
  | some bkt => ((l.next q).meter key).isNone && ¬ l.refilled q.choice.evictNow bkt

/-- The answers about the key if no bucket of it were ever dropped for being full. -/
def keptAnswers (key : String) : Option Meter → MemoryLimiter → List Question → List (Except Err Unit)
  | _, _, [] => []
  | m, l, q :: qs =>
    if q.key = key then
      verdict (l.askMeter key m q.now).1 ::
        keptAnswers key (some (l.askMeter key m q.now).2) (l.next q) qs
    else keptAnswers key (if lost key l q then none else m) (l.next q) qs

/-- The limiter has the meter that was kept, or has dropped it when it was full. -/
def Agrees (l : MemoryLimiter) (key : String) (kept : Option Meter) (t : Time) : Prop :=
  (l.meter key = kept ∨ l.meter key = none ∧
    ∀ m, kept = some m → m.Full (l.budgetFor key).burst (l.budgetFor key).interval t) ∧
  ∀ m, kept = some m → m.last ≤ t ∧ m.Sane (l.budgetFor key).burst

/-- A question about the key gets the same answer from both, and then they are the same. -/
theorem Agrees.ask {kept : Option Meter} (h : l.Agrees key kept t) (hlim : l.Limited key) (hle : t ≤ now) :
    l.askMeter key (l.meter key) now = l.askMeter key kept now := by
  have hinterval : (0 : ℚ) < (l.budgetFor key).interval := Int.cast_pos.mpr hlim.2
  obtain ⟨hsame | ⟨hnone, hfull⟩, hsane⟩ := h
  · rw [hsame]
  · rw [hnone]
    cases kept with
    | none => rfl
    | some m =>
      obtain ⟨hlast, hlevel⟩ := hsane m rfl
      exact (Meter.ask_full hinterval hlevel (hlast.trans hle) ((hfull m rfl).later hinterval hle)).symm

theorem Agrees.self {kept : Option Meter} (h : l.Agrees q.key kept t) (hlim : l.Limited q.key)
    (hnow : t ≤ q.now) (hevict : q.now ≤ q.choice.evictNow) :
    (l.next q).Agrees q.key (some (l.askMeter q.key kept q.now).2) q.choice.evictNow := by
  have hinterval : (0 : ℚ) < (l.budgetFor q.key).interval := Int.cast_pos.mpr hlim.2
  refine ⟨Or.inl ?_, fun m hm => ?_⟩
  · rw [(next_self hlim).2, h.ask hlim hnow]
  · cases hm
    rw [next_config.budgetFor]
    constructor
    · refine (Meter.ask_last_le hinterval fun x hx => ?_).trans hevict
      exact (h.2 x hx).1.trans hnow
    · exact Meter.Sane.ask (fun x hx => (h.2 x hx).2) (Int.cast_nonneg hlim.1.le)

theorem Agrees.other {kept : Option Meter} (h : l.Agrees key kept t) (hlim : l.Limited key)
    (hne : q.key ≠ key) (hle : t ≤ q.choice.evictNow) :
    (l.next q).Agrees key (if lost key l q then none else kept) q.choice.evictNow := by
  have hinterval : (0 : ℚ) < (l.budgetFor key).interval := Int.cast_pos.mpr hlim.2
  obtain ⟨hmeter, hsane⟩ := h
  unfold Agrees
  rw [next_config.budgetFor]
  by_cases hlost : lost key l q = true
  · rw [if_pos hlost]
    refine ⟨Or.inl ?_, fun m hm => by cases hm⟩
    unfold lost at hlost
    split at hlost
    · cases hlost
    · rw [Bool.and_eq_true, Option.isNone_iff_eq_none] at hlost
      exact hlost.1
  · rw [if_neg hlost]
    refine ⟨?_, fun m hm => ⟨(hsane m hm).1.trans hle, (hsane m hm).2⟩⟩
    rcases hmeter with hsame | ⟨hnone, hfull⟩
    · rcases next_other (l := l) hne with hkept | hgone
      · exact Or.inl (hkept.trans hsame)
      · -- It has been dropped now, and was full.
        refine Or.inr ⟨hgone, fun m hm => ?_⟩
        rw [hm, meter, Option.map_eq_some_iff] at hsame
        obtain ⟨bkt, hget, rfl⟩ := hsame
        unfold lost at hlost
        rw [hget, hgone] at hlost
        have hrefilled : l.refilled q.choice.evictNow bkt := by simpa using hlost
        rwa [refilled, (Store.Table.get?_eq_some.mp hget).2] at hrefilled
    · rcases next_other (l := l) hne with hkept | hgone
      · exact Or.inr ⟨hkept.trans hnone, fun m hm => (hfull m hm).later hinterval hle⟩
      · exact Or.inr ⟨hgone, fun m hm => (hfull m hm).later hinterval hle⟩

/-- Dropping full buckets changes no answer. -/
theorem Agrees.answers {kept : Option Meter} (h : l.Agrees key kept t) (hlim : l.Limited key)
    (htimely : Timely t qs) : answersTo key l qs = keptAnswers key kept l qs := by
  induction qs generalizing l kept t with
  | nil => rfl
  | cons q qs ih =>
    obtain ⟨hnow, hevict, htimely⟩ := htimely
    have hlim' : (l.next q).Limited key := next_config.limited.mpr hlim
    rw [answersTo, keptAnswers]
    by_cases hkey : q.key = key
    · subst hkey
      rw [if_pos rfl, if_pos rfl, (next_self hlim).1, h.ask hlim hnow,
        ih (h.self hlim hnow hevict) hlim' htimely]
    · rw [if_neg hkey, if_neg hkey]
      exact ih (h.other hlim hkey (hnow.trans hevict)) hlim' htimely

/-! ## In any order -/

/-- The answers to all questions. -/
def answers : MemoryLimiter → List Question → List (Except Err Unit)
  | _, [] => []
  | l, q :: qs => l.answer q :: answers (l.next q) qs

/-- The same limiter with its maps in another order. -/
structure Reordered (l l' : MemoryLimiter) : Prop where
  buckets : l.buckets.rows.Perm l'.buckets.rows
  budgets : l.budgets.Perm l'.budgets
  prefixes : (l.budgets.map Prod.fst).Nodup
  fallback : l'.fallback = l.fallback
  maxKeys : l'.maxKeys = l.maxKeys

/-- The same questions at the same times, meeting other orders of iteration. -/
def SameQuestion (q q' : Question) : Prop :=
  q'.key = q.key ∧ q'.now = q.now ∧ q'.choice.evictNow = q.choice.evictNow

/-- No two buckets were last refilled at the same time, before any of the questions. -/
def Distinct : MemoryLimiter → List Question → Prop
  | _, [] => True
  | l, q :: qs => (l.buckets.rows.map Bucket.last).Nodup ∧ Distinct (l.next q) qs

/-- Of two different starts of one key one is longer. -/
theorem bestBudget_swap {x y : String × Budget} {rest : List (String × Budget)} {best : Budget × Int}
    (hne : x.1 ≠ y.1) :
    bestBudget key (x :: y :: rest) best = bestBudget key (y :: x :: rest) best := by
  obtain ⟨p, b⟩ := x
  obtain ⟨p', b'⟩ := y
  simp only [bestBudget]
  by_cases hp : p.toList <+: key.toList
  · by_cases hp' : p'.toList <+: key.toList
    · have hlen : p.length ≠ p'.length := by
        intro heq
        refine hne (String.toList_injective ?_)
        rcases List.prefix_or_prefix_of_prefix hp hp' with h | h
        · exact h.eq_of_length heq
        · exact (h.eq_of_length heq.symm).symm
      simp only [hp, hp', and_true]
      rcases lt_or_gt_of_ne hlen with hlt | hlt
      · split_ifs <;> first | rfl | omega
      · split_ifs <;> first | rfl | omega
    · simp only [hp', and_false, if_false]
  · simp only [hp, and_false, if_false]

/-- The order of the budgets does not matter. -/
theorem bestBudget_perm {bs bs' : List (String × Budget)} (h : bs.Perm bs')
    (hnodup : (bs.map Prod.fst).Nodup) (best : Budget × Int) :
    bestBudget key bs best = bestBudget key bs' best := by
  induction h generalizing best with
  | nil => rfl
  | cons x _ ih =>
    rw [List.map_cons, List.nodup_cons] at hnodup
    rw [bestBudget, bestBudget, ih hnodup.2, ih hnodup.2]
  | swap x y rest =>
    refine bestBudget_swap fun heq => ?_
    simp [heq] at hnodup
  | trans h₁ _ ih₁ ih₂ =>
    rw [ih₁ hnodup, ih₂ ((h₁.map Prod.fst).nodup_iff.mp hnodup)]

theorem Reordered.budgetFor (h : Reordered l l') (key : String) : l'.budgetFor key = l.budgetFor key := by
  rw [MemoryLimiter.budgetFor, MemoryLimiter.budgetFor, h.fallback]
  exact (bestBudget_perm h.budgets h.prefixes _).symm

theorem Reordered.mem (h : Reordered l l') : bkt ∈ l.buckets ↔ bkt ∈ l'.buckets :=
  h.buckets.mem_iff

theorem Reordered.get? (h : Reordered l l') (key : String) : l.buckets.get? key = l'.buckets.get? key :=
  Store.Table.get?_congr (fun _ => h.mem) key

theorem Reordered.meter (h : Reordered l l') : l'.meter key = l.meter key := by
  rw [MemoryLimiter.meter, MemoryLimiter.meter, h.get?]

theorem Reordered.refilled (h : Reordered l l') : l'.refilled now bkt ↔ l.refilled now bkt := by
  rw [MemoryLimiter.refilled, MemoryLimiter.refilled, h.budgetFor]

/-- Where no two were last refilled at the same time, the search finds the same bucket. -/
theorem oldest_unique {kept kept' : Store.Table Bucket.key} (hperm : kept.rows.Perm kept'.rows)
    (hnamed : ∀ b ∈ kept, b.key ≠ "") (hdistinct : (kept.rows.map Bucket.last).Nodup) (order order' : Nat) :
    oldestKey (kept.list (fun _ => true) order) ("", 0) =
      oldestKey (kept'.list (fun _ => true) order') ("", 0) := by
  have hmem : ∀ b, b ∈ kept ↔ b ∈ kept' := fun b => hperm.mem_iff
  by_cases hempty : kept.rows = []
  · have hlist := kept.list_perm (fun _ => true) order
    have hlist' := kept'.list_perm (fun _ => true) order'
    rw [hempty] at hlist hperm
    rw [hperm.symm.eq_nil] at hlist'
    rw [hlist.eq_nil, hlist'.eq_nil]
  · have hempty' : kept'.rows ≠ [] := fun hnil => hempty (by rw [hnil] at hperm; exact hperm.eq_nil)
    obtain ⟨b, hb, hkey, hmin⟩ := oldest_of_table hnamed hempty order
    obtain ⟨b', hb', hkey', hmin'⟩ :=
      oldest_of_table (fun b hb => hnamed b ((hmem b).mpr hb)) hempty' order'
    have hlast : b.last = b'.last :=
      le_antisymm (hmin b' ((hmem b').mpr hb')) (hmin' b ((hmem b).mp hb))
    rw [hkey, hkey', List.inj_on_of_nodup_map hdistinct hb ((hmem b').mpr hb') hlast]

/-- The same limiters with other buckets. -/
theorem Reordered.withBuckets (h : Reordered l l') {bs bs' : Store.Table Bucket.key}
    (hperm : bs.rows.Perm bs'.rows) :
    Reordered { l with buckets := bs } { l' with buckets := bs' } :=
  ⟨hperm, h.budgets, h.prefixes, h.fallback, h.maxKeys⟩

theorem Reordered.evict (h : Reordered l l') (hnamed : l.Named)
    (hdistinct : (l.buckets.rows.map Bucket.last).Nodup) {ch' : LimiterChoice}
    (hnow : ch'.evictNow = ch.evictNow) :
    Reordered (l.evictIfNeeded ch) (l'.evictIfNeeded ch') := by
  let kept := l.buckets.filter (fun bkt => ¬ l.refilled ch.evictNow bkt)
  let kept' := l'.buckets.filter (fun bkt => ¬ l'.refilled ch'.evictNow bkt)
  have hkept : kept.rows.Perm kept'.rows := by
    have hcongr : kept'.rows = l'.buckets.rows.filter (fun bkt => ¬ l.refilled ch.evictNow bkt) :=
      List.filter_congr fun bkt _ => by rw [hnow, decide_eq_decide, h.refilled]
    rw [hcongr]
    exact h.buckets.filter _
  have hold : oldestKey (kept.list (fun _ => true) ch.order) ("", 0) =
      oldestKey (kept'.list (fun _ => true) ch'.order) ("", 0) := by
    refine oldest_unique hkept (fun b hb => hnamed b (Store.Table.mem_filter.mp hb).1) ?_ _ _
    exact (List.filter_sublist.map Bucket.last).nodup hdistinct
  unfold evictIfNeeded
  rw [h.maxKeys, ← h.buckets.length_eq]
  split
  · exact h
  · dsimp only
    rw [show (l'.buckets.filter (fun bkt => ¬ l'.refilled ch'.evictNow bkt)).rows.length =
      (l.buckets.filter (fun bkt => ¬ l.refilled ch.evictNow bkt)).rows.length from hkept.length_eq.symm]
    split
    · exact ⟨hkept, h.budgets, h.prefixes, h.fallback, rfl⟩
    · refine ⟨?_, h.budgets, h.prefixes, h.fallback, rfl⟩
      change (kept.erase _).rows.Perm (kept'.erase _).rows
      rw [show oldestKey (kept'.list (fun _ => true) ch'.order) ("", 0) = _ from hold.symm]
      exact hkept.filter _

theorem Reordered.makeRoom (h : Reordered l l') (hnamed : l.Named)
    (hdistinct : (l.buckets.rows.map Bucket.last).Nodup) {ch' : LimiterChoice}
    (hnow : ch'.evictNow = ch.evictNow) :
    Reordered (l.makeRoom key ch) (l'.makeRoom key ch') := by
  cases hget : l.buckets.get? key with
  | none =>
    rw [makeRoom_none hget, makeRoom_none ((h.get? key).symm.trans hget)]
    exact h.evict hnamed hdistinct hnow
  | some bkt =>
    rw [makeRoom_some hget, makeRoom_some ((h.get? key).symm.trans hget)]
    exact h

theorem Reordered.askMeter (h : Reordered l l') : l'.askMeter = l.askMeter := by
  funext key m now
  rw [MemoryLimiter.askMeter, MemoryLimiter.askMeter, h.budgetFor]

theorem Reordered.limited (h : Reordered l l') : l'.Limited key ↔ l.Limited key := by
  rw [Limited, Limited, h.budgetFor]

/-- One question gets the same answer whatever the order. -/
theorem Reordered.next (h : Reordered l l') (hnamed : l.Named)
    (hdistinct : (l.buckets.rows.map Bucket.last).Nodup) (hq : SameQuestion q q') :
    l'.answer q' = l.answer q ∧ Reordered (l.next q) (l'.next q') := by
  obtain ⟨hkey, hnow, hevict⟩ := hq
  by_cases hlim : l.Limited q.key
  · have hlim' : l'.Limited q'.key := by
      rw [hkey]
      exact h.limited.mpr hlim
    have hask : l'.askMeter q'.key (l'.meter q'.key) q'.now = l.askMeter q.key (l.meter q.key) q.now := by
      rw [h.askMeter, h.meter, hkey, hnow]
    refine ⟨by rw [(next_self hlim).1, (next_self hlim').1, hask], ?_⟩
    rw [next_eq hlim, next_eq hlim', hask, hkey]
    have hroom : Reordered (l.makeRoom q.key q.choice) (l'.makeRoom q.key q'.choice) :=
      h.makeRoom hnamed hdistinct hevict
    exact hroom.withBuckets (List.Perm.cons _ (hroom.buckets.filter _))
  · have hlim' : ¬ l'.Limited q'.key := by
      rw [hkey]
      exact fun hl => hlim (h.limited.mp hl)
    rw [next_unlimited hlim, next_unlimited hlim']
    exact ⟨(congrArg Prod.fst (allow_unlimited hlim')).trans
      (congrArg Prod.fst (allow_unlimited hlim)).symm, h⟩

theorem Reordered.answers (h : Reordered l l') (hnamed : l.Named) (hkeys : ∀ q ∈ qs, q.key ≠ "")
    (hdistinct : Distinct l qs) (hqs : List.Forall₂ SameQuestion qs qs') :
    MemoryLimiter.answers l' qs' = MemoryLimiter.answers l qs := by
  induction hqs generalizing l l' with
  | nil => rfl
  | cons hq _ ih =>
    obtain ⟨hfirst, hkeys⟩ := List.forall_mem_cons.mp hkeys
    obtain ⟨hanswer, hnext⟩ := h.next hnamed hdistinct.1 hq
    rw [MemoryLimiter.answers, MemoryLimiter.answers, hanswer,
      ih hnext (hnamed.next hfirst) hkeys hdistinct.2]

/-! ## Whole runs -/

theorem after_bounded (h : l.Bounded) (hnamed : l.Named) (hkeys : ∀ q ∈ qs, q.key ≠ "") :
    (l.after qs).Bounded ∧ (l.after qs).Named := by
  induction qs generalizing l with
  | nil => exact ⟨h, hnamed⟩
  | cons q qs ih =>
    obtain ⟨hq, hqs⟩ := List.forall_mem_cons.mp hkeys
    exact ih (h.next hnamed) (hnamed.next hq) hqs

/-- Eviction is bounded, drops nothing that matters as long as it can, at most one bucket that
    does at a time, and depends on no order of iteration as long as the buckets were last refilled
    at different times. -/
theorem eviction_minimal (hempty : l.buckets = .empty) (hprefixes : (l.budgets.map Prod.fst).Nodup)
    (hkeys : ∀ q ∈ qs, q.key ≠ "") (htimely : Timely t qs) :
    (∀ before rest, qs = before ++ rest →
      ((l.after before).buckets.rows.length : Int) ≤ max l.maxKeys 1) ∧
    (∀ key, l.Limited key → answersTo key l qs = keptAnswers key none l qs) ∧
    (∀ before q rest, qs = before ++ q :: rest → ∀ bkt, Dropped (l.after before) q bkt →
      ¬ (l.after before).refilled q.choice.evictNow bkt →
        (l.after before).meter q.key = none ∧
        l.maxKeys ≤ ((l.after before).unfilled q).rows.length ∧
        (∀ other ∈ (l.after before).unfilled q, bkt.last ≤ other.last) ∧
        ∀ other, Dropped (l.after before) q other →
          ¬ (l.after before).refilled q.choice.evictNow other → other = bkt) ∧
    (Distinct l qs → ∀ budgets' qs', l.budgets.Perm budgets' → List.Forall₂ SameQuestion qs qs' →
      answers { l with budgets := budgets' } qs' = answers l qs) := by
  have hnone : ∀ bkt, ¬ bkt ∈ l.buckets := by
    rw [hempty]
    exact Store.Table.not_mem_empty
  have hnamed : l.Named := fun bkt hbkt => absurd hbkt (hnone bkt)
  have hbounded : l.Bounded := by
    rw [Bounded, hempty]
    exact le_max_of_le_right (by decide)
  refine ⟨?_, fun key hlim => ?_, ?_, fun hdistinct budgets' qs' hperm hqs => ?_⟩
  · rintro before rest rfl
    have h := (after_bounded hbounded hnamed fun q hq => hkeys q (List.mem_append_left _ hq)).1
    rwa [Bounded, after_config.maxKeys] at h
  · refine Agrees.answers ⟨Or.inl (meter_eq_none.mpr fun bkt hbkt => absurd hbkt (hnone bkt)), ?_⟩ hlim htimely
    exact fun m hm => by cases hm
  · rintro before q rest rfl bkt hdrop hfull
    have h := (after_bounded hbounded hnamed fun q hq => hkeys q (List.mem_append_left _ hq)).2
    have hmin := dropped_minimal h hdrop hfull
    rwa [after_config.maxKeys] at hmin
  · exact Reordered.answers ⟨List.Perm.refl _, hperm, hprefixes, rfl, rfl⟩ hnamed hkeys hdistinct hqs

/-- Two keys at most, each let through once every ten nanoseconds. -/
def twoKeys : MemoryLimiter := { budgets := [("a", ⟨1, 10⟩), ("ab", ⟨1, 20⟩)], fallback := ⟨1, 10⟩, maxKeys := 2 }

/-- The third key finds "a" refilled, the fourth finds neither of the two, and both times maps are
    iterated in the given order. -/
def fourKeys (order : Nat) : List Question :=
  [⟨"a", 0, ⟨order, 0⟩⟩, ⟨"b", 8, ⟨order, 8⟩⟩, ⟨"c", 12, ⟨order, 12⟩⟩, ⟨"ab", 13, ⟨order, 13⟩⟩,
    ⟨"b", 14, ⟨order, 14⟩⟩]

/-- The key that was dropped before it had refilled is let through again. -/
theorem eviction_minimal_fourKeys :
    (twoKeys.after (fourKeys 0)).buckets.rows.length ≤ 2 ∧
      answers twoKeys (fourKeys 0) = [.ok (), .ok (), .ok (), .ok (), .ok ()] ∧
      answers { twoKeys with budgets := twoKeys.budgets.reverse } (fourKeys 1) =
        answers twoKeys (fourKeys 0) := by
  have hkeys : ∀ q ∈ fourKeys 0, q.key ≠ "" := by decide
  have htimely : Timely 0 (fourKeys 0) :=
    ⟨by decide, by decide, by decide, by decide, by decide, by decide, by decide, by decide, by decide,
      by decide, trivial⟩
  have hmin := eviction_minimal (l := twoKeys) rfl (by decide) hkeys htimely
  refine ⟨?_, by decide +kernel, hmin.2.2.2 ?_ _ _ (List.reverse_perm _).symm ?_⟩
  · exact Int.ofNat_le.mp (hmin.1 (fourKeys 0) [] (List.append_nil _).symm)
  · exact ⟨by decide +kernel, by decide +kernel, by decide +kernel, by decide +kernel, by decide +kernel,
      trivial⟩
  · exact .cons ⟨rfl, rfl, rfl⟩ (.cons ⟨rfl, rfl, rfl⟩ (.cons ⟨rfl, rfl, rfl⟩ (.cons ⟨rfl, rfl, rfl⟩
      (.cons ⟨rfl, rfl, rfl⟩ .nil))))

end Sulis.MemoryLimiter
