-- SUMMARY: Limiters as state machines, and the token buckets of the default one.
import Mathlib.Algebra.Order.Field.Rat
import Sulis.Model.Types
import Sulis.Store.Table

/-!
# Limiters

`limiter.go`. The package asks its limiter through one method; a deterministic
limiter answers from its state, the key and the time. The default limiter keeps a
token bucket for each key. Its token amounts are floating-point numbers in the
source and exact rationals here.
-/

namespace Sulis

/-- A deterministic `Limiter`. -/
structure Limiter where
  State : Type
  allow : State → (key : String) → (now : Time) → Except Err Unit × State

structure Budget where
  burst : Int
  interval : Duration
  deriving DecidableEq, Repr

def budgetPasswordAccount : Budget := ⟨10, 30 * second⟩
def budgetPasswordIP : Budget := ⟨20, 5 * second⟩
def budgetTokenAccount : Budget := ⟨5, 2 * minute⟩
def budgetTokenIP : Budget := ⟨15, 20 * second⟩
def budgetDefault : Budget := ⟨10, 30 * second⟩

/-- A `bucket`, with the key it is stored under. -/
structure Bucket where
  key : String
  tokens : ℚ
  last : Time

structure MemoryLimiter where
  buckets : Store.Table Bucket.key := .empty
  /-- By key prefix, each listed once; the longest match wins. -/
  budgets : List (String × Budget)
  fallback : Budget
  maxKeys : Int

/-- What a Go run decides beyond the arguments of one `Allow`: in which order a map
    is iterated, and what the clock reads the second time. -/
structure LimiterChoice where
  order : Nat := 0
  evictNow : Time := 0

namespace MemoryLimiter

/-- `NewMemoryLimiter()` -/
def new : MemoryLimiter where
  budgets :=
    [("password:", budgetPasswordAccount),
      ("password:ip:", budgetPasswordIP),
      ("reset:", budgetTokenAccount),
      ("reset:ip:", budgetTokenIP),
      ("magic:", budgetTokenAccount),
      ("magic:ip:", budgetTokenIP),
      ("register:ip:", budgetTokenIP),
      ("totp:", budgetPasswordAccount)]
  fallback := budgetDefault
  maxKeys := 100000

/-- The loop of `budgetFor`, with the best match so far and its length. -/
def bestBudget (key : String) : List (String × Budget) → Budget × Int → Budget
  | [], best => best.1
  | (start, b) :: rest, best =>
    if best.2 < start.length ∧ start.toList <+: key.toList then
      bestBudget key rest (b, start.length)
    else bestBudget key rest best

def budgetFor (l : MemoryLimiter) (key : String) : Budget :=
  bestBudget key l.budgets (l.fallback, -1)

/-- The time between two instants, in intervals of the budget. -/
def intervals (b : Budget) (since now : Time) : ℚ := ((now - since : Int) : ℚ) / (b.interval : ℚ)

/-- A bucket that carries no information any more. -/
def refilled (l : MemoryLimiter) (now : Time) (bkt : Bucket) : Prop :=
  ((l.budgetFor bkt.key).burst : ℚ) ≤ bkt.tokens + intervals (l.budgetFor bkt.key) bkt.last now

instance (l : MemoryLimiter) (now : Time) : DecidablePred (l.refilled now) :=
  fun _ => inferInstanceAs (Decidable (_ ≤ _))

/-- The loop that looks for the bucket that was not touched for longest, with the key of the
    oldest so far and its time. The empty key stands for none. -/
def oldestKey : List Bucket → String × Time → String
  | [], oldest => oldest.1
  | bkt :: rest, oldest =>
    if oldest.1 = "" ∨ bkt.last < oldest.2 then oldestKey rest (bkt.key, bkt.last)
    else oldestKey rest oldest

/-- `evictIfNeededLocked`: at the cap, buckets that are full go first, and if that is
    not enough, one that was not touched for longest. -/
def evictIfNeeded (l : MemoryLimiter) (ch : LimiterChoice) : MemoryLimiter :=
  if l.buckets.rows.length < l.maxKeys then l
  else
    let kept := l.buckets.filter (fun bkt => ¬ l.refilled ch.evictNow bkt)
    if kept.rows.length < l.maxKeys then { l with buckets := kept }
    else { l with buckets := kept.erase (oldestKey (kept.list (fun _ => true) ch.order) ("", 0)) }

/-- The bucket as `Allow` finds it. The clock may have gone back, in which case
    nothing is added. -/
def refill (b : Budget) (now : Time) (bkt : Bucket) : Bucket :=
  let refill := intervals b bkt.last now
  if 0 < refill then { bkt with tokens := min (b.burst : ℚ) (bkt.tokens + refill), last := now }
  else bkt

/-- Take one token from a bucket and store what is left. -/
def take (l : MemoryLimiter) (bkt : Bucket) : Except Err Unit × MemoryLimiter :=
  if bkt.tokens < 1 then (.error .rateLimited, { l with buckets := l.buckets.put bkt })
  else (.ok (), { l with buckets := l.buckets.put { bkt with tokens := bkt.tokens - 1 } })

def allow (l : MemoryLimiter) (key : String) (now : Time) (ch : LimiterChoice) :
    Except Err Unit × MemoryLimiter :=
  let b := l.budgetFor key
  if b.burst ≤ 0 ∨ b.interval ≤ 0 then (.ok (), l)
  else
    match l.buckets.get? key with
    | none => (l.evictIfNeeded ch).take { key := key, tokens := b.burst, last := now }
    | some bkt => l.take (refill b now bkt)

/-- The default limiter as a deterministic one, once it is settled what each of its
    calls meets. The state counts the calls. -/
def toLimiter (choices : Nat → LimiterChoice) : Limiter where
  State := MemoryLimiter × Nat
  allow := fun s key now =>
    let r := s.1.allow key now (choices s.2)
    (r.1, r.2, s.2 + 1)

end MemoryLimiter

end Sulis
