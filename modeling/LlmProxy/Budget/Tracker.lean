import LlmProxy.Cluster.Stamp
import LlmProxy.Lib.Interleaving
import LlmProxy.Lib.PeriodBucket
import LlmProxy.Lib.PyNum

/-! # The budget tracker

`app/budget/tracker.py`: the two cost buckets of an API key, the check `verify_api_key` makes before
a request and the cost recorded after it, cut where they await and interleaved.

Mirroring notes.
* A write transaction holds the write lock from its update to its commit, so an update takes effect
  at its commit. A check whose call is refused, by a cap here or by a rate limit later, is never
  committed.
* Costs and caps are exact rationals. Stamps are microseconds, and the floors those of UTC.
* Beside the row stands the log of the positive costs recorded so far, which no code reads; a check
  notes how long it was at its read.
-/

namespace LlmProxy.Budget

open LlmProxy.Cluster (Stamp)

/-- `_floor_hour`. -/
def floorHour (dt : Stamp) : Stamp := dt - dt % 3600000000

/-- `_floor_day`. -/
def floorDay (dt : Stamp) : Stamp := dt - dt % 86400000000

structure BudgetCaps where
  hourlyCapUsd : Option Rat := none
  dailyHardCapUsd : Option Rat := none
  dailySoftCapUsd : Option Rat := none
  deriving DecidableEq

structure BudgetRow where
  hourBucketTs : Option Stamp := none
  hourCostUsd : Rat := 0
  dayBucketTs : Option Stamp := none
  dayCostUsd : Rat := 0
  deriving DecidableEq

structure BudgetStatus where
  dayCost : Rat
  dayHardCap : Option Rat
  daySoftCap : Option Rat
  hourCost : Rat
  hourCap : Option Rat
  softWarning : Bool
  deriving DecidableEq

/-- An `HTTPException` with its `Retry-After` header, where it has one. -/
structure BudgetExceeded where
  status : Nat
  detail : String
  retryAfter : Option String := none
  deriving DecidableEq

/-! ## The check -/

def bucketCost (ts : Option Stamp) (cost : Rat) (current : Stamp) : Rat :=
  if ts = none ∨ ts ≠ some current then 0 else cost

/-- `reset_kwargs`: the stamps the stale buckets are reset to. -/
structure Resets where
  hourBucketTs : Option Stamp := none
  dayBucketTs : Option Stamp := none
  deriving DecidableEq

def staleReset (ts : Option Stamp) (current : Stamp) : Option Stamp :=
  if ts = none ∨ ts ≠ some current then some current else none

def resetsAt (now : Stamp) (key : BudgetRow) : Resets :=
  ⟨staleReset key.hourBucketTs (floorHour now), staleReset key.dayBucketTs (floorDay now)⟩

/-- The two costs the check compares with the caps. -/
structure Compared where
  hourCost : Rat
  dayCost : Rat
  deriving DecidableEq

def comparedAt (now : Stamp) (key : BudgetRow) : Compared :=
  ⟨bucketCost key.hourBucketTs key.hourCostUsd (floorHour now),
    bucketCost key.dayBucketTs key.dayCostUsd (floorDay now)⟩

/-- The comparisons of `check_budget_pre_request`, after the reset is issued. -/
def enforce (caps : BudgetCaps) (costs : Compared) : Except BudgetExceeded BudgetStatus :=
  match caps.hourlyCapUsd.filter (· ≤ costs.hourCost) with
  | some cap => .error ⟨429, "Hourly budget exceeded: $" ++ PyFormat.fixed 2 cap, some "3600"⟩
  | none =>
    match caps.dailyHardCapUsd.filter (· ≤ costs.dayCost) with
    | some cap => .error ⟨402, "Daily budget exceeded: $" ++ PyFormat.fixed 2 cap, none⟩
    | none =>
      .ok
        { dayCost := costs.dayCost
          dayHardCap := caps.dailyHardCapUsd
          daySoftCap := caps.dailySoftCapUsd
          hourCost := costs.hourCost
          hourCap := caps.hourlyCapUsd
          softWarning := caps.dailySoftCapUsd.any (· ≤ costs.dayCost) }

def Resets.apply (r : Resets) (key : BudgetRow) : BudgetRow :=
  { hourBucketTs := r.hourBucketTs.orElse fun _ => key.hourBucketTs
    hourCostUsd := if r.hourBucketTs.isSome then 0 else key.hourCostUsd
    dayBucketTs := r.dayBucketTs.orElse fun _ => key.dayBucketTs
    dayCostUsd := if r.dayBucketTs.isSome then 0 else key.dayCostUsd }

/-- `record_cost`. -/
def recordCost (costUsd : Rat) (key : BudgetRow) : BudgetRow :=
  if costUsd ≤ 0 then key
  else { key with hourCostUsd := key.hourCostUsd + costUsd, dayCostUsd := key.dayCostUsd + costUsd }

/-! ## The calls -/

/-- The row, the positive costs recorded so far with their times, and the clock. -/
structure Ledger where
  row : BudgetRow := {}
  spent : List (Stamp × Rat) := []
  clock : Stamp := 0
  deriving DecidableEq

/-- What has been spent in the hour and on the day of the clock. -/
def Ledger.due (s : Ledger) : Compared :=
  ⟨PeriodBucket.total floorHour s.spent (floorHour s.clock),
    PeriodBucket.total floorDay s.spent (floorDay s.clock)⟩

/-- A check with some caps, a cost to record, or the passing of time. -/
inductive Call where
  | check (caps : BudgetCaps)
  | record (costUsd : Rat)
  | wait (microseconds : Nat)
  deriving DecidableEq

/-- Where a call stands. A check that has compared keeps what it compared, and what had been spent
at that time. -/
inductive Task where
  | read (caps : BudgetCaps)
  | compare (caps : BudgetCaps) (key : BudgetRow) (seen : Nat)
  | reset (resets : Resets) (compared due : Compared)
  | checked (compared due : Compared)
  | record (costUsd : Rat)
  | wait (microseconds : Nat)
  | done
  deriving DecidableEq

def start (_ : Ledger) : Call → Task
  | .check caps => .read caps
  | .record costUsd => .record costUsd
  | .wait microseconds => .wait microseconds

def next (s : Ledger) : Task → Ledger × Task
  | .read caps => (s, .compare caps s.row s.spent.length)
  | .compare caps key _ =>
    let compared := comparedAt s.clock key
    match enforce caps compared with
    | .error _ => (s, .checked compared s.due)
    | .ok _ =>
      if resetsAt s.clock key = {} then (s, .checked compared s.due)
      else (s, .reset (resetsAt s.clock key) compared s.due)
  | .reset resets compared due => ({ s with row := resets.apply s.row }, .checked compared due)
  | .record costUsd =>
    if costUsd ≤ 0 then (s, .done)
    else
      ({ s with row := recordCost costUsd s.row, spent := s.spent ++ [(s.clock, costUsd)] }, .done)
  | .wait microseconds => ({ s with clock := s.clock + microseconds }, .done)
  | t => (s, t)

end LlmProxy.Budget
