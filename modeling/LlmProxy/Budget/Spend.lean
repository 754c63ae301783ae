import LlmProxy.Budget.Tracker

/-! # What a check compares

A check and the costs that are recorded around it share the two buckets, and each relies on the
other: the record on a bucket that is already current, the reset on nothing having been recorded
since the read. Where the stretches of a run meet `Timely`, both are right.

> `outline`   a timely stretch keeps both buckets, and what every check under way has read;
> `checks_compare_spend` what a check compares is what has been spent in its hour and on its day.
-/

namespace LlmProxy.Budget

open LlmProxy.Cluster (Stamp)
open PeriodBucket (Counts total)
open Interleaving Trace

/-- A stretch that finds the buckets as it takes them to be. -/
def Timely (s : Ledger) : Task → Prop
  | .compare _ _ seen => ∀ e ∈ s.spent.drop seen, floorDay e.1 ≠ floorDay s.clock
  | .reset resets _ _ =>
    (∀ hour, resets.hourBucketTs = some hour → ∀ e ∈ s.spent, floorHour e.1 < hour) ∧
      ∀ day, resets.dayBucketTs = some day → ∀ e ∈ s.spent, floorDay e.1 < day
  | .record costUsd =>
    0 < costUsd →
      s.row.hourBucketTs = some (floorHour s.clock) ∧ s.row.dayBucketTs = some (floorDay s.clock)
  | _ => True

instance : (s : Ledger) → (t : Task) → Decidable (Timely s t)
  | s, .compare _ _ seen =>
    inferInstanceAs (Decidable (∀ e ∈ s.spent.drop seen, floorDay e.1 ≠ floorDay s.clock))
  | s, .reset resets _ _ =>
    inferInstanceAs (Decidable ((∀ hour, hour ∈ resets.hourBucketTs →
      ∀ e ∈ s.spent, floorHour e.1 < hour) ∧
        ∀ day, day ∈ resets.dayBucketTs → ∀ e ∈ s.spent, floorDay e.1 < day))
  | s, .record costUsd =>
    inferInstanceAs (Decidable (0 < costUsd →
      s.row.hourBucketTs = some (floorHour s.clock) ∧
        s.row.dayBucketTs = some (floorDay s.clock)))
  | _, .read _ | _, .wait _ | _, .checked _ _ | _, .done => .isTrue trivial

/-! ## Hours and days -/

theorem floorHour_mono {t t' : Stamp} (h : t ≤ t') : floorHour t ≤ floorHour t' := by
  unfold floorHour Stamp at *
  omega

theorem floorDay_mono {t t' : Stamp} (h : t ≤ t') : floorDay t ≤ floorDay t' := by
  unfold floorDay Stamp at *
  omega

theorem floorDay_eq_of_floorHour {t t' : Stamp} (h : floorHour t = floorHour t') :
    floorDay t = floorDay t' := by
  unfold floorHour floorDay Stamp at *
  omega

theorem bucketCost_eq_read (ts : Option Stamp) (cost : Rat) (current : Stamp) :
    bucketCost ts cost current = PeriodBucket.read ts cost current := by
  unfold bucketCost PeriodBucket.read
  by_cases h : ts = some current
  · rw [if_pos h, if_neg]
    rintro (hnone | hne)
    · rw [hnone] at h
      cases h
    · exact hne h
  · rw [if_neg h, if_pos (Or.inr h)]

/-! ## The invariant -/

/-- The row's two buckets stand for the log. -/
def Balanced (key : BudgetRow) (log : List (Stamp × Rat)) (clock : Stamp) : Prop :=
  Counts floorHour log (floorHour clock) key.hourBucketTs key.hourCostUsd ∧
    Counts floorDay log (floorDay clock) key.dayBucketTs key.dayCostUsd

/-- What a call under way has seen is right: the row it has read, the periods it resets to, and the
costs it has compared. -/
def OnRecord (s : Ledger) : Task → Prop
  | .compare _ key seen => seen ≤ s.spent.length ∧ Balanced key (s.spent.take seen) s.clock
  | .reset resets compared due =>
    (∀ hour, resets.hourBucketTs = some hour → hour ≤ floorHour s.clock) ∧
      (∀ day, resets.dayBucketTs = some day → day ≤ floorDay s.clock) ∧ compared = due
  | .checked compared due => compared = due
  | _ => True

variable {s : Ledger} {t u : Task}

theorem Balanced.later {key : BudgetRow} {log : List (Stamp × Rat)} {clock clock' : Stamp}
    (h : Balanced key log clock) (hle : clock ≤ clock') : Balanced key log clock' :=
  ⟨h.1.later (floorHour_mono hle), h.2.later (floorDay_mono hle)⟩

theorem comparedAt_eq_due {key : BudgetRow} {seen : Nat}
    (h : Balanced key (s.spent.take seen) s.clock)
    (hsince : ∀ e ∈ s.spent.drop seen, floorDay e.1 ≠ floorDay s.clock) :
    comparedAt s.clock key = s.due := by
  unfold comparedAt Ledger.due
  rw [bucketCost_eq_read, bucketCost_eq_read, h.2.read_since hsince, h.1.read_since]
  intro e he heq
  exact hsince e he (floorDay_eq_of_floorHour heq)

theorem staleReset_le {ts : Option Stamp} {current stamp : Stamp}
    (h : staleReset ts current = some stamp) : stamp ≤ current := by
  unfold staleReset at h
  split at h
  · exact le_of_eq (Option.some.inj h).symm
  · cases h

theorem counts_apply {floor : Stamp → Stamp} {reset ts : Option Stamp} {cost : Rat}
    {log : List (Stamp × Rat)} {clock : Stamp} (h : Counts floor log (floor clock) ts cost)
    (hle : ∀ stamp, reset = some stamp → stamp ≤ floor clock)
    (htimely : ∀ stamp, reset = some stamp → ∀ e ∈ log, floor e.1 < stamp) :
    Counts floor log (floor clock) (reset.orElse fun _ => ts)
      (if reset.isSome then 0 else cost) := by
  cases reset with
  | none => exact h
  | some stamp => exact PeriodBucket.counts_reset (hle stamp rfl) (htimely stamp rfl)

/-- **A timely stretch keeps the buckets.** -/
theorem next_balanced (h : Balanced s.row s.spent s.clock) (ht : OnRecord s t) (hg : Timely s t) :
    Balanced (next s t).1.row (next s t).1.spent (next s t).1.clock := by
  cases t with
  | read caps => exact h
  | compare caps key seen =>
    unfold next
    dsimp only
    split
    · exact h
    · split <;> exact h
  | reset resets compared due =>
    obtain ⟨hhour, hday, -⟩ := ht
    exact ⟨counts_apply h.1 hhour hg.1, counts_apply h.2 hday hg.2⟩
  | record costUsd =>
    unfold next
    dsimp only
    split
    · exact h
    · next hpositive =>
      obtain ⟨hhour, hday⟩ := hg (not_le.mp hpositive)
      unfold recordCost
      rw [if_neg hpositive]
      exact ⟨h.1.add (s.clock, costUsd) hhour, h.2.add (s.clock, costUsd) hday⟩
  | wait microseconds =>
    refine h.later ?_
    show s.clock ≤ s.clock + (microseconds : Int)
    unfold Stamp
    omega
  | checked compared due => exact h
  | done => exact h

theorem next_grows (s : Ledger) (t : Task) :
    s.spent <+: (next s t).1.spent ∧ s.clock ≤ (next s t).1.clock := by
  cases t with
  | compare caps key seen =>
    unfold next
    dsimp only
    split
    · exact ⟨List.prefix_rfl, le_refl _⟩
    · split <;> exact ⟨List.prefix_rfl, le_refl _⟩
  | record costUsd =>
    unfold next
    dsimp only
    split
    · exact ⟨List.prefix_rfl, le_refl _⟩
    · exact ⟨List.prefix_append _ _, le_refl _⟩
  | wait microseconds =>
    refine ⟨List.prefix_rfl, ?_⟩
    show s.clock ≤ s.clock + (microseconds : Int)
    unfold Stamp
    omega
  | read caps => exact ⟨List.prefix_rfl, le_refl _⟩
  | reset resets compared due => exact ⟨List.prefix_rfl, le_refl _⟩
  | checked compared due => exact ⟨List.prefix_rfl, le_refl _⟩
  | done => exact ⟨List.prefix_rfl, le_refl _⟩

theorem OnRecord.grows {s' : Ledger} (hu : OnRecord s u) (hspent : s.spent <+: s'.spent)
    (hclock : s.clock ≤ s'.clock) : OnRecord s' u := by
  cases u with
  | compare caps key seen =>
    obtain ⟨hseen, hbalanced⟩ := hu
    obtain ⟨rest, hrest⟩ := hspent
    refine ⟨le_trans hseen ?_, ?_⟩
    · rw [← hrest, List.length_append]
      exact Nat.le_add_right _ _
    · rw [← hrest, List.take_append_of_le_length hseen]
      exact hbalanced.later hclock
  | reset resets compared due =>
    obtain ⟨hhour, hday, heq⟩ := hu
    exact ⟨fun hour h => le_trans (hhour hour h) (floorHour_mono hclock),
      fun day h => le_trans (hday day h) (floorDay_mono hclock), heq⟩
  | checked compared due => exact hu
  | read caps => trivial
  | record costUsd => trivial
  | wait microseconds => trivial
  | done => trivial

theorem next_onRecord (h : Balanced s.row s.spent s.clock) (ht : OnRecord s t) (hg : Timely s t) :
    OnRecord (next s t).1 (next s t).2 := by
  cases t with
  | read caps =>
    refine ⟨le_refl _, ?_⟩
    show Balanced s.row (s.spent.take s.spent.length) s.clock
    rw [List.take_length]
    exact h
  | compare caps key seen =>
    have hright := comparedAt_eq_due ht.2 hg
    unfold next
    dsimp only
    split
    · exact hright
    · split
      · exact hright
      · exact ⟨fun _ => staleReset_le, fun _ => staleReset_le, hright⟩
  | reset resets compared due => exact ht.2.2
  | record costUsd =>
    unfold next
    dsimp only
    split <;> trivial
  | wait microseconds => trivial
  | checked compared due => exact ht
  | done => trivial

/-- **One stretch**, for the interleaving rule. -/
theorem outline :
    Outline start next (fun s => Balanced s.row s.spent s.clock) OnRecord Timely where
  start := by
    intro s c _
    cases c <;> trivial
  shared := fun _ _ h ht hg => next_balanced h ht hg
  own := fun _ _ h ht hg => next_onRecord h ht hg
  other := by
    intro s t u _ _ _ hu
    obtain ⟨hspent, hclock⟩ := next_grows s t
    exact hu.grows hspent hclock

/-- What a check has compared, with what had been spent then. -/
def Task.comparison : Task → Option (Compared × Compared)
  | .reset _ compared due => some (compared, due)
  | .checked compared due => some (compared, due)
  | _ => none

/-- **The caps are held against what was spent**: in a run of checks, records and waits of a fresh
key whose stretches are timely, each check has compared with the caps the sums of the positive costs
recorded before it in its hour and on its day. -/
theorem checks_compare_spend (clock : Stamp) (as : List (Act Call))
    (hg : Along (step start next) (Guarded Timely) ⟨{ clock := clock }, fun _ => none⟩ as)
    (i : Nat) (t : Task) (compared due : Compared)
    (ht : (run (step start next) ⟨{ clock := clock }, fun _ => none⟩ as).calls i = some t)
    (hcompared : t.comparison = some (compared, due)) : compared = due := by
  have hstart : Safe (fun s => Balanced s.row s.spent s.clock) OnRecord
      ⟨{ clock := clock }, fun _ => none⟩ :=
    ⟨⟨PeriodBucket.counts_start _, PeriodBucket.counts_start _⟩, fun _ _ h => nomatch h⟩
  have hseen := (run_safe outline hstart hg).calls i t ht
  cases t with
  | reset resets compared' due' =>
    cases hcompared
    exact hseen.2.2
  | checked compared' due' =>
    cases hcompared
    exact hseen
  | read caps => cases hcompared
  | compare caps key seen => cases hcompared
  | record costUsd => cases hcompared
  | wait microseconds => cases hcompared
  | done => cases hcompared

/-! ### Checks around an hour -/

def minutes (n : Nat) : Nat := n * 60000000

/-- Everything a call has to do, one stretch after the other. -/
def atOnce (i : Nat) (c : Call) : List (Act Call) :=
  [.call i c, .resume i, .resume i, .resume i]

/-- Each cost is recorded in the hour of the check before it. -/
def withinHours : List (Act Call) :=
  atOnce 0 (.check {}) ++ atOnce 1 (.record 3) ++ atOnce 2 (.wait (minutes 61)) ++
    atOnce 3 (.check { hourlyCapUsd := some 1 }) ++ atOnce 4 (.record 2) ++
    atOnce 5 (.check { dailyHardCapUsd := some 5 })

theorem checks_compare_spend_within_hours :
    (run (step start next) ⟨{ clock := 0 }, fun _ => none⟩ withinHours).calls 5 =
        some (.checked ⟨2, 5⟩ ⟨2, 5⟩) ∧ (⟨2, 5⟩ : Compared) = ⟨2, 5⟩ := by
  have hlast : (run (step start next) ⟨{ clock := 0 }, fun _ => none⟩ withinHours).calls 5 =
      some (.checked ⟨2, 5⟩ ⟨2, 5⟩) := by decide +kernel
  exact ⟨hlast, checks_compare_spend 0 withinHours (by decide +kernel) 5 _ _ _ hlast rfl⟩

/-- The check with this number has compared something else than what had been spent. -/
def miscompared (as : List (Act Call)) (i : Nat) : Bool :=
  (((run (step start next) ⟨{}, fun _ => none⟩ as).calls i).bind Task.comparison).any
    fun c => c.1 ≠ c.2

/-- A request starts before the hour and its cost is recorded after it, before the next check. -/
def straddling : List (Act Call) :=
  atOnce 0 (.check {}) ++ atOnce 1 (.wait (minutes 61)) ++ atOnce 2 (.record 3) ++
    atOnce 3 (.check { hourlyCapUsd := some 1 })

/-- Two checks find the bucket stale, and the second resets it after a cost was recorded. -/
def resetTwice : List (Act Call) :=
  [.call 0 (.check {}), .resume 0, .resume 0, .call 1 (.check {}), .resume 1, .resume 1,
    .resume 0] ++ atOnce 2 (.record 3) ++ [.resume 1] ++
    atOnce 3 (.check { hourlyCapUsd := some 1 })

/-- A cost is recorded after a check has read the row. -/
def readBefore : List (Act Call) :=
  atOnce 0 (.check {}) ++ [.call 1 (.check { hourlyCapUsd := some 1 }), .resume 1] ++
    atOnce 2 (.record 3) ++ [.resume 1]

/-- **Checks that miss a cost**. -/
theorem checks_miss_spend :
    miscompared straddling 3 = true ∧ miscompared resetTwice 3 = true ∧
      miscompared readBefore 1 = true := by
  decide +kernel

end LlmProxy.Budget
