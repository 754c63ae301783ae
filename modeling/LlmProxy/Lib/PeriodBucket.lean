import Mathlib.Algebra.BigOperators.Group.List.Basic
import Mathlib.Algebra.Order.Monoid.Unbundled.Basic
import Mathlib.Order.Monotone.Defs

/-! # Buckets of the current period

A running total that is kept for one period at a time: a bucket is the stamp of a period and an
amount, and for any other period than its own it stands for zero. What it should stand for is the
total of the entries of a log in that period.

> `Counts`: for the period of the clock and every later one, the bucket stands for the log's total.

It is kept by an entry that is added while the bucket is stamped with the current period, and by a
reset to a period in which, as in every later one, nothing has been logged.
-/

namespace PeriodBucket

variable {τ π M : Type _} [LinearOrder π] [AddCommMonoid M] {period : τ → π}
  {log : List (τ × M)} {stamp : Option π} {amount : M} {clock clock' p : π}

def total (period : τ → π) (log : List (τ × M)) (p : π) : M :=
  ((log.filter fun e => period e.1 = p).map Prod.snd).sum

def read (stamp : Option π) (amount : M) (p : π) : M := if stamp = some p then amount else 0

/-- The bucket stands for the log, now and in the periods to come. -/
def Counts (period : τ → π) (log : List (τ × M)) (clock : π) (stamp : Option π) (amount : M) :
    Prop :=
  ∀ p, clock ≤ p → read stamp amount p = total period log p

@[simp] theorem total_nil (p : π) : total period ([] : List (τ × M)) p = 0 := rfl

theorem total_append (log log' : List (τ × M)) (p : π) :
    total period (log ++ log') p = total period log p + total period log' p := by
  unfold total
  rw [List.filter_append, List.map_append, List.sum_append]

theorem total_eq_zero (h : ∀ e ∈ log, period e.1 ≠ p) : total period log p = 0 := by
  have hnone : (log.filter fun e => period e.1 = p) = [] :=
    List.filter_eq_nil_iff.mpr fun e he => by simpa using h e he
  unfold total
  rw [hnone]
  rfl

theorem total_take (n : Nat) (h : ∀ e ∈ log.drop n, period e.1 ≠ p) :
    total period (log.take n) p = total period log p := by
  have happend : total period (log.take n ++ log.drop n) p =
      total period (log.take n) p + total period (log.drop n) p := total_append _ _ p
  rw [List.take_append_drop, total_eq_zero h, add_zero] at happend
  exact happend.symm

theorem counts_start (clock : π) : Counts period ([] : List (τ × M)) clock none 0 :=
  fun _ _ => rfl

theorem Counts.later (h : Counts period log clock stamp amount) (hle : clock ≤ clock') :
    Counts period log clock' stamp amount :=
  fun p hp => h p (le_trans hle hp)

/-- **An entry of the period the bucket is stamped with.** -/
theorem Counts.add (h : Counts period log clock stamp amount) (e : τ × M)
    (hstamp : stamp = some (period e.1)) :
    Counts period (log ++ [e]) clock stamp (amount + e.2) := by
  intro p hp
  have hbefore := h p hp
  unfold read at hbefore ⊢
  rw [total_append, ← hbefore]
  by_cases heq : period e.1 = p
  · rw [hstamp, heq]
    simp [total, heq]
  · have hother : stamp ≠ some p := by
      rw [hstamp]
      exact fun hsome => heq (Option.some.inj hsome)
    rw [if_neg hother, if_neg hother, total_eq_zero, add_zero]
    intro e' he'
    rw [List.mem_singleton.mp he']
    exact heq

/-- **A reset** to a period in which nothing has been logged, nor in any after it. -/
theorem counts_reset (hp : p ≤ clock) (h : ∀ e ∈ log, period e.1 < p) :
    Counts period log clock (some p) 0 := by
  intro q hq
  unfold read
  rw [ite_self, total_eq_zero]
  intro e he heq
  exact absurd (h e he) (not_lt.mpr (heq ▸ le_trans hp hq))

theorem Counts.read_since {n : Nat} (h : Counts period (log.take n) clock stamp amount)
    (hsince : ∀ e ∈ log.drop n, period e.1 ≠ clock) :
    read stamp amount clock = total period log clock :=
  (h clock (le_refl clock)).trans (total_take n hsince)

end PeriodBucket
