import Mathlib.Tactic.Linarith
import Mathlib.Tactic.Ring
import LlmProxy.Runs.RateLimit

/-! # Hedge tokens

`_try_consume_hedge_token` (`app/routing/hedging.py`): one bucket for all hedges, refilled by the
time since the last call. What a window of calls can take is what is in the bucket at its first
call, and what flows in during it.

> `never_over_admits`: the minutes of a run and the spans of the bucket keep their limits, the
> first for calls that began between the same resets, the second away from the time 0.

Mirroring notes.
* The rate and the times are the exact values of their floats, and the arithmetic is exact.
-/

namespace LlmProxy.Streaming

open LlmProxy.Runs

/-- `_bucket_tokens` and `_bucket_last_refill`. -/
structure HedgeBucket where
  tokens : Rat := 0
  lastRefill : Rat := 0

/-- The refill; the time 0 stands for a bucket that was never filled. -/
def refill (maxRate : Rat) (b : HedgeBucket) (now : Rat) : HedgeBucket :=
  if b.lastRefill = 0 then ⟨maxRate, now⟩
  else ⟨min maxRate (b.tokens + (now - b.lastRefill) * maxRate), now⟩

def takeToken (b : HedgeBucket) : Bool × HedgeBucket :=
  if 1 ≤ b.tokens then (true, { b with tokens := b.tokens - 1 }) else (false, b)

/-- `_try_consume_hedge_token`. -/
def tryConsumeHedgeToken (maxRate : Rat) (b : HedgeBucket) (now : Rat) : Bool × HedgeBucket :=
  if maxRate ≤ 0 then (false, b) else takeToken (refill maxRate b now)

/-- The times of the calls that get a token, and the bucket after all of them. -/
def hedgeRun (maxRate : Rat) (b : HedgeBucket) : List Rat → List Rat × HedgeBucket
  | [] => ([], b)
  | now :: times =>
    let taken := tryConsumeHedgeToken maxRate b now
    let rest := hedgeRun maxRate taken.2 times
    (if taken.1 then now :: rest.1 else rest.1, rest.2)

/-! ## The bound -/

/-- The bucket holds no more than the rate. -/
def Holds (rate : Rat) (b : HedgeBucket) : Prop := 0 ≤ b.tokens ∧ b.tokens ≤ rate

section

variable {rate : Rat} {b : HedgeBucket} {now : Rat} {times : List Rat}

theorem takeToken_cases (b : HedgeBucket) :
    (1 ≤ b.tokens ∧ takeToken b = (true, { b with tokens := b.tokens - 1 })) ∨
      (b.tokens < 1 ∧ takeToken b = (false, b)) := by
  unfold takeToken
  by_cases h : 1 ≤ b.tokens
  · exact .inl ⟨h, if_pos h⟩
  · exact .inr ⟨not_le.mp h, if_neg h⟩

theorem refill_holds (hrate : 1 ≤ rate) (h : Holds rate b)
    (hnow : b.lastRefill ≠ 0 → b.lastRefill ≤ now) :
    Holds rate (refill rate b now) ∧ (refill rate b now).lastRefill = now := by
  unfold refill
  split
  · exact ⟨⟨by show (0 : Rat) ≤ rate; linarith, le_refl rate⟩, rfl⟩
  · next hfilled =>
    have hlate := hnow hfilled
    have hflow : 0 ≤ (now - b.lastRefill) * rate := mul_nonneg (by linarith) (by linarith)
    have hlow := h.1
    exact ⟨⟨le_min (by linarith) (by linarith), min_le_left _ _⟩, rfl⟩

theorem takeToken_holds (h : Holds rate b) :
    Holds rate (takeToken b).2 ∧ (takeToken b).2.lastRefill = b.lastRefill := by
  obtain ⟨hlow, hhigh⟩ := h
  rcases takeToken_cases b with ⟨hone, htake⟩ | ⟨-, htake⟩
  · rw [htake]
    refine ⟨⟨?_, ?_⟩, rfl⟩
    · show 0 ≤ b.tokens - 1
      linarith
    · show b.tokens - 1 ≤ rate
      linarith
  · rw [htake]
    exact ⟨⟨hlow, hhigh⟩, rfl⟩

/-- **A call** leaves a bucket that was filled now. -/
theorem call_holds (hrate : 1 ≤ rate) (h : Holds rate b)
    (hnow : b.lastRefill ≠ 0 → b.lastRefill ≤ now) :
    Holds rate (takeToken (refill rate b now)).2 ∧
      (takeToken (refill rate b now)).2.lastRefill = now := by
  obtain ⟨hfull, hat⟩ := refill_holds hrate h hnow
  obtain ⟨hkept, hsame⟩ := takeToken_holds hfull
  exact ⟨hkept, hsame.trans hat⟩

theorem hedgeRun_cons (hrate : 1 ≤ rate) (b : HedgeBucket) (now : Rat) (times : List Rat) :
    hedgeRun rate b (now :: times) =
      (if (takeToken (refill rate b now)).1 then
        now :: (hedgeRun rate (takeToken (refill rate b now)).2 times).1
      else (hedgeRun rate (takeToken (refill rate b now)).2 times).1,
        (hedgeRun rate (takeToken (refill rate b now)).2 times).2) := by
  have hcall : tryConsumeHedgeToken rate b now = takeToken (refill rate b now) :=
    if_neg (by linarith)
  rw [hedgeRun, hcall]

theorem grants_sublist (hrate : 1 ≤ rate) (b : HedgeBucket) (times : List Rat) :
    (hedgeRun rate b times).1.Sublist times := by
  induction times generalizing b with
  | nil => exact List.Sublist.refl _
  | cons now times ih =>
    rw [hedgeRun_cons hrate]
    dsimp only
    split
    · exact (ih _).cons_cons now
    · exact (ih _).cons now

theorem hedgeRun_holds (hrate : 1 ≤ rate) (h : Holds rate b)
    (hready : b.lastRefill ≠ 0 → ∀ t ∈ times, b.lastRefill ≤ t)
    (hclock : times.Pairwise (· ≤ ·)) : Holds rate (hedgeRun rate b times).2 := by
  induction times generalizing b with
  | nil => exact h
  | cons now times ih =>
    obtain ⟨hbefore, hrest⟩ := List.pairwise_cons.mp hclock
    obtain ⟨hkept, hat⟩ := call_holds hrate h fun hfilled =>
      hready hfilled now List.mem_cons_self
    rw [hedgeRun_cons hrate]
    exact ih hkept (fun _ t ht => by rw [hat]; exact hbefore t ht) hrest

def grantsIn (rate : Rat) (b : HedgeBucket) (times : List Rat) (low high : Rat) : Nat :=
  ((hedgeRun rate b times).1.filter fun t => low ≤ t ∧ t ≤ high).length

theorem grantsIn_cons (hrate : 1 ≤ rate) (b : HedgeBucket) (now : Rat) (times : List Rat)
    (low high : Rat) :
    grantsIn rate b (now :: times) low high =
      (if (takeToken (refill rate b now)).1 = true ∧ low ≤ now ∧ now ≤ high then 1 else 0) +
        grantsIn rate (takeToken (refill rate b now)).2 times low high := by
  unfold grantsIn
  rw [hedgeRun_cons hrate]
  cases (takeToken (refill rate b now)).1 with
  | false => simp
  | true =>
    by_cases hin : low ≤ now ∧ now ≤ high
    · rw [if_pos rfl, List.filter_cons_of_pos (by exact decide_eq_true hin),
        if_pos ⟨rfl, hin⟩, List.length_cons, Nat.add_comm]
    · rw [if_pos rfl, List.filter_cons_of_neg (by exact mt of_decide_eq_true hin),
        if_neg (fun h => hin h.2), Nat.zero_add]

theorem grantsIn_late (hrate : 1 ≤ rate) (b : HedgeBucket) {low high : Rat}
    (hlate : ∀ t ∈ times, high < t) : grantsIn rate b times low high = 0 := by
  unfold grantsIn
  rw [List.length_eq_zero_iff, List.filter_eq_nil_iff]
  intro t ht hin
  have hgrant := hlate t ((grants_sublist hrate b times).subset ht)
  exact absurd (of_decide_eq_true hin).2 (not_le.mpr hgrant)

/-- **What is granted** up to a time is in the bucket, or flows in until then. -/
theorem grantsIn_le (hrate : 1 ≤ rate) (h : Holds rate b) (hfilled : b.lastRefill ≠ 0)
    (hclock : (b.lastRefill :: times).Pairwise (· ≤ ·)) (hzero : ∀ t ∈ times, t ≠ 0)
    (low : Rat) {high : Rat} (hhigh : b.lastRefill ≤ high) :
    (grantsIn rate b times low high : Rat) ≤ b.tokens + rate * (high - b.lastRefill) := by
  have hflow : 0 ≤ rate * (high - b.lastRefill) := mul_nonneg (by linarith) (by linarith)
  have hlow := h.1
  induction times generalizing b with
  | nil =>
    show ((0 : Nat) : Rat) ≤ _
    rw [Nat.cast_zero]
    linarith
  | cons now times ih =>
    obtain ⟨hbefore, hrest⟩ := List.pairwise_cons.mp hclock
    have hnow : b.lastRefill ≤ now := hbefore now List.mem_cons_self
    obtain ⟨hnonzero, hzero'⟩ := List.forall_mem_cons.mp hzero
    by_cases hle : now ≤ high
    · obtain ⟨hkept, hat⟩ := call_holds hrate h fun _ => hnow
      have hin : (refill rate b now).tokens ≤ b.tokens + (now - b.lastRefill) * rate := by
        unfold refill
        rw [if_neg hfilled]
        exact min_le_right _ _
      have hrestflow : 0 ≤ rate * (high - now) := mul_nonneg (by linarith) (by linarith)
      have hlater := ih hkept (by rw [hat]; exact hnonzero) (by rw [hat]; exact hrest) hzero'
        (by rw [hat]; exact hle) (by rw [hat]; exact hrestflow) hkept.1
      rw [hat] at hlater
      rw [grantsIn_cons hrate, Nat.cast_add]
      have hone : (((if (takeToken (refill rate b now)).1 = true ∧ low ≤ now ∧ now ≤ high then 1
          else 0 : Nat)) : Rat) + (takeToken (refill rate b now)).2.tokens ≤
            (refill rate b now).tokens := by
        rcases takeToken_cases (refill rate b now) with ⟨-, htake⟩ | ⟨-, htake⟩
        · rw [htake]
          split
          · rw [Nat.cast_one]
            show 1 + ((refill rate b now).tokens - 1) ≤ _
            linarith
          · rw [Nat.cast_zero]
            show 0 + ((refill rate b now).tokens - 1) ≤ _
            linarith
        · rw [htake, if_neg fun h => Bool.false_ne_true h.1, Nat.cast_zero, zero_add]
      linarith
    · have hlate : ∀ t ∈ now :: times, high < t := by
        intro t ht
        rcases List.mem_cons.mp ht with rfl | ht
        · exact not_le.mp hle
        · exact (not_le.mp hle).trans_le ((List.pairwise_cons.mp hrest).1 t ht)
      rw [grantsIn_late hrate b hlate, Nat.cast_zero]
      linarith

/-- **In a span of time** no more is granted than the rate lets in, and a full bucket. -/
theorem grantsIn_span (hrate : 1 ≤ rate) (h : Holds rate b)
    (hready : b.lastRefill ≠ 0 → ∀ t ∈ times, b.lastRefill ≤ t)
    (hclock : times.Pairwise (· ≤ ·)) (hzero : ∀ t ∈ times, t ≠ 0) (low : Rat) {d : Rat}
    (hd : 0 ≤ d) : (grantsIn rate b times low (low + d) : Rat) ≤ rate * d + rate := by
  have hspan : 0 ≤ rate * d := mul_nonneg (by linarith) hd
  induction times generalizing b with
  | nil =>
    show ((0 : Nat) : Rat) ≤ _
    rw [Nat.cast_zero]
    linarith
  | cons now times ih =>
    obtain ⟨hbefore, hrest⟩ := List.pairwise_cons.mp hclock
    obtain ⟨hnonzero, hzero'⟩ := List.forall_mem_cons.mp hzero
    have hnow : b.lastRefill ≠ 0 → b.lastRefill ≤ now := fun hfilled =>
      hready hfilled now List.mem_cons_self
    obtain ⟨hkept, hat⟩ := call_holds hrate h hnow
    by_cases hlow : low ≤ now
    · by_cases hhigh : now ≤ low + d
      · -- the first call of the span finds at most a full bucket
        obtain ⟨hfull, hat'⟩ := refill_holds hrate h hnow
        have hlater : (grantsIn rate (takeToken (refill rate b now)).2 times low (low + d) : Rat) ≤
            (takeToken (refill rate b now)).2.tokens +
              rate * (low + d - (takeToken (refill rate b now)).2.lastRefill) :=
          grantsIn_le hrate hkept (by rw [hat]; exact hnonzero) (by rw [hat]; exact hclock) hzero'
            low (by rw [hat]; exact hhigh)
        rw [hat] at hlater
        have hflow : rate * (low + d - now) ≤ rate * d :=
          mul_le_mul_of_nonneg_left (by linarith) (by linarith)
        have htokens := hfull.2
        rw [grantsIn_cons hrate, Nat.cast_add]
        rcases takeToken_cases (refill rate b now) with ⟨-, htake⟩ | ⟨-, htake⟩
        · rw [htake] at hlater ⊢
          have hspent : (grantsIn rate { refill rate b now with
              tokens := (refill rate b now).tokens - 1 } times low (low + d) : Rat) ≤
                (refill rate b now).tokens - 1 + rate * (low + d - now) := hlater
          rw [if_pos ⟨rfl, hlow, hhigh⟩, Nat.cast_one]
          linarith
        · rw [htake] at hlater ⊢
          rw [if_neg fun h => Bool.false_ne_true h.1, Nat.cast_zero]
          linarith
      · have hlate : ∀ t ∈ now :: times, low + d < t := by
          intro t ht
          rcases List.mem_cons.mp ht with rfl | ht
          · exact not_le.mp hhigh
          · exact (not_le.mp hhigh).trans_le (hbefore t ht)
        rw [grantsIn_late hrate b hlate, Nat.cast_zero]
        linarith
    · rw [grantsIn_cons hrate, if_neg fun h => hlow h.2.1, Nat.zero_add]
      exact ih hkept (fun _ t ht => by rw [hat]; exact hbefore t ht) hrest hzero'

end

/-! ## Main theorem -/

/-- No closed minute has more starts than the limit, of calls of a run that began between two
resets of it. -/
def StartsLimited : Prop :=
  ∀ (limit : Nat) (events : List SlotEvent), (slotTimes events).Pairwise (· ≤ ·) →
    ∀ runId epoch t, (startsBegunIn (slotRun limit events) runId epoch t).length ≤ limit

/-- The bucket keeps to its rate, where no call comes at the time 0. -/
def GrantsLimited : Prop :=
  ∀ rate, 1 ≤ rate → ∀ times : List Rat, times.Pairwise (· ≤ ·) →
    Holds rate (hedgeRun rate {} times).2 ∧
      ((∀ t ∈ times, t ≠ 0) → ∀ low d, 0 ≤ d →
        (grantsIn rate {} times low (low + d) : Rat) ≤ rate * d + rate)

theorem grants_limited : GrantsLimited := by
  intro rate hrate times hclock
  have hempty : Holds rate {} := ⟨le_refl 0, by show (0 : Rat) ≤ rate; linarith⟩
  have hready : ({} : HedgeBucket).lastRefill ≠ 0 → ∀ t ∈ times, ({} : HedgeBucket).lastRefill ≤ t :=
    fun h => absurd rfl h
  exact ⟨hedgeRun_holds hrate hempty hready hclock, fun hzero low d hd =>
    grantsIn_span hrate hempty hready hclock hzero low hd⟩

/-- **Neither limiter lets in too much.** -/
theorem never_over_admits : StartsLimited ∧ GrantsLimited :=
  ⟨fun limit _ hclock runId epoch t => starts_between_resets limit hclock runId epoch t,
    grants_limited⟩

/-! ### A call that outlives its bucket, and the time 0 -/

/-- One call starts and another one waits; the bucket is dropped; a third call starts in a new one,
and then the second in the old one. -/
def outlivedBucket : List SlotEvent :=
  [.acquire "r1" 1, .acquire "r1" 2, .reset "r1", .acquire "r1" 3, .retry 0 62]

theorem never_over_admits_outlived :
    (startsBegunIn (slotRun 1 outlivedBucket) "r1" 0 1).length ≤ 1 ∧
      (grantsIn 1 {} [1, 1, 2] 1 (1 + 1) : Rat) ≤ 1 * 1 + 1 :=
  ⟨never_over_admits.1 1 outlivedBucket (by decide) "r1" 0 1,
    (never_over_admits.2 1 (le_refl 1) [1, 1, 2] (by decide)).2 (by decide) 1 1 (by decide)⟩

/-- **Between resets** two calls start within a minute under a limit of one; and two calls at the
time 0 get a token each at a rate of one. -/
theorem over_admits :
    (¬ ∀ (limit : Nat) (events : List SlotEvent), (slotTimes events).Pairwise (· ≤ ·) →
      ∀ runId epoch t, (startsRecordedIn (slotRun limit events) runId epoch t).length ≤ limit) ∧
    ¬ ∀ rate, 1 ≤ rate → ∀ times : List Rat, times.Pairwise (· ≤ ·) → ∀ low d, 0 ≤ d →
      (grantsIn rate {} times low (low + d) : Rat) ≤ rate * d + rate := by
  constructor
  · intro h
    exact absurd (h 1 outlivedBucket (by decide) "r1" 1 3) (by decide +kernel)
  · intro h
    exact absurd (h 1 (le_refl 1) [0, 0] (by decide) 0 0 (le_refl 0)) (by decide +kernel)

end LlmProxy.Streaming
