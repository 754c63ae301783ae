import LlmProxy.Breaker.State

/-! # The representation invariant of the breaker

`is_available` looks at the hold-down and at the state, and nothing in the code says how the two
are related. They are: outside `OPEN` the hold-down is over, so that the first test never
refuses what the second would let through.

> `breaker_representation`: in every run with a clock that does not go back, a breaker that is
> not open has its hold-down behind it and `is_available` answers as `get_state` does; a closed
> one is below its threshold; the k-th open in a row that a threshold triggers holds for
> `base * 2 ^ min (k - 1) 5`.

The count of opens is kept beside the breaker, from the run alone: `consecutive_opens` is what
is shown to agree with it.
-/

namespace LlmProxy.Breaker

/-- The readings of the clock an operation takes, in their order. -/
def Op.readings : Op → List Time
  | .getState now => [now]
  | .isAvailable now now' => [now, now']
  | .recordSuccess => []
  | .recordFailure _ now => [now]
  | .recordAuthFailure clk => [clk.openedAt, clk.heldAt, clk.since, clk.recordedAt]
  | .forceOpen now => [now]
  | .forceClose => []

/-- The operation is a failure that opens the breaker by its threshold. -/
def LocalState.opensBy (cfg : Config) (s : LocalState) : Op → Bool
  | .recordFailure false now =>
    s.state ≠ .opened && (s.recordFailure cfg false now).state = .opened
  | _ => false

/-- A breaker with the latest reading of the clock and the number of opens its threshold has
triggered since it was last closed. The clock starts at the epoch. -/
structure Clocked where
  breaker : LocalState := {}
  clock : Time := 0
  opens : Nat := 0

def Clocked.step (cfg : Config) (c : Clocked) (op : Op) : Clocked where
  breaker := c.breaker.step cfg op
  clock := op.readings.getLastD c.clock
  opens :=
    if (c.breaker.step cfg op).state = .closed then 0
    else if c.breaker.opensBy cfg op then c.opens + 1
    else c.opens

/-- The clock does not go back. -/
def Forward (c : Clocked) (op : Op) : Prop := (c.clock :: op.readings).IsChain (· ≤ ·)

instance (c : Clocked) (op : Op) : Decidable (Forward c op) :=
  inferInstanceAs (Decidable (List.IsChain _ _))

/-- The breaker and its clock after a run, from its first use on. -/
abbrev clockedAfter (cfg : Config) (ops : List Op) : Clocked := Trace.run (Clocked.step cfg) {} ops

theorem run_breaker (cfg : Config) (c : Clocked) (ops : List Op) :
    (Trace.run (Clocked.step cfg) c ops).breaker =
      Trace.run (LocalState.step cfg) c.breaker ops := by
  induction ops generalizing c with
  | nil => rfl
  | cons op ops ih => exact ih (c.step cfg op)

theorem Forward.clock_le {c : Clocked} {op : Op} (h : Forward c op) (cfg : Config) :
    c.clock ≤ (c.step cfg op).clock := by
  cases op with
  | recordSuccess => exact le_rfl
  | forceClose => exact le_rfl
  | recordAuthFailure clk =>
    simp only [Forward, Op.readings, List.isChain_cons_cons, List.isChain_singleton] at h
    show c.clock ≤ clk.recordedAt
    linarith [h.1, h.2.1, h.2.2.1, h.2.2.2.1]
  | isAvailable now now' =>
    simp only [Forward, Op.readings, List.isChain_cons_cons, List.isChain_singleton] at h
    show c.clock ≤ now'
    linarith [h.1, h.2.1]
  | _ =>
    simp only [Forward, Op.readings, List.isChain_cons_cons, List.isChain_singleton] at h
    exact h.1

/-! ## The invariant -/

structure Represents (cfg : Config) (c : Clocked) : Prop where
  epoch : 0 ≤ c.clock
  free : c.breaker.state ≠ .opened → c.breaker.holdDownUntil ≤ c.clock
  below : 1 ≤ cfg.failureThreshold → c.breaker.state = .closed →
    c.breaker.failures < cfg.failureThreshold
  counted : c.breaker.consecutiveOpens = c.opens
  fresh : c.breaker.state = .closed → c.opens = 0

theorem represents_fresh (cfg : Config) : Represents cfg {} where
  epoch := le_rfl
  free _ := le_rfl
  below _ _ := by
    show ((0 : Nat) : Int) < cfg.failureThreshold
    omega
  counted := rfl
  fresh _ := rfl

section

variable {cfg : Config} {c : Clocked}

/-- An operation that leaves state, hold-down and opens alone keeps the invariant, as long as a
closed breaker does not reach its threshold. -/
theorem Represents.keep (h : Represents cfg c) {op : Op} (hclock : Forward c op)
    (hstate : (c.breaker.step cfg op).state = c.breaker.state)
    (hhold : (c.breaker.step cfg op).holdDownUntil = c.breaker.holdDownUntil)
    (hopens : (c.breaker.step cfg op).consecutiveOpens = c.breaker.consecutiveOpens)
    (hquiet : c.breaker.opensBy cfg op = false)
    (hbelow : 1 ≤ cfg.failureThreshold → c.breaker.state = .closed →
      (c.breaker.step cfg op).failures < cfg.failureThreshold) :
    Represents cfg (c.step cfg op) := by
  have hlater := hclock.clock_le cfg
  refine ⟨h.epoch.trans hlater, ?_, ?_, ?_, ?_⟩
  · intro hne
    rw [show (c.step cfg op).breaker = c.breaker.step cfg op from rfl] at hne ⊢
    rw [hstate] at hne
    rw [hhold]
    exact (h.free hne).trans hlater
  · intro hthreshold hclosed
    exact hbelow hthreshold (hstate.symm.trans hclosed)
  · show (c.breaker.step cfg op).consecutiveOpens = if _ then _ else if _ then _ else _
    rw [hopens, h.counted, hquiet, if_neg Bool.false_ne_true]
    split
    · next hclosed => exact h.fresh (hstate.symm.trans hclosed)
    · rfl
  · intro hclosed
    exact if_pos hclosed

theorem Represents.opens (h : Represents cfg c) {op : Op} (hclock : Forward c op)
    (hstate : (c.breaker.step cfg op).state = .opened)
    (hopens : (c.breaker.step cfg op).consecutiveOpens =
      c.breaker.consecutiveOpens + (if c.breaker.opensBy cfg op then 1 else 0)) :
    Represents cfg (c.step cfg op) := by
  have hopened : ¬ (c.breaker.step cfg op).state = .closed := by rw [hstate]; decide
  refine ⟨h.epoch.trans (hclock.clock_le cfg), ?_, ?_, ?_, ?_⟩
  · exact fun hne => absurd hstate hne
  · exact fun _ hclosed => absurd hclosed hopened
  · show (c.breaker.step cfg op).consecutiveOpens = if _ then _ else if _ then _ else _
    rw [hopens, h.counted, if_neg hopened]
    split <;> rfl
  · exact fun hclosed => absurd hclosed hopened

theorem Represents.read (h : Represents cfg c) {op : Op} (hclock : Forward c op)
    (hstep : c.breaker.step cfg op = { c.breaker with state := .halfOpen, successes := 0 })
    (hready : c.breaker.readyAt cfg ≤ (c.step cfg op).clock)
    (hquiet : c.breaker.opensBy cfg op = false) : Represents cfg (c.step cfg op) := by
  have hbreaker : (c.step cfg op).breaker = { c.breaker with state := .halfOpen, successes := 0 } :=
    hstep
  have hhalf : ¬ (c.breaker.step cfg op).state = .closed := by
    rw [hstep]
    exact CBState.noConfusion
  refine ⟨h.epoch.trans (hclock.clock_le cfg), ?_, ?_, ?_, ?_⟩
  · intro _
    rw [hbreaker]
    exact (le_max_right _ _).trans hready
  · exact fun _ hclosed => absurd hclosed hhalf
  · show (c.breaker.step cfg op).consecutiveOpens = if _ then _ else if _ then _ else _
    rw [if_neg hhalf, hquiet, if_neg Bool.false_ne_true, hstep]
    exact h.counted
  · exact fun hclosed => absurd hclosed hhalf

theorem Represents.closes (h : Represents cfg c) {op : Op}
    (hclock : Forward c op) (hstate : (c.breaker.step cfg op).state = .closed)
    (hhold : (c.breaker.step cfg op).holdDownUntil ≤ c.clock)
    (hfailures : (c.breaker.step cfg op).failures = 0)
    (hopens : (c.breaker.step cfg op).consecutiveOpens = 0) :
    Represents cfg (c.step cfg op) := by
  have hlater := hclock.clock_le cfg
  refine ⟨h.epoch.trans hlater, ?_, ?_, ?_, ?_⟩
  · exact fun _ => hhold.trans hlater
  · intro hthreshold _
    rw [show (c.step cfg op).breaker = c.breaker.step cfg op from rfl, hfailures]
    omega
  · show (c.breaker.step cfg op).consecutiveOpens = if _ then _ else _
    rw [if_pos hstate, hopens]
  · exact fun hclosed => if_pos hclosed

theorem opensBy_iff_trips {s : LocalState} {now : Time} :
    s.opensBy cfg (.recordFailure false now) = true ↔ s.Trips cfg := by
  by_cases htrips : s.Trips cfg
  · simp only [LocalState.opensBy, recordFailure_trips htrips]
    simp [LocalState.tripped, htrips, htrips.1]
  · simp only [LocalState.opensBy, recordFailure_counts htrips]
    simp [htrips]

/-- **Step lemma.** -/
theorem Represents.step (h : Represents cfg c) {op : Op} (hclock : Forward c op) :
    Represents cfg (c.step cfg op) := by
  cases op with
  | getState now =>
    rcases getState_cases cfg c.breaker now with hsame | ⟨-, hready, hhalf⟩
    · have hstep : c.breaker.step cfg (.getState now) = c.breaker := hsame
      exact h.keep hclock (by rw [hstep]) (by rw [hstep]) (by rw [hstep]) rfl
        (by rw [hstep]; exact h.below)
    · exact h.read hclock hhalf hready rfl
  | isAvailable now now' =>
    by_cases hheld : now < c.breaker.holdDownUntil
    · have hstep : c.breaker.step cfg (.isAvailable now now') = c.breaker :=
        congrArg Prod.snd (isAvailable_held hheld now')
      exact h.keep hclock (by rw [hstep]) (by rw [hstep]) (by rw [hstep]) rfl
        (by rw [hstep]; exact h.below)
    · have hread : c.breaker.step cfg (.isAvailable now now') = c.breaker.getState cfg now' :=
        congrArg Prod.snd (isAvailable_free hheld now')
      rcases getState_cases cfg c.breaker now' with hsame | ⟨-, hready, hhalf⟩
      · have hstep := hread.trans hsame
        exact h.keep hclock (by rw [hstep]) (by rw [hstep]) (by rw [hstep]) rfl
          (by rw [hstep]; exact h.below)
      · exact h.read hclock (hread.trans hhalf) hready rfl
  | recordSuccess =>
    rcases recordSuccess_cases cfg c.breaker with
      ⟨-, hstep⟩ | ⟨hclosed, hstep⟩ | ⟨hhalf, hstep⟩ | ⟨hhalf, hstep⟩
    · have hsame : c.breaker.step cfg .recordSuccess = c.breaker := hstep
      exact h.keep hclock (by rw [hsame]) (by rw [hsame]) (by rw [hsame]) rfl
        (by rw [hsame]; exact h.below)
    · have hdown : c.breaker.step cfg .recordSuccess =
          { c.breaker with failures := c.breaker.failures - 1 } := hstep
      refine h.keep hclock (by rw [hdown]) (by rw [hdown]) (by rw [hdown]) rfl ?_
      intro hthreshold hc
      have := h.below hthreshold hc
      rw [hdown]
      show ((c.breaker.failures - 1 : Nat) : Int) < cfg.failureThreshold
      omega
    · have hup : c.breaker.step cfg .recordSuccess =
          { c.breaker with successes := c.breaker.successes + 1 } := hstep
      exact h.keep hclock (by rw [hup]) (by rw [hup]) (by rw [hup]) rfl
        (by rw [hup]; exact h.below)
    · have hclose : c.breaker.step cfg .recordSuccess = { c.breaker with
          state := .closed, failures := 0, successes := 0, consecutiveOpens := 0 } := hstep
      refine h.closes hclock (by rw [hclose]) ?_ (by rw [hclose]) (by rw [hclose])
      rw [hclose]
      exact h.free (by rw [hhalf]; decide)
  | recordFailure billingError now =>
    cases billingError with
    | true => exact h.opens hclock rfl rfl
    | false =>
      by_cases htrips : c.breaker.Trips cfg
      · have hstep : c.breaker.step cfg (.recordFailure false now) = c.breaker.tripped cfg now :=
          recordFailure_trips htrips
        refine h.opens hclock (by rw [hstep]; rfl) ?_
        rw [hstep, opensBy_iff_trips.mpr htrips]
        rfl
      · have hstep : c.breaker.step cfg (.recordFailure false now) =
            { c.breaker with failures := c.breaker.failures + 1 } := recordFailure_counts htrips
        have hby : c.breaker.opensBy cfg (.recordFailure false now) = false :=
          Bool.eq_false_iff.mpr fun hby => htrips (opensBy_iff_trips.mp hby)
        refine h.keep hclock (by rw [hstep]) (by rw [hstep]) (by rw [hstep]) hby ?_
        intro _ hc
        rw [hstep]
        by_contra hreached
        refine htrips ⟨by rw [hc]; decide, ?_⟩
        have hle : cfg.failureThreshold ≤ ((c.breaker.failures + 1 : Nat) : Int) :=
          Int.not_lt.mp hreached
        exact_mod_cast hle
  | recordAuthFailure clk => exact h.opens hclock rfl rfl
  | forceOpen now => exact h.opens hclock rfl rfl
  | forceClose => exact h.closes hclock rfl h.epoch rfl rfl

/-- **Run lemma.** -/
theorem represents_after {ops : List Op}
    (hclock : Trace.Along (Clocked.step cfg) Forward {} ops) :
    Represents cfg (clockedAfter cfg ops) :=
  Trace.run_inv_of_along (fun _ _ h hforward => h.step hforward) (represents_fresh cfg) hclock

/-! ## What it says of the answers -/

/-- A breaker that is let through is not open at the reading `get_state` takes. -/
theorem not_opened_of_isAvailable {s : LocalState} {now now' : Time}
    (h : (s.isAvailable cfg now now').1 = true) : (s.getState cfg now').state ≠ .opened := by
  by_cases hheld : now < s.holdDownUntil
  · rw [isAvailable_held hheld] at h
    exact absurd h Bool.false_ne_true
  · rw [isAvailable_free hheld] at h
    exact of_decide_eq_true h

/-- A breaker that is refused is open: its hold-down, if that is what refused it, is one of an
open breaker. -/
theorem Represents.opened_of_refused (h : Represents cfg c) {now now' : Time}
    (hlater : c.clock ≤ now) (hle : now ≤ now')
    (hrefused : (c.breaker.isAvailable cfg now now').1 = false) :
    (c.breaker.getState cfg now).state = .opened := by
  have hopened : c.breaker.state = .opened ∧ ¬ c.breaker.readyAt cfg ≤ now := by
    by_cases hheld : now < c.breaker.holdDownUntil
    · refine ⟨?_, fun hready => ?_⟩
      · by_contra hne
        exact absurd hheld (not_lt.mpr ((h.free hne).trans hlater))
      · exact absurd hheld (not_lt.mpr ((le_max_right _ _).trans hready))
    · rw [isAvailable_free hheld] at hrefused
      have hstill : (c.breaker.getState cfg now').state = .opened :=
        not_not.mp (of_decide_eq_false hrefused)
      rcases getState_cases cfg c.breaker now' with hsame | ⟨-, -, hhalf⟩
      · rw [hsame] at hstill
        refine ⟨hstill, fun hready => ?_⟩
        rw [getState_of_ready hstill (hready.trans hle)] at hsame
        exact absurd (congrArg LocalState.state hsame) (by rw [hstill]; exact CBState.noConfusion)
      · rw [hhalf] at hstill
        exact CBState.noConfusion hstill
  rw [getState_of_not (fun hready => hopened.2 hready.2)]
  exact hopened.1

theorem Represents.hold_of_opensBy (h : Represents cfg c) {now : Time}
    (hby : c.breaker.opensBy cfg (.recordFailure false now) = true) :
    (c.breaker.recordFailure cfg false now).holdDownUntil =
      now + cfg.holdDownSec *
        2 ^ min ((c.step cfg (.recordFailure false now)).opens - 1) 5 := by
  have htripped : c.breaker.recordFailure cfg false now = c.breaker.tripped cfg now :=
    recordFailure_trips (opensBy_iff_trips.mp hby)
  have hopens : (c.step cfg (.recordFailure false now)).opens = c.opens + 1 := by
    show (if (c.breaker.recordFailure cfg false now).state = .closed then _
      else if _ then _ else _) = _
    rw [htripped, if_neg CBState.noConfusion, if_pos hby]
  rw [htripped, hopens, ← h.counted]
  rfl

end

/-- **Representation invariant.** At the end of every run, with the clock `c.clock` and the count
`c.opens` taken from the run alone. -/
theorem breaker_representation (cfg : Config) (hthreshold : 1 ≤ cfg.failureThreshold)
    (ops : List Op) (hclock : Trace.Along (Clocked.step cfg) Forward {} ops) :
    let c := clockedAfter cfg ops
    c.breaker = after cfg ops ∧
      (c.breaker.state ≠ .opened → c.breaker.holdDownUntil ≤ c.clock) ∧
      (∀ now, c.clock ≤ now → ((c.breaker.isAvailable cfg now now).1 = true ↔
        (c.breaker.getState cfg now).state ≠ .opened)) ∧
      (∀ now now', c.clock ≤ now → now ≤ now' →
        ((c.breaker.isAvailable cfg now now').1 = true →
          (c.breaker.getState cfg now').state ≠ .opened) ∧
        ((c.breaker.isAvailable cfg now now').1 = false →
          (c.breaker.getState cfg now).state = .opened)) ∧
      (c.breaker.state = .closed → c.breaker.failures < cfg.failureThreshold) ∧
      (∀ now, c.breaker.opensBy cfg (.recordFailure false now) = true →
        (c.breaker.recordFailure cfg false now).holdDownUntil =
          now + cfg.holdDownSec *
            2 ^ min ((c.step cfg (.recordFailure false now)).opens - 1) 5) := by
  intro c
  have h : Represents cfg c := represents_after hclock
  refine ⟨run_breaker cfg {} ops, h.free, ?_, ?_, h.below hthreshold, ?_⟩
  · intro now hlater
    refine ⟨not_opened_of_isAvailable, fun hopen => ?_⟩
    by_contra hrefused
    exact hopen (h.opened_of_refused hlater le_rfl (Bool.eq_false_iff.mpr hrefused))
  · intro now now' hlater hle
    exact ⟨not_opened_of_isAvailable, h.opened_of_refused hlater hle⟩
  · intro now hby
    exact h.hold_of_opensBy hby

/-- Three failures, the read that ends the hold-down and the failed probe: the second open in the
row holds for twice as long. -/
def reopenedRun : List Op :=
  [.recordFailure false 10, .recordFailure false 11, .recordFailure false 12,
    .isAvailable 131 131, .getState 132]

theorem reopenedRun_holds :
    1 ≤ ({} : Config).failureThreshold ∧
      Trace.Along (Clocked.step {}) Forward {} reopenedRun ∧
      ((clockedAfter {} reopenedRun).breaker.recordFailure {} false 140).holdDownUntil =
        140 + 120 * 2 ^ min (2 - 1) 5 := by
  refine ⟨by decide, by decide +kernel, ?_⟩
  have h := (breaker_representation {} (by decide) reopenedRun (by decide +kernel)).2.2.2.2.2 140
    (by decide +kernel)
  have hopens : ((clockedAfter {} reopenedRun).step {} (.recordFailure false 140)).opens = 2 := by
    decide +kernel
  have hbase : ({} : Config).holdDownSec = 120 := by decide
  rw [h, hopens, hbase]
  norm_num

end LlmProxy.Breaker
