import LlmProxy.Breaker.Invariant

/-! # Failed probes and hold-downs over a run

Two things the breaker is for, and the exact runs in which it does them.

> `failed_probe_reopens`: a failure of a half-open breaker opens it with a fresh hold-down. The
> threshold has to be reached for that, and it counts failures since the last close: a breaker
> that an auth failure, a billing error or the operator opened comes out of its hold-down with
> whatever count it had.
> `hold_never_shortened`: what holds a provider back until some time holds it until then. A
> billing error writes six hours and an auth failure a day whatever is there already.
-/

namespace LlmProxy.Breaker

section

variable {cfg : Config} {s : LocalState}

/-! ## Failed probes -/

/-- One more failure opens a half-open breaker, with a hold-down in the future. -/
def LocalState.Reopens (cfg : Config) (s : LocalState) : Prop :=
  s.state = .halfOpen → ∀ billingError now,
    (s.recordFailure cfg billingError now).state = .opened ∧
      now < (s.recordFailure cfg billingError now).holdDownUntil

/-- A half-open breaker is one failure short of its threshold. -/
def LocalState.Armed (cfg : Config) (s : LocalState) : Prop :=
  s.state = .halfOpen → cfg.failureThreshold ≤ s.failures + 1

/-- A read that ends the hold-down of an open breaker finds it one failure short of its
threshold. -/
def LocalState.ArmedRead (cfg : Config) (s : LocalState) : Op → Prop
  | .getState now =>
    s.state = .opened → s.readyAt cfg ≤ now → cfg.failureThreshold ≤ s.failures + 1
  | .isAvailable now now' =>
    s.state = .opened → s.holdDownUntil ≤ now → s.readyAt cfg ≤ now' →
      cfg.failureThreshold ≤ s.failures + 1
  | _ => True

theorem backoff_pos {base : Int} (h : 0 < base) (opens : Nat) : 0 < backoff base opens := by
  have hbase : (0 : Rat) < base := by exact_mod_cast h
  exact mul_pos hbase (by positivity)

theorem reopens_iff_armed (hbase : 0 < cfg.holdDownSec) : s.Reopens cfg ↔ s.Armed cfg := by
  constructor
  · intro h hhalf
    by_contra hshort
    have hcounts : s.recordFailure cfg false 0 = { s with failures := s.failures + 1 } :=
      recordFailure_counts fun htrips => hshort htrips.2
    have hopened := (h hhalf false 0).1
    rw [hcounts] at hopened
    exact CBState.noConfusion (hhalf.symm.trans hopened)
  · intro h hhalf billingError now
    cases billingError with
    | true =>
      refine ⟨rfl, ?_⟩
      show now < now + billingHold
      exact lt_add_of_pos_right now (by norm_num [billingHold])
    | false =>
      rw [recordFailure_trips ⟨by rw [hhalf]; exact CBState.noConfusion, h hhalf⟩]
      exact ⟨rfl, lt_add_of_pos_right now (backoff_pos hbase _)⟩

theorem armed_getState (h : s.Armed cfg) {now : Time} :
    (s.getState cfg now).Armed cfg ↔
      (s.state = .opened → s.readyAt cfg ≤ now → cfg.failureThreshold ≤ s.failures + 1) := by
  by_cases hturns : s.state = .opened ∧ s.readyAt cfg ≤ now
  · rw [getState_of_ready hturns.1 hturns.2]
    exact ⟨fun harmed _ _ => harmed rfl, fun hread _ => hread hturns.1 hturns.2⟩
  · rw [getState_of_not hturns]
    exact ⟨fun _ hopen hready => absurd ⟨hopen, hready⟩ hturns, fun _ => h⟩

/-- **Step lemma**: only a read can disarm a breaker. -/
theorem armed_step (h : s.Armed cfg) (op : Op) :
    (s.step cfg op).Armed cfg ↔ s.ArmedRead cfg op := by
  cases op with
  | getState now => exact armed_getState h
  | isAvailable now now' =>
    by_cases hheld : now < s.holdDownUntil
    · have hstep : s.step cfg (.isAvailable now now') = s :=
        congrArg Prod.snd (isAvailable_held hheld now')
      rw [hstep]
      exact ⟨fun _ _ hover _ => absurd hheld (not_lt.mpr hover), fun _ => h⟩
    · have hstep : s.step cfg (.isAvailable now now') = s.getState cfg now' :=
        congrArg Prod.snd (isAvailable_free hheld now')
      rw [hstep, armed_getState h]
      exact ⟨fun hread hopen _ => hread hopen, fun hread hopen => hread hopen (not_lt.mp hheld)⟩
  | recordSuccess =>
    refine iff_of_true ?_ trivial
    show (s.recordSuccess cfg).Armed cfg
    rcases recordSuccess_cases cfg s with
      ⟨-, hstep⟩ | ⟨hclosed, hstep⟩ | ⟨-, hstep⟩ | ⟨-, hstep⟩
    · rw [hstep]
      exact h
    · rw [hstep]
      exact fun hhalf => CBState.noConfusion (hclosed.symm.trans hhalf)
    · rw [hstep]
      exact h
    · rw [hstep]
      exact fun hhalf => CBState.noConfusion hhalf
  | recordFailure billingError now =>
    refine iff_of_true ?_ trivial
    show (s.recordFailure cfg billingError now).Armed cfg
    cases billingError with
    | true => exact fun hhalf => CBState.noConfusion hhalf
    | false =>
      by_cases htrips : s.Trips cfg
      · rw [recordFailure_trips htrips]
        exact fun hhalf => CBState.noConfusion hhalf
      · rw [recordFailure_counts htrips]
        intro hhalf
        have hreached := h hhalf
        show cfg.failureThreshold ≤ ((s.failures + 1 : Nat) : Int) + 1
        omega
  | recordAuthFailure clk => exact iff_of_true (fun hhalf => CBState.noConfusion hhalf) trivial
  | forceOpen now => exact iff_of_true (fun hhalf => CBState.noConfusion hhalf) trivial
  | forceClose => exact iff_of_true (fun hhalf => CBState.noConfusion hhalf) trivial

theorem armed_fresh (cfg : Config) : ({} : LocalState).Armed cfg :=
  fun hhalf => CBState.noConfusion hhalf

end

/-- **Failed probes.** A failed probe re-opens the breaker at every point of a run exactly when
every read that ends a hold-down finds the breaker one failure short of its threshold. -/
theorem failed_probe_reopens (cfg : Config) (hbase : 0 < cfg.holdDownSec) (ops : List Op) :
    (∀ pre post, ops = pre ++ post → (after cfg pre).Reopens cfg) ↔
      Trace.Along (LocalState.step cfg) (LocalState.ArmedRead cfg) {} ops := by
  have harmed : (∀ pre post, ops = pre ++ post → (after cfg pre).Reopens cfg) ↔
      ∀ pre post, ops = pre ++ post → (after cfg pre).Armed cfg :=
    forall₃_congr fun _ _ _ => reopens_iff_armed hbase
  rw [harmed, Trace.forall_prefix_iff_along (armed_fresh cfg)]
  refine Trace.along_iff (I := LocalState.Armed cfg) (V := fun _ _ => True)
    (fun s op h _ => armed_step h op) ?_ (armed_fresh cfg)
    (Trace.along_of_forall fun _ _ => trivial)
  exact fun s op h _ hread => (armed_step h op).mpr hread

/-- A rejected credential opens the breaker with no failure counted; the probe a day later fails
and leaves it half-open. -/
def unarmedRun : List Op :=
  [.recordAuthFailure ⟨1000, 1000, 1000, 1000⟩, .isAvailable 87400 87400]

theorem unarmedRun_stays_halfOpen :
    ¬ ∀ cfg : Config, 0 < cfg.holdDownSec → ∀ ops, (after cfg ops).Reopens cfg := by
  intro h
  have hreopens := h {} (by decide) unarmedRun (by decide +kernel) false 87401
  have hhalf : ((after {} unarmedRun).recordFailure {} false 87401).state = .halfOpen := by
    decide +kernel
  exact CBState.noConfusion (hhalf.symm.trans hreopens.1)

/-- Three failures open the breaker, and the failed probe opens it again. -/
theorem reopenedRun_armed :
    (0 : Int) < ({} : Config).holdDownSec ∧ (after {} reopenedRun).Reopens {} := by
  refine ⟨by decide, ?_⟩
  refine (failed_probe_reopens {} (by decide) reopenedRun).mpr ?_ reopenedRun [] rfl
  refine ⟨trivial, trivial, trivial, fun _ _ _ => ?_, fun _ _ => ?_, trivial⟩
  · decide +kernel
  · decide +kernel

/-! ## Hold-downs -/

/-- Nothing but `force_close` moves a hold-down back, and until it is over the provider is not
available. -/
def KeepsHolds (cfg : Config) (ops : List Op) : Prop :=
  ∀ pre seg post, ops = pre ++ seg ++ post → Op.forceClose ∉ seg →
    (after cfg pre).holdDownUntil ≤ (after cfg (pre ++ seg)).holdDownUntil ∧
      ∀ now now', now < (after cfg pre).holdDownUntil →
        ((after cfg (pre ++ seg)).isAvailable cfg now now').1 = false

/-- The hold-down an operation finds does not reach beyond the one it writes: six hours for a
billing error, a day for an auth failure. The threshold's own cannot be the shorter one unless
its base is negative. -/
def LocalState.WithinHold (cfg : Config) (s : LocalState) : Op → Prop
  | .recordFailure true now => s.holdDownUntil ≤ now + billingHold
  | .recordFailure false now =>
    s.Trips cfg → 0 ≤ cfg.holdDownSec ∨
      s.holdDownUntil ≤ now + backoff cfg.holdDownSec (s.consecutiveOpens + 1)
  | .recordAuthFailure clk => s.holdDownUntil ≤ clk.heldAt + authHold
  | _ => True

section

variable {cfg : Config} {c : Clocked}

theorem getState_holdDownUntil (s : LocalState) (now : Time) :
    (s.getState cfg now).holdDownUntil = s.holdDownUntil := by
  rcases getState_cases cfg s now with hsame | ⟨-, -, hhalf⟩
  · rw [hsame]
  · rw [hhalf]

theorem isAvailable_holdDownUntil (s : LocalState) (now now' : Time) :
    (s.isAvailable cfg now now').2.holdDownUntil = s.holdDownUntil := by
  by_cases hheld : now < s.holdDownUntil
  · rw [isAvailable_held hheld]
  · rw [isAvailable_free hheld]
    exact getState_holdDownUntil s now'

theorem recordSuccess_holdDownUntil (s : LocalState) :
    (s.recordSuccess cfg).holdDownUntil = s.holdDownUntil := by
  rcases recordSuccess_cases cfg s with ⟨-, hstep⟩ | ⟨-, hstep⟩ | ⟨-, hstep⟩ | ⟨-, hstep⟩
  all_goals rw [hstep]

theorem backoff_nonneg {base : Int} (h : 0 ≤ base) (opens : Nat) : 0 ≤ backoff base opens := by
  have hbase : (0 : Rat) ≤ base := by exact_mod_cast h
  exact mul_nonneg hbase (by positivity)

/-- **Step lemma.** -/
theorem holdDownUntil_le_step (h : Represents cfg c) {op : Op} (hclock : Forward c op) :
    (op ≠ .forceClose → c.breaker.holdDownUntil ≤ (c.step cfg op).breaker.holdDownUntil) ↔
      c.breaker.WithinHold cfg op := by
  show (_ → _ ≤ (c.breaker.step cfg op).holdDownUntil) ↔ _
  cases op with
  | getState now => exact iff_of_true (fun _ => (getState_holdDownUntil _ now).ge) trivial
  | isAvailable now now' =>
    exact iff_of_true (fun _ => (isAvailable_holdDownUntil _ now now').ge) trivial
  | recordSuccess => exact iff_of_true (fun _ => (recordSuccess_holdDownUntil _).ge) trivial
  | recordFailure billingError now =>
    cases billingError with
    | true => exact ⟨fun hkeeps => hkeeps Op.noConfusion, fun hwithin _ => hwithin⟩
    | false =>
      show (_ → _ ≤ (c.breaker.recordFailure cfg false now).holdDownUntil) ↔ _
      by_cases htrips : c.breaker.Trips cfg
      · rw [recordFailure_trips htrips]
        refine ⟨fun hkeeps _ => Or.inr (hkeeps Op.noConfusion), fun hwithin _ => ?_⟩
        rcases hwithin htrips with hbase | hhold
        · -- outside OPEN the hold-down is behind the clock
          have hnow : c.clock ≤ now := (List.isChain_cons_cons.mp hclock).1
          calc c.breaker.holdDownUntil ≤ c.clock := h.free htrips.1
            _ ≤ now := hnow
            _ ≤ now + backoff cfg.holdDownSec (c.breaker.consecutiveOpens + 1) :=
              le_add_of_nonneg_right (backoff_nonneg hbase _)
        · exact hhold
      · rw [recordFailure_counts htrips]
        exact iff_of_true (fun _ => le_refl _) fun htrips' => absurd htrips' htrips
  | recordAuthFailure clk => exact ⟨fun hkeeps => hkeeps Op.noConfusion, fun hwithin _ => hwithin⟩
  | forceOpen now => exact iff_of_true (fun _ => le_refl _) trivial
  | forceClose => exact iff_of_true (fun hne => absurd rfl hne) trivial

/-- Over a run: the segments without `force_close` keep the hold-down when every operation
does. -/
theorem keepsHolds_iff_along (ops : List Op) :
    KeepsHolds cfg ops ↔
      Trace.Along (Clocked.step cfg) (fun c op => op ≠ .forceClose →
        c.breaker.holdDownUntil ≤ (c.step cfg op).breaker.holdDownUntil) {} ops := by
  constructor
  · intro h
    rw [Trace.along_iff_forall_prefix]
    intro pre op post heq hne
    have hone := (h pre [op] post (by rw [heq, List.append_assoc]; rfl)
      (by simpa using hne.symm)).1
    rw [after, after, Trace.run_append] at hone
    show _ ≤ ((clockedAfter cfg pre).breaker.step cfg op).holdDownUntil
    rw [run_breaker]
    exact hone
  · intro h pre seg post heq hnone
    subst heq
    have hseg := ((Trace.along_append _ pre seg).mp ((Trace.along_append _ (pre ++ seg) post).mp
      h).1).2
    have hle := Trace.le_run_of_along (f := fun c : Clocked => c.breaker.holdDownUntil)
      (R := fun op => op = Op.forceClose) hseg fun op hop heq => hnone (heq ▸ hop)
    rw [← Trace.run_append, run_breaker, run_breaker] at hle
    refine ⟨hle, fun now now' hheld => ?_⟩
    rw [isAvailable_held (hheld.trans_le hle)]

end

/-- **Hold-downs.** A run with a clock that does not go back shortens no hold-down exactly when no
failure finds one that reaches beyond its own. -/
theorem hold_never_shortened (cfg : Config) (ops : List Op)
    (hclock : Trace.Along (Clocked.step cfg) Forward {} ops) :
    KeepsHolds cfg ops ↔
      Trace.Along (Clocked.step cfg) (fun c op => c.breaker.WithinHold cfg op) {} ops := by
  rw [keepsHolds_iff_along]
  exact Trace.along_iff (I := Represents cfg) (fun _ _ h hforward => holdDownUntil_le_step h hforward)
    (fun _ _ h hforward _ => h.step hforward) (represents_fresh cfg) hclock

/-- A rejected credential, then a billing error: a day becomes six hours. -/
def shortenedRun : List Op :=
  [.recordAuthFailure ⟨1000, 1000, 1000, 1000⟩, .recordFailure true 1001]

theorem shortenedRun_lets_through :
    ¬ ∀ (cfg : Config) (ops : List Op), Trace.Along (Clocked.step cfg) Forward {} ops →
      KeepsHolds cfg ops := by
  intro h
  have hkeeps := h {} shortenedRun (by decide +kernel)
  have hheld := (hkeeps (shortenedRun.take 1) (shortenedRun.drop 1) [] rfl (by decide +kernel)).1
  have hshorter : (after {} shortenedRun).holdDownUntil <
      (after {} (shortenedRun.take 1)).holdDownUntil := by decide +kernel
  exact absurd hheld (not_le.mpr hshorter)

/-- A billing error, then a rejected credential: the hold-down only grows. -/
def extendedRun : List Op :=
  [.recordFailure true 1000, .recordAuthFailure ⟨1001, 1001, 1001, 1001⟩]

theorem extendedRun_keeps_holds :
    Trace.Along (Clocked.step {}) Forward {} extendedRun ∧ KeepsHolds {} extendedRun := by
  have hclock : Trace.Along (Clocked.step {}) Forward {} extendedRun := by decide +kernel
  refine ⟨hclock, (hold_never_shortened {} extendedRun hclock).mpr ⟨?_, ?_, trivial⟩⟩
  · show ({} : LocalState).holdDownUntil ≤ 1000 + billingHold
    decide +kernel
  · show (after {} [.recordFailure true 1000]).holdDownUntil ≤ 1001 + authHold
    decide +kernel

end LlmProxy.Breaker
