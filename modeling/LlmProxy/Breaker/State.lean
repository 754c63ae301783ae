import Mathlib
import LlmProxy.Lib.Trace

/-! # The circuit breaker of a provider

`app/routing/circuit_breaker.py`: one `_LocalState` for each provider, written by the outcomes
of its calls, by the operator and by every read of its state.

> reads:     `get_state` turns an open breaker half-open once its time has come, and
>            `is_available` asks it after the hold-down;
> outcomes:  `record_success`, `record_failure` (a billing error opens at once),
>            `record_auth_failure`;
> operator:  `force_open`, `force_close`.

Mirroring notes.
* Time is `time.time()`, in seconds since the epoch. Every call of it is an argument; where a
  function calls it several times it has as many.
* The lock is never held across an `await`, so an operation is one step.
* `set_provider_config` is the `Config`, which is fixed in a run. An override of 0 counts as
  none.
* The probe a read schedules is one of the later outcomes. The gauge is not modelled.
-/

namespace LlmProxy.Breaker

abbrev Time := Rat

inductive CBState where
  | closed
  | opened
  | halfOpen
  deriving DecidableEq, Repr

structure BreakerSettings where
  circuitBreakerThreshold : Int := 3
  circuitBreakerTimeoutSec : Int := 60
  circuitBreakerSuccessNeeded : Int := 2
  holdDownSec : Int := 120
  deriving DecidableEq, Repr

/-- The settings with the provider's row of `_provider_overrides`. -/
structure Config where
  settings : BreakerSettings := {}
  holdDownOverride : Option Int := none
  thresholdOverride : Option Int := none
  deriving DecidableEq, Repr

/-- `override or setting`. -/
def orSetting (override : Option Int) (setting : Int) : Int :=
  (override.filter (· ≠ 0)).getD setting

/-- `_hold_down_sec`. -/
def Config.holdDownSec (cfg : Config) : Int :=
  orSetting cfg.holdDownOverride cfg.settings.holdDownSec

/-- `_failure_threshold`. -/
def Config.failureThreshold (cfg : Config) : Int :=
  orSetting cfg.thresholdOverride cfg.settings.circuitBreakerThreshold

/-- `_LocalState`. -/
structure LocalState where
  state : CBState := .closed
  failures : Nat := 0
  successes : Nat := 0
  openedAt : Time := 0
  holdDownUntil : Time := 0
  consecutiveOpens : Nat := 0
  deriving DecidableEq, Repr

section

variable (cfg : Config) (s : LocalState)

/-! ## Reads -/

/-- `ready_at`: the later of the static timeout and the hold-down. -/
def LocalState.readyAt : Time :=
  max (s.openedAt + cfg.settings.circuitBreakerTimeoutSec) s.holdDownUntil

/-- `get_state`; what it returns is the state it leaves. -/
def LocalState.getState (now : Time) : LocalState :=
  if s.state = .opened ∧ s.readyAt cfg ≤ now then { s with state := .halfOpen, successes := 0 }
  else s

/-- `is_available`; the second reading is the one `get_state` takes. -/
def LocalState.isAvailable (now now' : Time) : Bool × LocalState :=
  if now < s.holdDownUntil then (false, s)
  else (decide ((s.getState cfg now').state ≠ .opened), s.getState cfg now')

/-! ## Outcomes -/

/-- `record_success`. -/
def LocalState.recordSuccess : LocalState :=
  match s.state with
  | .halfOpen =>
    if cfg.settings.circuitBreakerSuccessNeeded ≤ s.successes + 1 then
      { s with state := .closed, failures := 0, successes := 0, consecutiveOpens := 0 }
    else { s with successes := s.successes + 1 }
  | .closed => { s with failures := s.failures - 1 }
  | .opened => s

/-- The hold of a billing error: six hours. -/
def billingHold : Time := 21600

/-- The hold of an auth failure: a day. -/
def authHold : Time := 86400

/-- `base * (1 << min(opens - 1, 5))`. -/
def backoff (base : Int) (opens : Nat) : Time := base * 2 ^ min (opens - 1) 5

/-- `record_failure`. -/
def LocalState.recordFailure (billingError : Bool) (now : Time) : LocalState :=
  let s := { s with failures := s.failures + 1 }
  if billingError then
    { s with state := .opened, openedAt := now, holdDownUntil := now + billingHold }
  else if cfg.failureThreshold ≤ s.failures then
    if s.state = .opened then s
    else
      { s with
        consecutiveOpens := s.consecutiveOpens + 1
        state := .opened
        openedAt := now
        holdDownUntil := now + backoff cfg.holdDownSec (s.consecutiveOpens + 1) }
  else s

/-- The breaker's part of `record_auth_failure`. -/
def LocalState.recordAuthFailure (openedAt heldAt : Time) : LocalState :=
  { s with state := .opened, openedAt := openedAt, holdDownUntil := heldAt + authHold }

/-! ## The operator -/

/-- `force_open`: the hold-down stays as it is. -/
def LocalState.forceOpen (now : Time) : LocalState :=
  { s with state := .opened, openedAt := now }

/-- `force_close`. -/
def LocalState.forceClose : LocalState :=
  { s with
    state := .closed, failures := 0, successes := 0, holdDownUntil := 0, consecutiveOpens := 0 }

end

/-! ## Runs -/

/-- The readings of the clock `record_auth_failure` takes: for `opened_at`, the hold-down, the
entry of `_auth_failed` and the history. -/
structure AuthClock where
  openedAt : Time
  heldAt : Time
  since : Time
  recordedAt : Time
  deriving DecidableEq, Repr

inductive Op where
  | getState (now : Time)
  | isAvailable (now now' : Time)
  | recordSuccess
  | recordFailure (billingError : Bool) (now : Time)
  | recordAuthFailure (clk : AuthClock)
  | forceOpen (now : Time)
  | forceClose
  deriving DecidableEq, Repr

def LocalState.step (cfg : Config) (s : LocalState) : Op → LocalState
  | .getState now => s.getState cfg now
  | .isAvailable now now' => (s.isAvailable cfg now now').2
  | .recordSuccess => s.recordSuccess cfg
  | .recordFailure billingError now => s.recordFailure cfg billingError now
  | .recordAuthFailure clk => s.recordAuthFailure clk.openedAt clk.heldAt
  | .forceOpen now => s.forceOpen now
  | .forceClose => s.forceClose

/-- The breaker after a run, from its first use on. -/
abbrev after (cfg : Config) (ops : List Op) : LocalState := Trace.run (LocalState.step cfg) {} ops

/-! ## What an operation can do -/

section

variable {cfg : Config} {s : LocalState}

theorem getState_of_not {now : Time} (h : ¬ (s.state = .opened ∧ s.readyAt cfg ≤ now)) :
    s.getState cfg now = s := if_neg h

theorem getState_of_ready {now : Time} (hopen : s.state = .opened) (hready : s.readyAt cfg ≤ now) :
    s.getState cfg now = { s with state := .halfOpen, successes := 0 } := if_pos ⟨hopen, hready⟩

theorem getState_cases (cfg : Config) (s : LocalState) (now : Time) :
    s.getState cfg now = s ∨
      s.state = .opened ∧ s.readyAt cfg ≤ now ∧
        s.getState cfg now = { s with state := .halfOpen, successes := 0 } := by
  by_cases h : s.state = .opened ∧ s.readyAt cfg ≤ now
  · exact Or.inr ⟨h.1, h.2, getState_of_ready h.1 h.2⟩
  · exact Or.inl (getState_of_not h)

theorem isAvailable_held {now : Time} (h : now < s.holdDownUntil) (now' : Time) :
    s.isAvailable cfg now now' = (false, s) := if_pos h

theorem isAvailable_free {now : Time} (h : ¬ now < s.holdDownUntil) (now' : Time) :
    s.isAvailable cfg now now' =
      (decide ((s.getState cfg now').state ≠ .opened), s.getState cfg now') := if_neg h

theorem recordSuccess_cases (cfg : Config) (s : LocalState) :
    s.state = .opened ∧ s.recordSuccess cfg = s ∨
      s.state = .closed ∧ s.recordSuccess cfg = { s with failures := s.failures - 1 } ∨
      s.state = .halfOpen ∧ s.recordSuccess cfg = { s with successes := s.successes + 1 } ∨
      s.state = .halfOpen ∧ s.recordSuccess cfg =
        { s with state := .closed, failures := 0, successes := 0, consecutiveOpens := 0 } := by
  unfold LocalState.recordSuccess
  cases hs : s.state with
  | opened => exact Or.inl ⟨rfl, rfl⟩
  | closed => exact Or.inr (Or.inl ⟨rfl, rfl⟩)
  | halfOpen =>
    dsimp only
    split
    · exact Or.inr (Or.inr (Or.inr ⟨rfl, rfl⟩))
    · exact Or.inr (Or.inr (Or.inl ⟨rfl, rfl⟩))

/-- The failure takes the breaker over its threshold. -/
def LocalState.Trips (cfg : Config) (s : LocalState) : Prop :=
  s.state ≠ .opened ∧ cfg.failureThreshold ≤ s.failures + 1

instance (cfg : Config) (s : LocalState) : Decidable (s.Trips cfg) :=
  inferInstanceAs (Decidable (_ ∧ _))

def LocalState.tripped (cfg : Config) (s : LocalState) (now : Time) : LocalState :=
  { s with
    failures := s.failures + 1
    consecutiveOpens := s.consecutiveOpens + 1
    state := .opened
    openedAt := now
    holdDownUntil := now + backoff cfg.holdDownSec (s.consecutiveOpens + 1) }

theorem recordFailure_trips {now : Time} (h : s.Trips cfg) :
    s.recordFailure cfg false now = s.tripped cfg now := by
  unfold LocalState.recordFailure
  dsimp only
  rw [if_neg Bool.false_ne_true, if_pos (by exact_mod_cast h.2), if_neg h.1]
  rfl

theorem recordFailure_counts {now : Time} (h : ¬ s.Trips cfg) :
    s.recordFailure cfg false now = { s with failures := s.failures + 1 } := by
  unfold LocalState.recordFailure
  dsimp only
  rw [if_neg Bool.false_ne_true]
  split
  · next hreached =>
    rw [if_pos]
    by_contra hopen
    exact h ⟨hopen, by exact_mod_cast hreached⟩
  · rfl

end

end LlmProxy.Breaker
