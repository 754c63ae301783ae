import LlmProxy.Lib.Trace
import LlmProxy.Runs.State

/-! # The run state machine over whole runs

`advance` computes one transition; `follow` carries it out on the context, an event that
raises leaving the context as it is. What holds of every sequence of events from a fresh
run is derived from one inversion lemma and one invariant:

> `advance_move`: an accepted event makes one of six moves (`Move`);
> `Bounded`: the turn count is within the budget, strictly so while the run is open, and
> an error kind is there exactly on a failed run.

`run_fsm_safe` puts together what the two give: terminal statuses absorb, turns only grow
and stay in the budget, nothing is entered after the deadline but an end, and the error
kind comes with the entry into `FAILED` and with nothing else.
-/

namespace LlmProxy.Runs

/-- What an accepted event does to a run: `CANCEL` of an ended run says its state again; an
open run is stopped, resumed, failed, parked on a tool or answered. -/
inductive Move (ctx : RunCtx) (now : Time) : Transition → Prop
  | restated (hend : ctx.status.terminal = true) (kind : Option ErrorKind)
      (message : Option String)
      (hkind : kind = ctx.errorKind ∨ ctx.status = .cancelled ∧ kind = none) :
      Move ctx now ⟨ctx.status, ctx.turnsUsed, kind, message⟩
  | stopped (hopen : ctx.status.terminal = false) (status : RunStatus)
      (hstatus : status = .expired ∨ status = .cancelled) :
      Move ctx now ⟨status, ctx.turnsUsed, none, none⟩
  | resumed (hopen : ctx.status.terminal = false) (hnow : now < ctx.deadlineTs) :
      Move ctx now ⟨.running, ctx.turnsUsed, none, none⟩
  | failed (hopen : ctx.status.terminal = false) (turns : Int)
      (hturns : turns = ctx.turnsUsed ∨ turns = ctx.turnsUsed + 1)
      (kind : ErrorKind) (message : String) :
      Move ctx now ⟨.failed, turns, some kind, some message⟩
  | parked (hopen : ctx.status.terminal = false) (hnow : now < ctx.deadlineTs)
      (hturns : ctx.turnsUsed + 1 < ctx.maxTurns) :
      Move ctx now ⟨.requiresTool, ctx.turnsUsed + 1, none, none⟩
  | answered (hopen : ctx.status.terminal = false) (hnow : now < ctx.deadlineTs) :
      Move ctx now ⟨.completed, ctx.turnsUsed + 1, none, none⟩

theorem failWith_move {legal : RunStatus → Bool} {event : EventKind} {kind : ErrorKind}
    {message : String} {ctx : RunCtx} {now : Time} {t : Transition}
    (hlegal : legal ctx.status = true → ctx.status.terminal = false)
    (h : failWith legal event kind message ctx = .ok t) : Move ctx now t := by
  unfold failWith at h
  split at h
  · next hok =>
    cases h
    exact .failed (hlegal hok) ctx.turnsUsed (Or.inl rfl) kind message
  · cases h

theorem inFlight_open {s : RunStatus} (h : s.inFlight = true) : s.terminal = false := by
  cases s <;> first | rfl | cases h

theorem advance_move {ctx : RunCtx} {event : EventKind} {now : Time} {data : Option String}
    {t : Transition} (h : advance ctx event now data = .ok t) : Move ctx now t := by
  -- the status a guard asks for is an open one
  have hopen : ∀ {s : RunStatus}, ¬ ctx.status ≠ s → s.terminal = false →
      ctx.status.terminal = false := by
    intro s hs hterm
    rw [Decidable.not_not.mp hs]
    exact hterm
  cases event with
  | start =>
    simp only [advance, start] at h
    split at h
    · cases h
    · next hs =>
      split at h
      · cases h
        exact .stopped (hopen hs rfl) _ (Or.inl rfl)
      · next hnow =>
        cases h
        exact .resumed (hopen hs rfl) (Int.not_le.mp hnow)
  | modelReturnedText =>
    simp only [advance, modelText] at h
    split at h
    · cases h
    · next hs =>
      split at h
      · cases h
        exact .stopped (hopen hs rfl) _ (Or.inl rfl)
      · next hnow =>
        cases h
        exact .answered (hopen hs rfl) (Int.not_le.mp hnow)
  | modelReturnedTool =>
    simp only [advance, modelTool] at h
    split at h
    · cases h
    · next hs =>
      split at h
      · cases h
        exact .stopped (hopen hs rfl) _ (Or.inl rfl)
      · next hnow =>
        split at h
        · cases h
          exact .failed (hopen hs rfl) _ (Or.inr rfl) _ _
        · next hturns =>
          cases h
          exact .parked (hopen hs rfl) (Int.not_le.mp hnow) (Int.not_le.mp hturns)
  | toolResult =>
    simp only [advance, toolResult] at h
    split at h
    · cases h
    · next hs =>
      split at h
      · cases h
        exact .stopped (hopen hs rfl) _ (Or.inl rfl)
      · next hnow =>
        cases h
        exact .resumed (hopen hs rfl) (Int.not_le.mp hnow)
  | providerExhausted =>
    simp only [advance, providerExhausted] at h
    exact failWith_move inFlight_open h
  | maxTurnsHit =>
    simp only [advance, maxTurns] at h
    refine failWith_move (fun hs => ?_) h
    rw [beq_iff_eq.mp hs]
    rfl
  | contextExhausted =>
    simp only [advance, contextExhausted] at h
    exact failWith_move inFlight_open h
  | internalError =>
    simp only [advance, internal] at h
    exact failWith_move (fun hs => by simpa using hs) h
  | deadlineExceeded =>
    simp only [advance, deadline] at h
    split at h
    · cases h
    · next hs =>
      cases h
      exact .stopped (Bool.not_eq_true _ ▸ hs) _ (Or.inl rfl)
  | cancel =>
    simp only [advance, cancel] at h
    split at h
    · next hs =>
      cases h
      rw [← hs]
      exact .restated (by rw [hs]; rfl) none none (Or.inr ⟨hs, rfl⟩)
    · split at h
      · next hterm =>
        cases h
        exact .restated hterm _ _ (Or.inl rfl)
      · next hterm =>
        cases h
        exact .stopped (Bool.not_eq_true _ ▸ hterm) _ (Or.inr rfl)

/-! ## Following events -/

/-- One event of a history: what happened, when, and with which detail. -/
structure Occurrence where
  event : EventKind
  now : Time
  data : Option String := none
  deriving DecidableEq, Repr

def RunCtx.moved (ctx : RunCtx) (t : Transition) : RunCtx :=
  { ctx with
    status := t.status
    turnsUsed := t.turnsUsed
    errorKind := t.errorKind
    errorMessage := t.errorMessage }

/-- Carry out an event; one that raises `InvalidTransition` changes nothing. -/
def follow (ctx : RunCtx) (o : Occurrence) : RunCtx :=
  match advance ctx o.event o.now o.data with
  | .ok t => ctx.moved t
  | .error _ => ctx

def freshCtx (maxTurns : Int) (deadlineTs : Time) : RunCtx :=
  { status := .queued, deadlineTs := deadlineTs, maxTurns := maxTurns }

theorem follow_cases (ctx : RunCtx) (o : Occurrence) :
    follow ctx o = ctx ∨ ∃ t, Move ctx o.now t ∧ follow ctx o = ctx.moved t := by
  unfold follow
  cases h : advance ctx o.event o.now o.data with
  | error e => exact Or.inl rfl
  | ok t => exact Or.inr ⟨t, advance_move h, rfl⟩

@[simp] theorem follow_deadlineTs (ctx : RunCtx) (o : Occurrence) :
    (follow ctx o).deadlineTs = ctx.deadlineTs := by
  rcases follow_cases ctx o with h | ⟨t, _, h⟩ <;> rw [h]
  rfl

@[simp] theorem follow_maxTurns (ctx : RunCtx) (o : Occurrence) :
    (follow ctx o).maxTurns = ctx.maxTurns := by
  rcases follow_cases ctx o with h | ⟨t, _, h⟩ <;> rw [h]
  rfl

theorem follow_status_terminal {ctx : RunCtx} (h : ctx.status.terminal = true)
    (o : Occurrence) : (follow ctx o).status = ctx.status := by
  rcases follow_cases ctx o with heq | ⟨t, hmove, heq⟩ <;> rw [heq]
  cases hmove with
  | restated => rfl
  | stopped hopen | resumed hopen | failed hopen | parked hopen | answered hopen =>
    rw [h] at hopen
    cases hopen

theorem follow_turnsUsed_le (ctx : RunCtx) (o : Occurrence) :
    ctx.turnsUsed ≤ (follow ctx o).turnsUsed := by
  rcases follow_cases ctx o with heq | ⟨t, hmove, heq⟩
  · exact Int.le_of_eq (congrArg RunCtx.turnsUsed heq).symm
  · rw [heq]
    show ctx.turnsUsed ≤ t.turnsUsed
    cases hmove with
    | restated | stopped | resumed => exact Int.le_refl _
    | failed hopen turns hturns => show ctx.turnsUsed ≤ turns; omega
    | parked | answered => show ctx.turnsUsed ≤ ctx.turnsUsed + 1; omega

/-- The invariant of a run: turns within the budget, strictly while the run is open, and
an error kind exactly on a failed run. -/
structure Bounded (ctx : RunCtx) : Prop where
  turns_le : ctx.turnsUsed ≤ ctx.maxTurns
  turns_lt : ctx.status.terminal = false → ctx.turnsUsed < ctx.maxTurns
  error : ctx.errorKind.isSome = true ↔ ctx.status = .failed

theorem freshCtx_bounded {maxTurns : Int} (hmax : 1 ≤ maxTurns) (deadlineTs : Time) :
    Bounded (freshCtx maxTurns deadlineTs) where
  turns_le := Int.le_trans (show (0 : Int) ≤ 1 by decide) hmax
  turns_lt _ := hmax
  error := by simp [freshCtx]

theorem follow_bounded {ctx : RunCtx} (h : Bounded ctx) (o : Occurrence) :
    Bounded (follow ctx o) := by
  rcases follow_cases ctx o with heq | ⟨t, hmove, heq⟩ <;> rw [heq]
  · exact h
  cases hmove with
  | restated hend kind message hkind =>
    refine ⟨h.turns_le, h.turns_lt, ?_⟩
    rcases hkind with rfl | ⟨hs, rfl⟩
    · exact h.error
    · simp [RunCtx.moved, hs]
  | stopped hopen status hstatus =>
    refine ⟨h.turns_le, fun _ => h.turns_lt hopen, ?_⟩
    rcases hstatus with rfl | rfl <;> simp [RunCtx.moved]
  | resumed hopen =>
    exact ⟨h.turns_le, fun _ => h.turns_lt hopen, by simp [RunCtx.moved]⟩
  | failed hopen turns hturns =>
    -- the turn that exhausts the budget still had one turn left before it
    have hlt := h.turns_lt hopen
    refine ⟨?_, (fun hnot => nomatch hnot), by simp [RunCtx.moved]⟩
    show turns ≤ ctx.maxTurns
    omega
  | parked hopen hnow hturns =>
    exact ⟨Int.le_of_lt hturns, fun _ => hturns, by simp [RunCtx.moved]⟩
  | answered hopen =>
    exact ⟨h.turns_lt hopen, (fun hnot => nomatch hnot), by simp [RunCtx.moved]⟩

theorem follow_entered {ctx : RunCtx} {o : Occurrence}
    (hin : (follow ctx o).status ∈ [RunStatus.completed, .running, .requiresTool])
    (hnew : (follow ctx o).status ≠ ctx.status) : o.now < ctx.deadlineTs := by
  rcases follow_cases ctx o with heq | ⟨t, hmove, heq⟩ <;> rw [heq] at hin hnew
  · exact absurd rfl hnew
  cases hmove with
  | restated => exact absurd rfl hnew
  | stopped hopen status hstatus =>
    rcases hstatus with rfl | rfl <;> simp [RunCtx.moved] at hin
  | resumed hopen hnow => exact hnow
  | failed => simp [RunCtx.moved] at hin
  | parked hopen hnow => exact hnow
  | answered hopen hnow => exact hnow

/-- An event changes the error kind exactly when it moves an open run into `FAILED`. -/
theorem follow_errorKind {ctx : RunCtx} (h : Bounded ctx) (o : Occurrence) :
    (follow ctx o).errorKind ≠ ctx.errorKind ↔
      ctx.status ≠ .failed ∧ (follow ctx o).status = .failed := by
  have hnext := (follow_bounded h o).error
  by_cases hfailed : ctx.status = .failed
  · -- a failed run is only ever restated, with the error it has
    have hsame : (follow ctx o).errorKind = ctx.errorKind := by
      rcases follow_cases ctx o with heq | ⟨t, hmove, heq⟩ <;> rw [heq]
      cases hmove with
      | restated hend kind message hkind =>
        rcases hkind with rfl | ⟨hs, _⟩
        · rfl
        · rw [hfailed] at hs
          cases hs
      | stopped hopen | resumed hopen | failed hopen | parked hopen | answered hopen =>
        rw [hfailed] at hopen
        cases hopen
    simp [hsame, hfailed]
  · have hnone : ctx.errorKind = none := by
      cases hk : ctx.errorKind with
      | none => rfl
      | some k => exact absurd (h.error.mp (by rw [hk]; rfl)) hfailed
    rw [hnone, Option.ne_none_iff_isSome, hnext]
    exact ⟨fun hs => ⟨hfailed, hs⟩, fun hs => hs.2⟩

/-! ## Histories -/

theorem history_bounded {maxTurns : Int} (hmax : 1 ≤ maxTurns) (deadlineTs : Time)
    (os : List Occurrence) : Bounded (Trace.run follow (freshCtx maxTurns deadlineTs) os) :=
  Trace.run_inv (I := Bounded) (fun _ o h => follow_bounded h o) (freshCtx_bounded hmax deadlineTs)
    os

/-- What the events keep: the deadline, the budget, an ended run's status, and a lower
bound on the turns. -/
theorem run_follow_keeps (ctx : RunCtx) (os : List Occurrence) :
    (Trace.run follow ctx os).deadlineTs = ctx.deadlineTs ∧
      (Trace.run follow ctx os).maxTurns = ctx.maxTurns ∧
      (ctx.status.terminal = true → (Trace.run follow ctx os).status = ctx.status) ∧
      ctx.turnsUsed ≤ (Trace.run follow ctx os).turnsUsed := by
  induction os generalizing ctx with
  | nil => exact ⟨rfl, rfl, fun _ => rfl, Int.le_refl _⟩
  | cons o os ih =>
    obtain ⟨hdl, hmax, hterm, hturns⟩ := ih (follow ctx o)
    refine ⟨by rw [Trace.run_cons, hdl, follow_deadlineTs],
      by rw [Trace.run_cons, hmax, follow_maxTurns], ?_,
      Int.le_trans (follow_turnsUsed_le ctx o) hturns⟩
    intro hend
    have hone := follow_status_terminal hend o
    rw [Trace.run_cons, hterm (by rw [hone]; exact hend), hone]

/-- **Safety of the run state machine.** After any history of a run created with a budget
of at least one turn: an ended run keeps its status whatever happens next; turns never
decrease, stay within the budget, and stay strictly below it while the run is open; the
next event enters `COMPLETED`, `RUNNING` or `REQUIRES_TOOL` only before the deadline; the
error kind is there exactly on a failed run, and the next event changes it exactly when it
enters `FAILED`. -/
theorem run_fsm_safe {maxTurns : Int} (hmax : 1 ≤ maxTurns) (deadlineTs : Time)
    (os : List Occurrence) :
    let ctx := Trace.run follow (freshCtx maxTurns deadlineTs) os
    (∀ more, ctx.status.terminal = true →
      (Trace.run follow (freshCtx maxTurns deadlineTs) (os ++ more)).status = ctx.status) ∧
    (∀ more, ctx.turnsUsed ≤
      (Trace.run follow (freshCtx maxTurns deadlineTs) (os ++ more)).turnsUsed) ∧
    ctx.turnsUsed ≤ maxTurns ∧
    (ctx.status ∈ [RunStatus.queued, .running, .requiresTool] → ctx.turnsUsed < maxTurns) ∧
    (∀ o, (follow ctx o).status ∈ [RunStatus.completed, .running, .requiresTool] →
      (follow ctx o).status ≠ ctx.status → o.now < deadlineTs) ∧
    (ctx.errorKind.isSome = true ↔ ctx.status = .failed) ∧
    (∀ o, (follow ctx o).errorKind ≠ ctx.errorKind ↔
      ctx.status ≠ .failed ∧ (follow ctx o).status = .failed) := by
  intro ctx
  have hinv : Bounded ctx := history_bounded hmax deadlineTs os
  obtain ⟨hdl, hbudget, -, -⟩ := run_follow_keeps (freshCtx maxTurns deadlineTs) os
  have hmore : ∀ more, Trace.run follow (freshCtx maxTurns deadlineTs) (os ++ more) =
      Trace.run follow ctx more := Trace.run_append _ os
  have hbudget' : ctx.maxTurns = maxTurns := hbudget
  refine ⟨?_, ?_, ?_, ?_, ?_, hinv.error, follow_errorKind hinv⟩
  · intro more hend
    rw [hmore]
    exact (run_follow_keeps ctx more).2.2.1 hend
  · intro more
    rw [hmore]
    exact (run_follow_keeps ctx more).2.2.2
  · rw [← hbudget']
    exact hinv.turns_le
  · intro hopen
    rw [← hbudget']
    refine hinv.turns_lt ?_
    simp only [List.mem_cons, List.not_mem_nil, or_false] at hopen
    rcases hopen with hs | hs | hs <;> rw [hs] <;> rfl
  · intro o hin hnew
    have hlt := follow_entered hin hnew
    rw [show ctx.deadlineTs = deadlineTs from hdl] at hlt
    exact hlt

/-- A run with two turns that asks for a tool, gets its result and asks for another. -/
theorem run_fsm_safe_two_turns :
    let os : List Occurrence := [⟨.start, 1, none⟩, ⟨.modelReturnedTool, 2, none⟩,
      ⟨.toolResult, 3, none⟩, ⟨.modelReturnedTool, 4, none⟩, ⟨.cancel, 5, none⟩]
    Trace.run follow (freshCtx 2 100) os =
        { status := .failed, deadlineTs := 100, maxTurns := 2, turnsUsed := 2,
          errorKind := some .toolLoopExceeded, errorMessage := some "max_turns=2 reached" } ∧
      ∀ more, (Trace.run follow (freshCtx 2 100) (os ++ more)).status = .failed := by
  intro os
  have hrun : Trace.run follow (freshCtx 2 100) os =
      { status := .failed, deadlineTs := 100, maxTurns := 2, turnsUsed := 2,
        errorKind := some .toolLoopExceeded, errorMessage := some "max_turns=2 reached" } := by
    decide +kernel
  refine ⟨hrun, fun more => ?_⟩
  have hsafe := (run_fsm_safe (by decide : (1 : Int) ≤ 2) 100 os).1 more
  rw [hrun] at hsafe
  exact hsafe rfl

end LlmProxy.Runs
