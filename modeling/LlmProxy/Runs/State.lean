/-! # The run state machine

`app/runs/state.py`: the lifecycle of one run as a pure transition function.

    queued → running → requires_tool → running → … → completed
                    ↘ failed / expired / cancelled

`advance ctx event now data` computes the transition an event causes, or the
`InvalidTransition` it raises. The clock is an argument, as in the source, and is only
ever compared with the deadline; instants are integers here.

Mirroring notes.
* An event's `data` dict is read at one key only, `detail`; it is the `Option String`
  that `data.get("detail")` returns, and an empty text counts as absent (`or`).
* `BAD_REQUEST` is an error kind no handler produces. It is kept: a row may carry it.
-/

namespace LlmProxy.Runs

/-- An instant, as `time.time()` returns it. -/
abbrev Time := Int

inductive RunStatus where
  | queued
  | running
  | requiresTool
  | completed
  | failed
  | expired
  | cancelled
  deriving DecidableEq, Repr

/-- The value stored in the row and shown in error texts. -/
def RunStatus.value : RunStatus → String
  | .queued => "queued"
  | .running => "running"
  | .requiresTool => "requires_tool"
  | .completed => "completed"
  | .failed => "failed"
  | .expired => "expired"
  | .cancelled => "cancelled"

def RunStatus.terminal : RunStatus → Bool
  | .completed | .failed | .expired | .cancelled => true
  | _ => false

/-- `error.kind` on the `failed` event payload. -/
inductive ErrorKind where
  | provider
  | toolLoopExceeded
  | contextExhausted
  | badRequest
  | internal
  deriving DecidableEq, Repr

inductive EventKind where
  | start
  | modelReturnedText
  | modelReturnedTool
  | toolResult
  | providerExhausted
  | maxTurnsHit
  | contextExhausted
  | internalError
  | deadlineExceeded
  | cancel
  deriving DecidableEq, Repr

def EventKind.value : EventKind → String
  | .start => "start"
  | .modelReturnedText => "model_returned_text"
  | .modelReturnedTool => "model_returned_tool"
  | .toolResult => "tool_result"
  | .providerExhausted => "provider_exhausted"
  | .maxTurnsHit => "max_turns_hit"
  | .contextExhausted => "context_exhausted"
  | .internalError => "internal_error"
  | .deadlineExceeded => "deadline_exceeded"
  | .cancel => "cancel"

/-- The exception `advance` raises on an event that is not legal in the current state. -/
structure InvalidTransition where
  state : RunStatus
  event : EventKind
  reason : String := ""
  deriving DecidableEq, Repr

def InvalidTransition.message (e : InvalidTransition) : String :=
  let msg := "cannot " ++ e.event.value ++ " from " ++ e.state.value
  if e.reason = "" then msg else msg ++ ": " ++ e.reason

/-- The slice of a run row the state machine reads. -/
structure RunCtx where
  status : RunStatus
  deadlineTs : Time
  maxTurns : Int
  turnsUsed : Int := 0
  errorKind : Option ErrorKind := none
  errorMessage : Option String := none
  deriving DecidableEq, Repr

/-- The new status with the error metadata to persist beside it. -/
structure Transition where
  status : RunStatus
  turnsUsed : Int
  errorKind : Option ErrorKind := none
  errorMessage : Option String := none
  deriving DecidableEq, Repr

/-- What a handler returns: a transition, or the exception it raises. -/
abbrev Outcome := Except InvalidTransition Transition

/-- Python's `data.get("detail") or fallback`. -/
def detailOr (data : Option String) (fallback : String) : String :=
  match data with
  | some d => if d = "" then fallback else d
  | none => fallback

/-- `f"max_turns={ctx.max_turns} reached"`. -/
def maxTurnsMessage (ctx : RunCtx) : String :=
  "max_turns=" ++ toString ctx.maxTurns ++ " reached"

/-! ## The handlers -/

def start (ctx : RunCtx) (now : Time) : Outcome :=
  if ctx.status ≠ .queued then .error ⟨ctx.status, .start, ""⟩
  else if ctx.deadlineTs ≤ now then .ok { status := .expired, turnsUsed := ctx.turnsUsed }
  else .ok { status := .running, turnsUsed := ctx.turnsUsed }

def modelText (ctx : RunCtx) (now : Time) : Outcome :=
  if ctx.status ≠ .running then .error ⟨ctx.status, .modelReturnedText, ""⟩
  else if ctx.deadlineTs ≤ now then .ok { status := .expired, turnsUsed := ctx.turnsUsed }
  else .ok { status := .completed, turnsUsed := ctx.turnsUsed + 1 }

def modelTool (ctx : RunCtx) (now : Time) : Outcome :=
  if ctx.status ≠ .running then .error ⟨ctx.status, .modelReturnedTool, ""⟩
  else if ctx.deadlineTs ≤ now then .ok { status := .expired, turnsUsed := ctx.turnsUsed }
  else if ctx.maxTurns ≤ ctx.turnsUsed + 1 then
    -- the model wants another tool but the turn budget is spent
    .ok { status := .failed, turnsUsed := ctx.turnsUsed + 1,
          errorKind := some .toolLoopExceeded, errorMessage := some (maxTurnsMessage ctx) }
  else .ok { status := .requiresTool, turnsUsed := ctx.turnsUsed + 1 }

def toolResult (ctx : RunCtx) (now : Time) : Outcome :=
  if ctx.status ≠ .requiresTool then
    .error ⟨ctx.status, .toolResult, "run is not awaiting a tool result"⟩
  else if ctx.deadlineTs ≤ now then .ok { status := .expired, turnsUsed := ctx.turnsUsed }
  else .ok { status := .running, turnsUsed := ctx.turnsUsed }

/-- The body the failure handlers share: legal from the given statuses, always `FAILED`. -/
def failWith (legal : RunStatus → Bool) (event : EventKind) (kind : ErrorKind)
    (message : String) (ctx : RunCtx) : Outcome :=
  if legal ctx.status then
    .ok { status := .failed, turnsUsed := ctx.turnsUsed,
          errorKind := some kind, errorMessage := some message }
  else .error ⟨ctx.status, event, ""⟩

/-- `status in (RUNNING, REQUIRES_TOOL)`. -/
def RunStatus.inFlight : RunStatus → Bool
  | .running | .requiresTool => true
  | _ => false

def providerExhausted (ctx : RunCtx) (data : Option String) : Outcome :=
  failWith RunStatus.inFlight .providerExhausted .provider
    (detailOr data "all providers exhausted") ctx

def maxTurns (ctx : RunCtx) : Outcome :=
  failWith (· == .running) .maxTurnsHit .toolLoopExceeded (maxTurnsMessage ctx) ctx

def contextExhausted (ctx : RunCtx) : Outcome :=
  failWith RunStatus.inFlight .contextExhausted .contextExhausted
    "context window exceeded even after compaction" ctx

def internal (ctx : RunCtx) (data : Option String) : Outcome :=
  failWith (fun s => !s.terminal) .internalError .internal
    (detailOr data "internal error") ctx

def deadline (ctx : RunCtx) : Outcome :=
  if ctx.status.terminal then .error ⟨ctx.status, .deadlineExceeded, ""⟩
  else .ok { status := .expired, turnsUsed := ctx.turnsUsed }

/-- Cancelling is idempotent, and a no-op on a run that ended in another way. -/
def cancel (ctx : RunCtx) : Outcome :=
  if ctx.status = .cancelled then .ok { status := .cancelled, turnsUsed := ctx.turnsUsed }
  else if ctx.status.terminal then
    .ok { status := ctx.status, turnsUsed := ctx.turnsUsed,
          errorKind := ctx.errorKind, errorMessage := ctx.errorMessage }
  else .ok { status := .cancelled, turnsUsed := ctx.turnsUsed }

/-- Compute the transition `event` causes in `ctx`. -/
def advance (ctx : RunCtx) (event : EventKind) (now : Time) (data : Option String := none) :
    Outcome :=
  match event with
  | .start => start ctx now
  | .modelReturnedText => modelText ctx now
  | .modelReturnedTool => modelTool ctx now
  | .toolResult => toolResult ctx now
  | .providerExhausted => providerExhausted ctx data
  | .maxTurnsHit => maxTurns ctx
  | .contextExhausted => contextExhausted ctx
  | .internalError => internal ctx data
  | .deadlineExceeded => deadline ctx
  | .cancel => cancel ctx

/-! ## What an event can do -/

/-- Out of a terminal status only `CANCEL` returns, and it returns the same status. -/
theorem advance_terminal {ctx : RunCtx} {event : EventKind} {now : Time}
    {data : Option String} {t : Transition} (hterm : ctx.status.terminal = true)
    (h : advance ctx event now data = .ok t) : event = .cancel ∧ t.status = ctx.status := by
  cases hs : ctx.status <;> rw [hs] at hterm <;> simp only [RunStatus.terminal] at hterm
  all_goals first | contradiction | skip
  all_goals
    cases event <;>
      simp [advance, start, modelText, modelTool, toolResult, providerExhausted, maxTurns,
        contextExhausted, internal, deadline, cancel, failWith, RunStatus.inFlight,
        RunStatus.terminal, hs] at h ⊢
  all_goals rw [← h]

theorem advance_cancel {ctx : RunCtx} {now : Time} {data : Option String} {t : Transition}
    (hterm : ¬ ctx.status.terminal = true) (h : advance ctx .cancel now data = .ok t) :
    t.status = .cancelled := by
  simp only [advance, cancel, if_neg hterm] at h
  split at h <;> (cases h; rfl)

end LlmProxy.Runs
