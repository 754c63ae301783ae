import LlmProxy.Runs.EventSeq
import LlmProxy.Runs.Worker

/-! # A run from creation to its end

One run with everything its owner keeps of it: the row, the conversation, the committed
event rows and the event channel. `Worker.lean` has the row and the interleavings of the
sessions that write it; here the worker's steps and the endpoints run one after the other,
and each brings, with the row it commits, the messages it stores and the events it emits.

A step is a function from the row and the messages to a `Writes`. The worker's helper
`_emit` inserts an event row and publishes the event; the endpoints' `_emit_event` inserts
the row.

Mirroring notes.
* A worker step is one iteration of `_drive`. What it gets from outside (clock readings,
  whether and how the conversation is compacted, whether the rate limiter throttles, what
  each attempt at a model brings) is a `StepEnv`.
* The several commits of a running step are one here: nothing else runs between them.
* An event's `ts` is the step's clock reading; nothing reads it.
-/

namespace LlmProxy.Runs

/-! ## The conversation -/

inductive Role where
  | system
  | user
  | assistant
  | other (name : String)
  deriving DecidableEq, Repr

inductive MessageBlock where
  | text (text : String)
  | toolUse (id name input : String)
  | toolResult (toolUseId content : String) (isError : Bool)
  | other (json : String)
  deriving DecidableEq, Repr

/-- A message's content: a text, or a list of blocks. -/
inductive Content where
  | text (text : String)
  | blocks (blocks : List MessageBlock)
  deriving DecidableEq, Repr

structure Message where
  role : Role
  content : Content
  deriving DecidableEq, Repr

def Block.stored : Block → MessageBlock
  | .text t => .text t
  | .toolUse id name input => .toolUse id name input

/-- `_append_assistant_message`. -/
def appendAssistantMessage (messages : List Message) (blocks : List Block) : List Message :=
  messages ++ [⟨.assistant, .blocks (blocks.map Block.stored)⟩]

/-! ## Compaction -/

def preservedTailMessages : Nat := 8

/-- `_split_for_compaction`: the system messages, what is summarised, what is kept. -/
def splitForCompaction (messages : List Message) :
    List Message × List Message × List Message :=
  let sysMsgs := messages.filter (·.role == .system)
  let nonSys := messages.filter (·.role != .system)
  if nonSys.length ≤ preservedTailMessages then (sysMsgs, [], nonSys)
  else
    let cut := nonSys.length - preservedTailMessages
    (sysMsgs, nonSys.take cut, nonSys.drop cut)

/-- `maybe_compact`, when the conversation is over the threshold and the model has
summarised it: the new conversation, or none when there is nothing to summarise. -/
def maybeCompact (messages : List Message) (summary : String) : Option (List Message) :=
  match splitForCompaction messages with
  | (_, [], _) => none
  | (sysMsgs, _ :: _, tail) => some (sysMsgs ++ ⟨.assistant, .text summary⟩ :: tail)

/-! ## The model call -/

structure Answer where
  inTok : Int
  outTok : Int
  providerId : String
  blocks : List Block
  deriving DecidableEq, Repr

inductive Attempt where
  /-- `select_provider` raised `RuntimeError` -/
  | unroutable (detail : String)
  /-- the provider was tried before; no call is made -/
  | excluded
  | timedOut
  /-- the call raised; a billing error ends the loop -/
  | errored (billing : Bool) (detail : String)
  | answered (answer : Answer)
  /-- something else raised -/
  | crashed (typeName detail : String)
  deriving DecidableEq, Repr

def exhausted (anyFailed : Bool) : CallFailure :=
  .providerExhausted
    (if anyFailed then "all providers timed out or failed" else "no provider could be selected")

/-- `_call_model_once`: the events emitted, and the answer or what is raised. The first
argument is the safety cap on the turns of the loop. -/
def callModelOnce : Nat → Bool → List Attempt → List RunEventKind × Except CallFailure Answer
  | 0, anyFailed, _ => ([], .error (exhausted anyFailed))
  | _ + 1, anyFailed, [] => ([], .error (exhausted anyFailed))
  | n + 1, anyFailed, a :: rest =>
    match a with
    | .unroutable detail => ([], .error (.providerExhausted detail))
    | .crashed typeName detail => ([], .error (.other typeName detail))
    | .excluded => callModelOnce n anyFailed rest
    | .timedOut | .errored false _ =>
      let r := callModelOnce n true rest
      (.modelCallStart :: .modelCallEnd :: .providerFailed :: r.1, r.2)
    | .errored true detail => ([.modelCallStart, .modelCallEnd], .error (.billing detail))
    | .answered answer => ([.modelCallStart, .modelCallEnd], .ok answer)

/-- What one iteration of the worker gets from outside. -/
structure StepEnv where
  clk : Clock
  summary : Option String := none
  throttled : Bool := false
  attempts : List Attempt := []
  respond : Clock
  report : RunEventKind → String := fun _ => ""

/-! ## What a step writes -/

/-- An event to emit. -/
abbrev Emission := RunEventKind × Payload

structure Writes where
  row : RunRow
  messages : List Message
  events : List Emission

/-- Commit a transition with the step's further writes and its events; a raise rolls the
session back. -/
def conclude (run : RunRow) (messages stored : List Message)
    (r : Except InvalidTransition (Transition × Session))
    (extra : Transition → RunRow → RunRow) (events : Transition → RunRow → List Emission) :
    Writes :=
  match r with
  | .error _ => ⟨run, messages, []⟩
  | .ok (t, s) =>
    let run' := (s.modify (extra t)).flush run
    ⟨run', stored, events t run'⟩

def Writes.none (run : RunRow) (messages : List Message) : Writes := ⟨run, messages, []⟩

/-- `total_ms`, as a difference of instants. -/
def RunRow.total (run : RunRow) : Time := run.completedAt.getD run.createdAt - run.createdAt

def expiredEvent (run : RunRow) : Emission := (.expired, .expired run.deadlineTs run.total)

namespace Journal

/-! ## The worker -/

/-- `_step_check_deadline`, past the deadline. -/
def stepExpire (run : RunRow) (messages : List Message) (clk : Clock) : Writes :=
  conclude run messages messages
    (transitionOn (Session.read run) (ctxFromRow run) .deadlineExceeded clk) (fun _ run => run)
    fun _ run => [expiredEvent run]

/-- `_step_queued`: `run_started` whatever the transition was. -/
def stepQueued (run : RunRow) (messages : List Message) (clk : Clock) : Writes :=
  conclude run messages messages (transitionOn (Session.read run) (ctxFromRow run) .start clk)
    (fun _ run => run) fun _ _ => [(.runStarted, .empty)]

/-- `str(exc)` of what is handed to `_fail_run`, as its event has it. -/
def failureText : CallFailure → String
  | .providerExhausted d => d
  | f => f.detail

/-- `_fail_run`. -/
def failRun (run : RunRow) (messages : List Message) (ctx : RunCtx) (f : CallFailure)
    (clk : Clock) : Writes :=
  let event := if f.kind = .provider then EventKind.providerExhausted else .internalError
  conclude run messages messages (transitionOn (Session.read run) ctx event clk (some f.detail))
    (fun _ run => run) fun _ run =>
      [(.failed, .failed (failureText f) f.kind run.lastProviderId)]

def parkOn (tool : String × String × String) (t : Transition) (run : RunRow) : RunRow :=
  if t.status = .requiresTool then
    { run with
      currentToolUseId := some tool.1
      currentToolName := some tool.2.1
      currentToolInput := some tool.2.2 }
  else run

/-- The events of `_handle_tool_use`, arm by arm. -/
def toolUseEvents (tool : String × String × String) (t : Transition) (run : RunRow) :
    List Emission :=
  if t.status = .requiresTool then
    [(.toolUseRequested, .toolUseRequested tool.1 tool.2.1 tool.2.2)]
  else if t.status = .failed ∧ t.errorKind = some .toolLoopExceeded then
    [(.failed, .failed (t.errorMessage.getD "") .toolLoopExceeded run.lastProviderId)]
  else if t.status = .expired then [expiredEvent run]
  else []

/-- `_handle_tool_use`. -/
def handleToolUse (run : RunRow) (messages stored : List Message)
    (tool : String × String × String) (clk : Clock) : Writes :=
  conclude run messages stored
    (transitionOn (Session.read run) (ctxFromRow run) .modelReturnedTool clk) (parkOn tool)
    (toolUseEvents tool)

def keepResult (blocks : List Block) (t : Transition) (run : RunRow) : RunRow :=
  if t.status = .completed then { run with resultText := some (terminalText blocks) } else run

/-- The events of `_handle_terminal_text`. -/
def terminalTextEvents (blocks : List Block) (t : Transition) (run : RunRow) :
    List Emission :=
  if t.status = .completed then [(.completed, .completed (terminalText blocks) run.total)]
  else if t.status = .expired then [expiredEvent run]
  else []

/-- `_handle_terminal_text`. -/
def handleTerminalText (run : RunRow) (messages stored : List Message) (blocks : List Block)
    (clk : Clock) : Writes :=
  conclude run messages stored
    (transitionOn (Session.read run) (ctxFromRow run) .modelReturnedText clk)
    (keepResult blocks) (terminalTextEvents blocks)

/-- The tail of `_step_running`, once the model has answered. -/
def handleResponse (run : RunRow) (messages : List Message) (blocks : List Block)
    (clk : Clock) : Writes :=
  let stored := appendAssistantMessage messages blocks
  match firstToolUse blocks with
  | some tool => handleToolUse run messages stored tool clk
  | none => handleTerminalText run messages stored blocks clk

/-- `_maybe_compact_run`: the row, the messages that are then sent, and the event. -/
def maybeCompactRun (run : RunRow) (messages : List Message) (env : StepEnv) : Writes :=
  match env.summary.bind (maybeCompact messages) with
  | some messages' =>
    ⟨compacted run, messages', [(.contextCompacted, .report (env.report .contextCompacted))]⟩
  | none => .none run messages

def sent (run : RunRow) (messages : List Message) (env : StepEnv) : List Message :=
  (maybeCompactRun run messages env).messages

/-- The events of `_step_running` before the run's fate is decided: compaction, rate
limiter, model calls. -/
def callEvents (run : RunRow) (messages : List Message) (env : StepEnv) : List Emission :=
  (maybeCompactRun run messages env).events ++
    (if env.throttled then [(.rateLimited, .report (env.report .rateLimited))] else []) ++
    (callModelOnce 8 false env.attempts).1.map fun k => (k, .report (env.report k))

/-- `_step_running`. -/
def stepRunning (run : RunRow) (messages : List Message) (env : StepEnv) : Writes :=
  let start := maybeCompactRun run messages env
  let fate :=
    match (callModelOnce 8 false env.attempts).2 with
    | .error f => failRun start.row start.messages (ctxFromRow run) f env.respond
    | .ok answer =>
      handleResponse (recordUsage answer.inTok answer.outTok answer.providerId start.row)
        start.messages answer.blocks env.respond
  { fate with events := callEvents run messages env ++ fate.events }

/-- One iteration of `_drive`. -/
def work (run : RunRow) (messages : List Message) (env : StepEnv) : Writes :=
  if run.status.terminal = false ∧ run.deadlineTs ≤ env.clk.check then
    stepExpire run messages env.clk
  else
    match run.status with
    | .queued => stepQueued run messages env.clk
    | .running => stepRunning run messages env
    | _ => .none run messages

/-! ## The endpoints -/

structure ToolOutput where
  outputText : String := ""
  isError : Bool := false
  execMs : Option Int := none
  deriving DecidableEq, Repr

/-- `cancel_run`. -/
def cancelRun (node : Node) (req : Request) (run : RunRow) (messages : List Message)
    (clk : Clock) : Writes :=
  match openCancel node req run with
  | .error _ => .none run messages
  | .ok s =>
    conclude run messages messages (transitionOn s (ctxFromRow run) .cancel clk)
      (fun _ run => run) fun t _ =>
        if t.status = .cancelled ∧ run.status ≠ .cancelled then [(.cancelled, .empty)] else []

def consumeTool (run : RunRow) : RunRow :=
  { run with
    toolCalls := some (run.toolCalls.getD 0 + 1)
    currentToolUseId := none
    currentToolName := none
    currentToolInput := none }

/-- `post_tool_result`. -/
def postToolResult (node : Node) (req : Request) (out : ToolOutput) (run : RunRow)
    (messages : List Message) (clk : Clock) : Writes :=
  match openToolResult node req run with
  | .error _ => .none run messages
  | .ok s =>
    conclude run messages
      (messages ++ [⟨.user, .blocks [.toolResult req.toolUseId out.outputText out.isError]⟩])
      (transitionOn s (ctxFromRow run) .toolResult clk) (fun _ run => consumeTool run)
      fun _ _ => [(.toolUseReceived, .toolUseReceived req.toolUseId out.execMs)]

end Journal

/-! ## The journal of a run -/

/-- The committed row, conversation and event rows, the channel, and what the channel has
been given. -/
structure Journal where
  row : RunRow
  messages : List Message
  log : List Event := []
  bus : Bus := {}
  published : List Event := []

/-- `_emit_event` (`app/api/runs.py`): the event row. -/
def Journal.emitEvent (j : Journal) (e : Emission) (ts : Time) : Journal :=
  { j with log := j.log ++ [⟨nextSeq j.log, e.1, e.2, ts⟩] }

/-- `_emit` (`app/runs/worker.py`): the event row, and the event on the channel. -/
def Journal.emit (j : Journal) (e : Emission) (ts : Time) : Journal :=
  let event : Event := ⟨nextSeq j.log, e.1, e.2, ts⟩
  { j with
    log := j.log ++ [event]
    bus := j.bus.publish event
    published := if j.bus.closed then j.published else j.published ++ [event] }

def Journal.store (j : Journal) (w : Writes) : Journal :=
  { j with row := w.row, messages := w.messages }

inductive Op where
  | work (env : StepEnv)
  | cancel (req : Request) (clk : Clock)
  | toolResult (req : Request) (out : Journal.ToolOutput) (clk : Clock)

def Journal.writes (node : Node) (j : Journal) : Op → Writes
  | .work env => Journal.work j.row j.messages env
  | .cancel req clk => Journal.cancelRun node req j.row j.messages clk
  | .toolResult req out clk => Journal.postToolResult node req out j.row j.messages clk

def Journal.step (node : Node) (j : Journal) (op : Op) : Journal :=
  let w := j.writes node op
  match op with
  | .work env => w.events.foldl (fun j e => j.emit e env.respond.persist) (j.store w)
  | .cancel _ clk | .toolResult _ _ clk =>
    w.events.foldl (fun j e => j.emitEvent e clk.persist) (j.store w)

/-- `clamp_max_turns`: the turn budget, and whether it was clamped. -/
def clampMaxTurns (requested defaultCeiling hardCeiling : Int) : Int × Bool :=
  if requested < 1 then (1, requested != 1)
  else
    let cappedAt := min defaultCeiling hardCeiling
    if cappedAt < requested then (cappedAt, true) else (requested, false)

def hardTurnsCeiling : Int := 200

/-- A request to create a run, as far as the run's life depends on it: the budget asked for
and the node's ceiling on it, the system prompt and the caller's messages. -/
structure Creation where
  apiKeyId : String
  ownerNodeId : String
  deadlineTs : Time
  requestedTurns : Int
  ceiling : Int
  system : Option String := none
  messages : List Message
  now : Time

def Creation.seed (c : Creation) : List Message :=
  match c.system with
  | some prompt =>
    if prompt = "" then c.messages else ⟨.system, .text prompt⟩ :: c.messages
  | none => c.messages

/-- `create_run`, past the idempotency replay. -/
def Journal.create (c : Creation) : Journal :=
  let clamp := clampMaxTurns c.requestedTurns c.ceiling hardTurnsCeiling
  let j : Journal :=
    { row :=
        { apiKeyId := c.apiKeyId, ownerNodeId := c.ownerNodeId, status := .queued
          deadlineTs := c.deadlineTs, maxTurns := clamp.1, createdAt := c.now
          updatedAt := c.now }
      messages := c.seed }
  if clamp.2 then
    j.emitEvent
      (.maxTurnsClamped, .clamped c.requestedTurns clamp.1 c.ceiling hardTurnsCeiling) c.now
  else j

end LlmProxy.Runs
