import LlmProxy.Lib.Trace
import LlmProxy.Runs.Row

/-! # The worker loop and the run endpoints, interleaved

Three kinds of party write one run row, each through its own session: the worker's
`_drive` loop (`app/runs/worker.py`), the cancel endpoint and the tool-result endpoint
(`app/api/runs.py`). Each reads the row, computes a transition from the object it read,
and commits; between the read and the commit it awaits (the model, the replication push,
the event insert) and the other parties run. This file gives every party its commit
points as actions of one transition system, so that a run of the system is one
interleaving.

The worker's iteration has the phases of the source: the row is read (`loaded`), the
deadline check and the status dispatch commit at most one transition (`_step_queued`) or
enter `_step_running` (`running`), compaction may commit (`calling`), the model call
commits its usage columns (`answered`), and the response handler or `_fail_run` commits
the transition. In all of them the object is the one read at the start of the iteration.

The endpoints may be open any number of times at once; `handlers` maps a request number
to its open session.

Mirroring notes.
* The two halves of a request, the read with its checks and the commit, are separate
  actions. A request that fails its checks opens no session.
* Event rows and messages are written by the same commits but are separate tables; only
  the run row is tracked here.
* `advance` raising inside a party ends that party with its session rolled back.
-/

namespace LlmProxy.Runs

/-- The clock readings of one commit: the deadline check's, `advance`'s and
`_persist_transition`'s. -/
structure Clock where
  check : Time
  advance : Time
  persist : Time
  deriving DecidableEq, Repr

/-- `advance` on a context, then `_persist_transition` on the session's object. -/
def transitionOn (s : Session) (ctx : RunCtx) (event : EventKind) (clk : Clock)
    (data : Option String := none) : Except InvalidTransition (Transition × Session) :=
  match advance ctx event clk.advance data with
  | .ok t => .ok (t, s.modify (persistTransition · t clk.persist))
  | .error e => .error e

/-! ## The worker -/

/-- A content block of the assistant message. -/
inductive Block where
  | text (text : String)
  | toolUse (id name input : String)
  deriving DecidableEq, Repr

/-- `_first_tool_use`. -/
def firstToolUse : List Block → Option (String × String × String)
  | [] => none
  | .toolUse id name input :: _ => some (id, name, input)
  | .text _ :: rest => firstToolUse rest

/-- `_terminal_text`: the non-empty texts, one a line. -/
def terminalText (blocks : List Block) : String :=
  let texts := blocks.filterMap fun
    | .text t => if t = "" then none else some t
    | .toolUse .. => none
  "\n".intercalate texts

/-- Where the worker's iteration stands. In the phases of `_step_running` the context is
the one taken when the row was read. -/
inductive Worker where
  | idle
  | loaded (s : Session)
  | running (s : Session) (ctx : RunCtx)
  | calling (s : Session) (ctx : RunCtx)
  | answered (s : Session)
  deriving DecidableEq, Repr

/-- How a model call failed, as the three `except` arms of `_step_running` see it. -/
inductive CallFailure where
  | providerExhausted (detail : String)
  | billing (detail : String)
  | other (typeName detail : String)
  deriving DecidableEq, Repr

/-- The error kind handed to `_fail_run`. -/
def CallFailure.kind : CallFailure → ErrorKind
  | .providerExhausted _ => .provider
  | .billing _ | .other .. => .internal

/-- `str(exc) or repr(exc)` of what is handed to `_fail_run`. -/
def CallFailure.detail : CallFailure → String
  | .providerExhausted d => if d = "" then "ProviderExhausted('')" else d
  | .billing d => "billing: " ++ d
  | .other ty d => ty ++ ": " ++ (if d = "" then "no message" else d)

/-- What a worker step asks of the database, and the phase it leaves the worker in. -/
structure WorkerEffect where
  commit : Option Session
  next : Worker

/-- Commit the transition and end the iteration; a raise ends it without a commit. -/
def finish (r : Except InvalidTransition (Transition × Session))
    (extra : Transition → RunRow → RunRow := fun _ run => run) : WorkerEffect :=
  match r with
  | .ok (t, s) => ⟨some (s.modify (extra t)), .idle⟩
  | .error _ => ⟨none, .idle⟩

/-- `_drive`'s body between the read and the first commit: `_step_check_deadline`, then
the dispatch on the status. -/
def dispatch (s : Session) (clk : Clock) : WorkerEffect :=
  let ctx := ctxFromRow s.obj
  if ctx.status.terminal = false ∧ s.obj.deadlineTs ≤ clk.check then
    finish (transitionOn s ctx .deadlineExceeded clk)
  else
    match ctx.status with
    | .queued => finish (transitionOn s ctx .start clk)
    | .running => ⟨none, .running s ctx⟩
    -- requires_tool waits for the wakeup event, a terminal run ends the loop
    | _ => ⟨none, .idle⟩

/-- `_maybe_compact_run`, when it did compact. -/
def compacted (run : RunRow) : RunRow :=
  { run with contextSummarizedAtTurn := some (run.modelCalls.getD 0) }

def recordUsage (inTok outTok : Int) (providerId : String) (run : RunRow) : RunRow :=
  { run with
    tokensIn := some (run.tokensIn.getD 0 + inTok)
    tokensOut := some (run.tokensOut.getD 0 + outTok)
    lastProviderId := some providerId }

/-- `_fail_run`. -/
def failRun (s : Session) (ctx : RunCtx) (f : CallFailure) (clk : Clock) : WorkerEffect :=
  let event := if f.kind = .provider then EventKind.providerExhausted else .internalError
  finish (transitionOn s ctx event clk (some f.detail))

/-- `_handle_tool_use`: the pending tool columns are set only when the run parks. -/
def handleToolUse (s : Session) (tool : String × String × String) (clk : Clock) :
    WorkerEffect :=
  finish (transitionOn s (ctxFromRow s.obj) .modelReturnedTool clk) fun t run =>
    if t.status = .requiresTool then
      { run with
        currentToolUseId := some tool.1
        currentToolName := some tool.2.1
        currentToolInput := some tool.2.2 }
    else run

/-- `_handle_terminal_text`. -/
def handleTerminalText (s : Session) (blocks : List Block) (clk : Clock) : WorkerEffect :=
  finish (transitionOn s (ctxFromRow s.obj) .modelReturnedText clk) fun t run =>
    if t.status = .completed then { run with resultText := some (terminalText blocks) } else run

/-- The tail of `_step_running`, once the model has answered. -/
def handleResponse (s : Session) (blocks : List Block) (clk : Clock) : WorkerEffect :=
  match firstToolUse blocks with
  | some tool => handleToolUse s tool clk
  | none => handleTerminalText s blocks clk

/-! ## The endpoints -/

/-- The node a request arrives at: its id and the peers whose address it knows. -/
structure Node where
  id : String
  knowsPeer : String → Bool

structure Request where
  apiKeyId : String
  toolUseId : String := ""
  deriving DecidableEq, Repr

/-- How a request ends without touching the row. -/
inductive Rejection where
  /-- 400, `tool_use_id is required` -/
  | toolUseIdRequired
  /-- 403, `run is owned by a different api key` -/
  | otherKey
  /-- 307 to the owner -/
  | redirect (owner : String)
  /-- 410, `run was cancelled; tool result discarded` -/
  | gone
  /-- 409, `run is in state …; tool_result only valid in 'requires_tool'` -/
  | notAwaitingTool (status : RunStatus)
  /-- 409, `tool_use_id mismatch: run is awaiting …` -/
  | toolUseIdMismatch (awaiting : Option String)
  deriving DecidableEq, Repr

/-- `_maybe_redirect_to_owner`: an unknown owner falls back to local handling. -/
def maybeRedirectToOwner (node : Node) (run : RunRow) : Option Rejection :=
  if run.ownerNodeId = "" ∨ run.ownerNodeId = node.id then none
  else if node.knowsPeer run.ownerNodeId then some (.redirect run.ownerNodeId) else none

/-- `cancel_run` up to the session it works on. -/
def openCancel (node : Node) (req : Request) (row : RunRow) : Except Rejection Session :=
  if row.apiKeyId ≠ req.apiKeyId then .error .otherKey
  else match maybeRedirectToOwner node row with
    | some r => .error r
    | none => .ok (Session.read row)

/-- `post_tool_result` up to the session it works on. -/
def openToolResult (node : Node) (req : Request) (row : RunRow) : Except Rejection Session :=
  if req.toolUseId = "" then .error .toolUseIdRequired
  else if row.apiKeyId ≠ req.apiKeyId then .error .otherKey
  else match maybeRedirectToOwner node row with
    | some r => .error r
    | none =>
      if row.status = .cancelled then .error .gone
      else if row.status ≠ .requiresTool then .error (.notAwaitingTool row.status)
      else if row.currentToolUseId ≠ some req.toolUseId then
        .error (.toolUseIdMismatch row.currentToolUseId)
      else .ok (Session.read row)

/-- `cancel_run`'s writes. -/
def cancelWrites (s : Session) (clk : Clock) : Except InvalidTransition Session :=
  match transitionOn s (ctxFromRow s.obj) .cancel clk with
  | .ok (_, s') => .ok s'
  | .error e => .error e

/-- `post_tool_result`'s writes. -/
def toolResultWrites (s : Session) (clk : Clock) : Except InvalidTransition Session :=
  match transitionOn s (ctxFromRow s.obj) .toolResult clk with
  | .ok (_, s') => .ok <| s'.modify fun run =>
      { run with
        toolCalls := some (run.toolCalls.getD 0 + 1)
        currentToolUseId := none
        currentToolName := none
        currentToolInput := none }
  | .error e => .error e

inductive Handler where
  | cancel (s : Session)
  | toolResult (s : Session)
  deriving DecidableEq, Repr

def Handler.session : Handler → Session
  | .cancel s => s
  | .toolResult s => s

def Handler.writes : Handler → Clock → Except InvalidTransition Session
  | .cancel s, clk => cancelWrites s clk
  | .toolResult s, clk => toolResultWrites s clk

/-! ## The system -/

/-- The committed row, the worker's phase and the open endpoint calls. -/
structure System where
  row : RunRow
  worker : Worker := .idle
  handlers : Nat → Option Handler := fun _ => none

inductive Action where
  | workerRead
  | workerDispatch (clk : Clock)
  | workerCompact (did : Bool)
  | workerUsage (inTok outTok : Int) (providerId : String)
  | workerFail (f : CallFailure) (clk : Clock)
  | workerResponse (blocks : List Block) (clk : Clock)
  | openCancel (request : Nat) (req : Request)
  | openToolResult (request : Nat) (req : Request)
  | commitHandler (request : Nat) (clk : Clock)
  deriving DecidableEq, Repr

def System.commit (sys : System) (s : Session) : System := { sys with row := s.flush sys.row }

def System.worked (sys : System) (e : WorkerEffect) : System :=
  match e.commit with
  | some s => { sys.commit s with worker := e.next }
  | none => { sys with worker := e.next }

def System.setHandler (sys : System) (i : Nat) (h : Option Handler) : System :=
  { sys with handlers := fun j => if j = i then h else sys.handlers j }

/-- A request that passed its checks holds its session under its number. -/
def System.opened (sys : System) (i : Nat) (r : Except Rejection Session)
    (mk : Session → Handler) : System :=
  match r with
  | .ok s => sys.setHandler i (some (mk s))
  | .error _ => sys

def step (node : Node) (sys : System) : Action → System
  | .workerRead =>
    match sys.worker with
    | .idle => { sys with worker := .loaded (Session.read sys.row) }
    | _ => sys
  | .workerDispatch clk =>
    match sys.worker with
    | .loaded s => sys.worked (dispatch s clk)
    | _ => sys
  | .workerCompact did =>
    match sys.worker with
    | .running s ctx =>
      if did then
        let s' := s.modify compacted
        { sys.commit s' with worker := .calling s'.committed ctx }
      else { sys with worker := .calling s ctx }
    | _ => sys
  | .workerUsage inTok outTok providerId =>
    match sys.worker with
    | .calling s _ =>
      let s' := s.modify (recordUsage inTok outTok providerId)
      { sys.commit s' with worker := .answered s'.committed }
    | _ => sys
  | .workerFail f clk =>
    match sys.worker with
    | .calling s ctx => sys.worked (failRun s ctx f clk)
    | _ => sys
  | .workerResponse blocks clk =>
    match sys.worker with
    | .answered s => sys.worked (handleResponse s blocks clk)
    | _ => sys
  | .openCancel i req =>
    match sys.handlers i with
    | none => sys.opened i (openCancel node req sys.row) .cancel
    | some _ => sys
  | .openToolResult i req =>
    match sys.handlers i with
    | none => sys.opened i (openToolResult node req sys.row) .toolResult
    | some _ => sys
  | .commitHandler i clk =>
    match sys.handlers i with
    | some h =>
      match h.writes clk with
      | .ok s => (sys.commit s).setHandler i none
      | .error _ => sys.setHandler i none
    | none => sys

end LlmProxy.Runs
