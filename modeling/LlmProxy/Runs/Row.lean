import LlmProxy.Runs.State

/-! # The run row and the sessions that write it

One `runs` row (`app/models/db_run.py`), the ORM object a session keeps of it, and the
helpers of `app/runs/worker.py` that turn a transition into column writes.

A session reads the row once and then works on its own object: `AsyncSessionLocal` is
built with `expire_on_commit=False`, so neither a commit nor the passage of time refreshes
the attributes. A commit sends an `UPDATE … WHERE id = ?` that sets exactly the columns
whose value differs from the one the session last loaded or flushed; a column the session
did not change keeps whatever the database holds by then. `Session.commit` is that write.

Mirroring notes.
* Columns no function of the run subsystem's loop reads or writes (`model_preference`,
  `system_prompt`, `trace_id`, …) are left out.
* A JSON column is kept as its text.
-/

namespace LlmProxy.Runs

structure RunRow where
  apiKeyId : String
  ownerNodeId : String
  status : RunStatus
  deadlineTs : Time
  maxTurns : Int
  modelCalls : Option Int := some 0
  toolCalls : Option Int := some 0
  tokensIn : Option Int := some 0
  tokensOut : Option Int := some 0
  lastProviderId : Option String := none
  contextSummarizedAtTurn : Option Int := none
  currentToolUseId : Option String := none
  currentToolName : Option String := none
  currentToolInput : Option String := none
  resultText : Option String := none
  errorKind : Option ErrorKind := none
  errorMessage : Option String := none
  createdAt : Time
  updatedAt : Time
  completedAt : Option Time := none
  deriving DecidableEq, Repr

/-- `_ctx_from_row`: the error columns are not carried over. -/
def ctxFromRow (r : RunRow) : RunCtx :=
  { status := r.status, deadlineTs := r.deadlineTs, maxTurns := r.maxTurns,
    turnsUsed := r.modelCalls.getD 0 }

@[simp] theorem ctxFromRow_status (r : RunRow) : (ctxFromRow r).status = r.status := rfl

/-- `_persist_transition`: the column writes of one transition, at clock reading `now`. -/
def persistTransition (run : RunRow) (t : Transition) (now : Time) : RunRow :=
  { run with
    status := t.status
    updatedAt := now
    completedAt := if t.status.terminal then some now else run.completedAt
    errorKind := if t.errorKind.isSome then t.errorKind else run.errorKind
    errorMessage := if t.errorKind.isSome then t.errorMessage else run.errorMessage
    modelCalls :=
      if t.turnsUsed ≠ run.modelCalls.getD 0 then some t.turnsUsed else run.modelCalls }

@[simp] theorem persistTransition_status (run : RunRow) (t : Transition) (now : Time) :
    (persistTransition run t now).status = t.status := rfl

/-! ## Sessions -/

/-- One column of an `UPDATE`: the object's value if it differs from the loaded one, else
what the database holds. -/
def column {α : Type} [DecidableEq α] (loaded obj db : α) : α :=
  if obj = loaded then db else obj

/-- What a session holds of the row: the values as last loaded or flushed, and the object's
current attributes. -/
structure Session where
  loaded : RunRow
  obj : RunRow
  deriving DecidableEq, Repr

/-- `select(Run).where(Run.id == run_id)` in a fresh session. -/
def Session.read (row : RunRow) : Session := ⟨row, row⟩

def Session.modify (s : Session) (f : RunRow → RunRow) : Session := { s with obj := f s.obj }

/-- The row after the session's `UPDATE`. -/
def Session.flush (s : Session) (db : RunRow) : RunRow where
  apiKeyId := column s.loaded.apiKeyId s.obj.apiKeyId db.apiKeyId
  ownerNodeId := column s.loaded.ownerNodeId s.obj.ownerNodeId db.ownerNodeId
  status := column s.loaded.status s.obj.status db.status
  deadlineTs := column s.loaded.deadlineTs s.obj.deadlineTs db.deadlineTs
  maxTurns := column s.loaded.maxTurns s.obj.maxTurns db.maxTurns
  modelCalls := column s.loaded.modelCalls s.obj.modelCalls db.modelCalls
  toolCalls := column s.loaded.toolCalls s.obj.toolCalls db.toolCalls
  tokensIn := column s.loaded.tokensIn s.obj.tokensIn db.tokensIn
  tokensOut := column s.loaded.tokensOut s.obj.tokensOut db.tokensOut
  lastProviderId := column s.loaded.lastProviderId s.obj.lastProviderId db.lastProviderId
  contextSummarizedAtTurn := column s.loaded.contextSummarizedAtTurn
    s.obj.contextSummarizedAtTurn db.contextSummarizedAtTurn
  currentToolUseId := column s.loaded.currentToolUseId s.obj.currentToolUseId
    db.currentToolUseId
  currentToolName := column s.loaded.currentToolName s.obj.currentToolName db.currentToolName
  currentToolInput := column s.loaded.currentToolInput s.obj.currentToolInput
    db.currentToolInput
  resultText := column s.loaded.resultText s.obj.resultText db.resultText
  errorKind := column s.loaded.errorKind s.obj.errorKind db.errorKind
  errorMessage := column s.loaded.errorMessage s.obj.errorMessage db.errorMessage
  createdAt := column s.loaded.createdAt s.obj.createdAt db.createdAt
  updatedAt := column s.loaded.updatedAt s.obj.updatedAt db.updatedAt
  completedAt := column s.loaded.completedAt s.obj.completedAt db.completedAt

/-- The session after its commit: the object keeps its attributes. -/
def Session.committed (s : Session) : Session := ⟨s.obj, s.obj⟩

@[simp] theorem Session.read_loaded (row : RunRow) : (Session.read row).loaded = row := rfl

@[simp] theorem Session.read_obj (row : RunRow) : (Session.read row).obj = row := rfl

@[simp] theorem Session.modify_loaded (s : Session) (f : RunRow → RunRow) :
    (s.modify f).loaded = s.loaded := rfl

@[simp] theorem Session.modify_obj (s : Session) (f : RunRow → RunRow) :
    (s.modify f).obj = f s.obj := rfl

@[simp] theorem Session.committed_loaded (s : Session) : s.committed.loaded = s.obj := rfl

@[simp] theorem Session.committed_obj (s : Session) : s.committed.obj = s.obj := rfl

theorem Session.flush_status_same {s : Session} (h : s.obj.status = s.loaded.status)
    (db : RunRow) : (s.flush db).status = db.status := by
  show column _ _ _ = _
  unfold column
  rw [if_pos h]

end LlmProxy.Runs
