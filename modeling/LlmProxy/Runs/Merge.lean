import LlmProxy.Lib.Table
import LlmProxy.Cluster.Stamp
import LlmProxy.Runs.Row

/-! # The runs section of `apply_sync`

A replicated `runs` row with all its columns, the snapshot of it that is pushed (`_serialise_run` of
`app/runs/replication.py`), and the merge of `app/cluster/sync.py`: a snapshot that is newer than
the row by `updated_at` is taken over, column by column, as far as it has them.

Mirroring notes.
* A JSON column is kept as its text; `null` and the empty value are both stored as the empty value.
* `updated_at` is positive in every row, so a snapshot without it, whose stamp reads as 0, is never
  newer.
-/

namespace LlmProxy.Runs

open LlmProxy.Cluster (fieldOr fieldGet)

/-- A row with the columns the loop of the worker does not use. -/
structure ReplicatedRun extends RunRow where
  id : String
  currentStep : Option String := none
  modelPreference : String := "[]"
  compactionModel : Option String := none
  systemPrompt : Option String := none
  toolsSpec : String := "[]"
  metadataJson : String := "\x7b\x7d"
  traceId : Option String := none
  deriving DecidableEq, Repr

/-- A snapshot. A column that is left out is an `Option` of its value; on a nullable column the
inner `Option` is the null. -/
structure PeerRun where
  id : String
  apiKeyId : Option String := none
  ownerNodeId : Option String := none
  status : Option RunStatus := none
  currentStep : Option (Option String) := none
  deadlineTs : Option Time := none
  maxTurns : Option Int := none
  modelPreference : Option String := none
  compactionModel : Option (Option String) := none
  systemPrompt : Option (Option String) := none
  toolsSpec : Option String := none
  metadataJson : Option String := none
  traceId : Option (Option String) := none
  modelCalls : Option (Option Int) := none
  toolCalls : Option (Option Int) := none
  tokensIn : Option (Option Int) := none
  tokensOut : Option (Option Int) := none
  lastProviderId : Option (Option String) := none
  contextSummarizedAtTurn : Option (Option Int) := none
  currentToolUseId : Option (Option String) := none
  currentToolName : Option (Option String) := none
  currentToolInput : Option (Option String) := none
  resultText : Option (Option String) := none
  errorKind : Option (Option ErrorKind) := none
  errorMessage : Option (Option String) := none
  createdAt : Option Time := none
  completedAt : Option (Option Time) := none
  updatedAt : Time := 0
  deriving DecidableEq, Repr

/-- `_serialise_run`. -/
def serialiseRun (r : ReplicatedRun) : PeerRun :=
  { id := r.id
    apiKeyId := some r.apiKeyId
    ownerNodeId := some r.ownerNodeId
    status := some r.status
    currentStep := some r.currentStep
    deadlineTs := some r.deadlineTs
    maxTurns := some r.maxTurns
    modelPreference := some r.modelPreference
    compactionModel := some r.compactionModel
    systemPrompt := some r.systemPrompt
    toolsSpec := some r.toolsSpec
    metadataJson := some r.metadataJson
    traceId := some r.traceId
    modelCalls := some r.modelCalls
    toolCalls := some r.toolCalls
    tokensIn := some r.tokensIn
    tokensOut := some r.tokensOut
    lastProviderId := some r.lastProviderId
    contextSummarizedAtTurn := some r.contextSummarizedAtTurn
    currentToolUseId := some r.currentToolUseId
    currentToolName := some r.currentToolName
    currentToolInput := some r.currentToolInput
    resultText := some r.resultText
    errorKind := some r.errorKind
    errorMessage := some r.errorMessage
    createdAt := some r.createdAt
    completedAt := some r.completedAt
    updatedAt := r.updatedAt }

def PeerRun.write (r : PeerRun) (existing : ReplicatedRun) : ReplicatedRun :=
  { existing with
    apiKeyId := fieldOr r.apiKeyId existing.apiKeyId
    ownerNodeId := fieldOr r.ownerNodeId existing.ownerNodeId
    status := fieldOr r.status existing.status
    currentStep := fieldOr r.currentStep existing.currentStep
    deadlineTs := fieldOr r.deadlineTs existing.deadlineTs
    maxTurns := fieldOr r.maxTurns existing.maxTurns
    modelPreference := fieldOr r.modelPreference existing.modelPreference
    compactionModel := fieldOr r.compactionModel existing.compactionModel
    systemPrompt := fieldOr r.systemPrompt existing.systemPrompt
    toolsSpec := fieldOr r.toolsSpec existing.toolsSpec
    metadataJson := fieldOr r.metadataJson existing.metadataJson
    traceId := fieldOr r.traceId existing.traceId
    modelCalls := fieldOr r.modelCalls existing.modelCalls
    toolCalls := fieldOr r.toolCalls existing.toolCalls
    tokensIn := fieldOr r.tokensIn existing.tokensIn
    tokensOut := fieldOr r.tokensOut existing.tokensOut
    lastProviderId := fieldOr r.lastProviderId existing.lastProviderId
    contextSummarizedAtTurn := fieldOr r.contextSummarizedAtTurn existing.contextSummarizedAtTurn
    currentToolUseId := fieldOr r.currentToolUseId existing.currentToolUseId
    currentToolName := fieldOr r.currentToolName existing.currentToolName
    currentToolInput := fieldOr r.currentToolInput existing.currentToolInput
    resultText := fieldOr r.resultText existing.resultText
    errorKind := fieldOr r.errorKind existing.errorKind
    errorMessage := fieldOr r.errorMessage existing.errorMessage
    createdAt := fieldOr r.createdAt existing.createdAt
    completedAt := fieldOr r.completedAt existing.completedAt
    updatedAt := r.updatedAt }

def mergeRun (r : PeerRun) (existing : ReplicatedRun) : ReplicatedRun :=
  if r.updatedAt ≤ existing.updatedAt then existing else r.write existing

end LlmProxy.Runs
