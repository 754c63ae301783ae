import LlmProxy.Lib.Table
import LlmProxy.Cluster.Stamp

/-! # The caller-memory table

One `caller_memory` row (`app/models/db_caller_memory.py`) for each API key, conversation and
memory tag, and its exchange between nodes: the section of `_build_sync_payload`
(`app/cluster/manager.py`) and `_apply_caller_memory` (`app/cluster/sync_handlers.py`). The newer
`updated_at` wins, deletions included. `source_company` is in no payload.

> `find?_applyMemoryRow`: a row after one row of a payload.
-/

namespace LlmProxy.Memory

open LlmProxy.Cluster (EditStamp)

/-- What a row is about; `conversationId` may be null. -/
structure MemoryKey where
  apiKeyId : String
  conversationId : Option String
  memoryTag : String
  deriving DecidableEq, Repr

structure CallerMemory where
  key : MemoryKey
  content : String
  contentFormat : Option String := some "text"
  updatedAt : EditStamp
  updatedByNode : Option String := none
  sourceProviderId : Option String := none
  sourceRequestId : Option String := none
  sourceCompany : Option String := none
  deletedAt : Option EditStamp := none
  deriving DecidableEq, Repr

/-- A row of a payload; a text that is missing or null reads as empty. -/
structure PeerMemory where
  apiKeyId : String
  conversationId : Option String
  memoryTag : String
  content : String
  contentFormat : String
  updatedAt : EditStamp
  updatedByNode : Option String
  sourceProviderId : Option String
  sourceRequestId : Option String
  deletedAt : Option EditStamp
  deriving DecidableEq, Repr

/-- `r.get("memory_tag") or "default"`. -/
def PeerMemory.key (r : PeerMemory) : MemoryKey :=
  ⟨r.apiKeyId, r.conversationId, if r.memoryTag = "" then "default" else r.memoryTag⟩

/-- `r.get("content_format") or "text"`. -/
def PeerMemory.format (r : PeerMemory) : String :=
  if r.contentFormat = "" then "text" else r.contentFormat

def buildPeerMemory (r : CallerMemory) : PeerMemory :=
  { apiKeyId := r.key.apiKeyId
    conversationId := r.key.conversationId
    memoryTag := r.key.memoryTag
    content := r.content
    contentFormat := r.contentFormat.getD ""
    updatedAt := r.updatedAt
    updatedByNode := r.updatedByNode
    sourceProviderId := r.sourceProviderId
    sourceRequestId := r.sourceRequestId
    deletedAt := r.deletedAt }

/-! ## The merge -/

def PeerMemory.write (r : PeerMemory) (existing : CallerMemory) : CallerMemory :=
  { existing with
    content := r.content
    contentFormat := some r.format
    updatedAt := r.updatedAt
    updatedByNode := r.updatedByNode
    sourceProviderId := r.sourceProviderId
    sourceRequestId := r.sourceRequestId
    deletedAt := r.deletedAt }

def mergeCallerMemory (r : PeerMemory) (existing : CallerMemory) : CallerMemory :=
  if existing.updatedAt < r.updatedAt then r.write existing else existing

def insertCallerMemory (r : PeerMemory) : Option CallerMemory :=
  some
    { key := r.key
      content := r.content
      contentFormat := some r.format
      updatedAt := r.updatedAt
      updatedByNode := r.updatedByNode
      sourceProviderId := r.sourceProviderId
      sourceRequestId := r.sourceRequestId
      deletedAt := r.deletedAt }

def applyMemoryRow (table : List CallerMemory) (r : PeerMemory) : List CallerMemory :=
  if r.apiKeyId = "" then table
  else Table.upsert [fun e => e.key == r.key] (mergeCallerMemory r) (insertCallerMemory r) table

theorem mergeCallerMemory_key (r : PeerMemory) (e : CallerMemory) :
    (mergeCallerMemory r e).key = e.key := by
  unfold mergeCallerMemory
  split <;> rfl

theorem insertCallerMemory_key (r : PeerMemory) (e : CallerMemory)
    (h : insertCallerMemory r = some e) : e.key = r.key := by
  rw [← Option.some.inj h]

/-- **A row after one row of a payload**. -/
theorem find?_applyMemoryRow {table : List CallerMemory} {r : PeerMemory} (h : r.apiKeyId ≠ "")
    (k : MemoryKey) :
    (applyMemoryRow table r).find? (fun e => e.key == k) =
      Table.mergeRow mergeCallerMemory insertCallerMemory (if r.key == k then some r else none)
        (table.find? fun e => e.key == k) := by
  unfold applyMemoryRow
  rw [if_neg h]
  exact Table.find?_upsert_key mergeCallerMemory_key insertCallerMemory_key r

end LlmProxy.Memory
