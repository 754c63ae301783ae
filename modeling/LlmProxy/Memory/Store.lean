import Mathlib.Data.List.Nodup
import Mathlib.Logic.Function.Basic
import LlmProxy.Memory.Row

/-! # The memory store

`app/memory/store.py`: `get`, `put` and `delete` over the `caller_memory` table, with Redis in
front of it. `get` answers from Redis and fills it from the row; `put` and `delete` write the row
and drop the Redis entry of the pair.

Mirroring notes.
* `_fallback` is written nowhere, so the last resort of `get` finds nothing and is left out.
* The marker rows `put` keeps for the recovery of lost content are read by none of these and left
  out.
* The table has no unique index. A select of one row raises on two (`lookup` is `none`).
* The ORM writes the columns that differ from the row it has loaded (`flush`).

> `flush_self`: with nobody in between, the row is as the call has it.
-/

namespace LlmProxy.Memory

open LlmProxy.Cluster (EditStamp)

/-- `MemoryEntry`, as `get` returns it and Redis holds it. -/
structure MemoryEntry where
  key : MemoryKey
  content : String
  contentFormat : String
  updatedAt : EditStamp
  sourceProviderId : Option String := none
  sourceCompany : Option String := none
  deriving DecidableEq, Repr

/-- `_key`. -/
def cacheKey (k : MemoryKey) : String :=
  "llmproxy:mem:" ++ k.apiKeyId ++ ":" ++ k.conversationId.getD "__default__" ++ ":" ++ k.memoryTag

/-- `_filtered_by_blocklist`. -/
def filteredByBlocklist (sourceCompany : Option String) (blockedCompanies : List String) : Bool :=
  if blockedCompanies.isEmpty then false
  else match sourceCompany with
    | none => true
    | some company => blockedCompanies.contains company

def CallerMemory.entry (row : CallerMemory) : MemoryEntry :=
  { key := row.key
    content := row.content
    contentFormat := (row.contentFormat.filter (· ≠ "")).getD "text"
    updatedAt := row.updatedAt
    sourceProviderId := row.sourceProviderId
    sourceCompany := row.sourceCompany }

def MemoryEntry.filtered (entry : MemoryEntry) (blockedCompanies : List String) :
    Option MemoryEntry :=
  if filteredByBlocklist entry.sourceCompany blockedCompanies then none else some entry

/-- What `get` makes of the row it selected. -/
def readRow (row : Option CallerMemory) (blockedCompanies : List String) : Option MemoryEntry :=
  match row with
  | none => none
  | some row =>
    if row.deletedAt.isSome then none else row.entry.filtered blockedCompanies

/-- `scalar_one_or_none`: `none` where it raises. -/
def lookup (table : List CallerMemory) (k : MemoryKey) : Option (Option CallerMemory) :=
  match table.filter fun r => r.key == k with
  | [] => some none
  | [row] => some (some row)
  | _ => none

/-! ## What is written -/

/-- The arguments of `put`, with the clock and the node it reads. -/
structure Put where
  key : MemoryKey
  content : String
  contentFormat : String := "text"
  sourceProviderId : Option String := none
  sourceRequestId : Option String := none
  sourceCompany : Option String := none
  now : EditStamp
  nodeId : Option String := none
  deriving DecidableEq, Repr

/-- `if new: existing.column = new`. -/
def orKept (new existing : Option String) : Option String :=
  if new.any (· ≠ "") then new else existing

def Put.insert (w : Put) : CallerMemory :=
  { key := w.key
    content := w.content
    contentFormat := some w.contentFormat
    updatedAt := w.now
    updatedByNode := w.nodeId
    sourceProviderId := w.sourceProviderId
    sourceRequestId := w.sourceRequestId
    sourceCompany := w.sourceCompany
    deletedAt := none }

def Put.update (w : Put) (existing : CallerMemory) : CallerMemory :=
  { key := existing.key
    content := w.content
    contentFormat := some w.contentFormat
    updatedAt := w.now
    updatedByNode := w.nodeId
    sourceProviderId := orKept w.sourceProviderId existing.sourceProviderId
    sourceRequestId := orKept w.sourceRequestId existing.sourceRequestId
    sourceCompany := orKept w.sourceCompany existing.sourceCompany
    deletedAt := none }

/-- What `put` returns: the entry as it was asked for. -/
def Put.entry (w : Put) : MemoryEntry :=
  { key := w.key
    content := w.content
    contentFormat := w.contentFormat
    updatedAt := w.now
    sourceProviderId := w.sourceProviderId
    sourceCompany := w.sourceCompany }

/-- What `delete` writes. -/
def CallerMemory.tombstone (now : EditStamp) (row : CallerMemory) : CallerMemory :=
  { row with deletedAt := some now, updatedAt := now }

/-- A column as the ORM writes it: only if it differs from the one loaded. -/
def changed {α : Type} [DecidableEq α] (loaded new current : α) : α :=
  if new = loaded then current else new

/-- The row after a call that loaded `loaded` and has made `new` of it. -/
def flush (loaded new current : CallerMemory) : CallerMemory :=
  { key := current.key
    content := changed loaded.content new.content current.content
    contentFormat := changed loaded.contentFormat new.contentFormat current.contentFormat
    updatedAt := changed loaded.updatedAt new.updatedAt current.updatedAt
    updatedByNode := changed loaded.updatedByNode new.updatedByNode current.updatedByNode
    sourceProviderId :=
      changed loaded.sourceProviderId new.sourceProviderId current.sourceProviderId
    sourceRequestId := changed loaded.sourceRequestId new.sourceRequestId current.sourceRequestId
    sourceCompany := changed loaded.sourceCompany new.sourceCompany current.sourceCompany
    deletedAt := changed loaded.deletedAt new.deletedAt current.deletedAt }

/-- The table after the commit: a row that was not there when it was looked for is inserted. Rows
are never removed, so the first row of the pair is the one that was loaded. -/
def commitRow (table : List CallerMemory) (k : MemoryKey) (loaded : Option CallerMemory)
    (update : CallerMemory → CallerMemory) (insert : CallerMemory) : List CallerMemory :=
  match loaded with
  | none => table ++ [insert]
  | some row => Table.updateFirst (fun r => r.key == k) (flush row (update row)) table

/-! ## The calls, run alone -/

structure Store where
  table : List CallerMemory := []
  redis : String → Option MemoryEntry := fun _ => none

def Store.row (s : Store) (k : MemoryKey) : Option CallerMemory :=
  s.table.find? fun r => r.key == k

def Store.cached (s : Store) (redisOk : Bool) (k : MemoryKey) : Option MemoryEntry :=
  if redisOk then s.redis (cacheKey k) else none

def Store.setRedis (s : Store) (redisOk : Bool) (k : MemoryKey) (entry : Option MemoryEntry) :
    Store :=
  if redisOk then { s with redis := Function.update s.redis (cacheKey k) entry } else s

/-- `get`: the entry, and the store it leaves; `none` where it raises. -/
def get (s : Store) (redisOk : Bool) (k : MemoryKey) (blockedCompanies : List String := []) :
    Option (Option MemoryEntry × Store) :=
  match s.cached redisOk k with
  | some entry => some (entry.filtered blockedCompanies, s)
  | none =>
    (lookup s.table k).map fun row =>
      match readRow row blockedCompanies with
      | none => (none, s)
      | some entry => (some entry, s.setRedis redisOk k (some entry))

/-- `put`. -/
def put (s : Store) (redisOk : Bool) (w : Put) : Option (MemoryEntry × Store) :=
  (lookup s.table w.key).map fun existing =>
    (w.entry,
      { s with table := commitRow s.table w.key existing w.update w.insert }.setRedis redisOk w.key
        none)

/-- `delete`: whether a live row was found, and the store. -/
def delete (s : Store) (redisOk : Bool) (k : MemoryKey) (now : EditStamp) :
    Option (Bool × Store) :=
  (lookup s.table k).map fun row =>
    match row with
    | none => (false, s)
    | some row =>
      if row.deletedAt.isSome then (false, s)
      else
        (true, { s with table := commitRow s.table k (some row) (CallerMemory.tombstone now) row
          }.setRedis redisOk k none)

/-! ## The merge of one row -/

def PeerMemory.insert (r : PeerMemory) : CallerMemory :=
  { key := r.key
    content := r.content
    contentFormat := some r.format
    updatedAt := r.updatedAt
    updatedByNode := r.updatedByNode
    sourceProviderId := r.sourceProviderId
    sourceRequestId := r.sourceRequestId
    deletedAt := r.deletedAt }

def PeerMemory.taken (r : PeerMemory) (loaded : Option CallerMemory) : Bool :=
  r.apiKeyId ≠ "" && loaded.all fun row => row.updatedAt < r.updatedAt

theorem mergeCallerMemory_taken {r : PeerMemory} {row : CallerMemory}
    (h : r.taken (some row) = true) : mergeCallerMemory r row = r.write row := by
  unfold PeerMemory.taken at h
  simp only [Bool.and_eq_true, Option.all_some, decide_eq_true_eq] at h
  exact if_pos h.2

/-! ## Lookups -/

theorem changed_self {α : Type} [DecidableEq α] (loaded new : α) :
    changed loaded new loaded = new := by
  unfold changed
  split
  · next h => exact h.symm
  · rfl

theorem flush_self {loaded new : CallerMemory} (hkey : new.key = loaded.key) :
    flush loaded new loaded = new := by
  unfold flush
  simp only [changed_self]
  rw [← hkey]

theorem lookup_eq_some {table : List CallerMemory} {k : MemoryKey} {row : Option CallerMemory}
    (h : lookup table k = some row) : table.find? (fun r => r.key == k) = row := by
  rw [← List.head?_filter]
  unfold lookup at h
  split at h
  · next hnil =>
    rw [hnil]
    exact Option.some.inj h
  · next row' hone =>
    rw [hone]
    exact Option.some.inj h
  · cases h

/-! ## Rows after a commit -/

variable {table : List CallerMemory} {k : MemoryKey} {loaded : Option CallerMemory}
  {update : CallerMemory → CallerMemory} {insert : CallerMemory}

theorem find?_commitRow_other {k' : MemoryKey} (hinsert : insert.key = k) (h : k' ≠ k) :
    (commitRow table k loaded update insert).find? (fun r => r.key == k') =
      table.find? fun r => r.key == k' := by
  cases loaded with
  | none =>
    show (table ++ (some insert).toList).find? _ = _
    refine Table.find?_append_other fun a ha => ?_
    rw [← Option.some.inj ha, hinsert]
    exact beq_false_of_ne h.symm
  | some row =>
    refine Table.find?_updateFirst_other (fun _ => rfl) fun a _ ha => ?_
    rw [eq_of_beq ha]
    exact beq_false_of_ne h.symm

theorem find?_commitRow_none (update : CallerMemory → CallerMemory) (hinsert : insert.key = k)
    (h : table.find? (fun r => r.key == k) = none) :
    (commitRow table k none update insert).find? (fun r => r.key == k) = some insert := by
  unfold commitRow
  rw [List.find?_append, h, Option.none_or, List.find?_cons_of_pos (by rw [hinsert]; exact beq_self_eq_true k)]

theorem find?_commitRow_some (table : List CallerMemory) (k : MemoryKey)
    (update : CallerMemory → CallerMemory) (insert row : CallerMemory) :
    (commitRow table k (some row) update insert).find? (fun r => r.key == k) =
      (table.find? fun r => r.key == k).map (flush row (update row)) :=
  Table.find?_updateFirst_self (f := flush row (update row)) (fun _ => rfl) table

theorem keys_commitRow_some (row : CallerMemory) :
    (commitRow table k (some row) update insert).map CallerMemory.key = table.map CallerMemory.key :=
  Table.map_updateFirst_eq_iff.mpr fun _ _ => rfl

theorem mem_keys_iff : k ∈ table.map CallerMemory.key ↔ (table.find? fun r => r.key == k).isSome := by
  simp [List.find?_isSome]

theorem nodup_commitRow (h : (table.map CallerMemory.key).Nodup) (hinsert : insert.key = k)
    (hnone : loaded = none → table.find? (fun r => r.key == k) = none) :
    ((commitRow table k loaded update insert).map CallerMemory.key).Nodup := by
  cases loaded with
  | none =>
    unfold commitRow
    rw [List.map_append, List.map_singleton, hinsert]
    refine List.nodup_append.mpr ⟨h, List.nodup_singleton k, fun a ha b hb hab => ?_⟩
    rw [List.mem_singleton.mp hb] at hab
    rw [hab, mem_keys_iff, hnone rfl] at ha
    cases ha
  | some row =>
    rw [keys_commitRow_some]
    exact h

end LlmProxy.Memory
