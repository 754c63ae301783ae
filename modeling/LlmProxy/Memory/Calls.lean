import LlmProxy.Lib.Interleaving
import LlmProxy.Memory.Store

/-! # The memory store under concurrent calls

`get`, `put` and `delete` of `app/memory/store.py` and `_apply_caller_memory`
(`app/cluster/sync_handlers.py`) on one node, cut where they await: each select, each commit and
each Redis command is a stretch of its own. Redis answers, and never lets an entry expire.

A merge is one row of a payload; a payload is its rows one after the other. It drops no Redis
entry.

Beside the code's state the model keeps, for each pair, what its writes have made of it so far
(`changes`: a content, or nothing where the row was deleted) and how many of these the writes that
have returned account for (`settled`). A `get` notes that number as it begins. The code reads
neither.

> `get_returns_last_write` (`LlmProxy.Memory.Freshness`): in every run whose stretches meet
> `Orderly`, what a `get` returns was written by the last write that had returned when it began, or
> after it.
-/

namespace LlmProxy.Memory

open LlmProxy.Cluster (EditStamp)
open Interleaving Trace

/-- The content `get` returns for a row. -/
def liveContent (row : Option CallerMemory) : Option String :=
  row.bind fun r => if r.deletedAt.isSome then none else some r.content

structure Node extends Store where
  changes : MemoryKey → List (Option String) := fun _ => [none]
  settled : MemoryKey → Nat := fun _ => 0

/-! ## The calls -/

inductive Call where
  | get (k : MemoryKey) (blockedCompanies : List String)
  | put (w : Put)
  | delete (k : MemoryKey) (now : EditStamp)
  | merge (r : PeerMemory)
  deriving DecidableEq, Repr

/-- Where a `get` stands: before Redis, before the select, before it returns what it selected. -/
inductive Reading where
  | askRedis
  | select
  | answer (row : Option CallerMemory)
  deriving DecidableEq, Repr

/-- Where a write stands: before the select, before the commit, before it drops the Redis entry of
its pair; `change` is the place of its own change. -/
inductive Writing where
  | select
  | commit (loaded : Option CallerMemory)
  | invalidate (change : Nat)
  deriving DecidableEq, Repr

/-- A call under way, or what it has returned. -/
inductive Task where
  | getting (k : MemoryKey) (blockedCompanies : List String) (since : Nat) (stage : Reading)
  | putting (w : Put) (stage : Writing)
  | deleting (k : MemoryKey) (now : EditStamp) (stage : Writing)
  | merging (r : PeerMemory) (stage : Writing)
  | got (k : MemoryKey) (blockedCompanies : List String) (since : Nat) (entry : Option MemoryEntry)
  | done
  | raised
  deriving DecidableEq, Repr

def start (s : Node) : Call → Task
  | .get k blockedCompanies => .getting k blockedCompanies (s.settled k) .askRedis
  | .put w => .putting w .select
  | .delete k now => .deleting k now .select
  | .merge r => .merging r .select

/-! ## One stretch -/

def Node.commit (s : Node) (k : MemoryKey) (loaded : Option CallerMemory)
    (update : CallerMemory → CallerMemory) (insert : CallerMemory) (content : Option String) :
    Node :=
  { s with
    table := commitRow s.table k loaded update insert
    changes := Function.update s.changes k (s.changes k ++ [content]) }

def Node.setRedis (s : Node) (k : MemoryKey) (entry : Option MemoryEntry) : Node :=
  { s with redis := Function.update s.redis (cacheKey k) entry }

def Node.settle (s : Node) (k : MemoryKey) (change : Nat) : Node :=
  { s with settled := Function.update s.settled k (max (s.settled k) change) }

/-- The select of `get`, `put` and `delete`. -/
def Node.select (s : Node) (k : MemoryKey) (task : Option CallerMemory → Task) : Task :=
  match lookup s.table k with
  | none => .raised
  | some row => task row

def stretchGet (s : Node) (k : MemoryKey) (blocked : List String) (since : Nat) :
    Reading → Node × Task
  | .askRedis =>
    match s.redis (cacheKey k) with
    | some entry => (s, .got k blocked since (entry.filtered blocked))
    | none => (s, .getting k blocked since .select)
  | .select => (s, s.select k fun row => .getting k blocked since (.answer row))
  | .answer row =>
    match readRow row blocked with
    | none => (s, .got k blocked since none)
    | some entry => (s.setRedis k (some entry), .got k blocked since (some entry))

def stretchPut (s : Node) (w : Put) : Writing → Node × Task
  | .select => (s, s.select w.key fun row => .putting w (.commit row))
  | .commit loaded =>
    (s.commit w.key loaded w.update w.insert (some w.content),
      .putting w (.invalidate (s.changes w.key).length))
  | .invalidate change => ((s.setRedis w.key none).settle w.key change, .done)

def stretchDelete (s : Node) (k : MemoryKey) (now : EditStamp) : Writing → Node × Task
  | .select => (s, s.select k fun row => .deleting k now (.commit row))
  | .commit none => (s, .done)
  | .commit (some row) =>
    if row.deletedAt.isSome then (s, .done)
    else
      (s.commit k (some row) (CallerMemory.tombstone now) row none,
        .deleting k now (.invalidate (s.changes k).length))
  | .invalidate change => ((s.setRedis k none).settle k change, .done)

def PeerMemory.liveContent (r : PeerMemory) : Option String :=
  if r.deletedAt.isSome then none else some r.content

def stretchMerge (s : Node) (r : PeerMemory) : Writing → Node × Task
  | .select => (s, .merging r (.commit (s.table.find? fun e => e.key == r.key)))
  | .commit loaded =>
    if r.taken loaded then
      ((s.commit r.key loaded r.write r.insert r.liveContent).settle r.key
        (s.changes r.key).length, .done)
    else (s, .done)
  | .invalidate _ => (s, .done)

def next (s : Node) : Task → Node × Task
  | .getting k blocked since stage => stretchGet s k blocked since stage
  | .putting w stage => stretchPut s w stage
  | .deleting k now stage => stretchDelete s k now stage
  | .merging r stage => stretchMerge s r stage
  | task => (s, task)

/-! ## The condition -/

/-- What this call leaves as it loaded it, nobody else has changed since: of a row that will be
live its content, where that stays the same, and that it is live; of a row that stays deleted that
it is deleted. -/
def Landed (loaded new current : CallerMemory) : Prop :=
  if new.deletedAt.isSome then
    new.deletedAt = loaded.deletedAt → current.deletedAt.isSome = true
  else
    (new.content = loaded.content → current.content = loaded.content) ∧
      (loaded.deletedAt = none → current.deletedAt = none)

/-- A row that was not there still is not, and one that was is met as `Landed` says. -/
def Undisturbed (s : Node) (k : MemoryKey) (loaded : Option CallerMemory)
    (update : CallerMemory → CallerMemory) : Prop :=
  match loaded with
  | none => s.row k = none
  | some row => ∀ current, s.row k = some current → Landed row (update row) current

/-- What a stretch asks of the state it finds.
* `get` finds no entry of another pair under its Redis key.
* What it fills Redis with is not older than the last write of the pair that has returned.
* The commit of a `put` or a merge is `Undisturbed`.
* A merge that takes a row finds no entry of the pair in Redis, or one with the same content. -/
def Orderly (s : Node) : Task → Prop
  | .getting k _ _ .askRedis => ∀ e, s.redis (cacheKey k) = some e → e.key = k
  | .getting k blocked _ (.answer row) =>
    ∀ e, readRow row blocked = some e → some e.content ∈ (s.changes k).drop (s.settled k)
  | .putting w (.commit loaded) => Undisturbed s w.key loaded w.update
  | .merging r (.commit loaded) =>
    r.taken loaded = true → Undisturbed s r.key loaded r.write ∧
      ∀ e, s.redis (cacheKey r.key) = some e → e.key = r.key → r.liveContent = some e.content
  | _ => True

/-! ## Rows -/

/-- **What a commit leaves** is what the call means to leave, exactly if it `Landed`. -/
theorem liveContent_flush_iff {loaded new current : CallerMemory} :
    liveContent (some (flush loaded new current)) = liveContent (some new) ↔
      Landed loaded new current := by
  unfold Landed liveContent flush changed
  simp only [Option.bind_some]
  cases hnew : new.deletedAt with
  | some t =>
    by_cases hsame : some t = loaded.deletedAt
    · cases hcur : current.deletedAt with
      | none => simp [← hsame]
      | some t' => simp [← hsame]
    · simp [hsame]
  | none =>
    simp only [Option.isSome_none, Bool.false_eq_true, if_false]
    cases hloaded : loaded.deletedAt with
    | some t =>
      by_cases hcontent : new.content = loaded.content
      · simp [hcontent]
      · simp [hcontent]
    | none =>
      cases hcur : current.deletedAt with
      | some t => simp
      | none =>
        by_cases hcontent : new.content = loaded.content
        · simp [hcontent]
        · simp [hcontent]

end LlmProxy.Memory
