import Mathlib.Algebra.Field.Rat
import Mathlib.Data.List.Nodup
import LlmProxy.Cluster.Stamp
import LlmProxy.Lib.Interleaving
import LlmProxy.Lib.RollingMean
import LlmProxy.Lib.Session

/-! # Provider metrics

`record_request` of `app/monitoring/metrics.py`: the upsert of a provider's five-minute bucket and
the cumulative columns of the caller's key, in a session of its own, cut at the select and at the
commit.

Mirroring notes.
* Costs, latencies and means are exact rationals. Stamps are microseconds, and the floor that of
  UTC.
* A flush writes the columns of the loaded row that got another value, to the row of its id. The
  columns of the key are incremented by the database.
* Beside the tables stands the log of the calls that have committed, which no code reads.
-/

namespace LlmProxy.Monitoring

open LlmProxy.Cluster (Stamp)
open Interleaving

/-- `_bucket`. -/
def bucket (dt : Stamp) : Stamp := dt - dt % 300000000

structure ProviderMetric where
  id : Nat
  providerId : String
  bucketTs : Stamp
  requests : Nat
  successes : Nat
  failures : Nat
  totalTokens : Int
  totalCostUsd : Rat
  inputCostUsd : Option Rat
  outputCostUsd : Option Rat
  inputTokens : Option Int
  outputTokens : Option Int
  avgLatencyMs : Rat
  avgTtftMs : Option Rat
  ttftRequests : Option Nat
  circuitState : String
  deriving DecidableEq

structure KeyTotals where
  id : String
  totalTokens : Int := 0
  totalCostUsd : Rat := 0
  deriving DecidableEq

/-- The arguments of `record_request`, with the time and the state of the provider's breaker. -/
structure Recording where
  providerId : String
  success : Bool
  inputTokens : Int
  outputTokens : Int
  latencyMs : Rat
  costUsd : Rat
  apiKeyId : Option String := none
  ttftMs : Rat := 0
  isProbe : Bool := false
  costSplit : Option (Rat × Rat) := none
  now : Stamp
  circuitState : String := "closed"
  deriving DecidableEq

/-- The cost of each direction: the caller's split, or one by the share of the tokens. -/
def Recording.costs (c : Recording) : Rat × Rat :=
  match c.costSplit with
  | some split => split
  | none =>
    let totalTok : Int := max (c.inputTokens + c.outputTokens) 1
    (c.costUsd * (c.inputTokens / totalTok), c.costUsd * (c.outputTokens / totalTok))

/-- `ttft_ms > 0 and success`. -/
def Recording.timed (c : Recording) : Bool := decide (0 < c.ttftMs) && c.success

structure Db where
  metrics : List ProviderMetric := []
  nextId : Nat := 1
  keys : List KeyTotals := []
  recorded : List Recording := []
  deriving DecidableEq

def Db.rows (s : Db) (providerId : String) (b : Stamp) : List ProviderMetric :=
  s.metrics.filter fun m => m.providerId = providerId && m.bucketTs = b

/-! ## The upsert -/

def updated (m : ProviderMetric) (c : Recording) : ProviderMetric :=
  let requests := m.requests + 1
  let n := m.ttftRequests.getD 0 + 1
  { m with
    requests := requests
    successes := m.successes + if c.success then 1 else 0
    failures := m.failures + if c.success then 0 else 1
    totalTokens := m.totalTokens + (c.inputTokens + c.outputTokens)
    totalCostUsd := m.totalCostUsd + c.costUsd
    inputCostUsd := some (m.inputCostUsd.getD 0 + c.costs.1)
    outputCostUsd := some (m.outputCostUsd.getD 0 + c.costs.2)
    inputTokens := some (m.inputTokens.getD 0 + c.inputTokens)
    outputTokens := some (m.outputTokens.getD 0 + c.outputTokens)
    avgLatencyMs :=
      if requests > 0 then (m.avgLatencyMs * (requests - 1) + c.latencyMs) / requests
      else m.avgLatencyMs
    avgTtftMs :=
      if c.timed then some ((m.avgTtftMs.getD 0 * (n - 1) + c.ttftMs) / n) else m.avgTtftMs
    ttftRequests := if c.timed then some n else m.ttftRequests
    circuitState := c.circuitState }

def inserted (id : Nat) (c : Recording) : ProviderMetric where
  id := id
  providerId := c.providerId
  bucketTs := bucket c.now
  requests := 1
  successes := if c.success then 1 else 0
  failures := if c.success then 0 else 1
  totalTokens := c.inputTokens + c.outputTokens
  totalCostUsd := c.costUsd
  inputCostUsd := some c.costs.1
  outputCostUsd := some c.costs.2
  inputTokens := some c.inputTokens
  outputTokens := some c.outputTokens
  avgLatencyMs := c.latencyMs
  avgTtftMs := some (if c.ttftMs > 0 then c.ttftMs else 0)
  ttftRequests := some (if c.timed then 1 else 0)
  circuitState := c.circuitState

def flush (loaded new current : ProviderMetric) : ProviderMetric :=
  { current with
    requests := Session.column loaded.requests new.requests current.requests
    successes := Session.column loaded.successes new.successes current.successes
    failures := Session.column loaded.failures new.failures current.failures
    totalTokens := Session.column loaded.totalTokens new.totalTokens current.totalTokens
    totalCostUsd := Session.column loaded.totalCostUsd new.totalCostUsd current.totalCostUsd
    inputCostUsd := Session.column loaded.inputCostUsd new.inputCostUsd current.inputCostUsd
    outputCostUsd := Session.column loaded.outputCostUsd new.outputCostUsd current.outputCostUsd
    inputTokens := Session.column loaded.inputTokens new.inputTokens current.inputTokens
    outputTokens := Session.column loaded.outputTokens new.outputTokens current.outputTokens
    avgLatencyMs := Session.column loaded.avgLatencyMs new.avgLatencyMs current.avgLatencyMs
    avgTtftMs := Session.column loaded.avgTtftMs new.avgTtftMs current.avgTtftMs
    ttftRequests := Session.column loaded.ttftRequests new.ttftRequests current.ttftRequests
    circuitState := Session.column loaded.circuitState new.circuitState current.circuitState }

/-- The `UPDATE` of the key's columns. -/
def creditKeys (c : Recording) (keys : List KeyTotals) : List KeyTotals :=
  match c.apiKeyId with
  | none => keys
  | some keyId =>
    if keyId ≠ "" ∧ c.success = true then
      keys.map fun k =>
        if k.id = keyId then
          { k with
            totalTokens := k.totalTokens + c.inputTokens + c.outputTokens
            totalCostUsd := k.totalCostUsd + c.costUsd }
        else k
    else keys

/-! ## One stretch -/

/-- A call before its select, behind it, and at its end. -/
inductive Task where
  | called (c : Recording)
  | selected (c : Recording) (metric : Option ProviderMetric)
  | done
  | raised
  deriving DecidableEq

def start (_ : Db) (c : Recording) : Task := .called c

def Db.upsert (s : Db) (c : Recording) : Option ProviderMetric → Db
  | some m =>
    { s with
      metrics := s.metrics.map fun r => if r.id = m.id then flush m (updated m c) r else r }
  | none => { s with metrics := s.metrics ++ [inserted s.nextId c], nextId := s.nextId + 1 }

def Db.commit (s : Db) (c : Recording) (metric : Option ProviderMetric) : Db :=
  { s.upsert c metric with
    keys := creditKeys c s.keys
    recorded := s.recorded ++ [c] }

/-- `scalar_one_or_none` raises at two rows. -/
def next (s : Db) : Task → Db × Task
  | .called c =>
    if c.isProbe then (s, .done)
    else match s.rows c.providerId (bucket c.now) with
      | [] => (s, .selected c none)
      | [m] => (s, .selected c (some m))
      | _ :: _ :: _ => (s, .raised)
  | .selected c metric => (s.commit c metric, .done)
  | t => (s, t)

end LlmProxy.Monitoring
