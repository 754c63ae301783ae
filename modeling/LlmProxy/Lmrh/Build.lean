import LlmProxy.Lib.Newest
import LlmProxy.Lmrh.Snapshot

/-! # Building a snapshot

`_build_snapshot` of `app/routing/lmrh/snapshot.py`, with `_percentile` and
`_circuit_state_label`, `_infer_kind` of `app/api/models.py` and `derive_family` of
`app/routing/canonical.py`.

Mirroring notes.
* A row holds what the build reads of it; a number that is NULL is read as 0.
* A query that orders by nothing answers in the order of its table, and rows of one priority keep
  that order.
* `ProviderUsageWindow` has no column `session_reset_at`: `getattr` finds `None`.
* `get_state` is `circuit`: the state of the breaker of a provider, or `None` where it raises.
-/

namespace LlmProxy.Lmrh

open LlmProxy.Cluster (Stamp)

/-! ## The tables -/

structure Provider where
  id : String
  name : String
  providerType : String
  priority : Int := 10
  costClass : Option String := none
  enabled : Bool := true
  deletedAt : Option Stamp := none
  defaultModel : Option String := none
  usageTrackingEnabled : Bool := false
  ownedByKeyId : Option String := none
  deriving DecidableEq

structure ModelCapability where
  providerId : String
  modelId : String
  deletedAt : Option Stamp := none
  tasks : List String := []
  contextLength : Option Int := none
  nativeTools : Bool := true
  nativeReasoning : Bool := false
  regions : List String := []
  aliases : List String := []
  modelFamily : Option String := none
  modelVariant : Option String := none
  deriving DecidableEq

structure ProviderMetric where
  providerId : String
  bucketTs : Stamp
  requests : Int := 0
  successes : Int := 0
  failures : Int := 0
  totalTokens : Int := 0
  totalCostUsd : Rat := 0
  avgLatencyMs : Rat := 0
  avgTtftMs : Rat := 0
  ttftRequests : Int := 0
  inputCostUsd : Rat := 0
  outputCostUsd : Rat := 0
  inputTokens : Int := 0
  outputTokens : Int := 0
  deriving DecidableEq

structure ActivityLog where
  providerId : Option String
  eventType : String
  severity : String
  createdAt : Stamp
  deriving DecidableEq

structure ExternalUsageSnapshot where
  providerId : String
  capturedAt : Stamp
  sevenDayUtilization : Option Rat
  sevenDayResetsAt : Option Stamp
  deriving DecidableEq

structure ProviderUsageWindow where
  providerId : String
  sessionPct : Option Rat
  weeklyPct : Option Rat
  weeklyResetAt : Option Stamp
  deriving DecidableEq

structure Tables where
  providers : List Provider
  capabilities : List ModelCapability := []
  metrics : List ProviderMetric := []
  activity : List ActivityLog := []
  externalUsage : List ExternalUsageSnapshot := []
  usageWindows : List ProviderUsageWindow := []
  circuit : String → Option String := fun _ => none

/-- The rows of one provider in the tables beside `providers`. -/
structure ProviderRows where
  capabilities : List ModelCapability
  metrics : List ProviderMetric
  activity : List ActivityLog
  externalUsage : List ExternalUsageSnapshot
  usageWindow : Option ProviderUsageWindow
  circuit : Option String

def Tables.rowsOf (t : Tables) (id : String) : ProviderRows where
  capabilities := t.capabilities.filter (·.providerId = id)
  metrics := t.metrics.filter (·.providerId = id)
  activity := t.activity.filter (·.providerId = some id)
  externalUsage := t.externalUsage.filter (·.providerId = id)
  usageWindow := t.usageWindows.find? (·.providerId = id)
  circuit := t.circuit id

/-! ## One provider -/

/-- `_percentile`. -/
def percentile (pct : Rat) : List Rat → Option Rat
  | [] => none
  | [v] => some v
  | vals =>
    let rank := pct / 100 * ((vals.length - 1 : Nat) : Rat)
    let lo := ⌊rank⌋.toNat
    let hi := min (lo + 1) (vals.length - 1)
    let frac := rank - lo
    some (vals.getD lo 0 * (1 - frac) + vals.getD hi 0 * frac)

/-- `_circuit_state_label`. -/
def circuitStateLabel (state : Option String) : String :=
  let s := PyStr.lower (state.getD "")
  if ["open", "closed", "half-open", "half_open"].contains s then PyStr.replace s "_" "-"
  else "closed"

/-- `_infer_kind`. -/
def inferKind (modelId : String) : String :=
  let m := PyStr.searchLower modelId
  if ["text-embedding", "embed-", "/embed", "embedding-"].any (PyStr.contains m) then "embedding"
  else if ["dall-e", "stable-diffusion", "imagen", "midjourney", "/imag", "gpt-image"].any
      (PyStr.contains m) then "image"
  else if ["whisper", "tts-", "/tts", "voice-"].any (PyStr.contains m) then "audio"
  else "chat"

/-- `derive_family`. -/
def deriveFamily (modelId : String) : String :=
  if PyStr.containsChar modelId '/' then (PyStr.partition modelId '/').2 else modelId

/-- `SUBSCRIPTION_TIER_PROVIDER_TYPES`. -/
def subscriptionTierProviderTypes : List String :=
  ["ChatGPT-oauth-plan", "claude-oauth", "anthropic-oauth", "grok-web", "cursor-oauth"]

def Provider.isSubscription (p : Provider) : Bool :=
  p.costClass = some "subscription" ||
    (p.costClass = none && subscriptionTierProviderTypes.contains p.providerType)

/-- `a / b` where the denominator is a count, if there is anything to count. -/
def share (a b : Int) : Option Rat := if 0 < b then some ((a : Rat) / b) else none

/-- The aggregates of a provider, which each of its models shows. -/
structure Aggregates where
  costPer1mInput : Option Rat
  costPer1mOutput : Option Rat
  p50 : Option Rat
  p95 : Option Rat
  ttftP50 : Option Rat
  ttftP95 : Option Rat
  successRate : Option Rat
  totalReqs : Int
  probeSuccessRate : Option Rat
  probeSamples : Int

def sortedRats (vals : List Rat) : List Rat := PyList.sortBy (fun a b => decide (a ≤ b)) vals

def perMillion (cost : Rat) (tokens : Int) : Option Rat :=
  if 0 < tokens then some (cost / tokens * 1000000) else none

def aggregate (isSubscription : Bool) (metrics : List ProviderMetric) (probes : List ActivityLog) :
    Aggregates :=
  let latencies := sortedRats ((metrics.map (·.avgLatencyMs)).filter (· ≠ 0))
  let ttfts := sortedRats
    ((metrics.filter fun m => m.avgTtftMs ≠ 0 ∧ m.ttftRequests ≠ 0).map (·.avgTtftMs))
  let succ := (metrics.map (·.successes)).sum
  let fail := (metrics.map (·.failures)).sum
  let probeSucc : Int := probes.countP (·.severity = "info")
  let probeSamples : Int := probes.length
  let costIn :=
    (perMillion (metrics.map (·.inputCostUsd)).sum (metrics.map (·.inputTokens)).sum).or
      (perMillion (metrics.map (·.totalCostUsd)).sum (metrics.map (·.totalTokens)).sum)
  let costOut :=
    (perMillion (metrics.map (·.outputCostUsd)).sum (metrics.map (·.outputTokens)).sum).or costIn
  { costPer1mInput := if isSubscription then none else costIn
    costPer1mOutput := if isSubscription then none else costOut
    p50 := percentile 50 latencies
    p95 := percentile 95 latencies
    ttftP50 := percentile 50 ttfts
    ttftP95 := percentile 95 ttfts
    successRate := share succ (succ + fail)
    totalReqs := (metrics.map (·.requests)).sum
    probeSuccessRate := share probeSucc probeSamples
    probeSamples }

/-- `_ModelSnap(…)` of a capability row. -/
def modelSnap (a : Aggregates) (c : ModelCapability) : ModelSnap where
  modelId := c.modelId
  kind := c.tasks.head?.getD (inferKind c.modelId)
  contextLength := c.contextLength
  nativeTools := c.nativeTools
  nativeReasoning := c.nativeReasoning
  costPer1mInputUsd := a.costPer1mInput
  costPer1mOutputUsd := a.costPer1mOutput
  ratedQuotaPer1mInputUsd := none
  latencyP50Ms := a.p50
  latencyP95Ms := a.p95
  ttftP50Ms := a.ttftP50
  ttftP95Ms := a.ttftP95
  successRate := a.successRate
  samples := a.totalReqs
  probeSuccessRate := a.probeSuccessRate
  probeSamples := a.probeSamples
  aliases := c.aliases
  family := some (match c.modelFamily with
    | some family => if family = "" then deriveFamily c.modelId else family
    | none => deriveFamily c.modelId)
  variant := c.modelVariant

/-- The capability row a provider without any is shown with. -/
def defaultCapability (providerId model : String) : ModelCapability :=
  { providerId, modelId := model, nativeTools := false }

/-- The models of a provider: its capability rows, or its default model. -/
def modelSnaps (p : Provider) (a : Aggregates) (caps : List ModelCapability) : List ModelSnap :=
  match caps, p.defaultModel with
  | [], some model => if model = "" then [] else [modelSnap a (defaultCapability p.id model)]
  | caps, _ => caps.map (modelSnap a)

/-- The latest external view of the weekly window, where it is fresh. -/
def externalUsage (now : Stamp) (p : Provider) (rows : List ExternalUsageSnapshot) :
    Option (Rat × Option String) :=
  if p.isSubscription ∧ p.providerType = "claude-oauth" then
    match Newest.newest (·.capturedAt) (rows.filter (·.sevenDayUtilization.isSome)) with
    | none => none
    | some latest =>
      if now - latest.capturedAt < 8 * 3600 * 1000000 then
        latest.sevenDayUtilization.map fun used =>
          (used, latest.sevenDayResetsAt.map (PyFormat.isoformat · ++ "+00:00"))
      else none
  else none

def subscriptionQuota (p : Provider) (external : Option (Rat × Option String))
    (window : Option ProviderUsageWindow) : Option SubQuota :=
  let tracked := if p.isSubscription && p.usageTrackingEnabled then window else none
  match tracked with
  | some w =>
    some
      { sessionUsedPct := w.sessionPct
        weeklyUsedPct := (external.map Prod.fst).or w.weeklyPct
        sessionResetsAt := none
        weeklyResetsAt := (external.bind Prod.snd).or (w.weeklyResetAt.map PyFormat.isoformat) }
  | none =>
    if p.isSubscription then
      external.map fun e =>
        { sessionUsedPct := none, weeklyUsedPct := some e.1, sessionResetsAt := none,
          weeklyResetsAt := e.2 }
    else none

/-- `_ProviderSnap(…)`, from the rows of the provider alone. -/
def providerSnap (now : Stamp) (windowSec : Int) (p : Provider) (rows : ProviderRows) :
    ProviderSnap :=
  let cutoff := now - windowSec * 1000000
  let caps := rows.capabilities.filter (·.deletedAt = none)
  let metrics := rows.metrics.filter (cutoff ≤ ·.bucketTs)
  let probes := rows.activity.filter fun l => l.eventType = "keepalive_probe" ∧ cutoff ≤ l.createdAt
  { id := p.id
    name := p.name
    type := p.providerType
    priority := p.priority
    costClass := if p.isSubscription then "subscription" else "per_call"
    circuit := circuitStateLabel rows.circuit
    regions := (caps.head?.map (·.regions)).getD []
    ownedByKeyId := p.ownedByKeyId
    models := modelSnaps p (aggregate p.isSubscription metrics probes) caps
    subscriptionQuota :=
      subscriptionQuota p (externalUsage now p rows.externalUsage) rows.usageWindow }

/-! ## The snapshot -/

/-- `DEFAULT_WINDOW_SEC`. -/
def defaultWindowSec : Int := 3600

/-- The enabled providers that are not deleted, by priority. -/
def servedProviders (providers : List Provider) : List Provider :=
  PyList.sortBy (fun a b => decide (a.priority ≤ b.priority))
    (providers.filter fun p => p.enabled ∧ p.deletedAt = none)

/-- `_build_snapshot`. -/
def buildSnapshot (now : Stamp) (t : Tables) : LmrhSnapshot where
  asOf := now
  windowSec := defaultWindowSec
  providers :=
    (servedProviders t.providers).map fun p => providerSnap now defaultWindowSec p (t.rowsOf p.id)

theorem servedProviders_filter (keep : Provider → Bool) (providers : List Provider) :
    (servedProviders providers).filter keep = servedProviders (providers.filter keep) := by
  have htotal : ∀ a b : Provider, decide (a.priority ≤ b.priority) = true ∨
      decide (b.priority ≤ a.priority) = true := by
    intro a b
    simpa using Int.le_total a.priority b.priority
  have htrans : ∀ a b c : Provider, decide (a.priority ≤ b.priority) = true →
      decide (b.priority ≤ c.priority) = true → decide (a.priority ≤ c.priority) = true := by
    intro a b c hab hbc
    simp only [decide_eq_true_eq] at hab hbc ⊢
    omega
  rw [servedProviders, PyList.filter_sortBy htotal htrans, List.filter_filter, servedProviders,
    List.filter_filter]
  exact congrArg _ (List.filter_congr fun p _ => Bool.and_comm _ _)

theorem mem_servedProviders {providers : List Provider} {p : Provider}
    (h : p ∈ servedProviders providers) : p ∈ providers :=
  List.mem_of_mem_filter (PyList.mem_sortBy.mp h)

end LlmProxy.Lmrh
