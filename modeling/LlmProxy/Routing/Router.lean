import LlmProxy.Lib.Result
import LlmProxy.Routing.Binding
import LlmProxy.Routing.Profile
import LlmProxy.Compliance.Policy

/-! # Selecting a provider

`select_provider` of `app/routing/router.py`: from the provider table to a route. The function
is one long pipeline; each paragraph of it is a definition here, in the source's order.

> pool:    enabled rows, at-capacity and node-local filters, utilisation order, pin,
>          compliance, exclusions, tenant, breakers, dead tokens, tools, types, chat models;
> model:   family filter and scanned-capability filter, each falling back across families;
> ranking: profiles, LMRH scores, tool-success weighting, the capability-fit gate;
> choice:  cheapest, `:nitro`, `:exacto`, or the best of two sampled from the top tier;
> binding: the litellm model and keyword arguments, and the route's disclosures.

Mirroring notes.
* What the function reads besides its arguments and the tables (breakers, metrics, clocks,
  the random sample, settings) is the `World`.
* `random.sample(xs, 2)` is any two distinct positions.
* A failed read of the utilisation snapshots is logged and ignored: `utilization = none`.
-/

namespace LlmProxy.Routing

open LlmProxy.Providers
open LlmProxy.Compliance
open LlmProxy.Cluster (Stamp ApiKey)
open Result

/-! ## Requests, world and results -/

/-- The arguments of `select_provider`. -/
structure RouteRequest where
  hint : Option LMRHHint := none
  hasTools : Bool := false
  hasImages : Bool := false
  keyType : String := "standard"
  pinnedProviderId : Option String := none
  modelOverride : Option String := none
  excludeProviderId : Option String := none
  excludeProviderIds : List String := []
  preferCheapest : Bool := false
  sortMode : Option String := none
  excludedProviderTypes : List String := []
  apiKeyId : Option String := none
  dryRun : Bool := false
  estInputTokens : Option Int := none
  requestedMaxTokens : Option Int := none
  blockedCompanies : Option (List String) := none
  deriving DecidableEq

structure Settings where
  cotEnabled : Bool := true
  utilBucketPct : Rat := 25
  nativeThinkingBudgetTokens : Int := 8192
  nativeReasoningEffort : String := "medium"
  deriving DecidableEq

/-- Two distinct positions of a list of length at least two. -/
abbrev Sampler := (n : Nat) → 2 ≤ n → { p : Fin n × Fin n // p.1 ≠ p.2 }

structure World where
  providers : List Provider
  keys : List ApiKey
  systemPolicy : Policy
  capabilities : List ModelCapability
  telemetry : Telemetry
  settings : Settings
  /-- this node's row of `provider_node_auth_state` -/
  authState : String → Option String
  /-- `get_utilization_map` -/
  utilization : Option (List (String × Rat))
  /-- `is_available` of the circuit breaker -/
  isAvailable : String → Bool
  peakEwma : String → Option Rat
  utcNow : Stamp
  unixNow : Rat
  /-- the `current_api_key_id` context variable -/
  currentApiKeyId : Option String
  sample : Sampler

inductive RoutingError where
  | runtime (message : String)
  | noSubstitute (e : ComplianceNoSubstituteError)
  | value (message : String)
  /-- HTTP 422: no candidate can see the images -/
  | noVision (skipped : List (String × String))
  | key (providerId : String)
  deriving DecidableEq, Repr

structure RouteResult where
  provider : Provider
  profile : CapabilityProfile
  litellmModel : String
  litellmKwargs : LitellmKwargs
  unmetHints : List String
  cotEngaged : Bool
  toolEmulationEngaged : Bool
  visionStripped : Bool
  capabilityHeader : String
  nativeThinkingParams : ThinkingParams := .none
  capabilitySkipped : List (String × String) := []
  crossFamilyFallback : Bool := false
  requestedModel : Option String := none
  servedModelNative : Option String := none
  complianceSubstituted : Bool := false
  complianceBlockedCompany : Option String := none
  complianceServedCompany : Option String := none
  deriving DecidableEq

/-- `dry_run` returns the ranked candidates with their providers, every other call a route. -/
inductive Selection where
  | quotes (candidates : List (Provider × Ranked))
  | route (r : RouteResult)
  deriving DecidableEq

/-! ## The candidate pool -/

/-- `SELECT … WHERE enabled ORDER BY priority`. -/
def enabledRows (w : World) : List Provider :=
  PyList.sortBy (fun a b => a.priority ≤ b.priority) (w.providers.filter (·.enabled))

/-- `is_currently_at_capacity`. -/
def isCurrentlyAtCapacity (now : Stamp) (p : Provider) : Bool :=
  p.autoSkipUntil.any fun skip => now < skip

/-- The row is tagged `node_local_session`. -/
def nodeLocalSession (p : Provider) : Bool :=
  (p.extraConfig.find? (·.1 = "node_local_session")).any (jsonTruthy ·.2)

/-- The per-node auth filter: a node-local session must be `ok` on this node. -/
def nodeRoutable (w : World) (p : Provider) : Bool :=
  !nodeLocalSession p || w.authState p.id = some "ok"

/-- `_utilization_bucket`. -/
def utilizationBucket (util : Option Rat) (bucketSizePct : Rat) : Int :=
  match util with
  | none => 999
  | some u => if u < 0 then 0 else max 0 (u / max bucketSizePct 1).floor

/-- Put the elements of `subset` at the positions `p` marks, in order. -/
def placeAt (p : Provider → Bool) : List Provider → List Provider → List Provider
  | [], _ => []
  | a :: l, subset =>
    if p a then
      match subset with
      | b :: rest => b :: placeAt p l rest
      | [] => a :: placeAt p l []
    else a :: placeAt p l subset

/-- `reorder_subscription_by_utilization`. -/
def reorderSubscriptionByUtilization (utilMap : List (String × Rat)) (bucketSizePct : Rat)
    (providerType : String) (providers : List Provider) : List Provider :=
  let ofType : Provider → Bool := fun p => p.providerType = providerType
  let bucket (p : Provider) : Int := utilizationBucket (utilMap.lookup p.id) bucketSizePct
  let subset := providers.filter ofType
  if subset.length < 2 then providers
  else
    placeAt ofType providers (PyList.sortBy (fun a b =>
      bucket a < bucket b || (bucket a = bucket b && a.priority ≤ b.priority)) subset)

/-- `reorder_claude_oauth_by_utilization`. -/
def reorderClaudeOauthByUtilization (utilMap : List (String × Rat)) (bucketSizePct : Rat)
    (providers : List Provider) : List Provider :=
  reorderSubscriptionByUtilization utilMap bucketSizePct "cursor-oauth"
    (reorderSubscriptionByUtilization utilMap bucketSizePct "claude-oauth" providers)

/-- The enabled rows that may be called now, in the order of their utilisation. -/
def usableRows (w : World) : List Provider :=
  let usable := ((enabledRows w).filter (!isCurrentlyAtCapacity w.utcNow ·)).filter (nodeRoutable w)
  match w.utilization with
  | some utilMap => reorderClaudeOauthByUtilization utilMap w.settings.utilBucketPct usable
  | none => usable

/-- The usable rows, or all enabled rows when none is usable. -/
def rotationPool (w : World) : Except RoutingError (List Provider) :=
  if (enabledRows w).isEmpty then .error (.runtime "No providers configured")
  else .ok (if (usableRows w).isEmpty then enabledRows w else usableRows w)

def pinStage (req : RouteRequest) (providers : List Provider) :
    Except RoutingError (List Provider) :=
  match truthy req.pinnedProviderId with
  | none => .ok providers
  | some id =>
    orRaise (providers.filter (·.id = id))
      (.runtime ("Aliased provider '" ++ id ++ "' is not enabled"))

/-- The compliance filter: a pre-resolved blocklist, or the policy of the key. -/
def complianceStage (w : World) (req : RouteRequest) (providers : List Provider) :
    Except RoutingError (List Provider) :=
  let filtered :=
    match req.blockedCompanies with
    | some blocklist => filterProviders providers blocklist
    | none =>
      match truthy req.apiKeyId with
      | none => .ok providers
      | some id =>
        filterProvidersV2 providers (getEffectivePolicy w.keys w.systemPolicy (some id))
          req.modelOverride
  match filtered with
  | .ok out => .ok out
  | .error e => .error (.noSubstitute e)

def excludeOne (req : RouteRequest) (providers : List Provider) :
    Except RoutingError (List Provider) :=
  match truthy req.excludeProviderId with
  | none => .ok providers
  | some id =>
    orRaise (providers.filter (·.id ≠ id))
      (.runtime "No backup provider available (only one provider)")

def excludeMany (req : RouteRequest) (providers : List Provider) :
    Except RoutingError (List Provider) :=
  if req.excludeProviderIds.isEmpty then .ok providers
  else
    orRaise (providers.filter fun p => !req.excludeProviderIds.contains p.id)
      (.runtime ("No provider available after excluding empty-failed candidates (" ++
        toString req.excludeProviderIds.length ++ " excluded)"))

/-- The key whose tenancy counts: the argument, or the context variable. -/
def effectiveKey (w : World) (req : RouteRequest) : Option String :=
  (truthy req.apiKeyId).orElse fun _ => w.currentApiKeyId

def accessible (key : Option String) (p : Provider) : Bool :=
  match truthy p.ownedByKeyId with
  | none => true
  | some owner => key = some owner

def tenantStage (w : World) (req : RouteRequest) (providers : List Provider) :
    Except RoutingError (List Provider) :=
  orRaise (providers.filter (accessible (effectiveKey w req)))
    (.runtime ("No accessible providers — every available provider is owned by " ++
      "a different key. Provision your own provider records or ask the operator to grant access."))

def availabilityStage (w : World) (providers : List Provider) :
    Except RoutingError (List Provider) :=
  orRaise (providers.filter fun p => w.isAvailable p.id)
    (.runtime "All providers are currently unavailable (circuit breakers open)")

/-- `_token_dead`: the OAuth token expired more than fifteen minutes ago. -/
def tokenDead (now : Rat) (p : Provider) : Bool :=
  p.oauthExpiresAt.any fun exp => exp ≠ 0 && decide ((exp : Rat) < now - 900)

def liveTokens (w : World) (providers : List Provider) : List Provider :=
  let live := providers.filter (!tokenDead w.unixNow ·)
  if live.isEmpty then providers else live

def toolStage (req : RouteRequest) (providers : List Provider) :
    Except RoutingError (List Provider) :=
  if req.hasTools then
    orRaise (providers.filter (!·.excludeFromToolRequests))
      (.runtime "No providers available for tool requests (all excluded)")
  else .ok providers

def setText (s : List String) : String :=
  if s.isEmpty then "None"
  else "\x7b" ++ PyStr.join ", " (s.map fun x => "'" ++ x ++ "'") ++ "\x7d"

def typeStage (req : RouteRequest) (providers : List Provider) :
    Except RoutingError (List Provider) :=
  orRaise (providers.filter fun p => !req.excludedProviderTypes.contains p.providerType)
    (.runtime ("No providers available after excluding types " ++
      setText req.excludedProviderTypes))

def chatDefault (p : Provider) : Bool := !isEmbeddingModel (p.defaultModel.getD "")

/-- Without a requested model, a provider whose default is an embedding model is dropped. -/
def chatStage (req : RouteRequest) (providers : List Provider) :
    Except RoutingError (List Provider) :=
  match truthy req.modelOverride with
  | some _ => .ok providers
  | none =>
    orRaise (providers.filter chatDefault)
      (.runtime ("No chat-capable providers available — every reachable provider has an " ++
        "embeddings-only default model. Specify ``model`` in the request body, or use " ++
        "POST /v1/embeddings for embedding calls."))

/-- The pool: every filter that looks at a provider and not at the served model. -/
def candidatePool (w : World) (req : RouteRequest) : Except RoutingError (List Provider) := do
  let providers ← rotationPool w
  let providers ← pinStage req providers
  let providers ← complianceStage w req providers
  let providers ← excludeOne req providers
  let providers ← excludeMany req providers
  let providers ← tenantStage w req providers
  let providers ← availabilityStage w providers
  let providers ← toolStage req (liveTokens w providers)
  let providers ← typeStage req providers
  chatStage req providers

/-! ## The model filters -/

/-- `_drop_own_dispatcher_types`: unless nothing would be left. -/
def dropOwnDispatcherTypes (providers : List Provider) : List Provider :=
  let filtered := providers.filter fun p => !ownDispatcherProviderTypes.contains p.providerType
  if filtered.isEmpty then providers else filtered

/-- The family filter; the flag says that the request fell back across families. -/
def familyStage (m : String) (providers : List Provider) : List Provider × Bool :=
  match modelFamilyProviderTypes m with
  | none => (providers, false)
  | some family =>
    let filtered := providers.filter fun p => family.contains p.providerType
    if filtered.isEmpty then (dropOwnDispatcherTypes providers, true) else (filtered, false)

/-- `_supports`: never scanned, or some scanned model answers to the name. -/
def supports (capabilities : List ModelCapability) (m : String) (p : Provider) : Bool :=
  let caps := capabilities.filter fun c => c.providerId = p.id
  caps.isEmpty || caps.any (matchesCapability m)

def capabilityStage (w : World) (m : String) (pool : List Provider × Bool) :
    List Provider × Bool :=
  let filtered := pool.1.filter (supports w.capabilities m)
  if !filtered.isEmpty then (filtered, pool.2)
  else if pool.2 then pool
  else (dropOwnDispatcherTypes pool.1, true)

/-- The candidates for the requested model and the cross-family flag. -/
def modelStage (w : World) (req : RouteRequest) (pool : List Provider) : List Provider × Bool :=
  match truthy req.modelOverride with
  | none => (pool, false)
  | some m => capabilityStage w m (familyStage m pool)

/-! ## Ranking -/

/-- The profile of a candidate, with the tier of the requested model where its family fits. -/
def candidateProfile (w : World) (req : RouteRequest) (p : Provider) : CapabilityProfile :=
  let profile := loadProfile w.telemetry w.capabilities p
  match truthy req.modelOverride with
  | none => profile
  | some m =>
    match requestedTier m with
    | none => profile
    | some tier =>
      if ((modelFamilyProviderTypes m).getD []).contains p.providerType then
        { profile with costTier := tier }
      else profile

def rankStage (w : World) (req : RouteRequest) (available : List Provider) :
    Except RoutingError (List Ranked) :=
  match rankCandidatesWithScores (available.map (candidateProfile w req)) req.hint with
  | .error message => .error (.value message)
  | .ok ranked =>
    orRaise ranked (.runtime
      "No providers satisfy the required routing constraints (LLM-Hint hard constraints)")

/-- A request with tools weighs the candidates by their tool success and ranks them again. -/
def toolWeightStage (req : RouteRequest) (ranked : List Ranked) :
    Except RoutingError (List Ranked) :=
  if req.hasTools then
    orRaise ((byScore (applyToolSuccessWeighting ranked)).filter (·.score ≠ .negInf)) (.runtime
      ("All candidates excluded by tool-call success weighting — every probe-tested provider " ++
        "has < 30% success on tool calls. Disable AI_TOOL_PROBER_ENABLED or lower the " ++
        "threshold to unblock."))
  else .ok ranked

/-- `needs_reasoning`: a Claude Code key or a `task=reasoning` hint. -/
def needsReasoning (w : World) (req : RouteRequest) : Bool :=
  w.settings.cotEnabled && (req.keyType = "claude-code" ||
    (req.hint.bind (·.get "task")).any (·.value = "reasoning"))

def misfit (req : RouteRequest) (t : Ranked) : Option String :=
  capabilityFit t.profile req.hasImages req.estInputTokens req.requestedMaxTokens

def skippedBy (req : RouteRequest) (ranked : List Ranked) : List (String × String) :=
  ranked.filterMap fun t => (misfit req t).map fun reason =>
    (if t.profile.providerName ≠ "" then t.profile.providerName else t.profile.providerId, reason)

/-- The capability-fit gate: keep the fitting candidates, all of them when none fits, and
refuse an image request that nobody can see. -/
def fitStage (req : RouteRequest) (ranked : List Ranked) :
    Except RoutingError (List Ranked) :=
  let kept := ranked.filter fun t => (misfit req t).isNone
  if req.hasImages && kept.isEmpty then .error (.noVision ((skippedBy req ranked).take 6))
  else .ok (if kept.isEmpty then ranked else kept)

/-! ## The choice -/

/-- `_COST_ORDER.get(tier, 1)`, ties by priority. -/
def cheaper (a b : Ranked) : Bool :=
  costRank a.profile.costTier < costRank b.profile.costTier ||
    (costRank a.profile.costTier = costRank b.profile.costTier &&
      a.profile.priority < b.profile.priority)

/-- `_nitro_key` compared: a measured provider before an unmeasured one, then speed, then
priority. -/
def faster (w : World) (a b : Ranked) : Bool :=
  match w.peakEwma a.profile.providerId, w.peakEwma b.profile.providerId with
  | some x, some y => x < y || (x = y && a.profile.priority < b.profile.priority)
  | some _, none => true
  | none, some _ => false
  | none, none => a.profile.priority < b.profile.priority

/-- `top - s < 1.0`. -/
def withinBand (top s : Score) : Bool :=
  match top, s with
  | .fin a, .fin b => a - b < 1
  | .negInf, .fin _ => true
  | _, .negInf => false

def topTier (best : Ranked) (ranked : List Ranked) : List Ranked :=
  ranked.filter fun t => withinBand best.score t.score

/-- Narrow the top tier to the lowest utilisation bucket. -/
def lowBucket (w : World) (tier : List Ranked) : List Ranked :=
  let utilMap := w.utilization.getD []
  let bucket (t : Ranked) : Int :=
    utilizationBucket (utilMap.lookup t.profile.providerId) w.settings.utilBucketPct
  if utilMap.isEmpty || tier.length < 2 then tier
  else match tier with
    | [] => []
    | t :: rest =>
      let least := bucket (PyList.minBy (fun a b => bucket a < bucket b) t rest)
      tier.filter fun u => bucket u = least

/-- Of two sampled candidates, the one with the lower PeakEWMA; priority when neither has one. -/
def betterOf (w : World) (c1 c2 : Ranked) : Ranked :=
  match w.peakEwma c1.profile.providerId, w.peakEwma c2.profile.providerId with
  | none, none => if c1.profile.priority ≤ c2.profile.priority then c1 else c2
  | none, some _ => c2
  | some _, none => c1
  | some e1, some e2 => if e1 ≤ e2 then c1 else c2

def sampleWinner (w : World) (best : Ranked) (tier : List Ranked) : Ranked :=
  if h : 2 ≤ tier.length then
    let pair := w.sample tier.length h
    betterOf w (tier.get pair.1.1) (tier.get pair.1.2)
  else tier.headD best

/-- The winner among `best :: rest`. -/
def chooseWinner (w : World) (req : RouteRequest) (best : Ranked) (rest : List Ranked) : Ranked :=
  let ranked := best :: rest
  if req.sortMode = some "nitro" then PyList.minBy (faster w) best rest
  else if req.sortMode = some "exacto" then
    match topTier best ranked with
    | [] => best
    | t :: tier => PyList.minBy (fun a b => a.profile.priority < b.profile.priority) t tier
  else sampleWinner w best (lowBucket w (topTier best ranked))

/-! ## Binding the route -/

/-- The disclosures of a substitution under a caller-supplied blocklist. -/
def complianceDisclosure (req : RouteRequest) (crossFamily : Bool) : Option String :=
  if crossFamily then
    (modelFamilyToCompany req.modelOverride).filter fun c =>
      (req.blockedCompanies.getD []).contains c
  else none

/-- The route of the cheapest candidate: the caller's model is kept. -/
def cheapestRoute (req : RouteRequest) (provider : Provider) (t : Ranked)
    (skipped : List (String × String)) : RouteResult where
  provider := provider
  profile := t.profile
  litellmModel := buildLitellmModel provider req.modelOverride
  litellmKwargs := buildLitellmKwargs provider
  unmetHints := t.unmet
  cotEngaged := false
  toolEmulationEngaged := false
  visionStripped := false
  capabilityHeader :=
    buildCapabilityHeader t.profile t.unmet false false (req.modelOverride.getD "") req.hint
  capabilitySkipped := skipped

/-- The route of the chosen candidate: a cross-family fallback drops the caller's model. -/
def boundRoute (w : World) (req : RouteRequest) (crossFamily : Bool) (provider : Provider)
    (t : Ranked) (skipped : List (String × String)) : RouteResult :=
  let cotEngaged := needsReasoning w req && !t.profile.nativeReasoning
  let effectiveOverride := if crossFamily then none else req.modelOverride
  let unmet := if crossFamily then t.unmet ++ ["model"] else t.unmet
  let litellmModel := buildLitellmModel provider effectiveOverride
  let toolEmulation := req.hasTools && !t.profile.nativeTools
  let header := buildCapabilityHeader t.profile unmet cotEngaged toolEmulation
    (req.modelOverride.getD "") req.hint
  let disclosed := complianceDisclosure req crossFamily
  { provider := provider
    profile := t.profile
    litellmModel := litellmModel
    litellmKwargs := buildLitellmKwargs provider
    unmetHints := unmet
    cotEngaged := cotEngaged
    toolEmulationEngaged := toolEmulation
    visionStripped := req.hasImages && !t.profile.nativeVision
    capabilityHeader :=
      if crossFamily then
        PyStr.replace header "chosen-because=score" "chosen-because=cross-family-fallback" ++
          ", requested-model=" ++ req.modelOverride.getD "" ++ ", served-model=" ++ litellmModel
      else header
    nativeThinkingParams :=
      if t.profile.nativeReasoning && !cotEngaged then
        nativeThinkingParams w.settings.nativeThinkingBudgetTokens
          w.settings.nativeReasoningEffort provider.providerType t.profile.modelId
      else .none
    capabilitySkipped := skipped
    crossFamilyFallback := crossFamily
    requestedModel := if crossFamily then req.modelOverride else none
    servedModelNative := if crossFamily then provider.defaultModel else none
    complianceSubstituted := disclosed.isSome
    complianceBlockedCompany := disclosed
    complianceServedCompany := disclosed.bind fun _ => providerTypeToCompany provider.providerType }

/-- `provider_map[id]`. -/
def providerOf (available : List Provider) (t : Ranked) : Except RoutingError Provider :=
  match available.find? (·.id = t.profile.providerId) with
  | some p => .ok p
  | none => .error (.key t.profile.providerId)

/-- The end of the pipeline: quotes, the cheapest route or the chosen one. -/
def bindStage (w : World) (req : RouteRequest) (available : List Provider) (crossFamily : Bool)
    (skipped : List (String × String)) (best : Ranked) (rest : List Ranked) :
    Except RoutingError Selection :=
  if req.dryRun then do
    let quotes ← (best :: rest).mapM fun t => (providerOf available t).map fun p => (p, t)
    .ok (.quotes quotes)
  else if req.preferCheapest || req.sortMode = some "floor" then do
    let t := PyList.minBy cheaper best rest
    let p ← providerOf available t
    .ok (.route (cheapestRoute req p t skipped))
  else do
    let t := chooseWinner w req best rest
    let p ← providerOf available t
    .ok (.route (boundRoute w req crossFamily p t skipped))

/-- `select_provider`. -/
def selectProvider (w : World) (req : RouteRequest) : Except RoutingError Selection := do
  let pool ← candidatePool w req
  let (available, crossFamily) := modelStage w req pool
  let ranked ← rankStage w req available
  let ranked ← toolWeightStage req ranked
  let kept ← fitStage req ranked
  match kept with
  -- not reached: ranking raises on an empty list, and the gate keeps one of a non-empty list
  | [] => .error (.value "list index out of range")
  | best :: rest => bindStage w req available crossFamily (skippedBy req ranked) best rest

end LlmProxy.Routing
