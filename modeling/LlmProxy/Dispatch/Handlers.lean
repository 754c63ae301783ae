import LlmProxy.Dispatch.NonStreaming

/-! # The two chat endpoints

The routing of `/v1/messages` (`app/api/messages.py`) and `/v1/chat/completions`
(`app/api/completions.py`): every provider selection a request makes and every provider its
content is sent to.

> approach: the primary selection, the walk past providers that cannot take tool blocks, the
>           claude-oauth chain or another dispatcher of the route's own;
> settle:   the grok-web bridge and the failover behind it;
> serve:    webhook, tool emulation, reasoning with a critique route, a stream with a hedge and
>           an empty-stream guard, or a completion with its fallbacks.

Mirroring notes.
* A run is logged as the list of routes content is sent to, with the stage that sends it.
* `fuel` bounds the two walks the source leaves unbounded. A run that is cut there has sent
  what it has sent; every finished run is one with enough fuel.
* Where a set of ids is iterated, `setOrder` is the order, any order.
* What a provider does with the content is its outcome, given by the environment. The vision
  transcriber, context compression, memory flushes and shadow traffic choose no route and are
  left out.
* The heartbeat stream calls its route only: its call of `maybe_cascade_on_refusal` leaves out
  three required arguments, and the exception is swallowed.
-/

namespace LlmProxy.Dispatch

open LlmProxy.Providers
open LlmProxy.Routing
open Logged

/-! ## Requests -/

inductive Endpoint where
  | messages
  | completions
  deriving DecidableEq, Repr

structure HandlerSettings extends DispatchSettings where
  hedgeEnabled : Bool := true
  cotCrossProviderCritique : Bool := true
  structuredOutputEnabled : Bool := true
  deriving DecidableEq

structure ChatRequest where
  endpoint : Endpoint
  key : ApiKeyRecord
  hint : Option LMRHHint := none
  /-- the hint of the primary selection, with a logical alias layered in -/
  primaryHint : Option LMRHHint := none
  hasTools : Bool := false
  hasImages : Bool := false
  /-- `has_anthropic_tool_content` -/
  hasToolBlocks : Bool := false
  stream : Bool := false
  /-- `body["model"]` without its suffix, `parsed_slug.bare_model` -/
  model : String := ""
  /-- `parsed_slug.sort_mode` -/
  sortMode : Option String := none
  /-- the row of `model_aliases` for the model -/
  aliasRow : Option ModelAlias := none
  estInputTokens : Option Int := none
  requestedMaxTokens : Option Int := none
  xHedge : Option String := none
  /-- an `X-Webhook-URL` is given -/
  webhook : Bool := false
  hasSchema : Bool := false
  xCotCascade : Option String := none
  proxyToolsInjected : Bool := false
  parts : RequestParts := {}
  messages : List Json := []
  settings : HandlerSettings := {}

/-- `LOGICAL_ALIASES`. -/
def logicalAliases : List String :=
  ["coordinator-code", "coordinator-fast", "coordinator-reasoning", "coordinator-local"]

/-- `is_logical_alias`. -/
def isLogicalAlias (model : Option String) : Bool := model.any logicalAliases.contains

/-- `is_auto_model`. -/
def ChatRequest.isAuto (req : ChatRequest) : Bool :=
  ["auto", "llmp-auto"].contains (PyStr.lower req.model)

/-- The alias is looked up unless the model is chosen automatically. -/
def ChatRequest.modelAlias (req : ChatRequest) : Option ModelAlias :=
  if req.isAuto then none else req.aliasRow

def ChatRequest.requestedModel (req : ChatRequest) : Option String :=
  truthy (some (match req.modelAlias with
    | some a => a.modelId
    | none => req.model))

def ChatRequest.logical (req : ChatRequest) : Bool :=
  req.modelAlias.isNone && isLogicalAlias req.requestedModel

/-- The model the primary selection asks for: a logical alias is none. -/
def ChatRequest.primaryModel (req : ChatRequest) : Option String :=
  if req.logical then none else req.requestedModel

/-- `detect_buffered_cascade_mode`: a streamed request of a key with the refusal cascade is
answered whole. -/
def ChatRequest.buffered (req : ChatRequest) : Bool :=
  req.endpoint = .messages && req.stream && req.key.refusalRetryEnabled

def ChatRequest.heartbeat (req : ChatRequest) : Bool :=
  req.buffered && req.key.refusalRetryStreamingHeartbeat

def ChatRequest.streams (req : ChatRequest) : Bool := req.stream && !req.buffered

/-! ## Runs -/

inductive Stage where
  | heartbeat
  | ownDispatcher
  | oauth
  | grokWeb
  | webhook
  | emulation
  | reasoning
  | critique
  | hedged
  | backup
  | guarded (n : Nat)
  | structured
  | call (site : Site)
  deriving DecidableEq, Repr

structure Sent where
  stage : Stage
  route : RouteResult

abbrev Handling := Logged Sent Failure

def send (stage : Stage) (r : RouteResult) : Handling Unit := perform ⟨stage, r⟩ (.ok ())

/-- The exception a failed selection ends the request with. -/
def selectionFailure : RoutingError → Failure
  | .runtime text => ⟨"RuntimeError", text⟩
  | .noSubstitute _ => ⟨"ComplianceNoSubstituteError", "All candidates blocked by policy"⟩
  | .value text => ⟨"ValueError", text⟩
  | .noVision _ => ⟨"HTTPException", "422: no candidate supports images"⟩
  | .key id => ⟨"KeyError", id⟩

/-- A run the fuel does not reach the end of. -/
def unfinished : Failure := ⟨"", "unfinished"⟩

/-- How a call through the claude-oauth dispatcher ends. -/
inductive OauthOutcome where
  | answered
  | status (code : Nat)
  | networkError
  | emptyCompletion
  deriving DecidableEq, Repr

structure ApproachEnv where
  primaryWorld : World
  walkWorlds : Nat → Nat → World
  oauthWorlds : Nat → Nat → World
  oauthOutcome : Nat → OauthOutcome
  setOrder : List String → List String
  setOrder_perm : ∀ ids, (setOrder ids).Perm ids
  fuel : Nat

/-! ## Approaching a route -/

/-- `SELF_HOSTED_PROVIDER_TYPES`. -/
def selfHostedProviderTypes : List String := ["ollama", "vllm", "llamacpp", "lmstudio", "localai"]

/-- `is_self_hosted_provider`. -/
def isSelfHostedProvider (p : Provider) : Bool :=
  selfHostedProviderTypes.contains p.providerType ||
    (["openai-compatible", "compatible", "custom"].contains p.providerType &&
      p.extraConfig.lookup "self_hosted" = some "true") ||
    p.ownerCompany.any ["internal", "local", "self-hosted"].contains

def primaryRequest (req : ChatRequest) : RouteRequest where
  hint := req.primaryHint
  hasTools := req.hasTools
  hasImages := req.hasImages
  keyType := req.key.keyType
  pinnedProviderId := req.modelAlias.bind (·.providerId)
  modelOverride := req.primaryModel
  sortMode := req.sortMode
  apiKeyId := some req.key.id
  estInputTokens := req.estInputTokens
  requestedMaxTokens := req.requestedMaxTokens

@[simp] theorem primaryRequest_modelOverride (req : ChatRequest) :
    (primaryRequest req).modelOverride = req.primaryModel := rfl

@[simp] theorem primaryRequest_pinnedProviderId (req : ChatRequest) :
    (primaryRequest req).pinnedProviderId = req.modelAlias.bind (·.providerId) := rfl

/-- `select_provider_with_503`. -/
def selectProviderWith503 (w : World) (req : ChatRequest) : Except Failure RouteResult :=
  if req.requestedModel = some "coordinator-local" &&
      !w.providers.any (fun p => p.enabled && !p.deleted && isSelfHostedProvider p) then
    .error ⟨"ComplianceNoLocalProviderError",
      "coordinator-local requested but no self-hosted provider configured"⟩
  else (selectRoute w (primaryRequest req)).mapError selectionFailure

/-- The arguments `_select_excluding` is called with. -/
def walkRequest (req : ChatRequest) : RouteRequest where
  hint := req.hint
  hasTools := req.hasTools
  hasImages := req.hasImages
  keyType := req.key.keyType
  apiKeyId := some req.key.id

/-- `_select_excluding`: twenty selections at most, each around one of the excluded ids. -/
def selectExcluding (worlds : Nat → World) (setOrder : List String → List String)
    (req : RouteRequest) (excluded : List String) : Nat → Nat → Except Failure RouteResult
  | 0, _ => .error ⟨"RuntimeError", "All providers tried"⟩
  | left + 1, n =>
    match selectRoute (worlds n) { req with excludeProviderId := (setOrder excluded).head? } with
    | .error e => .error (selectionFailure e)
    | .ok r =>
      if excluded.contains r.provider.id then
        selectExcluding worlds setOrder req excluded left (n + 1)
      else .ok r

/-- `_openai_shape_providers` and `_anthropic_types`: the types that take tool blocks. -/
def toolBlockTypes : List String :=
  ["openai", "openrouter", "grok", "grok-bridge", "grok-web", "groq", "mistral", "perplexity",
    "ollama", "deepseek", "fireworks", "compatible", "cursor-oauth", "anthropic", "claude-oauth"]

def untranslatable (r : RouteResult) : Bool :=
  r.crossFamilyFallback && !toolBlockTypes.contains r.profile.providerType

/-- The walk past the providers that cannot take tool blocks. Each pass excludes the provider it
stands on. -/
def toolWalk (req : ChatRequest) (env : ApproachEnv) :
    Nat → Nat → RouteResult → Except Failure RouteResult
  | 0, _, _ => .error unfinished
  | fuel + 1, n, route =>
    if req.hasToolBlocks && untranslatable route then
      match selectExcluding (env.walkWorlds n) env.setOrder (walkRequest req)
          [route.provider.id] 20 0 with
      | .error _ => .error ⟨"HTTPException",
          "503: Cross-family fallback to a non-translatable upstream for a tool-using Anthropic " ++
            "request."⟩
      | .ok next => toolWalk req env fuel (n + 1) next
    else .ok route

/-- `resolve_auto_model_into_body` and the cross-family rewrite: the model of the body from here
on. -/
def resolveBodyModel (req : ChatRequest) (r : RouteResult) : Except Failure (Option String) :=
  let resolved : Except Failure (Option String) :=
    if req.isAuto || isLogicalAlias (some req.model) then
      match (truthy (some r.profile.modelId)).orElse fun _ => truthy r.provider.defaultModel with
      | some model => .ok (some model)
      | none => .error ⟨"HTTPException", "502: routing chose a provider with no default_model set"⟩
    else .ok (some req.model)
  resolved.map fun model =>
    match truthy r.servedModelNative with
    | some native => if r.crossFamilyFallback then some native else model
    | none => model

/-- The next provider of the claude-oauth chain is tried. -/
def oauthFailsOver (req : ChatRequest) (outcome : OauthOutcome) : Bool :=
  !req.streams && req.settings.fallbackEnabled &&
    match outcome with
    | .answered => false
    | .status code => code = 401 || code = 403
    | .networkError => true
    | .emptyCompletion => true

/-- `dispatch_claude_oauth_chain`: nothing once the request is served, or the first route of
another type. -/
def oauthChain (req : ChatRequest) (env : ApproachEnv) :
    Nat → Nat → List String → RouteResult → Handling (Option RouteResult)
  | 0, _, _, _ => raise unfinished
  | fuel + 1, n, tried, route =>
    if route.provider.providerType ≠ "claude-oauth" then pure (some route)
    else do
      send .oauth route
      let tried := route.provider.id :: tried
      if oauthFailsOver req (env.oauthOutcome n) then
        match selectExcluding (env.oauthWorlds n) env.setOrder (walkRequest req) tried 20 0 with
        | .error _ => raise ⟨"HTTPException", "Claude OAuth upstream"⟩
        | .ok next => oauthChain req env fuel (n + 1) tried next
      else
        match env.oauthOutcome n with
        | .status _ => raise ⟨"HTTPException", "Claude OAuth upstream"⟩
        | .networkError => raise ⟨"HTTPException", "502: Claude OAuth upstream"⟩
        | _ => pure none

/-- Where a request stands before the litellm path: the route `extra` was built for, the route
to call and the model of the body. -/
structure Routed where
  first : RouteResult
  route : RouteResult
  model : Option String

def approachMessages (req : ChatRequest) (env : ApproachEnv) : Handling (Option Routed) := do
  let primary ← lift (selectProviderWith503 env.primaryWorld req)
  let first ← lift (toolWalk req env env.fuel 0 primary)
  let model ← lift (resolveBodyModel req first)
  if req.heartbeat then do
    send .heartbeat first
    pure none
  else do
    let chained ← oauthChain req env env.fuel 0 [] first
    pure (chained.map fun route => ⟨first, route, model⟩)

def approachCompletions (req : ChatRequest) (env : ApproachEnv) : Handling (Option Routed) := do
  let first ← lift (selectProviderWith503 env.primaryWorld req)
  let model ← lift (resolveBodyModel req first)
  if oauthTypes.contains first.provider.providerType then do
    send .ownDispatcher first
    pure none
  else pure (some ⟨first, first, model⟩)

def approach (req : ChatRequest) (env : ApproachEnv) : Handling (Option Routed) :=
  match req.endpoint with
  | .messages => approachMessages req env
  | .completions => approachCompletions req env

/-! ## The grok-web bridge -/

def grokRequest (req : ChatRequest) (routed : Routed) : RouteRequest where
  hint := req.hint
  hasTools := req.endpoint = .messages && req.hasToolBlocks
  keyType := if req.key.keyType = "" then "standard" else req.key.keyType
  modelOverride := routed.model
  excludeProviderId := some routed.route.provider.id
  excludedProviderTypes := ownDispatcherProviderTypes

/-- The route failed over to: the caller's model where the provider serves it, else the
provider's own. -/
def failoverRoute (model : Option String) (r : RouteResult) : RouteResult :=
  if failoverPreservesModel r.provider model then
    { r with
      crossFamilyFallback := false
      servedModelNative := none
      litellmModel := buildLitellmModel r.provider model }
  else
    { r with
      crossFamilyFallback := true
      litellmModel := buildLitellmModel r.provider none }

structure RoutingEnv where
  approach : ApproachEnv
  grokAnswers : Bool
  grokWorld : World

/-- `dispatch_grok_web_with_failover` and its twin in `messages.py`. -/
def dispatchGrokWeb (req : ChatRequest) (env : RoutingEnv) (routed : Routed) :
    Handling (Option Routed) :=
  if routed.route.provider.providerType ≠ "grok-web" then pure (some routed)
  else do
    send .grokWeb routed.route
    if env.grokAnswers then pure none
    else
      match selectRoute env.grokWorld (grokRequest req routed) with
      | .error e => raise (selectionFailure e)
      | .ok r =>
        if r.provider.providerType = "grok-web" then
          raise ⟨"HTTPException", "502: grok-web upstream failed and no alternative provider " ++
            "is available for the requested model."⟩
        else pure (some { routed with route := failoverRoute routed.model r })

theorem dispatchGrokWeb_failover {req : ChatRequest} {env : RoutingEnv} {routed : Routed}
    {r : RouteResult} (hgrok : routed.route.provider.providerType = "grok-web")
    (hfails : env.grokAnswers = false)
    (hselect : selectRoute env.grokWorld (grokRequest req routed) = .ok r)
    (hr : r.provider.providerType ≠ "grok-web") :
    (dispatchGrokWeb req env routed).result =
      .ok (some { routed with route := failoverRoute routed.model r }) := by
  unfold dispatchGrokWeb
  rw [if_neg (not_not.mpr hgrok), result_bind (a := ()) rfl, hfails, hselect]
  dsimp only
  rw [if_neg Bool.false_ne_true, if_neg hr]
  rfl

/-- Up to the litellm path; nothing where the request is served before it. -/
def settle (req : ChatRequest) (env : RoutingEnv) : Handling (Option Routed) := do
  match ← approach req env.approach with
  | none => pure none
  | some routed => dispatchGrokWeb req env routed

/-! ## Serving a route -/

/-- How a stream ends up to its first content. -/
inductive StreamOutcome where
  | content
  | empty
  | failed
  deriving DecidableEq, Repr

structure ServeEnv where
  cacheHit : Bool
  critiqueWorld : World
  critiquePasses : Bool
  /-- `wait_budget_ms` knows the provider's latency -/
  hedgeBudget : Bool
  /-- `try_acquire_hedge` -/
  hedgeAcquired : Bool
  hedgeWorld : World
  /-- the primary stream is late or fails, and the race starts the backup -/
  backupStarts : Bool
  hedgeOutcome : StreamOutcome
  guardWorlds : Nat → World
  guardOutcome : Nat → StreamOutcome
  answers : Nat → Bool
  dispatch : DispatchEnv

/-- The selection of the critique route: it is not told the key. -/
def critiqueRequest (req : ChatRequest) (route : RouteResult) : RouteRequest where
  hint := req.hint
  keyType := req.key.keyType
  excludeProviderId := some route.provider.id
  excludedProviderTypes := ["claude-oauth"]

/-- `maybe_engage_cot`, for a route it engages on. -/
def engageCot (req : ChatRequest) (env : ServeEnv) (route : RouteResult) : Handling Unit :=
  if !req.streams then raise ⟨"HTTPException", "422: CoT-E requires stream=true"⟩
  else do
    send .reasoning route
    if req.settings.cotCrossProviderCritique then
      match selectRoute env.critiqueWorld (critiqueRequest req route) with
      | .error _ => pure ()
      | .ok critique => if env.critiquePasses then send .critique critique else pure ()
    else pure ()

/-- `should_hedge_header`. -/
def shouldHedgeHeader (hedgeHeader lmrhHedge : Option String) : Bool :=
  hedgeHeader.any (fun h => ["on", "true", "1"].contains (PyStr.lower h)) ||
    lmrhHedge.any (fun h => PyStr.lower h = "on")

def ChatRequest.wantsHedge (req : ChatRequest) : Bool :=
  req.settings.hedgeEnabled &&
    shouldHedgeHeader req.xHedge ((req.hint.bind (·.get "hedge")).map (·.value))

/-- The selection of the hedge backup: it is not told the key. -/
def backupRequest (req : ChatRequest) (route : RouteResult) : RouteRequest where
  hint := req.hint
  hasTools := req.hasTools
  hasImages := req.hasImages
  keyType := req.key.keyType
  excludeProviderId := some route.provider.id
  excludedProviderTypes := ["claude-oauth"]

/-- The race starts the backup unless the primary stream is there in time. -/
def startBackup (env : ServeEnv) (backup : RouteResult) : Handling Unit :=
  if env.backupStarts then send .backup backup else pure ()

/-- The hedged race; true once it has answered the request. -/
def hedge (req : ChatRequest) (env : ServeEnv) (route : RouteResult) : Handling Bool :=
  if req.wantsHedge && env.hedgeBudget && env.hedgeAcquired then
    match selectRoute env.hedgeWorld (backupRequest req route) with
    | .error _ => pure false
    | .ok backup => do
      send .hedged route
      startBackup env backup
      match env.hedgeOutcome with
      | .failed => raise ⟨"HTTPException", "Upstream error before streaming began"⟩
      | .content => pure true
      | .empty => pure false
  else pure false

def guardRequest (req : ChatRequest) (emptyFailed : List String) : RouteRequest where
  hint := req.hint
  hasTools := req.hasTools
  hasImages := req.hasImages
  keyType := req.key.keyType
  modelOverride := if req.isAuto || req.logical then none else req.requestedModel
  excludeProviderIds := emptyFailed
  excludedProviderTypes := ["claude-oauth", "grok-web", "ChatGPT-oauth-plan"]
  apiKeyId := some req.key.id

def emptyStreams : Failure :=
  ⟨"HTTPException", "502: upstream: empty-success failure (streaming upstream produced no content)"⟩

/-- `stream_with_empty_guard`: `left` attempts to go, the n-th next. -/
def streamWithEmptyGuard (req : ChatRequest) (env : ServeEnv) :
    Nat → Nat → List String → RouteResult → Handling Unit
  | 0, _, _, _ => raise emptyStreams
  | left + 1, n, emptyFailed, route => do
    send (.guarded n) route
    match env.guardOutcome n with
    | .failed => raise ⟨"HTTPException", "Upstream error before streaming began"⟩
    | .content => pure ()
    | .empty =>
      let emptyFailed := route.provider.id :: emptyFailed
      if left = 0 then raise emptyStreams
      else
        match selectRoute (env.guardWorlds n) (guardRequest req emptyFailed) with
        | .error _ => raise emptyStreams
        | .ok next =>
          if emptyFailed.contains next.provider.id then raise emptyStreams
          else streamWithEmptyGuard req env left (n + 1) emptyFailed next

/-- `dispatch_streaming` and its twin in `completions.py`. -/
def dispatchStreaming (req : ChatRequest) (env : ServeEnv) (route : RouteResult) :
    Handling Unit := do
  if ← hedge req env route then pure ()
  else streamWithEmptyGuard req env 3 0 [] route

/-- The `MessagesDispatchCtx` of a request that has come to `routed`. -/
def dispatchCtx (req : ChatRequest) (routed : Routed) : DispatchCtx where
  route := routed.route
  extra := swapCredentials (buildExtra req.parts routed.first) routed.route
  own := rfl
  parts := req.parts
  messages := req.messages
  hint := req.hint
  hasTools := req.hasTools
  hasImages := req.hasImages
  key := req.key
  modelAlias := req.modelAlias
  xCotCascade := req.xCotCascade
  proxyToolsInjected := req.proxyToolsInjected
  settings := req.settings.toDispatchSettings

@[simp] theorem dispatchCtx_modelAlias (req : ChatRequest) (routed : Routed) :
    (dispatchCtx req routed).modelAlias = req.modelAlias := rfl

def Call.toSent (call : Call) : Sent := ⟨.call call.site, call.route⟩

/-- The calls of the ranked chain of `/v1/chat/completions`. -/
def chainCall (env : ServeEnv) (n : Nat) (r : RouteResult) : Handling Unit :=
  perform ⟨.call (.attempt n), r⟩
    (if env.answers n then .ok () else .error ⟨"APIError", "unavailable"⟩)

/-- The non-streaming arm of `/v1/chat/completions`. -/
def completeOpenai (req : ChatRequest) (env : ServeEnv) (routed : Routed) : Handling Unit :=
  if req.settings.structuredOutputEnabled && !req.hasTools && req.hasSchema then
    send .structured routed.route
  else if req.settings.fallbackEnabled then do
    let _ ← tryRankedNonStreaming env.dispatch.fallbackWorlds (rankedArgs (dispatchCtx req routed))
      (chainCall env) routed.route
    pure ()
  else send (.call .plain) routed.route

def completeAnthropic (req : ChatRequest) (env : ServeEnv) (routed : Routed) : Handling Unit := do
  let _ ← mapLog Call.toSent (dispatchNonStreaming (dispatchCtx req routed) env.dispatch)
  pure ()

def serve (req : ChatRequest) (env : ServeEnv) (routed : Routed) : Handling Unit :=
  if env.cacheHit then pure ()
  else if req.webhook then send .webhook routed.route
  else if routed.route.toolEmulationEngaged then send .emulation routed.route
  else if routed.route.cotEngaged then engageCot req env routed.route
  else if req.streams then dispatchStreaming req env routed.route
  else
    match req.endpoint with
    | .messages => completeAnthropic req env routed
    | .completions => completeOpenai req env routed

section

variable {req : ChatRequest} {env : ServeEnv} {routed : Routed}

theorem serve_streaming (hcache : env.cacheHit = false) (hwebhook : req.webhook = false)
    (htools : routed.route.toolEmulationEngaged = false)
    (hcot : routed.route.cotEngaged = false) (hstreams : req.streams = true) :
    serve req env routed = dispatchStreaming req env routed.route := by
  simp only [serve, hcache, hwebhook, htools, hcot, hstreams, Bool.false_eq_true, if_false, if_true]

theorem serve_messages (hcache : env.cacheHit = false) (hwebhook : req.webhook = false)
    (htools : routed.route.toolEmulationEngaged = false)
    (hcot : routed.route.cotEngaged = false) (hstreams : req.streams = false)
    (hendpoint : req.endpoint = .messages) :
    serve req env routed = completeAnthropic req env routed := by
  simp only [serve, hcache, hwebhook, htools, hcot, hstreams, hendpoint, Bool.false_eq_true,
    if_false]

end

structure HandlerEnv where
  routing : RoutingEnv
  serving : ServeEnv

def handle (req : ChatRequest) (env : HandlerEnv) : Handling Unit :=
  if isEmbeddingModel req.model then
    raise ⟨"HTTPException", "400: Model is an embeddings model. Use POST /v1/embeddings instead."⟩
  else do
    match ← settle req env.routing with
    | none => pure ()
    | some routed => serve req env.serving routed

end LlmProxy.Dispatch
