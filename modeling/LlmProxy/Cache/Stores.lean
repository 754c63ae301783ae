import LlmProxy.Cache.Decision
import LlmProxy.Dispatch.Handlers
import LlmProxy.Dispatch.Retry

/-! # What the semantic cache is given

The stores of the two chat endpoints. The decision is made for the model of the route, before
anything is sent; an answer is stored under it by

> the cheap-first cascade:  `try_cascade_dispatch`;
> the primary answer:       `dispatch_non_streaming` and its twin in `completions.py`;
> structured output:        `completions.py`;
> a stream at its end:      `_stream_anthropic` and `_stream_openai`.

Mirroring notes.
* A run is logged as its stores; the model that gave an answer is kept with it.
* What the calls meet is given for each place of a run and each attempt of its retry wrapper.
* A stream is what it comes to up to its first content, with the text it adds up to and whether
  it is read to its end.
* Webhooks, tool emulation and the reasoning pipeline store nothing.
-/

namespace LlmProxy.Cache

open LlmProxy.Providers
open LlmProxy.Routing
open LlmProxy.Dispatch
open LlmProxy.Streaming (Completion toAnthropicResponse)
open Logged

/-! ## Runs -/

/-- An answer text, the model that gave it and the messages it was given. -/
structure Answered where
  text : String
  model : String
  messages : List Json

structure Store where
  decision : CacheDecision
  answer : Answered

abbrev Caching := Logged Store Failure

inductive Place where
  | cheap
  | attempt (n : Nat)
  | plain
  | structured (n : Nat)
  | hedged
  | backup
  | guarded (n : Nat)
  deriving DecidableEq, Repr

inductive StreamEnd where
  /-- content, and whether the stream is read to its end -/
  | content (text : String) (finished : Bool)
  | empty
  | failed

/-- The parts of a request only the cache reads. -/
structure CacheParts where
  xCache : Option String := none
  xCacheTtl : Option String := none
  apiKeyOptIn : Bool := false
  temperature : Option Rat := none
  tools : Json := .null

structure CachingEnv where
  keys : KeyEnv
  settings : CacheSettings := {}
  cacheHit : Bool := false
  dispatch : DispatchEnv
  completion : Place → Nat → LitellmOutcome Completion
  stream : Place → Nat → LitellmOutcome StreamEnd
  /-- `json.dumps(schema, indent=2)` -/
  schemaText : String := ""
  /-- the dump of the valid object in a text, or the error of its validation -/
  validated : String → Except String String := .ok
  /-- `structured_output_max_repairs` -/
  maxRepairs : Int := 2
  hedgeBudget : Bool := false
  hedgeAcquired : Bool := false
  hedgeWorld : World
  primaryWins : Bool := true
  guardWorlds : Nat → World

/-- The arguments of `decide_cacheable`. -/
def question (req : ChatRequest) (parts : CacheParts) (route : RouteResult) : CacheQuestion where
  xCacheHeader := parts.xCache
  apiKeyOptIn := parts.apiKeyOptIn
  keyType := req.key.keyType
  cotEngaged := route.cotEngaged
  toolEmulation := route.toolEmulationEngaged
  hasTools := req.hasTools
  webhook := req.webhook
  temperature := parts.temperature
  messages := req.messages
  model := route.litellmModel
  tenantId := req.key.id
  system := if req.endpoint = .messages then req.parts.system else .null
  tools := parts.tools
  xCacheTtlHeader := parts.xCacheTtl

def noneHasNo (field : String) : Failure :=
  ⟨"AttributeError", "'NoneType' object has no attribute '" ++ field ++ "'"⟩

/-- `maybe_store`. -/
def maybeStore (settings : CacheSettings) (decision : CacheDecision) (answer : Answered) :
    Caching Unit :=
  if storable settings decision answer.text then perform ⟨decision, answer⟩ (.ok ()) else pure ()

/-- `result.choices[0].message.content or ""`. -/
def firstContent (result : Completion) : String :=
  (result.choices.head?.bind (·.content)).getD ""

section

variable (env : CachingEnv) (decision : CacheDecision)

/-! ## Cheap first -/

/-- The grader accepts the answer of the cheap route, or there is none. -/
def cheapAccepted (ctx : DispatchCtx) (cheap : RouteResult) (result : Completion) : Bool :=
  match result.choices, lastUserText ctx.messages with
  | choice :: _, some userText =>
    (cascadeVerdict env.dispatch.up (graderRoute ctx env.dispatch cheap) userText
      (choice.content.getD "")).result.toOption.getD false
  | _, _ => false

/-- The answer of the cheap route and its model, where it is accepted. -/
def cheapAnswer (ctx : DispatchCtx) : Option (Completion × String) :=
  match selectRoute env.dispatch.cheapWorld (cheapRequest ctx) with
  | .error _ => none
  | .ok cheap =>
    match answeredWithRetry (env.completion .cheap) cheap.litellmModel with
    | .ok (some (result, model)) =>
      if cheapAccepted env ctx cheap result then some (result, model) else none
    | _ => none

/-- `try_cascade_dispatch`; true once it has answered the request. -/
def cascadeStores (ctx : DispatchCtx) : Caching Bool :=
  match cheapAnswer env ctx with
  | none => pure false
  | some (result, model) => do
    maybeStore env.settings decision ⟨firstContent result, model, ctx.messages⟩
    pure true

/-! ## The primary answer -/

/-- `_call_with_route`, in the fallback chain. -/
def chainCompletion (n : Nat) (r : RouteResult) : Caching (Option (Completion × String)) :=
  lift (answeredWithRetry (env.completion (.attempt n)) r.litellmModel)

/-- The answer of the fallback chain, or of the one call without it. -/
def primaryCompletion (ctx : DispatchCtx) : Except Failure (Option (Completion × String)) :=
  if ctx.settings.fallbackEnabled then
    (tryRankedNonStreaming env.dispatch.fallbackWorlds (rankedArgs ctx) (chainCompletion env)
      ctx.route).result.map (·.1)
  else answeredWithRetry (env.completion .plain) ctx.route.litellmModel

/-- The primary answer of `/v1/messages` is encoded before it is stored. -/
def encodable (req : ChatRequest) (result : Completion) : Except Failure Unit :=
  if req.endpoint = .messages then
    ((toAnthropicResponse (env.dispatch.tokenHex .plain) result).mapError fun text =>
      ⟨"ValueError", text⟩).map fun _ => ()
  else .ok ()

def primaryStores (req : ChatRequest) (ctx : DispatchCtx) : Caching Unit := do
  match ← lift (primaryCompletion env ctx) with
  | none => raise (noneHasNo "usage")
  | some (result, model) => do
    lift (encodable env req result)
    maybeStore env.settings decision ⟨firstContent result, model, ctx.messages⟩

/-! ## Structured output -/

/-- `build_schema_system_prompt`. -/
def buildSchemaSystemPrompt (schemaText : String) : String :=
  "You MUST respond with a SINGLE JSON object that conforms to this schema.\n" ++
    "Do not wrap the JSON in markdown fences. Do not emit any prose before or after.\n" ++
    "Do not include fields not present in the schema unless they are explicitly allowed.\n\n" ++
    "Schema:\n" ++ String.ofList (schemaText.toList.take 2000)

/-- `build_repair_prompt`. -/
def buildRepairPrompt (previousOutput validationError : String) : String :=
  "Your previous response did NOT conform to the required JSON schema.\n" ++
    "Validation error: " ++ validationError ++ "\n\nYour previous output was:\n" ++
    String.ofList (previousOutput.toList.take 1500) ++
    "\n\nProduce a corrected JSON object that conforms to the schema. Again, " ++
    "emit ONLY the JSON — no fences, no prose."

/-- The loop of `call_with_schema`: `left` calls to go, the n-th next. The text to send and
store, of the first valid answer or the last one. -/
def callWithSchema (r : RouteResult) :
    Nat → Nat → List Json → Option Answered → Except Failure (Option Answered)
  | 0, _, _, last => .ok last
  | left + 1, n, working, _ =>
    match answeredWithRetry (env.completion (.structured n)) r.litellmModel with
    | .error exc => .error exc
    | .ok none => .error (noneHasNo "choices")
    | .ok (some (result, model)) =>
      if result.choices.isEmpty then .error ⟨"IndexError", "list index out of range"⟩
      else
        match env.validated (firstContent result) with
        | .ok dumped => .ok (some ⟨dumped, model, working⟩)
        | .error err =>
          callWithSchema r left (n + 1)
            (working ++ [message "assistant" (.str (firstContent result)),
              message "user" (.str (buildRepairPrompt (firstContent result) err))])
            (some ⟨firstContent result, model, working⟩)

def structuredStores (ctx : DispatchCtx) : Caching Unit := do
  let working := message "system" (.str (buildSchemaSystemPrompt env.schemaText)) :: ctx.messages
  match ← lift (callWithSchema env ctx.route (env.maxRepairs + 1).toNat 0 working none) with
  | none => pure ()
  | some answer => maybeStore env.settings decision answer

/-! ## Streams -/

/-- What a stream started for a route comes to, and the model it is of. -/
def opened (place : Place) (r : RouteResult) : StreamEnd × String :=
  match answeredWithRetry (env.stream place) r.litellmModel with
  | .ok (some answer) => answer
  | _ => (.failed, r.litellmModel)

def streamStores (messages : List Json) (served : StreamEnd × String) : Caching Unit :=
  match served.1 with
  | .content text true => maybeStore env.settings decision ⟨text, served.2, messages⟩
  | _ => pure ()

def brokenStream : Failure := ⟨"HTTPException", "Upstream error before streaming began"⟩

/-- The stream that wins the hedged race, where one is run. -/
def raceWinner (req : ChatRequest) (route : RouteResult) : Option (StreamEnd × String) :=
  if req.wantsHedge && env.hedgeBudget && env.hedgeAcquired then
    match selectRoute env.hedgeWorld (backupRequest req route) with
    | .error _ => none
    | .ok backup =>
      some (if env.primaryWins then opened env .hedged route else opened env .backup backup)
  else none

/-- The hedged race; true once it has answered the request. The backup has no decision. -/
def hedgeStores (req : ChatRequest) (route : RouteResult) : Caching Bool :=
  match raceWinner env req route with
  | none => pure false
  | some served =>
    match served.1 with
    | .failed => raise brokenStream
    | .empty => pure false
    | .content _ _ => do
      if env.primaryWins then streamStores env decision req.messages served else pure ()
      pure true

/-- `stream_with_empty_guard`: `left` attempts to go, the n-th next. Only the stream of the
request's own route, which comes first, has a decision. -/
def guardStores (req : ChatRequest) : Nat → Nat → List String → RouteResult → Caching Unit
  | 0, _, _, _ => raise emptyStreams
  | left + 1, n, emptyFailed, route =>
    let served := opened env (.guarded n) route
    match served.1 with
    | .failed => raise brokenStream
    | .content _ _ => if n = 0 then streamStores env decision req.messages served else pure ()
    | .empty =>
      let emptyFailed := route.provider.id :: emptyFailed
      if left = 0 then raise emptyStreams
      else
        match selectRoute (env.guardWorlds n) (guardRequest req emptyFailed) with
        | .error _ => raise emptyStreams
        | .ok next =>
          if emptyFailed.contains next.provider.id then raise emptyStreams
          else guardStores req left (n + 1) emptyFailed next

def streamingStores (req : ChatRequest) (route : RouteResult) : Caching Unit := do
  if ← hedgeStores env decision req route then pure ()
  else guardStores env decision req 3 0 [] route

/-! ## The endpoints -/

def messagesStores (req : ChatRequest) (ctx : DispatchCtx) : Caching Unit := do
  if ctx.doCascade && !ctx.hasTools && !ctx.route.cotEngaged then
    if ← cascadeStores env decision ctx then pure () else primaryStores env decision req ctx
  else primaryStores env decision req ctx

def completionsStores (req : ChatRequest) (ctx : DispatchCtx) : Caching Unit :=
  if req.settings.structuredOutputEnabled && !req.hasTools && req.hasSchema then
    structuredStores env decision ctx
  else primaryStores env decision req ctx

def servedStores (req : ChatRequest) (routed : Routed) : Caching Unit :=
  if decision.eligible && env.cacheHit then pure ()
  else if req.webhook then pure ()
  else if routed.route.toolEmulationEngaged then pure ()
  else if routed.route.cotEngaged then pure ()
  else if req.streams then streamingStores env decision req routed.route
  else
    match req.endpoint with
    | .messages => messagesStores env decision req (dispatchCtx req routed)
    | .completions => completionsStores env decision req (dispatchCtx req routed)

end

/-- The litellm path, from the decision of the cache on. -/
def stores (env : CachingEnv) (req : ChatRequest) (parts : CacheParts) (routed : Routed) :
    Caching Unit :=
  match decideCacheable env.keys env.settings (question req parts routed.route) with
  | none => raise ⟨"TypeError", ""⟩
  | some decision => servedStores env decision req routed

end LlmProxy.Cache
