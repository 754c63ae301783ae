import LlmProxy.Dispatch.Fallback
import LlmProxy.Dispatch.Refusal

/-! # The non-streaming arm of `/v1/messages`

`dispatch_non_streaming` of `app/api/_messages_nonstream_dispatch.py`, with the cheap-first
cascade of `_messages_dispatch.try_cascade_dispatch` and `app/routing/cascade.py`:

> cheap:    on request, the cheapest provider answers and another one grades the answer;
> primary:  the route of the request, with the fallback chain behind it;
> hops:     a call of a proxy tool is run and the model called again, three times at most;
> refusal:  a refused answer sends the request to other providers.

Mirroring notes.
* `DispatchCtx` is `MessagesDispatchCtx` as the handler fills it: `extra` holds the credentials
  of `route`, which the handler's two later changes of the route swap with it.
* What a run reads besides is the `DispatchEnv`: the world of each selection, the answer to each
  call, the proxy tools.
* Headers, activity rows, metrics, the semantic cache, memory writes and shadow traffic leave
  the calls of a run alone and are left out, and so is the encoding of the reply.

Main result: `dispatchNonStreaming_calls` — the list of the calls a run can make, with the
selection each route comes from and the owner of the credentials. What holds of all calls is
read off it case by case.
-/

namespace LlmProxy.Dispatch

open LlmProxy.Providers
open LlmProxy.Routing
open LlmProxy.OAuth
open LlmProxy.Streaming (Completion Block Response toAnthropicResponse)
open Logged

/-- `ModelAlias`. -/
structure ModelAlias where
  providerId : Option String
  modelId : String
  deriving DecidableEq

structure DispatchSettings extends FanoutSettings where
  fallbackEnabled : Bool := true
  fallbackMaxProviders : Int := 3
  deriving DecidableEq

/-- `MessagesDispatchCtx`. -/
structure DispatchCtx where
  route : RouteResult
  extra : CallKwargs
  /-- the handler builds `extra` for the route it hands over -/
  own : extra.credentials = route.litellmKwargs
  parts : RequestParts := {}
  messages : List Json := []
  hint : Option LMRHHint := none
  hasTools : Bool := false
  hasImages : Bool := false
  key : ApiKeyRecord
  modelAlias : Option ModelAlias := none
  xCotCascade : Option String := none
  proxyToolsInjected : Bool := false
  settings : DispatchSettings := {}

structure DispatchEnv where
  up : Upstream
  cheapWorld : World
  graderWorld : World
  fallbackWorlds : Nat → World
  refusalWorlds : Nat → World
  /-- the names of the registered proxy tools, at the n-th hop -/
  registry : Nat → List String
  runTool : Nat → String → Json → String
  /-- `secrets.token_hex`, in the conversion of an answer -/
  tokenHex : Site → Nat → String
  isalnum : Char → Bool

/-- `to_anthropic_response` in a run. -/
def convert (tokenHex : Nat → String) (result : Completion) : Run Response :=
  lift ((toAnthropicResponse tokenHex result).mapError fun message => ⟨"ValueError", message⟩)

theorem convert_of_ok {tokenHex : Nat → String} {result : Completion} {response : Response}
    (h : toAnthropicResponse tokenHex result = .ok response) :
    (convert tokenHex result).result = .ok response := by
  unfold convert
  rw [h]
  rfl

/-! ## Cheap first -/

/-- `cascade_requested`. -/
def cascadeRequested (lmrhCascade xCascadeHeader : Option String) : Bool :=
  PyStr.lower (lmrhCascade.getD "") = "auto" ||
    ["on", "true", "1", "auto"].contains (PyStr.lower (xCascadeHeader.getD ""))

def DispatchCtx.doCascade (ctx : DispatchCtx) : Bool :=
  cascadeRequested ((ctx.hint.bind (·.get "cascade")).map (·.value)) ctx.xCotCascade

/-- `GRADER_SYSTEM`. -/
def graderSystem : String :=
  "You are an automated acceptance grader. Given a user question and a " ++
    "candidate answer, decide whether the answer is acceptable to return to " ++
    "the user as-is. Be strict: reject if the answer is factually wrong, " ++
    "incomplete, off-topic, or dodges the question.\n\n" ++
    "Reply with ONLY a JSON object, no prose, no markdown fences:\n" ++
    "\x7b\"acceptable\": true|false, \"reason\": \"short sentence\"\x7d\n" ++
    "Max 80 tokens. Output MUST be valid JSON."

/-- What stands before the last occurrence of `sub`. -/
def beforeLast (sub : List Char) : List Char → Option (List Char)
  | [] => none
  | c :: cs =>
    match beforeLast sub cs with
    | some before => some (c :: before)
    | none => if sub.isPrefixOf (c :: cs) then some [] else none

def stripFence (text : String) : String :=
  let body (skip : Nat) : String :=
    let cs := text.toList.drop skip
    PyStr.strip (String.ofList ((beforeLast "```".toList cs).getD cs))
  if PyStr.startsWith text "```json" then body 7
  else if PyStr.startsWith text "```" then body 3
  else text

def braced (cs : List Char) : Option (List Char) :=
  (beforeLast ['}'] (cs.dropWhile (· ≠ '{'))).map (· ++ ['}'])

/-- `parse_verdict`, the verdict without its reason. -/
def parseVerdict (text : String) : Bool :=
  let cleaned := stripFence (PyStr.strip text)
  let lower := PyStr.lower cleaned
  match (braced cleaned.toList).bind Json.parse with
  | some verdict => ((verdict.get? "acceptable").map Json.truthy).getD false
  | none =>
    PyStr.contains lower "\"acceptable\": true" || PyStr.contains lower "\"acceptable\":true" ||
      (PyStr.contains lower "acceptable: true" && !PyStr.contains lower "false")

def message (role : String) (content : Json) : Json :=
  .obj [("role", .str role), ("content", content)]

/-- `grade_answer`: a failed grader rejects. -/
def gradeAnswer (up : Upstream) (grader : RouteResult) (userText candidateAnswer : String) :
    Run Bool := do
  let question := "Question:\n" ++ userText ++ "\n\nCandidate answer:\n" ++ candidateAnswer
  let outcome ← attempt (acompletionWithRetry up .grader grader
    [message "system" (.str graderSystem), message "user" (.str question)]
    { credentials := grader.litellmKwargs, maxTokens := 100 })
  match outcome with
  | .ok answer =>
    match answer.choices with
    | choice :: _ => pure (parseVerdict (choice.content.getD ""))
    | [] => pure false
  | .error _ => pure false

/-- The texts of a message's text blocks; `none` where one is no string. -/
def blockTexts (blocks : List Json) : Option (List String) :=
  (blocks.filter fun b => match b.get? "type" with
    | some (.str type) => type = "text"
    | _ => false).mapM fun b => match b.get? "text" with
    | none => some ""
    | some (.str text) => some text
    | some _ => none

def lastUserText (messages : List Json) : Option String :=
  match messages.reverse.find? fun m => match m.get? "role" with
      | some (.str role) => role = "user"
      | _ => false with
  | none => some ""
  | some turn =>
    match turn.get? "content" with
    | some (.str text) => some text
    | some (.arr blocks) => (blockTexts blocks).map (PyStr.join "\n")
    | _ => some ""

def cheapRequest (ctx : DispatchCtx) : RouteRequest where
  hint := ctx.hint
  hasImages := ctx.hasImages
  keyType := ctx.key.keyType
  preferCheapest := true
  excludedProviderTypes := ["claude-oauth"]
  apiKeyId := some ctx.key.id

/-- The grader is the request's own route, or another cheap one when that route is the cheap
one. -/
def graderRoute (ctx : DispatchCtx) (env : DispatchEnv) (cheap : RouteResult) :
    Option RouteResult :=
  if ctx.route.provider.id ≠ cheap.provider.id then some ctx.route
  else
    (selectRoute env.graderWorld
      { cheapRequest ctx with excludeProviderId := some cheap.provider.id }).toOption

/-- The verdict on a cheap answer; without a grader it is accepted. -/
def cascadeVerdict (up : Upstream) (grader : Option RouteResult) (userText answer : String) :
    Run Bool :=
  match grader with
  | none => pure true
  | some grader => gradeAnswer up grader userText answer

/-- `try_cascade_dispatch`: an accepted cheap answer, or nothing. -/
def tryCascadeDispatch (ctx : DispatchCtx) (env : DispatchEnv) : Run (Option Served) :=
  match selectRoute env.cheapWorld (cheapRequest ctx) with
  | .error _ => pure none
  | .ok cheap => do
    let outcome ← attempt
      (callWithRoute env.up ctx.settings.toFanoutSettings ctx.parts ctx.messages .cheap cheap)
    match outcome with
    | .error _ => pure none
    | .ok result =>
      match result.choices, lastUserText ctx.messages with
      | choice :: _, some userText => do
        let acceptable ← cascadeVerdict env.up (graderRoute ctx env cheap) userText
          (choice.content.getD "")
        match acceptable, toAnthropicResponse (env.tokenHex .cheap) result with
        | true, .ok response => pure (some ⟨cheap, result, response⟩)
        | _, _ => pure none
      | _, _ => pure none

/-! ## The primary answer -/

/-- What the fallback chain of the request selects with: the tenant's key is not part of it. -/
def rankedArgs (ctx : DispatchCtx) : RankedArgs where
  request :=
    { hint := ctx.hint
      hasTools := ctx.hasTools
      hasImages := ctx.hasImages
      keyType := ctx.key.keyType
      modelOverride := ctx.modelAlias.map (·.modelId) }
  pinnedProviderId := ctx.modelAlias.bind (·.providerId)
  maxProviders := ctx.settings.fallbackMaxProviders

@[simp] theorem rankedArgs_modelOverride (ctx : DispatchCtx) :
    (rankedArgs ctx).request.modelOverride = ctx.modelAlias.map (·.modelId) := rfl

@[simp] theorem rankedArgs_pinnedProviderId (ctx : DispatchCtx) :
    (rankedArgs ctx).pinnedProviderId = ctx.modelAlias.bind (·.providerId) := rfl

def primaryAnswer (ctx : DispatchCtx) (env : DispatchEnv) : Run (Completion × RouteResult) :=
  if ctx.settings.fallbackEnabled then do
    let ranked ← tryRankedNonStreaming env.fallbackWorlds (rankedArgs ctx)
      (fun n r => callWithRoute env.up ctx.settings.toFanoutSettings ctx.parts ctx.messages
        (.attempt n) r) ctx.route
    let finalRoute := ranked.2.1
    let chain := ranked.2.2
    -- a chain of one attempt ended on the request's own route
    pure (ranked.1, if 1 < chain.length then finalRoute else ctx.route)
  else do
    let result ← acompletionWithRetry env.up .plain ctx.route ctx.messages ctx.extra
    pure (result, ctx.route)

/-! ## Proxy-tool hops -/

def blockJson : Block → Json
  | .text text => .obj [("type", .str "text"), ("text", .str text)]
  | .toolUse id name input =>
    .obj [("type", .str "tool_use"), ("id", .str id), ("name", .str name), ("input", input)]

/-- `find_proxy_tool_use_async`: name, input and id of the first use of a registered tool. -/
def findProxyToolUse (registry : List String) : List Block → Option (String × Json × String)
  | [] => none
  | .toolUse id name input :: rest =>
    if registry.contains name then some (name, if input.truthy then input else .obj [], id)
    else findProxyToolUse registry rest
  | .text _ :: rest => findProxyToolUse registry rest

/-- `build_tool_result_message`. -/
def buildToolResultMessage (toolUseId output : String) : Json :=
  message "user" (.arr [.obj [("type", .str "tool_result"), ("tool_use_id", .str toolUseId),
    ("content", .str output)]])

/-- The hops: `left` to go, the n-th next. Every hop calls the route the answer is put down to,
with the keyword arguments of the request. -/
def hopFrom (ctx : DispatchCtx) (env : DispatchEnv) :
    Nat → Nat → List Json → Served → Run (List Json × Served)
  | 0, _, messages, served => pure (messages, served)
  | left + 1, n, messages, served =>
    match findProxyToolUse (env.registry n) served.anthropic.content with
    | none => pure (messages, served)
    | some (tool, input, toolUseId) => do
      let messages := messages ++
        [message "assistant" (.arr (served.anthropic.content.map blockJson)),
          buildToolResultMessage toolUseId (env.runTool n tool input)]
      let result ← acompletionWithRetry env.up (.hop n) served.route messages ctx.extra
      let response ← convert (env.tokenHex (.hop n)) result
      hopFrom ctx env left (n + 1) messages ⟨served.route, result, response⟩

def proxyHops (ctx : DispatchCtx) (env : DispatchEnv) (served : Served) :
    Run (List Json × Served) :=
  if ctx.proxyToolsInjected then hopFrom ctx env 3 0 ctx.messages served
  else pure (ctx.messages, served)

/-! ## The whole arm -/

/-- `_cascade_dispatch`: the model of the other route, the keyword arguments of the request. -/
def cascadeDispatch (ctx : DispatchCtx) (env : DispatchEnv) (messages : List Json) (n : Nat)
    (alt : RouteResult) : Run Completion :=
  let system := if ctx.parts.system.truthy then some ctx.parts.system else ctx.extra.system
  acompletionWithRetry env.up (.refusal n) alt messages { ctx.extra with system := system }

def cascadeEnv (env : DispatchEnv) : CascadeEnv where
  worlds := env.refusalWorlds
  isalnum := env.isalnum
  tokenHex := fun n => env.tokenHex (.refusal n)

def refusalCascade (ctx : DispatchCtx) (env : DispatchEnv) (messages : List Json)
    (served : Served) : Run CascadeResult :=
  maybeCascadeOnRefusal (cascadeEnv env) ctx.key (cascadeRequest ctx.hint ctx.hasImages ctx.key)
    (cascadeDispatch ctx env messages) served

/-- `_is_empty_completion`. -/
def isEmptyCompletion (response : Response) : Bool :=
  response.content.all (fun block => match block with
    | .text text => PyStr.strip text = ""
    | .toolUse _ _ _ => false) && response.outputTokens = 0

inductive Reply where
  /-- a cheap answer the grader accepted -/
  | accepted (served : Served)
  | answered (served : Served)
  /-- HTTP 502: upstream provider returned an empty completion -/
  | emptyCompletion (served : Served)

def answerRequest (ctx : DispatchCtx) (env : DispatchEnv) : Run Reply := do
  let answer ← primaryAnswer ctx env
  let response ← convert (env.tokenHex .plain) answer.1
  let hopped ← proxyHops ctx env ⟨answer.2, answer.1, response⟩
  let cascade ← refusalCascade ctx env hopped.1 hopped.2
  pure (if isEmptyCompletion cascade.final.anthropic then .emptyCompletion cascade.final
    else .answered cascade.final)

/-- `dispatch_non_streaming`. -/
def dispatchNonStreaming (ctx : DispatchCtx) (env : DispatchEnv) : Run Reply :=
  if ctx.doCascade && !ctx.hasTools && !ctx.route.cotEngaged then do
    match ← tryCascadeDispatch ctx env with
    | some served => pure (.accepted served)
    | none => answerRequest ctx env
  else answerRequest ctx env

/-! ## The calls of a run -/

section

variable (ctx : DispatchCtx) (env : DispatchEnv)

/-- The routes of the fallback chain: the request's own, unless it is passed over, and those
handed over behind it. -/
inductive ChainRoute : RouteResult → Prop where
  | own (through : isOauthRoute ctx.route = false) : ChainRoute ctx.route
  | next (n : Nat) (ids : List String) {r : RouteResult} (tried : ctx.route.provider.id ∈ ids)
      (room : isOauthRoute ctx.route = true ∨ 2 ≤ ctx.settings.fallbackMaxProviders)
      (handed : nextRoute (env.fallbackWorlds n) (rankedArgs ctx) ids = .ok r) : ChainRoute r

inductive AnswerRoute : RouteResult → Prop where
  | plain (off : ctx.settings.fallbackEnabled = false) : AnswerRoute ctx.route
  | ranked {r : RouteResult} (on : ctx.settings.fallbackEnabled = true)
      (chain : ChainRoute ctx env r) : AnswerRoute r

/-- **The calls a run can make**: where the route of each comes from, and whose credentials it
carries. -/
inductive CallMade (call : Call) : Prop where
  | cheap (select : selectRoute env.cheapWorld (cheapRequest ctx) = .ok call.route)
      (own : OwnCredentials env.up call.route call.kwargs.credentials)
  | grader (cheap : RouteResult) (chosen : graderRoute ctx env cheap = some call.route)
      (own : OwnCredentials env.up call.route call.kwargs.credentials)
  | answer (route : AnswerRoute ctx env call.route)
      (own : OwnCredentials env.up call.route call.kwargs.credentials)
  | hop (injected : ctx.proxyToolsInjected = true) (route : AnswerRoute ctx env call.route)
      (extra : call.kwargs.credentials = ctx.extra.credentials)
  | refusal (on : ctx.key.refusalRetryEnabled = true) (s : RouteResult)
      (answered : AnswerRoute ctx env s) (n : Nat) (ids : List String)
      (tried : s.provider.id ∈ ids)
      (select : selectRoute (env.refusalWorlds n)
        ((cascadeRequest ctx.hint ctx.hasImages ctx.key).around ids) = .ok call.route)
      (extra : call.kwargs.credentials = ctx.extra.credentials)

/-- A call of the run, made with the model of its route. -/
def CallOfRun (call : Call) : Prop :=
  call.model = call.route.litellmModel ∧ CallMade ctx env call

end

variable {ctx : DispatchCtx} {env : DispatchEnv}

theorem callWithRoute_ensures {messages : List Json} {site : Site} {r : RouteResult}
    {P : Call → Prop}
    (h : ∀ call : Call, call.model = call.route.litellmModel → call.route = r →
      OwnCredentials env.up r call.kwargs.credentials → P call) :
    Ensures P (fun _ => True)
      (callWithRoute env.up ctx.settings.toFanoutSettings ctx.parts messages site r) :=
  acompletionWithRetry_ensures (h _ rfl rfl (fanned_own _ _ _ _ r))

theorem gradeAnswer_calls {grader cheap : RouteResult}
    (hgrader : graderRoute ctx env cheap = some grader) (userText answer : String) :
    Ensures (CallOfRun ctx env) (fun _ => True) (gradeAnswer env.up grader userText answer) := by
  unfold gradeAnswer
  refine (acompletionWithRetry_ensures ⟨rfl, .grader cheap hgrader (Or.inl rfl)⟩).attempt.bind ?_
  intro outcome _
  cases outcome with
  | error exc => exact ensures_pure trivial
  | ok completion =>
    dsimp only
    split
    · exact ensures_pure trivial
    · exact ensures_pure trivial

theorem cascadeVerdict_calls (cheap : RouteResult) (userText answer : String) :
    Ensures (CallOfRun ctx env) (fun _ => True)
      (cascadeVerdict env.up (graderRoute ctx env cheap) userText answer) := by
  cases hgrader : graderRoute ctx env cheap with
  | none => exact ensures_pure trivial
  | some grader => exact gradeAnswer_calls hgrader userText answer

theorem tryCascadeDispatch_calls :
    Ensures (CallOfRun ctx env) (fun _ => True) (tryCascadeDispatch ctx env) := by
  unfold tryCascadeDispatch
  split
  · exact ensures_pure trivial
  · next cheap hcheap =>
    refine (callWithRoute_ensures fun call hmodel hroute hown => ?_).attempt.bind ?_
    · rw [← hroute] at hcheap hown
      exact ⟨hmodel, .cheap hcheap hown⟩
    · intro outcome _
      cases outcome with
      | error exc => exact ensures_pure trivial
      | ok result =>
        dsimp only
        split
        · apply (cascadeVerdict_calls cheap _ _).bind
          intro acceptable _
          split
          · exact ensures_pure trivial
          · exact ensures_pure trivial
        · exact ensures_pure trivial

theorem primaryAnswer_calls :
    Ensures (CallOfRun ctx env) (fun answer => AnswerRoute ctx env answer.2)
      (primaryAnswer ctx env) := by
  unfold primaryAnswer
  split
  · next hon =>
    have hcall : ∀ n r, ChainRoute ctx env r → Ensures (CallOfRun ctx env) (fun _ => True)
        (callWithRoute env.up ctx.settings.toFanoutSettings ctx.parts ctx.messages
          (.attempt n) r) := by
      intro n r hr
      refine callWithRoute_ensures fun call hmodel hroute hown => ?_
      rw [← hroute] at hr hown
      exact ⟨hmodel, .answer (.ranked hon hr) hown⟩
    have hnext : ∀ n ids r, ctx.route.provider.id ∈ ids →
        isOauthRoute ctx.route = true ∨ 2 ≤ (rankedArgs ctx).maxProviders →
          nextRoute (env.fallbackWorlds n) (rankedArgs ctx) ids = .ok r →
            ChainRoute ctx env r :=
      fun n ids r hmem hroom hroute => .next n ids hmem hroom hroute
    apply (tryRanked_ensures (ChainRoute ctx env) hcall ChainRoute.own hnext).bind
    intro ranked hranked
    apply ensures_pure
    dsimp only
    split
    · exact .ranked hon hranked.1
    · next hshort =>
      -- a chain of one entry did not pass the request's own route over
      have hthrough : isOauthRoute ctx.route = false :=
        Bool.eq_false_iff.mpr fun hoauth => hshort (hranked.2 hoauth)
      exact .ranked hon (.own hthrough)
  · next hoff =>
    have hoff' : ctx.settings.fallbackEnabled = false := by simpa using hoff
    refine (acompletionWithRetry_ensures ⟨rfl, .answer (.plain hoff') (Or.inl ctx.own)⟩).bind ?_
    intro result _
    exact ensures_pure (.plain hoff')

theorem hopFrom_calls (hinjected : ctx.proxyToolsInjected = true) (left n : Nat)
    (messages : List Json) (served : Served) (hserved : AnswerRoute ctx env served.route) :
    Ensures (CallOfRun ctx env) (fun out => AnswerRoute ctx env out.2.route)
      (hopFrom ctx env left n messages served) := by
  induction left generalizing n messages served with
  | zero => exact ensures_pure hserved
  | succ left ih =>
    unfold hopFrom
    split
    · exact ensures_pure hserved
    · refine (acompletionWithRetry_ensures ⟨rfl, .hop hinjected hserved rfl⟩).bind ?_
      intro result _
      apply (ensures_lift (Q := fun _ => True) fun _ _ => trivial).bind
      intro response _
      exact ih (n + 1) _ _ hserved

theorem proxyHops_calls (served : Served) (hserved : AnswerRoute ctx env served.route) :
    Ensures (CallOfRun ctx env) (fun out => AnswerRoute ctx env out.2.route)
      (proxyHops ctx env served) := by
  unfold proxyHops
  split
  · next hinjected => exact hopFrom_calls hinjected 3 0 _ served hserved
  · exact ensures_pure hserved

theorem refusalCascade_calls (messages : List Json) (served : Served)
    (hserved : AnswerRoute ctx env served.route) :
    Ensures (CallOfRun ctx env) (fun _ => True) (refusalCascade ctx env messages served) := by
  unfold refusalCascade maybeCascadeOnRefusal
  dsimp only
  split
  · exact ensures_pure trivial
  · next hoff =>
    have hon : ctx.key.refusalRetryEnabled = true := by simpa using hoff
    split
    · exact ensures_pure trivial
    · have hcall : ∀ n ids r, served.route.provider.id ∈ ids →
          selectRoute ((cascadeEnv env).worlds n)
            ((cascadeRequest ctx.hint ctx.hasImages ctx.key).around ids) = .ok r →
          Ensures (CallOfRun ctx env) (fun _ => True) (cascadeDispatch ctx env messages n r) :=
        fun n ids r hmem hselect => acompletionWithRetry_ensures
          ⟨rfl, .refusal hon served.route hserved n ids hmem hselect rfl⟩
      exact cascadeFrom_ensures hcall defaultMaxAttempts 0 _ (List.mem_singleton.mpr rfl)

theorem answerRequest_calls :
    Ensures (CallOfRun ctx env) (fun _ => True) (answerRequest ctx env) := by
  unfold answerRequest
  apply primaryAnswer_calls.bind
  intro answer hanswer
  apply (ensures_lift (Q := fun _ => True) fun _ _ => trivial).bind
  intro response _
  apply (proxyHops_calls ⟨answer.2, answer.1, response⟩ hanswer).bind
  intro hopped hhopped
  apply (refusalCascade_calls hopped.1 hopped.2 hhopped).bind
  intro cascade _
  exact ensures_pure trivial

theorem dispatchNonStreaming_calls (ctx : DispatchCtx) (env : DispatchEnv) :
    Ensures (CallOfRun ctx env) (fun _ => True) (dispatchNonStreaming ctx env) := by
  unfold dispatchNonStreaming
  split
  · apply tryCascadeDispatch_calls.bind
    intro accepted _
    cases accepted with
    | some served => exact ensures_pure trivial
    | none => exact answerRequest_calls
  · exact answerRequest_calls

end LlmProxy.Dispatch
