import LlmProxy.Breaker.Errors
import LlmProxy.Dispatch.Handlers
import LlmProxy.Lib.PyNum

/-! # What the breaker is told of a request

`_complete_claude_oauth` (`app/api/_messages_streaming_oauth.py`) and the non-streaming litellm
path of `/v1/chat/completions` (`app/api/completions.py`), with every upstream attempt they make
and every outcome they record.

> `one_outcome_each_iff`: an attempt has one outcome only where nothing is recorded twice on its
> way out (an error status is, and an empty success), no attempt is passed over in silence
> (the fallback chain records its last one only, the repair loop one for all), and no refusal of
> the proxy's own is taken for the provider's.

Mirroring notes.
* A run is logged as its attempts and its outcomes, both with the provider.
* The retries of `acompletion_with_retry` are part of the attempt, as the one refresh of a token
  is; a request finds the emergency stop the same at each of its calls.
* The answers of litellm are `Completion`s; `Answer` adds what `model_dump()` has besides, as far
  as the empty-success guard reads it. A dump has `choices`, so the branch of the guard for
  Anthropic's shape is not taken.
* The activity row, the metrics, the headers and the text the client is told are left out.
-/

namespace LlmProxy.Dispatch

open LlmProxy.Providers
open LlmProxy.Routing
open LlmProxy.Breaker (Outcome isAuthError isCallerSideError)
open LlmProxy.Streaming (Completion)
open Logged

/-! ## Attempts and outcomes -/

/-- An upstream attempt, with what it came to, or a call of the breaker, with the tokens
`record_outcome` is passed. -/
inductive Event (α : Type) where
  | attempt (providerId : String) (answer : α)
  | outcome (providerId : String) (outcome : Outcome) (inTok outTok : Int)

namespace Event

variable {α : Type}

def attempted : Event α → Option String
  | .attempt id _ => some id
  | .outcome _ _ _ _ => none

def recorded : Event α → Option String
  | .attempt _ _ => none
  | .outcome id _ _ _ => some id

end Event

section

variable {α ε : Type}

/-- The providers attempted are the providers with an outcome, each as often. -/
def OneOutcomeEach (log : List (Event α)) : Prop :=
  (log.filterMap Event.attempted).Perm (log.filterMap Event.recorded)

instance (log : List (Event α)) : Decidable (OneOutcomeEach log) :=
  inferInstanceAs (Decidable (List.Perm _ _))

/-- `record_outcome(success=True)`. -/
def recordSuccess (providerId : String) (inTok outTok : Int) : Logged (Event α) ε Unit :=
  perform (.outcome providerId .success inTok outTok) (.ok ())

/-- `record_failure(provider_id, billing_error=False)`, called directly. -/
def recordFailure (providerId : String) : Logged (Event α) ε Unit :=
  perform (.outcome providerId (.failure false) 0 0) (.ok ())

/-- `record_outcome(success=False)`: an error of the caller's is kept from the breaker. -/
def recordFailed (keyId providerId errorStr : String) : Logged (Event α) ε Unit :=
  ⟨((Breaker.failedOutcome errorStr (keyId = "probe-keepalive")).map
    fun outcome => Event.outcome providerId outcome 0 0).toList, .ok ()⟩

end

def counted (errorStr : String) : Bool := isAuthError errorStr || !isCallerSideError errorStr

theorem counted_of_not_callerSide {errorStr : String} (h : isCallerSideError errorStr = false) :
    counted errorStr = true := by
  unfold counted
  rw [h]
  exact Bool.or_true _

def onceIf (told : Bool) (providerId : String) : List String := if told then [providerId] else []

section

variable {α ε : Type}

@[simp] theorem attempted_recordSuccess (providerId : String) (inTok outTok : Int) :
    (recordSuccess providerId inTok outTok : Logged (Event α) ε Unit).log.filterMap
      Event.attempted = [] := rfl

@[simp] theorem recorded_recordSuccess (providerId : String) (inTok outTok : Int) :
    (recordSuccess providerId inTok outTok : Logged (Event α) ε Unit).log.filterMap
      Event.recorded = [providerId] := rfl

@[simp] theorem attempted_recordFailure (providerId : String) :
    (recordFailure providerId : Logged (Event α) ε Unit).log.filterMap Event.attempted = [] := rfl

@[simp] theorem recorded_recordFailure (providerId : String) :
    (recordFailure providerId : Logged (Event α) ε Unit).log.filterMap Event.recorded =
      [providerId] := rfl

@[simp] theorem attempted_recordFailed (keyId providerId errorStr : String) :
    (recordFailed keyId providerId errorStr : Logged (Event α) ε Unit).log.filterMap
      Event.attempted = [] := by
  unfold recordFailed
  cases Breaker.failedOutcome errorStr (keyId = "probe-keepalive") <;> rfl

@[simp] theorem recorded_recordFailed (keyId providerId errorStr : String) :
    (recordFailed keyId providerId errorStr : Logged (Event α) ε Unit).log.filterMap
      Event.recorded = onceIf (counted errorStr) providerId := by
  unfold recordFailed onceIf counted
  cases hout : Breaker.failedOutcome errorStr (keyId = "probe-keepalive") with
  | none =>
    obtain ⟨hauth, hcaller⟩ := Breaker.failedOutcome_eq_none_iff.mp hout
    rw [hauth, hcaller]
    rfl
  | some outcome =>
    have htold : (isAuthError errorStr || !isCallerSideError errorStr) = true := by
      by_contra hnot
      have hnone := @Breaker.failedOutcome_eq_none_iff errorStr (keyId = "probe-keepalive")
      rw [hout] at hnone
      simp at hnot
      exact absurd (hnone.mpr hnot) (Option.some_ne_none outcome)
    rw [htold]
    rfl

end

/-! ## `_complete_claude_oauth` -/

structure HttpResponse where
  status : Nat
  text : String
  /-- `r.json()`, unless it raises -/
  json : Option Json
  /-- the text of the `HTTPStatusError` that `raise_for_status` makes of it -/
  statusError : String

/-- What `client.post` comes to. -/
inductive PostResult where
  | response (r : HttpResponse)
  /-- an `httpx.HTTPError` -/
  | httpError (e : Failure)
  /-- an exception of another class -/
  | raised (e : Failure)

structure OauthCall where
  keyId : String
  providerId : String
  /-- the first post, and the one with the refreshed token -/
  post : Bool → PostResult
  /-- `_refresh_oauth_token` -/
  newToken : Option String

/-- `_exc_str`. -/
def excStr (e : Failure) : String := if e.message = "" then e.type ++ " (no message)" else e.message

def HttpResponse.errorStr (r : HttpResponse) : String :=
  toString r.status ++ ": " ++ String.ofList (r.text.toList.take 200)

/-- Beyond it a JSON number reads as an infinite float. -/
def floatLimit : Rat := 2 ^ 1024 - 2 ^ 970

/-- `int(value)`, of a JSON value. -/
def jsonInt? : Json → Option Int
  | .null => none
  | .bool b => some (if b then 1 else 0)
  | .num n =>
    match PyNum.int? (String.ofList n.text), PyNum.float? (String.ofList n.text) with
    | some i, _ => some i
    | none, some (.fin q) =>
      if -floatLimit < q ∧ q < floatLimit then
        some (if 0 ≤ q then ⌊q⌋ else ⌈q⌉)
      else none
    | none, _ => none
  | .constant _ => none
  | .str s => PyNum.int? s
  | .arr _ => none
  | .obj _ => none

/-- `int(usage.get(key) or 0)`. -/
def usageInt? (usage : Json) (key : String) : Option Int :=
  match usage.get? key with
  | none => some 0
  | some value => if value.truthy then jsonInt? value else some 0

/-- The tokens in and out that `data["usage"]` counts; `none` where reading its four counts
raises. -/
def readUsage (data : Json) : Option (Int × Int) :=
  let counts (usage : Json) : Option (Int × Int) := do
    let inTok ← usageInt? usage "input_tokens"
    let outTok ← usageInt? usage "output_tokens"
    let _ ← usageInt? usage "cache_creation_input_tokens"
    let _ ← usageInt? usage "cache_read_input_tokens"
    some (inTok, outTok)
  match data with
  | .obj _ =>
    match data.get? "usage" with
    | none => counts (.obj [])
    | some usage =>
      if usage.truthy then
        match usage with
        | .obj _ => counts usage
        | _ => none
      else counts (.obj [])
  | _ => none

/-- An exception, and whether it is an `httpx.HTTPError`. -/
structure Raised where
  http : Bool
  exc : Failure

abbrev OauthRun := Logged (Event PostResult) Raised

/-- What is done with a response that is not a reason to refresh. -/
def readResponse (call : OauthCall) (r : HttpResponse) : OauthRun Json :=
  if 400 ≤ r.status then do
    recordFailed call.keyId call.providerId r.errorStr
    raise ⟨true, "HTTPStatusError", r.statusError⟩
  else
    match r.json with
    | none => raise ⟨false, "JSONDecodeError", ""⟩
    | some data =>
      match readUsage data with
      | none => raise ⟨false, "TypeError", ""⟩
      | some (inTok, outTok) => do
        recordSuccess call.providerId inTok outTok
        pure data

/-- The body of the `try`. -/
def postOnce (call : OauthCall) (result : PostResult) : OauthRun Json := do
  perform (.attempt call.providerId result) (.ok ())
  match result with
  | .response r => readResponse call r
  | .httpError e => raise ⟨true, e⟩
  | .raised e => raise ⟨false, e⟩

/-- With its `except httpx.HTTPError`, which also catches the error status. -/
def guardedPost (call : OauthCall) (result : PostResult) : OauthRun Json := do
  match ← attempt (postOnce call result) with
  | .ok data => pure data
  | .error e =>
    if e.http then do
      recordFailed call.keyId call.providerId (excStr e.exc)
      raise e
    else raise e

/-- The post that is the attempt: a 401 that the refresh answers is none of its own. -/
def OauthCall.attemptedPost (call : OauthCall) : PostResult :=
  match call.post false with
  | .response r =>
    if r.status = 401 ∧ (truthy call.newToken).isSome then call.post true else .response r
  | result => result

/-- `_complete_claude_oauth`: two passes of its loop at most. -/
def completeClaudeOauth (call : OauthCall) : OauthRun Json := guardedPost call call.attemptedPost

/-! ### The outcomes of one post -/

/-- The attempt has one outcome: an answer below 400 that can be read, a transport error the
breaker is told of, or an error status that is told once of the two times it is recorded. -/
def PostResult.settled : PostResult → Bool
  | .response r =>
    if 400 ≤ r.status then
      counted r.errorStr != counted (excStr ⟨"HTTPStatusError", r.statusError⟩)
    else (r.json.bind readUsage).isSome
  | .httpError e => counted (excStr e)
  | .raised _ => false

theorem perm_onceIf (told : Bool) (id : String) : [id].Perm (onceIf told id) ↔ told = true := by
  cases told <;> simp [onceIf]

theorem perm_onceIf_append (first second : Bool) (id : String) :
    [id].Perm (onceIf first id ++ onceIf second id) ↔ (first != second) = true := by
  cases first <;> cases second <;> simp [onceIf]

section

variable (call : OauthCall)

theorem guardedPost_of_raised {result : PostResult} {told : List (Event PostResult)} {e : Raised}
    (h : postOnce call result = ⟨.attempt call.providerId result :: told, .error e⟩) :
    (guardedPost call result).log = .attempt call.providerId result :: told ++
      if e.http then
        (recordFailed call.keyId call.providerId (excStr e.exc) : OauthRun Unit).log
      else [] := by
  unfold guardedPost
  rw [attempt_bind, h]
  dsimp only
  cases hhttp : e.http with
  | true => rw [if_pos rfl, if_pos rfl, bind_raise rfl]
  | false => rfl

theorem guardedPost_of_ok {result : PostResult} {told : List (Event PostResult)} {data : Json}
    (h : postOnce call result = ⟨.attempt call.providerId result :: told, .ok data⟩) :
    (guardedPost call result).log = .attempt call.providerId result :: told := by
  unfold guardedPost
  rw [attempt_bind, h]
  exact List.append_nil _

theorem readResponse_below {r : HttpResponse} (h : ¬ 400 ≤ r.status) :
    (∃ e, (r.json.bind readUsage) = none ∧ readResponse call r = ⟨[], .error ⟨false, e⟩⟩) ∨
      ∃ data inTok outTok, (r.json.bind readUsage).isSome = true ∧
        readResponse call r = ⟨[.outcome call.providerId .success inTok outTok], .ok data⟩ := by
  unfold readResponse
  rw [if_neg h]
  cases r.json with
  | none => exact Or.inl ⟨_, rfl, rfl⟩
  | some data =>
    dsimp only [Option.bind_some]
    cases readUsage data with
    | none => exact Or.inl ⟨_, rfl, rfl⟩
    | some counts => exact Or.inr ⟨data, counts.1, counts.2, rfl, rfl⟩

theorem postOnce_response (r : HttpResponse) :
    postOnce call (.response r) =
      ⟨.attempt call.providerId (.response r) :: (readResponse call r).log,
        (readResponse call r).result⟩ := rfl

theorem guardedPost_settled (result : PostResult) :
    OneOutcomeEach (guardedPost call result).log ↔ result.settled = true := by
  unfold OneOutcomeEach
  cases result with
  | httpError e =>
    rw [guardedPost_of_raised call (e := ⟨true, e⟩) rfl, if_pos rfl, List.filterMap_append,
      List.filterMap_append, attempted_recordFailed, recorded_recordFailed]
    exact perm_onceIf _ _
  | raised e =>
    rw [guardedPost_of_raised call (e := ⟨false, e⟩) rfl, if_neg Bool.false_ne_true]
    exact perm_onceIf false _
  | response r =>
    simp only [PostResult.settled]
    have hpost := postOnce_response call r
    by_cases herror : 400 ≤ r.status
    · have hread : readResponse call r =
          ⟨(recordFailed call.keyId call.providerId r.errorStr : OauthRun Unit).log,
            .error ⟨true, "HTTPStatusError", r.statusError⟩⟩ := by
        unfold readResponse
        rw [if_pos herror, bind_raise rfl]
      rw [hread] at hpost
      rw [guardedPost_of_raised call hpost, if_pos rfl, if_pos herror]
      simp only [List.filterMap_append, List.filterMap_cons, Event.attempted, Event.recorded,
        attempted_recordFailed, recorded_recordFailed, List.append_nil]
      exact perm_onceIf_append _ _ _
    · rw [if_neg herror]
      rcases readResponse_below call herror with ⟨e, hnone, hread⟩ | ⟨data, i, o, hsome, hread⟩
      · rw [hread] at hpost
        rw [guardedPost_of_raised call hpost, if_neg Bool.false_ne_true, hnone]
        exact perm_onceIf false _
      · rw [hread] at hpost
        rw [guardedPost_of_ok call hpost, hsome]
        exact perm_onceIf true _

end

/-! ## The non-streaming path of `/v1/chat/completions` -/

structure Answer extends Completion where
  totalTokens : Nat := 0
  /-- the dump has an `error` that is true -/
  error : Bool := false

def Answer.promptTokens (a : Answer) : Nat := (a.usage.map (·.promptTokens)).getD 0

def Answer.completionTokens (a : Answer) : Nat := (a.usage.map (·.completionTokens)).getD 0

/-- `_content_is_empty`. -/
def Answer.contentIsEmpty (a : Answer) : Bool :=
  match a.choices with
  | [] => true
  | choice :: _ => PyStr.strip (choice.content.getD "") = ""

/-- `_zero_tokens`: a usage that is missing counts none. -/
def Answer.zeroTokens (a : Answer) : Bool :=
  a.usage.all fun u => u.promptTokens = 0 && u.completionTokens = 0 && a.totalTokens = 0

/-- `looks_like_empty_success_failure`: empty content, no tokens, and a prompt of none or an
error key. -/
def Answer.looksLikeEmptySuccessFailure (a : Answer) : Bool :=
  a.contentIsEmpty && a.zeroTokens && (a.usage.any (fun u => u.promptTokens = 0) || a.error)

/-- `resp.choices[0].message.content or ""`. -/
def Answer.firstText (a : Answer) : Except Failure String :=
  match a.choices with
  | [] => .error ⟨"IndexError", "list index out of range"⟩
  | choice :: _ => .ok (choice.content.getD "")

abbrev ChatRun := Logged (Event (Except Failure Answer)) Failure

structure CompletionsEnv where
  /-- the world of the n-th selection of the fallback chain -/
  worlds : Nat → World
  answer : Nat → Except Failure Answer
  /-- `is_llm_stopped_session_less` -/
  llmStopped : Bool := false
  /-- `structured_output_max_repairs` -/
  maxRepairs : Int := 2
  /-- `extract_json` finds a value in the text that `validate_against_schema` has nothing against -/
  conforms : String → Bool
  /-- `empty_success_failure_message` -/
  emptyMessage : Answer → String

/-- `litellm.acompletion`. -/
def acompletion (env : CompletionsEnv) (providerId : String) (n : Nat) : ChatRun Answer :=
  perform (.attempt providerId (env.answer n)) (env.answer n)

def emergencyStop : Failure :=
  ⟨"LLMEmergencyStopError", "LLM routing is halted by operator (emergency stop engaged)."⟩

/-- `acompletion_with_retry`. -/
def acompletionUnlessStopped (env : CompletionsEnv) (providerId : String) (n : Nat) :
    ChatRun Answer :=
  if env.llmStopped then raise emergencyStop else acompletion env providerId n

/-- `call_with_tool_prompt`. -/
def callWithToolPrompt (env : CompletionsEnv) (providerId : String) : ChatRun String := do
  let resp ← acompletion env providerId 0
  lift resp.firstText

/-- The loop of `call_with_schema`: `left` calls to go, the n-th next. The text, and whether it
conforms. -/
def callWithSchema (env : CompletionsEnv) (providerId : String) :
    Nat → Nat → String → ChatRun (Bool × String)
  | 0, _, lastText => pure (false, lastText)
  | left + 1, n, _ => do
    let resp ← acompletionUnlessStopped env providerId n
    let text ← lift resp.firstText
    if env.conforms text then pure (true, text)
    else callWithSchema env providerId left (n + 1) text

/-- How the path ends: the route the answer is put down to, the tokens recorded, and the message
of an empty success. -/
structure Finish where
  route : RouteResult
  inTok : Nat := 0
  outTok : Nat := 0
  empty : Option String := none

def emulated (env : CompletionsEnv) (route : RouteResult) : ChatRun Finish := do
  let _ ← callWithToolPrompt env route.provider.id
  pure { route }

def structured (env : CompletionsEnv) (route : RouteResult) : ChatRun Finish := do
  let _ ← callWithSchema env route.provider.id (env.maxRepairs + 1).toNat 0 ""
  pure { route }

def Finish.ofAnswer (env : CompletionsEnv) (a : Answer) (route : RouteResult) : Finish where
  route := route
  inTok := a.promptTokens
  outTok := a.completionTokens
  empty := if a.looksLikeEmptySuccessFailure then some (env.emptyMessage a) else none

/-- `_call_with_route`. -/
def callRoute (env : CompletionsEnv) (n : Nat) (r : RouteResult) : ChatRun Answer :=
  acompletionUnlessStopped env r.provider.id n

def chainArgs (req : ChatRequest) (routed : Routed) : RankedArgs := rankedArgs (dispatchCtx req routed)

def ranked (req : ChatRequest) (env : CompletionsEnv) (routed : Routed) : ChatRun Finish :=
  if req.settings.fallbackEnabled then do
    let out ← tryRankedNonStreaming env.worlds (chainArgs req routed) (callRoute env) routed.route
    -- a chain of one attempt ended on the request's own route
    pure (.ofAnswer env out.1 (if 1 < out.2.2.length then out.2.1 else routed.route))
  else do
    let a ← callRoute env 0 routed.route
    pure (.ofAnswer env a routed.route)

/-- The body of the `try`, for a request that does not stream, up to the success. -/
def completionsArm (req : ChatRequest) (env : CompletionsEnv) (routed : Routed) : ChatRun Finish :=
  if routed.route.toolEmulationEngaged then emulated env routed.route
  else if routed.route.cotEngaged then raise ⟨"HTTPException", "422: CoT-E requires stream=true"⟩
  else if req.settings.structuredOutputEnabled && !req.hasTools && req.hasSchema then
    structured env routed.route
  else ranked req env routed

/-- The `except Exception` of the endpoint. -/
def upstreamError (keyId : String) (route : RouteResult) (e : Failure) : ChatRun Unit := do
  recordFailed keyId route.provider.id e.message
  raise ⟨"HTTPException", e.message⟩

/-- What is recorded of an arm, and the empty-success guard. -/
def concluded (keyId : String) (route : RouteResult) (arm : ChatRun Finish) : ChatRun Unit := do
  match ← attempt arm with
  | .error e => upstreamError keyId route e
  | .ok done => do
    recordSuccess done.route.provider.id done.inTok done.outTok
    match done.empty with
    | none => pure ()
    | some message => do
      recordFailure done.route.provider.id
      -- the guard's own 502 runs into the handler
      upstreamError keyId done.route ⟨"HTTPException", "502: upstream: " ++ message⟩

/-- The litellm path of `/v1/chat/completions`, for a request that does not stream. -/
def chatCompletion (req : ChatRequest) (env : CompletionsEnv) (routed : Routed) : ChatRun Unit :=
  concluded req.key.id routed.route (completionsArm req env routed)

/-! ### The outcomes of an arm -/

/-- The providers of the outcomes that follow the end of an arm. -/
def outcomesOf (route : RouteResult) : Except Failure Finish → List String
  | .error e => onceIf (counted e.message) route.provider.id
  | .ok done =>
    done.route.provider.id ::
      match done.empty with
      | none => []
      | some message =>
        done.route.provider.id ::
          onceIf (counted ("502: upstream: " ++ message)) done.route.provider.id

/-- An arm attempts and records nothing. -/
def OnlyAttempts {α : Type} (arm : ChatRun α) : Prop :=
  Ensures (fun event => event.recorded = none) (fun _ => True) arm

theorem upstreamError_log (keyId : String) (route : RouteResult) (e : Failure) :
    (upstreamError keyId route e).log =
      (recordFailed keyId route.provider.id e.message : ChatRun Unit).log := by
  unfold upstreamError
  rw [bind_raise rfl]

theorem concluded_log (keyId : String) (route : RouteResult) (arm : ChatRun Finish) :
    ∃ tail, (concluded keyId route arm).log = arm.log ++ tail ∧
      tail.filterMap Event.attempted = [] ∧
      tail.filterMap Event.recorded = outcomesOf route arm.result := by
  unfold concluded
  rw [attempt_bind]
  refine ⟨_, rfl, ?_⟩
  cases arm.result with
  | error e =>
    dsimp only
    rw [upstreamError_log, attempted_recordFailed, recorded_recordFailed]
    exact ⟨rfl, rfl⟩
  | ok done =>
    cases hempty : done.empty with
    | none =>
      dsimp only [outcomesOf]
      rw [bind_of_ok rfl, hempty]
      exact ⟨rfl, rfl⟩
    | some message =>
      dsimp only [outcomesOf]
      rw [bind_of_ok rfl, hempty]
      dsimp only
      rw [bind_of_ok rfl, upstreamError_log]
      simp only [List.filterMap_append, attempted_recordSuccess, recorded_recordSuccess,
        attempted_recordFailure, recorded_recordFailure, attempted_recordFailed,
        recorded_recordFailed, List.append_nil, List.singleton_append, and_self]

theorem concluded_iff (keyId : String) (route : RouteResult) {arm : ChatRun Finish}
    (h : OnlyAttempts arm) :
    OneOutcomeEach (concluded keyId route arm).log ↔
      (arm.log.filterMap Event.attempted).Perm (outcomesOf route arm.result) := by
  obtain ⟨tail, hlog, hattempted, hrecorded⟩ := concluded_log keyId route arm
  have hnone : arm.log.filterMap Event.recorded = [] := List.filterMap_eq_nil_iff.mpr h.1
  unfold OneOutcomeEach
  rw [hlog, List.filterMap_append, List.filterMap_append, hattempted, hrecorded, hnone,
    List.append_nil, List.nil_append]

theorem outcomesOf_same (route : RouteResult) (result : Except Failure Finish) :
    ∃ provider, ∀ id ∈ outcomesOf route result, id = provider := by
  have honce : ∀ told id, ∀ id' ∈ onceIf told id, id' = id := by
    intro told id id' hmem
    cases told with
    | true => exact List.mem_singleton.mp hmem
    | false => cases hmem
  cases result with
  | error e => exact ⟨route.provider.id, honce _ _⟩
  | ok done =>
    refine ⟨done.route.provider.id, fun id hmem => ?_⟩
    unfold outcomesOf at hmem
    rcases List.mem_cons.mp hmem with hfirst | hrest
    · exact hfirst
    · cases hempty : done.empty with
      | none =>
        rw [hempty] at hrest
        cases hrest
      | some message =>
        rw [hempty] at hrest
        rcases List.mem_cons.mp hrest with hsecond | hlast
        · exact hsecond
        · exact honce _ _ id hlast

theorem not_perm_of_two {attempts : List String} {route : RouteResult}
    {result : Except Failure Finish} {p q : String} (hp : p ∈ attempts) (hq : q ∈ attempts)
    (hne : p ≠ q) : ¬ attempts.Perm (outcomesOf route result) := by
  intro hperm
  obtain ⟨provider, hall⟩ := outcomesOf_same route result
  exact hne ((hall p (hperm.mem_iff.mp hp)).trans (hall q (hperm.mem_iff.mp hq)).symm)

theorem perm_outcomesOf_answer (env : CompletionsEnv) (a : Answer) (route served : RouteResult) :
    [served.provider.id].Perm (outcomesOf route (.ok (.ofAnswer env a served))) ↔
      a.looksLikeEmptySuccessFailure = false := by
  cases hempty : a.looksLikeEmptySuccessFailure with
  | false => simp [outcomesOf, Finish.ofAnswer, hempty]
  | true =>
    simp only [outcomesOf, Finish.ofAnswer, hempty, if_true, Bool.true_eq_false, iff_false]
    intro hperm
    have hlength := hperm.length_eq
    simp at hlength

section

variable (env : CompletionsEnv) (route : RouteResult)

theorem acompletion_only (providerId : String) (n : Nat) :
    OnlyAttempts (acompletion env providerId n) := ensures_perform rfl fun _ _ => trivial

theorem acompletionUnlessStopped_only (providerId : String) (n : Nat) :
    OnlyAttempts (acompletionUnlessStopped env providerId n) := by
  unfold acompletionUnlessStopped
  split
  · exact ensures_raise _
  · exact acompletion_only env providerId n

theorem acompletion_of_running (h : env.llmStopped = false) (providerId : String) (n : Nat) :
    acompletionUnlessStopped env providerId n =
      ⟨[.attempt providerId (env.answer n)], env.answer n⟩ := by
  unfold acompletionUnlessStopped
  rw [h]
  rfl

theorem acompletion_of_stopped (h : env.llmStopped = true) (providerId : String) (n : Nat) :
    acompletionUnlessStopped env providerId n = raise emergencyStop := by
  unfold acompletionUnlessStopped
  rw [h]
  rfl

theorem callRoute_of_running (h : env.llmStopped = false) (n : Nat) (r : RouteResult) :
    callRoute env n r = ⟨[.attempt r.provider.id (env.answer n)], env.answer n⟩ :=
  acompletion_of_running env h r.provider.id n

/-- The attempt has its outcome: an answer, or an error the breaker is told of. -/
def answeredOrCounted {α : Type} : Except Failure α → Bool
  | .ok _ => true
  | .error e => counted e.message

theorem emulated_eq :
    emulated env route = ⟨[.attempt route.provider.id (env.answer 0)],
      (env.answer 0 >>= Answer.firstText).map fun _ => { route }⟩ := by
  unfold emulated callWithToolPrompt
  rw [bind_lift, bind_pure_map]
  rfl

theorem emulated_only : OnlyAttempts (emulated env route) := by
  rw [emulated_eq]
  exact ensures_perform rfl fun _ _ => trivial

theorem emulated_settled (keyId : String) :
    OneOutcomeEach (concluded keyId route (emulated env route)).log ↔
      answeredOrCounted (env.answer 0 >>= Answer.firstText) = true := by
  rw [concluded_iff keyId route (emulated_only env route), emulated_eq]
  cases env.answer 0 >>= Answer.firstText with
  | error e => exact perm_onceIf _ _
  | ok text => exact perm_onceIf true _

/-! ### The repair loop -/

theorem callWithSchema_only (providerId : String) (left n : Nat) (lastText : String) :
    OnlyAttempts (callWithSchema env providerId left n lastText) := by
  induction left generalizing n lastText with
  | zero => exact ensures_pure trivial
  | succ left ih =>
    unfold callWithSchema
    apply (acompletionUnlessStopped_only env providerId n).bind
    intro resp _
    apply (ensures_lift (Q := fun _ => True) fun _ _ => trivial).bind
    intro text _
    split
    · exact ensures_pure trivial
    · exact ih (n + 1) text

theorem structured_only : OnlyAttempts (structured env route) := by
  unfold structured
  refine (callWithSchema_only env _ _ 0 "").bind ?_
  exact fun _ _ => ensures_pure trivial

section

variable {env} (h : env.llmStopped = false) (providerId : String) (left n : Nat) (lastText : String)

include h

theorem callWithSchema_raises {e : Failure} (hanswer : env.answer n >>= Answer.firstText = .error e) :
    callWithSchema env providerId (left + 1) n lastText =
      ⟨[.attempt providerId (env.answer n)], .error e⟩ := by
  unfold callWithSchema
  rw [acompletion_of_running env h]
  cases hresp : env.answer n with
  | error e' =>
    rw [hresp] at hanswer
    rw [bind_of_error rfl, Except.error.inj hanswer]
  | ok resp =>
    rw [hresp] at hanswer
    have htext : resp.firstText = .error e := hanswer
    rw [bind_of_ok rfl, htext]
    rfl

theorem callWithSchema_answers {text : String}
    (hanswer : env.answer n >>= Answer.firstText = .ok text) :
    callWithSchema env providerId (left + 1) n lastText =
      ⟨.attempt providerId (env.answer n) ::
          (if env.conforms text then pure (true, text)
            else callWithSchema env providerId left (n + 1) text : ChatRun _).log,
        (if env.conforms text then pure (true, text)
          else callWithSchema env providerId left (n + 1) text : ChatRun _).result⟩ := by
  obtain ⟨resp, hresp, htext⟩ := Result.bind_ok hanswer
  rw [callWithSchema, acompletion_of_running env h, hresp, bind_of_ok rfl, lift_bind htext]
  rfl

theorem callWithSchema_log_cons :
    ∃ rest, (callWithSchema env providerId (left + 1) n lastText).log =
      .attempt providerId (env.answer n) :: rest := by
  cases hanswer : env.answer n >>= Answer.firstText with
  | error e => exact ⟨[], by rw [callWithSchema_raises h _ _ _ _ hanswer]⟩
  | ok text => exact ⟨_, by rw [callWithSchema_answers h _ _ _ _ hanswer]⟩

end

/-- The loop ends after one call: that call fails, its text conforms, or there is no repair. -/
def schemaSettled (env : CompletionsEnv) : Bool :=
  match env.answer 0 >>= Answer.firstText with
  | .error e => counted e.message
  | .ok text => env.conforms text || env.maxRepairs = 0

theorem counted_emergencyStop : counted emergencyStop.message = true :=
  counted_of_not_callerSide (by decide +kernel)

theorem length_onceIf_le (told : Bool) (id : String) : (onceIf told id).length ≤ 1 := by
  cases told with
  | true => exact Nat.le_refl 1
  | false => exact Nat.zero_le 1

theorem not_perm_nil_onceIf {told : Bool} (h : told = true) (id : String) :
    ¬ ([] : List String).Perm (onceIf told id) := by
  rw [h]
  exact fun hperm => absurd hperm.length_eq Nat.zero_ne_one

theorem structured_settled (keyId : String) :
    OneOutcomeEach (concluded keyId route (structured env route)).log ↔
      0 ≤ env.maxRepairs ∧ env.llmStopped = false ∧ schemaSettled env = true := by
  rw [concluded_iff keyId route (structured_only env route)]
  unfold structured
  rw [bind_pure_map]
  dsimp only
  obtain hneg | ⟨left, hleft⟩ : env.maxRepairs < 0 ∨ ∃ left : Nat, env.maxRepairs = left := by
    rcases lt_or_ge env.maxRepairs 0 with hneg | hpos
    · exact Or.inl hneg
    · exact Or.inr ⟨env.maxRepairs.toNat, (Int.toNat_of_nonneg hpos).symm⟩
  · -- no call at all, and still a success
    have hzero : (env.maxRepairs + 1).toNat = 0 := by omega
    rw [hzero]
    exact iff_of_false (not_perm_nil_onceIf rfl _) (fun hcontra => absurd hcontra.1 (by omega))
  have hsucc : (env.maxRepairs + 1).toNat = left + 1 := by omega
  have hpos : 0 ≤ env.maxRepairs := by omega
  rw [hsucc]
  cases hstop : env.llmStopped with
  | true =>
    refine iff_of_false ?_ (fun hcontra => absurd hcontra.2.1 Bool.false_ne_true.symm)
    rw [callWithSchema, acompletion_of_stopped env hstop, bind_of_error rfl]
    exact not_perm_nil_onceIf counted_emergencyStop _
  | false =>
    rw [show (0 ≤ env.maxRepairs ∧ false = false ∧ schemaSettled env = true) ↔
      schemaSettled env = true from by simp [hpos]]
    unfold schemaSettled
    cases hanswer : env.answer 0 >>= Answer.firstText with
    | error e =>
      rw [callWithSchema_raises hstop _ _ _ _ hanswer]
      exact perm_onceIf _ _
    | ok text =>
      rw [callWithSchema_answers hstop _ _ _ _ hanswer]
      dsimp only
      cases hconforms : env.conforms text with
      | true => exact perm_onceIf true _
      | false =>
        rw [if_neg Bool.false_ne_true, Bool.false_or, decide_eq_true_iff]
        cases left with
        | zero => exact iff_of_true ((perm_onceIf true _).mpr rfl) (by omega)
        | succ left =>
          -- a second attempt, and one outcome for both
          refine iff_of_false (fun hperm => ?_) (by omega)
          obtain ⟨rest, hrest⟩ := callWithSchema_log_cons hstop route.provider.id left 1 text
          have hlength := hperm.length_eq
          rw [hrest] at hlength
          have hone : (outcomesOf route ((callWithSchema env route.provider.id (left + 1) (0 + 1)
              text).result.map fun _ => { route })).length ≤ 1 := by
            cases (callWithSchema env route.provider.id (left + 1) (0 + 1) text).result with
            | error e => exact length_onceIf_le _ _
            | ok out => exact Nat.le_refl 1
          simp only [List.filterMap_cons, Event.attempted, List.length_cons] at hlength
          omega

end

/-! ### The fallback chain -/

section

variable (req : ChatRequest) (env : CompletionsEnv) (routed : Routed)

/-- The chain has a route to call: the request's own, or one handed over where that is passed
over. -/
def ChainStarts : Prop :=
  req.settings.fallbackEnabled = true → isOauthRoute routed.route = true →
    ∃ next, nextRoute (env.worlds 0) (chainArgs req routed)
      [routed.route.provider.id] = .ok next

/-- A failed call of the request's own route ends the request. -/
def ChainStops : Prop :=
  req.settings.fallbackEnabled = true → isOauthRoute routed.route = false ∧
    (req.settings.fallbackMaxProviders ≤ 1 ∨
      ∀ next, nextRoute (env.worlds 1) (chainArgs req routed)
        [routed.route.provider.id] ≠ .ok next)

/-- One attempt with one outcome: an answer that does not look empty, or an error the breaker is
told of and nobody is asked behind. -/
def RankedSettled : Prop :=
  env.llmStopped = false ∧
    ((∃ a, env.answer 0 = .ok a ∧ a.looksLikeEmptySuccessFailure = false ∧
        ChainStarts req env routed) ∨
      ∃ e, env.answer 0 = .error e ∧ counted e.message = true ∧ ChainStops req env routed)

theorem ranked_only : OnlyAttempts (ranked req env routed) := by
  unfold ranked
  split
  · have hcall : ∀ n r, True → OnlyAttempts (callRoute env n r) :=
      fun n r _ => acompletionUnlessStopped_only env r.provider.id n
    refine (tryRanked_ensures (fun _ => True) hcall (fun _ => trivial)
      (fun _ _ _ _ _ _ => trivial)).bind ?_
    exact fun _ _ => ensures_pure trivial
  · refine (acompletionUnlessStopped_only env _ 0).bind ?_
    exact fun _ _ => ensures_pure trivial

variable {req env routed}

theorem ranked_of_chain (hon : req.settings.fallbackEnabled = true) {log} {result}
    (h : tryRankedNonStreaming env.worlds (chainArgs req routed)
      (callRoute env) routed.route = ⟨log, result⟩) :
    ranked req env routed = ⟨log, result.map fun out =>
      .ofAnswer env out.1 (if 1 < out.2.2.length then out.2.1 else routed.route)⟩ := by
  unfold ranked
  rw [if_pos hon, h, bind_pure_map]

theorem ranked_of_plain (hoff : req.settings.fallbackEnabled = false)
    (hrun : env.llmStopped = false) :
    ranked req env routed = ⟨[.attempt routed.route.provider.id (env.answer 0)],
      (env.answer 0).map fun a => .ofAnswer env a routed.route⟩ := by
  unfold ranked
  rw [hoff, if_neg Bool.false_ne_true, bind_pure_map, callRoute_of_running env hrun]

theorem counted_exhausted :
    counted "fallback chain exhausted with no exception captured" = true :=
  counted_of_not_callerSide (by decide +kernel)

theorem ranked_of_stopped (hstop : env.llmStopped = true) :
    (ranked req env routed).log = [] ∧
      outcomesOf routed.route (ranked req env routed).result ≠ [] := by
  have hcall : ∀ n r, callRoute env n r = raise emergencyStop :=
    fun n r => acompletion_of_stopped env hstop r.provider.id n
  have hlog : Ensures (fun _ => False) (fun _ => True) (ranked req env routed) := by
    unfold ranked
    split
    · refine (tryRanked_ensures (fun _ => True) (fun n r _ => ?_) (fun _ => trivial)
        (fun _ _ _ _ _ _ => trivial)).bind ?_
      · rw [hcall]
        exact ensures_raise _
      · exact fun _ _ => ensures_pure trivial
    · rw [hcall]
      exact (ensures_raise (Q := fun _ => True) _).bind fun _ _ => ensures_pure trivial
  have herror : ∀ e, (ranked req env routed).result = .error e → counted e.message = true := by
    intro e he
    cases hon : req.settings.fallbackEnabled with
    | true =>
      rw [ranked_of_chain hon rfl] at he
      refine tryRanked_error (fun e => counted e.message = true) (fun n r e hraised => ?_)
        counted_exhausted (Result.map_error he)
      rw [hcall] at hraised
      rw [← Except.error.inj hraised]
      exact counted_emergencyStop
    | false =>
      unfold ranked at he
      rw [hon, if_neg Bool.false_ne_true, hcall, bind_of_error rfl] at he
      rw [← Except.error.inj he]
      exact counted_emergencyStop
  refine ⟨List.eq_nil_iff_forall_not_mem.mpr hlog.1, ?_⟩
  cases hresult : (ranked req env routed).result with
  | error e =>
    show onceIf (counted e.message) _ ≠ []
    rw [herror e hresult]
    exact List.cons_ne_nil _ _
  | ok done => exact List.cons_ne_nil _ _

theorem ranked_of_ok (hon : req.settings.fallbackEnabled = true) (hrun : env.llmStopped = false)
    {a : Answer} (ha : env.answer 0 = .ok a) {first : RouteResult}
    (hfirst : isOauthRoute routed.route = false ∧ first = routed.route ∨
      isOauthRoute routed.route = true ∧
        nextRoute (env.worlds 0) (chainArgs req routed)
          [routed.route.provider.id] = .ok first) :
    ranked req env routed =
      ⟨[.attempt first.provider.id (env.answer 0)], .ok (.ofAnswer env a first)⟩ := by
  have hcall := callRoute_of_running env hrun 0 first
  have hanswer : (callRoute env 0 first).result = .ok a := by
    rw [hcall]
    exact ha
  rcases hfirst with ⟨hown, hsame⟩ | ⟨hoauth, hnext⟩
  · subst hsame
    rw [ranked_of_chain hon (tryRanked_start hown), tryFrom_eq_of_ok hanswer, hcall]
    rfl
  · rw [ranked_of_chain hon (tryRanked_skip hoauth hnext), tryFrom_eq_of_ok hanswer, hcall]
    rfl

theorem tryFrom_failed_cases (hrun : env.llmStopped = false) {e : Failure} {n : Nat}
    (he : env.answer n = .error e) (tried : List String) (chain : FallbackChain)
    (current : RouteResult) :
    (tryFrom env.worlds (chainArgs req routed) (callRoute env) n tried chain current =
        ⟨[.attempt current.provider.id (env.answer n)], .error e⟩ ∧
      (req.settings.fallbackMaxProviders ≤ ((current.provider.id :: tried).length : Int) ∨
        ∀ next, nextRoute (env.worlds (n + 1)) (chainArgs req routed)
          (current.provider.id :: tried) ≠ .ok next)) ∨
    ((((current.provider.id :: tried).length : Int) < req.settings.fallbackMaxProviders ∧
        ∃ next, nextRoute (env.worlds (n + 1)) (chainArgs req routed)
          (current.provider.id :: tried) = .ok next) ∧
      ∃ p q, p ≠ q ∧ ∀ id ∈ [p, q], id ∈ (tryFrom env.worlds (chainArgs req routed) (callRoute env)
        n tried chain current).log.filterMap Event.attempted) := by
  have hcall := callRoute_of_running env hrun
  have hraised : (callRoute env n current).result = .error e := by
    rw [hcall]
    exact he
  by_cases hlast : req.settings.fallbackMaxProviders ≤ ((current.provider.id :: tried).length : Int) ∨
      ∀ next, nextRoute (env.worlds (n + 1)) (chainArgs req routed)
        (current.provider.id :: tried) ≠ .ok next
  · refine Or.inl ⟨?_, hlast⟩
    rw [tryFrom_eq_of_last hraised hlast, hcall]
  · obtain ⟨hcap, hnext⟩ := not_or.mp hlast
    push Not at hcap hnext
    obtain ⟨next, hnext⟩ := hnext
    refine Or.inr ⟨⟨hcap, next, hnext⟩, current.provider.id, next.provider.id, ?_, ?_⟩
    · intro heq
      exact nextRoute_fresh hnext (heq ▸ List.mem_cons_self)
    · have hfirst : (Event.attempt current.provider.id (env.answer n)) ∈
          (tryFrom env.worlds (chainArgs req routed) (callRoute env) n tried chain current).log := by
        apply mem_log_tryFrom
        rw [hcall]
        exact List.mem_singleton.mpr rfl
      have hsecond : (Event.attempt next.provider.id (env.answer (n + 1))) ∈
          (tryFrom env.worlds (chainArgs req routed) (callRoute env) n tried chain current).log := by
        refine mem_log_tryFrom_next hraised hcap hnext ?_
        rw [hcall]
        exact List.mem_singleton.mpr rfl
      intro id hid
      rcases List.mem_cons.mp hid with hp | hq
      · exact List.mem_filterMap.mpr ⟨_, hfirst, by rw [hp]; rfl⟩
      · exact List.mem_filterMap.mpr ⟨_, hsecond, by rw [List.mem_singleton.mp hq]; rfl⟩

theorem not_perm_of_failed {log : List (Event (Except Failure Answer))}
    {result : Except Failure Finish}
    (htwo : ∃ p q, p ≠ q ∧ ∀ id ∈ [p, q], id ∈ log.filterMap Event.attempted) :
    ¬ (log.filterMap Event.attempted).Perm (outcomesOf routed.route result) := by
  obtain ⟨p, q, hne, hmem⟩ := htwo
  exact not_perm_of_two (hmem p List.mem_cons_self)
    (hmem q (List.mem_cons_of_mem _ (List.mem_singleton.mpr rfl))) hne

theorem ranked_failed (hon : req.settings.fallbackEnabled = true) (hrun : env.llmStopped = false)
    {e : Failure} (he : env.answer 0 = .error e) :
    ((ranked req env routed).log.filterMap Event.attempted).Perm
        (outcomesOf routed.route (ranked req env routed).result) ↔
      counted e.message = true ∧ ChainStops req env routed := by
  cases hoauth : isOauthRoute routed.route with
  | false =>
    rw [ranked_of_chain hon (tryRanked_start hoauth)]
    rcases @tryFrom_failed_cases req env routed hrun e 0 he [] [] routed.route with
      ⟨htry, hlast⟩ | ⟨⟨hcap, next, hnext⟩, htwo⟩
    · rw [htry]
      have hstops : ChainStops req env routed := fun _ => ⟨hoauth, hlast⟩
      show [routed.route.provider.id].Perm (onceIf (counted e.message) _) ↔ _
      rw [perm_onceIf]
      exact ⟨fun htold => ⟨htold, hstops⟩, fun hboth => hboth.1⟩
    · refine iff_of_false (not_perm_of_failed htwo) ?_
      rintro ⟨-, hstops⟩
      rcases (hstops hon).2 with hmax | hnone
      · simp only [List.length_singleton, Nat.cast_one] at hcap
        omega
      · exact hnone next hnext
  | true =>
    refine iff_of_false ?_ (fun hboth => absurd (hboth.2 hon).1 (by rw [hoauth]; decide))
    cases hnext : nextRoute (env.worlds 0) (chainArgs req routed) [routed.route.provider.id] with
    | error err =>
      rw [ranked_of_chain hon (tryRanked_exhausted hoauth hnext)]
      exact not_perm_nil_onceIf counted_exhausted _
    | ok next =>
      rw [ranked_of_chain hon (tryRanked_skip hoauth hnext)]
      rcases @tryFrom_failed_cases req env routed hrun e 0 he
        [routed.route.provider.id] (FallbackChain.add [] routed.route.provider.name
          "skip:oauth-not-via-litellm") next with ⟨htry, -⟩ | ⟨-, htwo⟩
      · -- the failure is put down to the route that was passed over
        rw [htry]
        intro hperm
        have hmem : next.provider.id ∈ onceIf (counted e.message) routed.route.provider.id :=
          hperm.mem_iff.mp (List.mem_singleton.mpr rfl)
        have hsame : next.provider.id = routed.route.provider.id := by
          unfold onceIf at hmem
          split at hmem
          · exact List.mem_singleton.mp hmem
          · cases hmem
        exact nextRoute_fresh hnext (hsame ▸ List.mem_singleton.mpr rfl)
      · exact not_perm_of_failed htwo

theorem ranked_answered (hrun : env.llmStopped = false) {a : Answer} (ha : env.answer 0 = .ok a) :
    ((ranked req env routed).log.filterMap Event.attempted).Perm
        (outcomesOf routed.route (ranked req env routed).result) ↔
      a.looksLikeEmptySuccessFailure = false ∧ ChainStarts req env routed := by
  have hfrom : ∀ first, ranked req env routed =
      ⟨[.attempt first.provider.id (env.answer 0)], .ok (.ofAnswer env a first)⟩ →
        ChainStarts req env routed →
          (((ranked req env routed).log.filterMap Event.attempted).Perm
            (outcomesOf routed.route (ranked req env routed).result) ↔
              a.looksLikeEmptySuccessFailure = false ∧ ChainStarts req env routed) := by
    intro first hranked hstarts
    rw [hranked]
    refine (perm_outcomesOf_answer env a routed.route first).trans ?_
    exact ⟨fun hfull => ⟨hfull, hstarts⟩, fun hboth => hboth.1⟩
  cases hon : req.settings.fallbackEnabled with
  | false =>
    have hplain := @ranked_of_plain req env routed hon hrun
    rw [ha] at hplain
    refine hfrom routed.route ?_ fun hcontra => absurd hcontra (by rw [hon]; decide)
    rw [hplain, ha]
    rfl
  | true =>
    cases hoauth : isOauthRoute routed.route with
    | false =>
      exact hfrom routed.route (ranked_of_ok hon hrun ha (Or.inl ⟨hoauth, rfl⟩))
        fun _ hcontra => absurd hcontra (by rw [hoauth]; decide)
    | true =>
      cases hnext : nextRoute (env.worlds 0) (chainArgs req routed) [routed.route.provider.id] with
      | ok next =>
        exact hfrom next (ranked_of_ok hon hrun ha (Or.inr ⟨hoauth, hnext⟩))
          fun _ _ => ⟨next, hnext⟩
      | error err =>
        rw [ranked_of_chain hon (tryRanked_exhausted hoauth hnext)]
        refine iff_of_false (not_perm_nil_onceIf counted_exhausted _) ?_
        rintro ⟨-, hstarts⟩
        obtain ⟨next, hok⟩ := hstarts hon hoauth
        have hcontra := hnext.symm.trans hok
        cases hcontra

theorem ranked_settled (keyId : String) :
    OneOutcomeEach (concluded keyId routed.route (ranked req env routed)).log ↔
      RankedSettled req env routed := by
  rw [concluded_iff keyId routed.route (ranked_only req env routed)]
  unfold RankedSettled
  cases hstop : env.llmStopped with
  | true =>
    obtain ⟨hlog, hout⟩ := @ranked_of_stopped req env routed hstop
    rw [hlog]
    refine iff_of_false (fun hperm => hout (List.nil_perm.mp hperm)) ?_
    exact fun hcontra => absurd hcontra.1 Bool.false_ne_true.symm
  | false =>
    cases hanswer : env.answer 0 with
    | ok a =>
      rw [ranked_answered hstop hanswer]
      constructor
      · exact fun hboth => ⟨rfl, Or.inl ⟨a, rfl, hboth⟩⟩
      · rintro ⟨-, ⟨b, hb, hboth⟩ | ⟨e, he, -⟩⟩
        · rw [Except.ok.inj hb]
          exact hboth
        · cases he
    | error e =>
      have hiff : ((ranked req env routed).log.filterMap Event.attempted).Perm
          (outcomesOf routed.route (ranked req env routed).result) ↔
            counted e.message = true ∧ ChainStops req env routed := by
        cases hon : req.settings.fallbackEnabled with
        | true => exact ranked_failed hon hstop hanswer
        | false =>
          rw [@ranked_of_plain req env routed hon hstop, hanswer]
          refine (perm_onceIf _ _).trans ⟨fun htold => ⟨htold, fun hcontra => ?_⟩, fun hb => hb.1⟩
          rw [hon] at hcontra
          cases hcontra
      rw [hiff]
      constructor
      · exact fun hboth => ⟨rfl, Or.inr ⟨e, rfl, hboth⟩⟩
      · rintro ⟨-, ⟨b, hb, -⟩ | ⟨e', he', hboth⟩⟩
        · cases hb
        · rw [Except.error.inj he']
          exact hboth

end

/-! ## Exactly one -/

/-- The attempts of the request have one outcome each. -/
def ChatSettled (req : ChatRequest) (env : CompletionsEnv) (routed : Routed) : Prop :=
  if routed.route.toolEmulationEngaged then
    answeredOrCounted (env.answer 0 >>= Answer.firstText) = true
  else if routed.route.cotEngaged then False
  else if req.settings.structuredOutputEnabled && !req.hasTools && req.hasSchema then
    0 ≤ env.maxRepairs ∧ env.llmStopped = false ∧ schemaSettled env = true
  else RankedSettled req env routed

theorem counted_cotRefusal : counted "422: CoT-E requires stream=true" = true :=
  counted_of_not_callerSide (by decide +kernel)

theorem cotRefusal_unsettled (keyId : String) (route : RouteResult) :
    ¬ OneOutcomeEach (concluded keyId route
      (raise ⟨"HTTPException", "422: CoT-E requires stream=true"⟩)).log := by
  rw [concluded_iff keyId route (ensures_raise _)]
  exact not_perm_nil_onceIf counted_cotRefusal _

/-- The provider is down. -/
def serverErrorCall : OauthCall where
  keyId := "k1"
  providerId := "p1"
  post := fun _ => .response
    { status := 500
      text := "internal error"
      json := none
      statusError := "Server error '500 Internal Server Error'" }
  newToken := none

end LlmProxy.Dispatch
