import LlmProxy.Lib.Logged
import LlmProxy.OAuth.Accounts
import LlmProxy.Routing.Selection
import LlmProxy.Streaming.Anthropic

/-! # Upstream calls of `/v1/messages`

The call `acompletion_with_retry(model=.., messages=.., **kwargs)`, its keyword arguments and
how `_call_with_route` of `app/api/_messages_nonstream_dispatch.py` builds them for a route.

Mirroring notes.
* A call is logged with the route whose `litellm_model` it names; the log of a run is the list
  of its calls.
* What the retry wrapper does with a call (back-off, the one retry under a replacement model)
  keeps the keyword arguments, and is part of the answer a call gets.
* `system`, `tools` and `thinking` are the JSON values of the request.
-/

namespace LlmProxy.Dispatch

open LlmProxy.Providers
open LlmProxy.Routing
open LlmProxy.OAuth
open LlmProxy.Streaming (Completion)

structure Failure where
  type : String
  message : String
  deriving DecidableEq, Repr

/-! ## Keyword arguments -/

/-- The `thinking` argument: the router's for a provider with native reasoning, or the
client's own block. -/
inductive Thinking where
  | budget (tokens : Int)
  | client (block : Json)

/-- `_THINKING_CONTENT_HEADROOM` and `_THINKING_BUDGET_MIN`. -/
def thinkingContentHeadroom : Int := 1024
def thinkingBudgetMin : Int := 128

/-- `clamp_thinking_budget`. -/
def clampThinkingBudget (maxTokens budget : Int) : Int :=
  if maxTokens ≤ 0 then budget
  else if budget + thinkingContentHeadroom > maxTokens then
    max thinkingBudgetMin (min budget (maxTokens / 2))
  else budget

structure CallKwargs where
  /-- the keys of `litellm_kwargs` -/
  credentials : LitellmKwargs
  maxTokens : Int
  system : Option Json := none
  tools : Option Json := none
  thinking : Option Thinking := none
  reasoningEffort : Option String := none
  /-- `extra_headers["anthropic-beta"]` -/
  anthropicBeta : Option String := none

/-- The parts of a request that become keyword arguments. -/
structure RequestParts where
  maxTokens : Int := 1024
  system : Json := .null
  litellmTools : Json := .null
  thinking : Json := .null
  anthropicBeta : Option String := none

/-- `{"key": value}` where the value is true. -/
def ifTruthy (value : Json) : Option Json := if value.truthy then some value else none

/-- The keyword arguments built for one route: its credentials, the request's parts and the
reasoning argument its provider takes. -/
def buildExtra (parts : RequestParts) (r : RouteResult) : CallKwargs :=
  let anthropic : Bool := r.profile.providerType = "anthropic"
  { credentials := r.litellmKwargs
    maxTokens := parts.maxTokens
    system := ifTruthy parts.system
    tools := ifTruthy parts.litellmTools
    thinking :=
      match r.nativeThinkingParams with
      | .thinking budget => some (.budget (clampThinkingBudget parts.maxTokens budget))
      | .reasoningEffort _ => none
      | .none => if anthropic then (ifTruthy parts.thinking).map .client else none
    reasoningEffort :=
      match r.nativeThinkingParams with
      | .reasoningEffort effort => some effort
      | _ => none
    anthropicBeta := if anthropic then truthy parts.anthropicBeta else none }

/-- `extra` after the route it was built for is replaced: the keys of the old
`litellm_kwargs` are popped, the new route's put in. -/
def swapCredentials (extra : CallKwargs) (r : RouteResult) : CallKwargs :=
  { extra with credentials := r.litellmKwargs }

/-! ## Calls -/

/-- Where in a run a call is made; every place is passed once. -/
inductive Site where
  | cheap
  | grader
  | attempt (n : Nat)
  | plain
  | hop (n : Nat)
  | refusal (n : Nat)
  deriving DecidableEq, Repr

structure Call where
  site : Site
  route : RouteResult
  model : String
  messages : List Json
  kwargs : CallKwargs

/-- A run: the calls it makes, and how it ends. -/
abbrev Run := Logged Call Failure

structure Upstream where
  answer : Site → Except Failure Completion
  /-- the table of OAuth accounts, as the fan-out of a call reads it -/
  accounts : Site → List OAuthAccount

/-- `acompletion_with_retry(model=r.litellm_model, messages=messages, **kwargs)`. -/
def acompletionWithRetry (up : Upstream) (site : Site) (r : RouteResult) (messages : List Json)
    (kwargs : CallKwargs) : Run Completion :=
  .perform ⟨site, r, r.litellmModel, messages, kwargs⟩ (up.answer site)

/-- `_call_with_route`. -/
def callWithRoute (up : Upstream) (fanout : FanoutSettings) (parts : RequestParts)
    (messages : List Json) (site : Site) (r : RouteResult) : Run Completion :=
  let extra := buildExtra parts r
  let fanned := (applyFanoutToKwargs fanout (up.accounts site) extra.credentials r.provider).1
  acompletionWithRetry up site r messages { extra with credentials := fanned }

/-! ## Coherence of a call -/

/-- The credentials are the route's: its keyword arguments, or these with the token of an
account of the route's own provider. -/
def OwnCredentials (up : Upstream) (r : RouteResult) (credentials : LitellmKwargs) : Prop :=
  credentials = r.litellmKwargs ∨
    ∃ site, ∃ account ∈ up.accounts site, account.providerId = r.provider.id ∧
      credentials = { r.litellmKwargs with apiKey := some account.accessToken }

/-- Model and credentials of a call come from one route. -/
def Coherent (up : Upstream) (call : Call) : Prop :=
  call.model = call.route.litellmModel ∧ OwnCredentials up call.route call.kwargs.credentials

theorem fanned_own (up : Upstream) (fanout : FanoutSettings) (parts : RequestParts) (site : Site)
    (r : RouteResult) :
    OwnCredentials up r
      (applyFanoutToKwargs fanout (up.accounts site) (buildExtra parts r).credentials r.provider).1 := by
  rcases applyFanoutToKwargs_owned fanout (up.accounts site) r.litellmKwargs r.provider with
    hsame | ⟨account, hrow, hown, htoken⟩
  · exact Or.inl hsame
  · exact Or.inr ⟨site, account, hrow, hown, htoken⟩

theorem acompletionWithRetry_ensures {up : Upstream} {site : Site} {r : RouteResult}
    {messages : List Json} {kwargs : CallKwargs} {P : Call → Prop}
    (h : P ⟨site, r, r.litellmModel, messages, kwargs⟩) :
    Logged.Ensures P (fun _ => True) (acompletionWithRetry up site r messages kwargs) :=
  Logged.ensures_perform h fun _ _ => trivial

end LlmProxy.Dispatch
