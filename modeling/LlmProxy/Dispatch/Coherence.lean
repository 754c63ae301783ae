import Mathlib.Data.Set.Basic
import LlmProxy.Dispatch.NonStreaming

/-! # Model and credentials of a call

A run of `dispatch_non_streaming` calls upstream at six places. Four of them build the keyword
arguments for the route they call; the proxy-tool hops and the refusal cascade pass `extra`, the
arguments of the route the run began with, after the fallback chain has put another route in its
place, or with the model of another provider.

Main result: `credentials_coherent_iff` — the calls of all runs are coherent exactly when every
route the fallback chain can hand to the hops, and every route the cascade can be offered after
an answer, has the credentials of the request's own route.
-/

namespace LlmProxy.Dispatch

open LlmProxy.Providers
open LlmProxy.Routing
open LlmProxy.Streaming (Completion Block Response toAnthropicResponse)
open Logged

/-- The provider tables a run reads are among `tables`. -/
structure DispatchEnv.Reads (env : DispatchEnv) (tables : Set (List Provider)) : Prop where
  cheap : env.cheapWorld.providers ∈ tables
  grader : env.graderWorld.providers ∈ tables
  fallback : ∀ n, (env.fallbackWorlds n).providers ∈ tables
  refusal : ∀ n, (env.refusalWorlds n).providers ∈ tables

section

variable (ctx : DispatchCtx) (tables : Set (List Provider))

/-- In every run, whatever the upstreams answer, the breakers and clocks say and the proxy tools
return, model and credentials of each call come from one route. -/
def CredentialsCoherent : Prop :=
  ∀ env : DispatchEnv, env.Reads tables →
    ∀ call ∈ (dispatchNonStreaming ctx env).log, Coherent env.up call

/-- The fallback chain can end on this route after the request's own was tried or passed
over. -/
def FallbackOffers (r : RouteResult) : Prop :=
  ctx.settings.fallbackEnabled = true ∧
    (isOauthRoute ctx.route = true ∨ 2 ≤ ctx.settings.fallbackMaxProviders) ∧
    ∃ w : World, w.providers ∈ tables ∧
      HandsOver (rankedArgs ctx) ctx.route.provider.id w r

/-- An answer can be put down to this route. -/
def Answers (s : RouteResult) : Prop :=
  (s = ctx.route ∧ (ctx.settings.fallbackEnabled = true → isOauthRoute ctx.route = false)) ∨
    FallbackOffers ctx tables s

/-- The refusal cascade can be offered `r` after an answer of `s`. -/
def RefusalOffers (s r : RouteResult) : Prop :=
  ∃ w : World, w.providers ∈ tables ∧
    selectRoute w ((cascadeRequest ctx.hint ctx.hasImages ctx.key).around [s.provider.id]) = .ok r

end

variable {ctx : DispatchCtx} {tables : Set (List Provider)} {env : DispatchEnv}

/-! ## Sufficiency -/

theorem AnswerRoute.answers {s : RouteResult} (henv : env.Reads tables)
    (h : AnswerRoute ctx env s) : Answers ctx tables s := by
  cases h with
  | plain off => exact Or.inl ⟨rfl, fun hon => by rw [off] at hon; cases hon⟩
  | ranked on chain =>
    cases chain with
    | own through => exact Or.inl ⟨rfl, fun _ => through⟩
    | next n ids tried room handed =>
      obtain ⟨away, hover⟩ := nextRoute_first tried handed
      exact Or.inr ⟨on, room, (env.fallbackWorlds n).without away, henv.fallback n, hover⟩

/-- Every run is coherent where the hops and the cascade are handed the credentials of
`extra`. -/
theorem coherent_of_offers
    (hhops : ctx.proxyToolsInjected = true → ∀ r, FallbackOffers ctx tables r →
      r.litellmKwargs = ctx.route.litellmKwargs)
    (hcascade : ctx.key.refusalRetryEnabled = true → ∀ s r, Answers ctx tables s →
      RefusalOffers ctx tables s r → r.litellmKwargs = ctx.route.litellmKwargs) :
    CredentialsCoherent ctx tables := by
  intro env henv call hmem
  obtain ⟨hmodel, hmade⟩ := (dispatchNonStreaming_calls ctx env).1 call hmem
  refine ⟨hmodel, ?_⟩
  cases hmade with
  | cheap select own => exact own
  | grader cheap chosen own => exact own
  | answer route own => exact own
  | hop injected route extra =>
    rw [extra, ctx.own]
    rcases route.answers henv with ⟨hsame, -⟩ | hoffer
    · exact Or.inl (by rw [hsame])
    · exact Or.inl (hhops injected call.route hoffer).symm
  | refusal on s answered n ids tried select extra =>
    rw [extra, ctx.own]
    -- what is offered around several ids is offered around the first
    have hsub : ∀ id ∈ [s.provider.id], id ∈ ids := by
      intro id hid
      rw [List.mem_singleton.mp hid]
      exact tried
    have hoffer : RefusalOffers ctx tables s call.route :=
      ⟨(env.refusalWorlds n).without ids, henv.refusal n, selectRoute_shrink hsub select⟩
    exact Or.inl (hcascade on s call.route (answered.answers henv) hoffer).symm

/-! ## Necessity: every offer is taken in some run -/

/-- A run with one answer: the call at `site` gets it, every other call fails; the fallback
chain selects in one world, everything else in another. -/
def scriptedEnv (chain other : World) (site : Site) (answer : Completion) (tools : List String) :
    DispatchEnv where
  up :=
    { answer := fun s => if s = site then .ok answer else .error ⟨"APIError", "unavailable"⟩
      accounts := fun _ => [] }
  cheapWorld := other
  graderWorld := other
  fallbackWorlds := fun _ => chain
  refusalWorlds := fun _ => other
  registry := fun _ => tools
  runTool := fun _ _ _ => ""
  tokenHex := fun _ _ => ""
  isalnum := fun _ => false

theorem scriptedEnv_reads {chain other : World} (hchain : chain.providers ∈ tables)
    (hother : other.providers ∈ tables) (site : Site) (answer : Completion)
    (tools : List String) : (scriptedEnv chain other site answer tools).Reads tables :=
  ⟨hother, hother, fun _ => hchain, fun _ => hother⟩

theorem coherent_scriptedEnv {chain other : World} {site : Site} {answer : Completion}
    {tools : List String} {call : Call}
    (h : Coherent (scriptedEnv chain other site answer tools).up call) :
    call.kwargs.credentials = call.route.litellmKwargs := by
  rcases h.2 with hown | ⟨_, account, hmem, -⟩
  · exact hown
  · exact absurd hmem List.not_mem_nil

theorem primaryAnswer_scripted {s : RouteResult} {other : World}
    (hother : other.providers ∈ tables) (h : Answers ctx tables s) :
    ∃ chain site, chain.providers ∈ tables ∧ site ≠ .cheap ∧ ∀ answer tools,
      (primaryAnswer ctx (scriptedEnv chain other site answer tools)).result =
        .ok (answer, s) := by
  rcases h with ⟨hs, hoauth⟩ | ⟨hon, hroom, w, hw, hover⟩
  · cases hon : ctx.settings.fallbackEnabled with
    | false =>
      refine ⟨other, .plain, hother, by simp, fun answer tools => ?_⟩
      unfold primaryAnswer
      rw [if_neg (by simp [hon]), hs]
      exact result_bind rfl
    | true =>
      refine ⟨other, .attempt 0, hother, by simp, fun answer tools => ?_⟩
      unfold primaryAnswer
      rw [if_pos hon, hs]
      exact result_bind (tryRanked_primary (hoauth hon) rfl)
  · refine ⟨w, .attempt (if isOauthRoute ctx.route then 0 else 1), hw, by simp,
      fun answer tools => ?_⟩
    have hsecond : ∃ chain, 1 < chain.length ∧
        (tryRankedNonStreaming
          (scriptedEnv w other (.attempt (if isOauthRoute ctx.route then 0 else 1)) answer
            tools).fallbackWorlds (rankedArgs ctx)
          (fun n r => callWithRoute
            (scriptedEnv w other (.attempt (if isOauthRoute ctx.route then 0 else 1)) answer
              tools).up ctx.settings.toFanoutSettings ctx.parts ctx.messages (.attempt n) r)
          ctx.route).result = .ok (answer, s, chain) := by
      refine tryRanked_second ⟨"APIError", "unavailable"⟩ (fun _ => hover) hroom ?_ ?_
      · intro hno
        show (if (Site.attempt 0 = .attempt (if isOauthRoute ctx.route then 0 else 1)) then _
          else _) = _
        rw [hno]
        rfl
      · show (if _ then _ else _) = _
        rw [if_pos rfl]
    obtain ⟨chain, hlong, hresult⟩ := hsecond
    unfold primaryAnswer
    rw [if_pos hon, result_bind hresult]
    show Except.ok (answer, if 1 < chain.length then s else ctx.route) = _
    rw [if_pos hlong]

theorem mem_log_of_cheap_failed {call : Call} {exc : Failure}
    (hcheap : env.up.answer .cheap = .error exc) (hmem : call ∈ (answerRequest ctx env).log) :
    call ∈ (dispatchNonStreaming ctx env).log := by
  have hnone : (tryCascadeDispatch ctx env).result = .ok none := by
    unfold tryCascadeDispatch
    split
    · rfl
    · next cheap _ =>
      have hfails : (attempt (callWithRoute env.up ctx.settings.toFanoutSettings ctx.parts
          ctx.messages .cheap cheap)).result = .ok (.error exc) := congrArg Except.ok hcheap
      rw [result_bind hfails]
      rfl
  unfold dispatchNonStreaming
  split
  · exact mem_log_bind hnone hmem
  · exact hmem

/-- A completion that calls the tool `proxy`. -/
def toolAnswer : Completion where
  id := none
  model := none
  choices := [⟨none, [⟨some "call_1", some ⟨some "proxy", none⟩⟩], some "tool_calls"⟩]
  usage := none

/-- A completion that refuses. -/
def refusedAnswer : Completion where
  id := none
  model := none
  choices := [⟨some "REFUSED: no", [], some "stop"⟩]
  usage := none

theorem toolAnswer_response (tokenHex : Nat → String) :
    ∃ response, toAnthropicResponse tokenHex toolAnswer = .ok response ∧
      ∃ input, findProxyToolUse ["proxy"] response.content = some ("proxy", input, "call_1") :=
  ⟨_, rfl, _, rfl⟩

theorem refusedAnswer_response (tokenHex : Nat → String) :
    ∃ response, toAnthropicResponse tokenHex refusedAnswer = .ok response ∧
      extractText response.content = "REFUSED: no" :=
  ⟨_, rfl, rfl⟩

theorem detectRefusal_marker (isalnum : Char → Bool) :
    (detectRefusal isalnum "REFUSED: no").isSome = true := rfl

theorem findProxyToolUse_nil (content : List Block) : findProxyToolUse [] content = none := by
  induction content with
  | nil => rfl
  | cons block rest ih =>
    cases block with
    | text t => exact ih
    | toolUse id name input => exact ih

theorem hops_of_coherent (h : CredentialsCoherent ctx tables)
    (hinjected : ctx.proxyToolsInjected = true) {r : RouteResult}
    (hoffer : FallbackOffers ctx tables r) : r.litellmKwargs = ctx.route.litellmKwargs := by
  have hanswers : Answers ctx tables r := Or.inr hoffer
  obtain ⟨-, -, other, hother, -⟩ := hoffer
  obtain ⟨chain, site, hchain, hsite, hscript⟩ := primaryAnswer_scripted hother hanswers
  obtain ⟨response, hresponse, input, htool⟩ := toolAnswer_response (fun _ => "")
  let env := scriptedEnv chain other site toolAnswer ["proxy"]
  let messages := ctx.messages ++ [message "assistant" (.arr (response.content.map blockJson)),
    buildToolResultMessage "call_1" (env.runTool 0 "proxy" input)]
  let call : Call := ⟨.hop 0, r, r.litellmModel, messages, ctx.extra⟩
  have hhop : call ∈ (proxyHops ctx env ⟨r, toolAnswer, response⟩).log := by
    unfold proxyHops hopFrom
    rw [if_pos hinjected]
    rw [show findProxyToolUse (env.registry 0) response.content = _ from htool]
    exact mem_log_bind_left (List.mem_singleton.mpr rfl)
  have hconvert : (convert (env.tokenHex .plain) toolAnswer).result = .ok response :=
    convert_of_ok hresponse
  have hmem : call ∈ (answerRequest ctx env).log :=
    mem_log_bind (hscript toolAnswer ["proxy"]) (mem_log_bind hconvert (mem_log_bind_left hhop))
  have hcoherent := h env (scriptedEnv_reads hchain hother site toolAnswer ["proxy"]) call
    (mem_log_of_cheap_failed (if_neg hsite.symm) hmem)
  have hown : ctx.extra.credentials = r.litellmKwargs := coherent_scriptedEnv hcoherent
  rw [← hown]
  exact ctx.own

theorem cascade_of_coherent (h : CredentialsCoherent ctx tables)
    (hon : ctx.key.refusalRetryEnabled = true) {s r : RouteResult}
    (hanswers : Answers ctx tables s) (hoffer : RefusalOffers ctx tables s r) :
    r.litellmKwargs = ctx.route.litellmKwargs := by
  obtain ⟨other, hother, hselect⟩ := hoffer
  obtain ⟨chain, site, hchain, hsite, hscript⟩ := primaryAnswer_scripted hother hanswers
  obtain ⟨response, hresponse, htext⟩ := refusedAnswer_response (fun _ => "")
  let env := scriptedEnv chain other site refusedAnswer []
  have hhops : (proxyHops ctx env ⟨s, refusedAnswer, response⟩).result =
      .ok (ctx.messages, ⟨s, refusedAnswer, response⟩) := by
    unfold proxyHops hopFrom
    split
    · rw [show findProxyToolUse (env.registry 0) response.content = none from
        findProxyToolUse_nil response.content]
      rfl
    · rfl
  have hrefuses : (cascadeEnv env).refuses response = true := by
    unfold CascadeEnv.refuses
    rw [htext]
    exact detectRefusal_marker _
  obtain ⟨call, hmem, hroute, hcred⟩ : ∃ call ∈ (refusalCascade ctx env ctx.messages
      ⟨s, refusedAnswer, response⟩).log, call.route = r ∧
        call.kwargs.credentials = ctx.extra.credentials := by
    have hcalled : ∃ call ∈ (cascadeDispatch ctx env ctx.messages 0 r).log, call.route = r ∧
        call.kwargs.credentials = ctx.extra.credentials :=
      ⟨_, List.mem_singleton.mpr rfl, rfl, rfl⟩
    obtain ⟨call, hmem, hcall⟩ := hcalled
    exact ⟨call, mem_log_maybeCascadeOnRefusal hon hrefuses hselect hmem, hcall⟩
  have hconvert : (convert (env.tokenHex .plain) refusedAnswer).result = .ok response :=
    convert_of_ok hresponse
  have hanswer : call ∈ (answerRequest ctx env).log :=
    mem_log_bind (hscript refusedAnswer [])
      (mem_log_bind hconvert (mem_log_bind hhops (mem_log_bind_left hmem)))
  have hcoherent := h env (scriptedEnv_reads hchain hother site refusedAnswer []) call
    (mem_log_of_cheap_failed (if_neg hsite.symm) hanswer)
  have hown : call.kwargs.credentials = call.route.litellmKwargs := coherent_scriptedEnv hcoherent
  rw [← hroute, ← hown, hcred]
  exact ctx.own

/-- **Credentials of a run**: in all runs of a request over the given provider tables model and
credentials of every call come from one route, exactly when the routes handed to the proxy-tool
hops and to the refusal cascade carry the credentials of the request's own route. -/
theorem credentials_coherent_iff (ctx : DispatchCtx) (tables : Set (List Provider)) :
    CredentialsCoherent ctx tables ↔
      (ctx.proxyToolsInjected = true → ∀ r, FallbackOffers ctx tables r →
        r.litellmKwargs = ctx.route.litellmKwargs) ∧
      (ctx.key.refusalRetryEnabled = true → ∀ s r, Answers ctx tables s →
        RefusalOffers ctx tables s r → r.litellmKwargs = ctx.route.litellmKwargs) := by
  constructor
  · intro h
    exact ⟨fun hinjected r hoffer => hops_of_coherent h hinjected hoffer,
      fun hon s r hanswers hoffer => cascade_of_coherent h hon hanswers hoffer⟩
  · rintro ⟨hhops, hcascade⟩
    exact coherent_of_offers hhops hcascade

/-! ## A fixed request -/

def claudeRow : Provider :=
  { id := "p1", name := "Anthropic", providerType := "anthropic", apiKey := some "sk-ant",
    defaultModel := some "claude-sonnet-4-6" }

def gptRow : Provider :=
  { id := "p2", name := "OpenAI", providerType := "openai", apiKey := some "sk-oai",
    defaultModel := some "gpt-4o" }

/-- The world in which nothing speaks against the second row. -/
def gptWorld : World := quietWorld [claudeRow, gptRow] [] {} [] none gptRow

/-- The route of a request without a model to the first row. -/
def claudeRoute : RouteResult :=
  boundRoute gptWorld {} false claudeRow (soleRanked gptWorld {} claudeRow) []

/-- A request of a key with the refusal cascade switched on. -/
def retryingCtx : DispatchCtx where
  route := claudeRoute
  extra := buildExtra {} claudeRoute
  own := rfl
  key := { id := "k1", refusalRetryEnabled := true }

theorem gptRow_selected : ∃ r, selectRoute gptWorld
    ((cascadeRequest none false retryingCtx.key).around ["p1"]) = .ok r ∧ r.provider = gptRow := by
  have hadmitted : Admitted gptWorld
      ((cascadeRequest none false retryingCtx.key).around ["p1"]) gptRow :=
    { row := List.mem_cons_of_mem _ List.mem_cons_self
      enabled := rfl
      pinned := fun _ h => nomatch h
      compliant := fun _ id hid => by
        have hkey : some "k1" = some id := hid
        rw [← Option.some.inj hkey]
        decide
      notExcluded := fun h => nomatch h
      notExcludedIds := by decide
      accessible := rfl
      available := rfl
      tools := fun h => nomatch h
      type := List.not_mem_nil
      chat := fun _ => by decide }
  have hids : (gptWorld.providers.map (·.id)).Nodup := by decide
  obtain ⟨huse, hnodup⟩ := quietWorld_usable [] {} [] none hadmitted.row hadmitted.enabled
    hids.of_map
  obtain ⟨r, hroute, hprovider, -⟩ := selectProvider_sole hadmitted
    (leavesOnly_otherIds hids hadmitted.row rfl) ⟨rfl, rfl, rfl, rfl, rfl, rfl, rfl⟩ rfl rfl huse
    hnodup
  exact ⟨r, selectRoute_of_selectProvider hroute, hprovider⟩

theorem gptRow_offered : ∃ r, RefusalOffers retryingCtx {[claudeRow, gptRow]} claudeRoute r ∧
    r.provider = gptRow := by
  obtain ⟨r, hselect, hprovider⟩ := gptRow_selected
  exact ⟨r, ⟨gptWorld, rfl, hselect⟩, hprovider⟩

/-- The first row refuses, the second is called with the first one's key. -/
theorem cascade_sends_other_key : ¬ CredentialsCoherent retryingCtx {[claudeRow, gptRow]} := by
  intro h
  obtain ⟨r, hoffer, hprovider⟩ := gptRow_offered
  have hanswers : Answers retryingCtx {[claudeRow, gptRow]} claudeRoute :=
    Or.inl ⟨rfl, fun _ => by decide⟩
  have hsame := cascade_of_coherent h rfl hanswers hoffer
  obtain ⟨w, -, hselect⟩ := hoffer
  rw [(selectRoute_route hselect).2.2, hprovider] at hsame
  have hkeys : buildLitellmKwargs gptRow ≠ buildLitellmKwargs claudeRow := by decide
  exact hkeys hsame

end LlmProxy.Dispatch
