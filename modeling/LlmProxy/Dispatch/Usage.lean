import LlmProxy.Dispatch.Outcomes

/-! # The tokens a key is charged for

What `record_outcome(success=True)` is passed for a request, against what the upstream
completions of the request report: the non-streaming arm of `/v1/messages`, tool emulation on
both endpoints, and structured output.

> `usage_accounted_iff`: the two agree exactly where every completion besides the one recorded is
> free: no grader, no rejected cheap answer, no proxy-tool hop and no cascade on a refusal that
> reports tokens, and nothing at all behind emulated tools or a schema, which are recorded with
> none.

Mirroring notes.
* `dispatchAccounted` is `dispatchNonStreaming` with its two calls of `record_outcome`
  (`dispatchAccounted_erase`). The first comes behind the conversion of the answer, which is one
  of its arguments.
* Shadow traffic is the operator's sampling, run behind the response; it is no call of the
  request.
-/

namespace LlmProxy.Dispatch

open LlmProxy.Providers
open LlmProxy.Routing
open LlmProxy.Streaming (Completion Response toAnthropicResponse)
open Logged

/-! ## The arm with its records -/

def tokensOf (result : Completion) : ℕ × ℕ :=
  ((result.usage.map (·.promptTokens)).getD 0, (result.usage.map (·.completionTokens)).getD 0)

/-- An upstream call, or a success recorded with its tokens. -/
inductive Entry where
  | call (call : Call)
  | recorded (tokens : ℕ × ℕ)

namespace Entry

def call? : Entry → Option Call
  | .call c => some c
  | .recorded _ => none

def recorded? : Entry → Option (ℕ × ℕ)
  | .call _ => none
  | .recorded tokens => some tokens

end Entry

abbrev Account := Logged Entry Failure

/-- `record_outcome(success=True, in_tok=.., out_tok=..)`. -/
def recordUsage (result : Completion) : Account Unit := perform (.recorded (tokensOf result)) (.ok ())

def calling {α : Type} (x : Run α) : Account α := mapLog .call x

section

variable (ctx : DispatchCtx) (env : DispatchEnv)

/-- An accepted cheap answer is recorded before it is converted. -/
def acceptAccounted (cheap : RouteResult) (result : Completion) (acceptable : Bool) :
    Account (Option Served) :=
  if acceptable then do
    recordUsage result
    match toAnthropicResponse (env.tokenHex .cheap) result with
    | .ok response => pure (some ⟨cheap, result, response⟩)
    | .error _ => pure none
  else pure none

def gradeAccounted (cheap : RouteResult) (result : Completion) : Account (Option Served) :=
  match result.choices, lastUserText ctx.messages with
  | choice :: _, some userText => do
    let acceptable ← calling (cascadeVerdict env.up (graderRoute ctx env cheap) userText
      (choice.content.getD ""))
    acceptAccounted env cheap result acceptable
  | _, _ => pure none

/-- `try_cascade_dispatch`. -/
def cascadeAccounted : Account (Option Served) :=
  match selectRoute env.cheapWorld (cheapRequest ctx) with
  | .error _ => pure none
  | .ok cheap => do
    let outcome ← attempt (calling
      (callWithRoute env.up ctx.settings.toFanoutSettings ctx.parts ctx.messages .cheap cheap))
    match outcome with
    | .error _ => pure none
    | .ok result => gradeAccounted ctx env cheap result

/-- From the primary answer on. -/
def answerAccounted : Account Reply := do
  let answer ← calling (primaryAnswer ctx env)
  let response ← calling (convert (env.tokenHex .plain) answer.1)
  recordUsage answer.1
  let hopped ← calling (proxyHops ctx env ⟨answer.2, answer.1, response⟩)
  let cascade ← calling (refusalCascade ctx env hopped.1 hopped.2)
  pure (if isEmptyCompletion cascade.final.anthropic then .emptyCompletion cascade.final
    else .answered cascade.final)

/-- A cheap provider is asked first. -/
def DispatchCtx.cheapFirst : Bool := ctx.doCascade && !ctx.hasTools && !ctx.route.cotEngaged

/-- `dispatch_non_streaming`. -/
def dispatchAccounted : Account Reply :=
  if ctx.cheapFirst then do
    match ← cascadeAccounted ctx env with
    | some served => pure (.accepted served)
    | none => answerAccounted ctx env
  else answerAccounted ctx env

end

/-! ### Without the records -/

section

variable {α β : Type}

def erase (x : Account α) : Run α := ⟨x.log.filterMap Entry.call?, x.result⟩

theorem erase_bind {x : Account α} {f : α → Account β} {x' : Run α} {f' : α → Run β}
    (hx : erase x = x') (hf : ∀ a, erase (f a) = f' a) : erase (x >>= f) = x' >>= f' := by
  subst hx
  cases hresult : x.result with
  | error e =>
    rw [bind_of_error hresult, bind_of_error (show (erase x).result = .error e from hresult)]
    rfl
  | ok a =>
    rw [bind_of_ok hresult, bind_of_ok (show (erase x).result = .ok a from hresult), ← hf a]
    unfold erase
    rw [List.filterMap_append]

theorem filterMap_call (calls : List Call) :
    (calls.map Entry.call).filterMap Entry.call? = calls := by
  rw [List.filterMap_map]
  exact List.filterMap_some

@[simp] theorem erase_calling (x : Run α) : erase (calling x) = x := by
  unfold erase calling mapLog
  rw [filterMap_call]

theorem erase_attempt_calling (x : Run α) : erase (attempt (calling x)) = attempt x := by
  unfold erase calling mapLog attempt
  rw [filterMap_call]

theorem erase_recordUsage_bind (result : Completion) {f : Unit → Account α} :
    erase (recordUsage result >>= f) = erase (f ()) := rfl

end

variable {ctx : DispatchCtx} {env : DispatchEnv}

theorem cascadeAccounted_erase : erase (cascadeAccounted ctx env) = tryCascadeDispatch ctx env := by
  unfold cascadeAccounted tryCascadeDispatch
  cases selectRoute env.cheapWorld (cheapRequest ctx) with
  | error e => rfl
  | ok cheap =>
    refine erase_bind (erase_attempt_calling _) fun outcome => ?_
    cases outcome with
    | error exc => rfl
    | ok result =>
      dsimp only [gradeAccounted]
      cases result.choices with
      | nil => rfl
      | cons choice rest =>
        cases lastUserText ctx.messages with
        | none => rfl
        | some userText =>
          refine erase_bind (erase_calling _) fun acceptable => ?_
          cases acceptable with
          | false => rfl
          | true =>
            rw [acceptAccounted, if_pos rfl, erase_recordUsage_bind]
            cases toAnthropicResponse (env.tokenHex .cheap) result <;> rfl

theorem answerAccounted_erase : erase (answerAccounted ctx env) = answerRequest ctx env := by
  refine erase_bind (erase_calling _) fun answer => ?_
  refine erase_bind (erase_calling _) fun response => ?_
  rw [erase_recordUsage_bind]
  refine erase_bind (erase_calling _) fun hopped => ?_
  exact erase_bind (erase_calling _) fun cascade => rfl

/-! ## Sums -/

/-- What is reported by a result: nothing where it raised. -/
def paidFor {α : Type} (tokens : α → ℕ × ℕ) : Except Failure α → ℕ × ℕ
  | .ok a => tokens a
  | .error _ => 0

def tokensAt (env : DispatchEnv) (site : Site) : ℕ × ℕ := paidFor tokensOf (env.up.answer site)

def billed (env : DispatchEnv) (calls : List Call) : ℕ × ℕ :=
  (calls.map fun call => tokensAt env call.site).sum

def billedTokens (env : DispatchEnv) (log : List Entry) : ℕ × ℕ :=
  billed env (log.filterMap Entry.call?)

/-- The tokens passed to `record_outcome(success=True)`. -/
def recordedTokens (log : List Entry) : ℕ × ℕ := (log.filterMap Entry.recorded?).sum

/-- The calls report no tokens. -/
def Free (env : DispatchEnv) (calls : List Call) : Prop :=
  ∀ call ∈ calls, tokensAt env call.site = 0

theorem billed_append (calls more : List Call) :
    billed env (calls ++ more) = billed env calls + billed env more := by
  unfold billed
  rw [List.map_append, List.sum_append]

theorem billed_eq_zero_iff (calls : List Call) : billed env calls = 0 ↔ Free env calls := by
  unfold billed Free
  rw [List.sum_eq_zero_iff]
  constructor
  · intro h call hcall
    exact h _ (List.mem_map_of_mem hcall)
  · intro h tokens htokens
    obtain ⟨call, hcall, heq⟩ := List.mem_map.mp htokens
    rw [← heq]
    exact h call hcall

/-- More is billed than recorded, unless `settled`. -/
def Leaks (env : DispatchEnv) (log : List Entry) (settled : Prop) : Prop :=
  ∃ leak, billedTokens env log = recordedTokens log + leak ∧ (leak = 0 ↔ settled)

theorem Leaks.iff {log : List Entry} {settled : Prop} (h : Leaks env log settled) :
    recordedTokens log = billedTokens env log ↔ settled := by
  obtain ⟨leak, hbilled, hleak⟩ := h
  rw [hbilled, left_eq_add]
  exact hleak

theorem Leaks.append {log more : List Entry} {p q : Prop} (h : Leaks env log p)
    (hmore : Leaks env more q) : Leaks env (log ++ more) (p ∧ q) := by
  obtain ⟨leak, hbilled, hleak⟩ := h
  obtain ⟨leak', hbilled', hleak'⟩ := hmore
  refine ⟨leak + leak', ?_, ?_⟩
  · unfold billedTokens recordedTokens at *
    rw [List.filterMap_append, List.filterMap_append, billed_append, List.sum_append, hbilled,
      hbilled', add_add_add_comm]
  · rw [AddLeftCancelMonoid.add_eq_zero, hleak, hleak']

theorem Leaks.congr {log : List Entry} {p q : Prop} (h : Leaks env log p) (hpq : p ↔ q) :
    Leaks env log q := by
  rw [← propext hpq]
  exact h

theorem filterMap_recorded (calls : List Call) :
    (calls.map Entry.call).filterMap Entry.recorded? = [] := by
  rw [List.filterMap_map]
  exact List.filterMap_eq_nil_iff.mpr fun _ _ => rfl

theorem leaks_calling {α : Type} (x : Run α) : Leaks env (calling x).log (Free env x.log) := by
  refine ⟨billed env x.log, ?_, billed_eq_zero_iff x.log⟩
  show billed env ((x.log.map Entry.call).filterMap Entry.call?) =
    ((x.log.map Entry.call).filterMap Entry.recorded?).sum + billed env x.log
  rw [filterMap_call, filterMap_recorded, List.sum_nil, zero_add]

theorem leaks_recorded {α : Type} {x : Run α} {result : Completion}
    (h : billed env x.log = tokensOf result) :
    Leaks env ((calling x).log ++ (recordUsage result).log) True := by
  refine ⟨0, ?_, iff_of_true rfl trivial⟩
  unfold billedTokens recordedTokens
  rw [List.filterMap_append, List.filterMap_append]
  show billed env ((x.log.map Entry.call).filterMap Entry.call? ++ []) =
    ((x.log.map Entry.call).filterMap Entry.recorded? ++ [tokensOf result]).sum + 0
  rw [filterMap_call, filterMap_recorded, List.append_nil, List.nil_append, List.sum_singleton, h,
    add_zero]

/-! ## The primary answer -/

/-- The calls of the run report what its result does. -/
def Paid {α : Type} (env : DispatchEnv) (tokens : α → ℕ × ℕ) (x : Run α) : Prop :=
  billed env x.log = paidFor tokens x.result

theorem acompletionWithRetry_paid (site : Site) (r : RouteResult) (messages : List Json)
    (kwargs : CallKwargs) :
    Paid env tokensOf (acompletionWithRetry env.up site r messages kwargs) := by
  show tokensAt env site + 0 = tokensAt env site
  exact add_zero _

theorem Paid.map {α β : Type} {tokens : α → ℕ × ℕ} {tokens' : β → ℕ × ℕ} {x : Run α} {f : α → β}
    (h : Paid env tokens x) (hf : ∀ a, tokens' (f a) = tokens a) :
    Paid env tokens' (x >>= fun a => pure (f a)) := by
  unfold Paid at *
  rw [bind_pure_map, h]
  cases x.result with
  | error e => rfl
  | ok a => exact (hf a).symm

theorem tryFrom_paid {worlds : Nat → World} {args : RankedArgs}
    {call : Nat → RouteResult → Run Completion} (hcall : ∀ n r, Paid env tokensOf (call n r))
    (n : Nat) (tried : List String) (chain : FallbackChain) (current : RouteResult) :
    Paid env (fun out => tokensOf out.1) (tryFrom worlds args call n tried chain current) := by
  induction hleft : args.maxProviders.toNat - tried.length using Nat.strong_induction_on
    generalizing n tried chain current with
  | _ left ih =>
    have hpaid := hcall n current
    unfold Paid at hpaid ⊢
    rw [tryFrom, attempt_bind]
    cases hresult : (call n current).result with
    | ok a =>
      rw [hresult] at hpaid
      rw [billed_append, hpaid]
      exact add_zero _
    | error exc =>
      rw [hresult] at hpaid
      dsimp only
      rw [billed_append, hpaid]
      split
      · exact add_zero _
      · next hcap =>
        split
        · exact add_zero _
        · have hless : args.maxProviders.toNat - (current.provider.id :: tried).length < left := by
            simp only [List.length_cons] at hcap ⊢
            omega
          exact (zero_add _).trans (ih _ hless _ _ _ _ rfl)

theorem tryRanked_paid {worlds : Nat → World} {args : RankedArgs}
    {call : Nat → RouteResult → Run Completion} (hcall : ∀ n r, Paid env tokensOf (call n r))
    (primary : RouteResult) :
    Paid env (fun out => tokensOf out.1) (tryRankedNonStreaming worlds args call primary) := by
  unfold tryRankedNonStreaming
  split
  · dsimp only
    split
    · rfl
    · exact tryFrom_paid hcall _ _ _ _
  · exact tryFrom_paid hcall _ _ _ _

theorem primaryAnswer_paid : Paid env (fun answer => tokensOf answer.1) (primaryAnswer ctx env) := by
  unfold primaryAnswer
  split
  · refine (tryRanked_paid (fun n r => ?_) ctx.route).map fun out => rfl
    exact acompletionWithRetry_paid _ _ _ _
  · exact (acompletionWithRetry_paid _ _ _ _).map fun result => rfl

/-! ## The calls behind the answer -/

/-- No hop reports tokens: `left` to go, the n-th next, from a response. -/
def HopsFree (env : DispatchEnv) : Nat → Nat → Response → Prop
  | 0, _, _ => True
  | left + 1, n, response =>
    (findProxyToolUse (env.registry n) response.content).isSome = true →
      ∀ result, env.up.answer (.hop n) = .ok result →
        tokensOf result = 0 ∧
          ∀ next, toAnthropicResponse (env.tokenHex (.hop n)) result = .ok next →
            HopsFree env left (n + 1) next

/-- The n-th answer of the cascade is no refusal, and ends it. -/
def cascadeEnds (env : DispatchEnv) (n : Nat) : Bool :=
  match env.up.answer (.refusal n) with
  | .error _ => false
  | .ok result =>
    match toAnthropicResponse (env.tokenHex (.refusal n)) result with
    | .error _ => false
    | .ok response => !(cascadeEnv env).refuses response

/-- No call of the cascade on a refusal reports tokens: `left` attempts to go, the n-th next. -/
def CascadeFree (ctx : DispatchCtx) (env : DispatchEnv) : Nat → Nat → List String → Prop
  | 0, _, _ => True
  | left + 1, n, attempted =>
    ∀ alt, selectRoute (env.refusalWorlds n)
        ((cascadeRequest ctx.hint ctx.hasImages ctx.key).around attempted) = .ok alt →
      tokensAt env (.refusal n) = 0 ∧
        (cascadeEnds env n = false →
          CascadeFree ctx env left (n + 1) (attempted ++ [alt.provider.id]))

theorem free_append {calls more : List Call} :
    Free env (calls ++ more) ↔ Free env calls ∧ Free env more := List.forall_mem_append

theorem free_singleton {call : Call} : Free env [call] ↔ tokensAt env call.site = 0 :=
  List.forall_mem_singleton

theorem free_call_bind {α : Type} {site : Site} {r : RouteResult} {messages : List Json}
    {kwargs : CallKwargs} {f : Completion → Run α} :
    Free env (acompletionWithRetry env.up site r messages kwargs >>= f).log ↔
      ∀ result, env.up.answer site = .ok result → tokensOf result = 0 ∧ Free env (f result).log := by
  have htokens : ∀ outcome, env.up.answer site = outcome →
      tokensAt env site = paidFor tokensOf outcome := fun outcome h => by rw [← h]; rfl
  cases hanswer : env.up.answer site with
  | error e =>
    have hrun : (acompletionWithRetry env.up site r messages kwargs).result = .error e := hanswer
    rw [bind_of_error hrun, Result.forall_error]
    exact iff_of_true (free_singleton.mpr (htokens _ hanswer)) trivial
  | ok result =>
    have hrun : (acompletionWithRetry env.up site r messages kwargs).result = .ok result := hanswer
    rw [bind_of_ok hrun]
    dsimp only
    rw [free_append]
    have hfirst : Free env (acompletionWithRetry env.up site r messages kwargs).log ↔
        tokensOf result = 0 := by
      refine free_singleton.trans ?_
      rw [htokens _ hanswer]
      rfl
    rw [hfirst, Result.forall_ok]

theorem free_convert_bind {α : Type} {tokenHex : Nat → String} {result : Completion}
    {f : Response → Run α} :
    Free env (convert tokenHex result >>= f).log ↔
      ∀ response, toAnthropicResponse tokenHex result = .ok response → Free env (f response).log := by
  cases hconvert : toAnthropicResponse tokenHex result with
  | error e =>
    have hrun : (convert tokenHex result).result = .error ⟨"ValueError", e⟩ := by
      unfold convert
      rw [hconvert]
      rfl
    rw [bind_of_error hrun, Result.forall_error]
    exact iff_of_true (fun call hcall => absurd hcall List.not_mem_nil) trivial
  | ok response =>
    rw [bind_of_ok (convert_of_ok hconvert), Result.forall_ok]
    exact Iff.rfl

theorem hopFrom_free (left n : Nat) (messages : List Json) (served : Served) :
    Free env (hopFrom ctx env left n messages served).log ↔
      HopsFree env left n served.anthropic := by
  induction left generalizing n messages served with
  | zero => exact iff_of_true (fun call hcall => absurd hcall List.not_mem_nil) trivial
  | succ left ih =>
    unfold hopFrom HopsFree
    cases hfind : findProxyToolUse (env.registry n) served.anthropic.content with
    | none =>
      refine iff_of_true (fun call hcall => absurd hcall List.not_mem_nil) ?_
      exact fun hcontra => absurd hcontra Bool.false_ne_true
    | some use =>
      dsimp only
      rw [free_call_bind]
      simp only [free_convert_bind, ih, Option.isSome_some, forall_const]

theorem cascadeFrom_free (messages : List Json) (initial : Served) (left n : Nat)
    (attempted : List String) :
    Free env (cascadeFrom (cascadeEnv env) (cascadeRequest ctx.hint ctx.hasImages ctx.key)
        (cascadeDispatch ctx env messages) initial left n attempted).log ↔
      CascadeFree ctx env left n attempted := by
  induction left generalizing n attempted with
  | zero => exact iff_of_true (fun call hcall => absurd hcall List.not_mem_nil) trivial
  | succ left ih =>
    rw [cascadeFrom, CascadeFree]
    cases hselect : selectRoute ((cascadeEnv env).worlds n)
        ((cascadeRequest ctx.hint ctx.hasImages ctx.key).around attempted) with
    | error e =>
      rw [show selectRoute (env.refusalWorlds n) _ = .error e from hselect, Result.forall_error]
      exact iff_of_true (fun call hcall => absurd hcall List.not_mem_nil) trivial
    | ok alt =>
      rw [show selectRoute (env.refusalWorlds n) _ = .ok alt from hselect, Result.forall_ok]
      dsimp only
      rw [attempt_bind]
      dsimp only
      rw [free_append]
      refine and_congr free_singleton ?_
      -- what follows the answer
      have hdispatch : (cascadeDispatch ctx env messages n alt).result =
          env.up.answer (.refusal n) := rfl
      rw [hdispatch]
      unfold cascadeEnds
      cases env.up.answer (.refusal n) with
      | error e => simpa using ih (n + 1) _
      | ok result =>
        have htokenHex : (cascadeEnv env).tokenHex n = env.tokenHex (.refusal n) := rfl
        dsimp only
        rw [htokenHex]
        cases toAnthropicResponse (env.tokenHex (.refusal n)) result with
        | error e => simpa using ih (n + 1) _
        | ok response =>
          dsimp only
          cases (cascadeEnv env).refuses response with
          | true => simpa using ih (n + 1) _
          | false =>
            refine iff_of_true (fun call hcall => absurd hcall List.not_mem_nil) ?_
            exact fun hcontra => absurd hcontra Bool.false_ne_true.symm

/-- No call of the refusal cascade reports tokens. -/
def RefusalFree (ctx : DispatchCtx) (env : DispatchEnv) (served : Served) : Prop :=
  ctx.key.refusalRetryEnabled = true → (cascadeEnv env).refuses served.anthropic = true →
    CascadeFree ctx env defaultMaxAttempts 0 [served.route.provider.id]

theorem proxyHops_free (served : Served) :
    Free env (proxyHops ctx env served).log ↔
      (ctx.proxyToolsInjected = true → HopsFree env 3 0 served.anthropic) := by
  unfold proxyHops
  cases ctx.proxyToolsInjected with
  | true => simpa using hopFrom_free 3 0 ctx.messages served
  | false =>
    refine iff_of_true (fun call hcall => absurd hcall List.not_mem_nil) ?_
    exact fun hcontra => absurd hcontra Bool.false_ne_true

theorem refusalCascade_free (messages : List Json) (served : Served) :
    Free env (refusalCascade ctx env messages served).log ↔ RefusalFree ctx env served := by
  unfold refusalCascade maybeCascadeOnRefusal RefusalFree
  have hnone : ∀ unchanged : CascadeResult, Free env (pure unchanged : Run CascadeResult).log :=
    fun unchanged call hcall => absurd hcall List.not_mem_nil
  cases ctx.key.refusalRetryEnabled with
  | false => exact iff_of_true (hnone _) fun hcontra => absurd hcontra Bool.false_ne_true
  | true =>
    cases (cascadeEnv env).refuses served.anthropic with
    | false => exact iff_of_true (hnone _) fun _ hcontra => absurd hcontra Bool.false_ne_true
    | true =>
      simpa using cascadeFrom_free messages served defaultMaxAttempts 0 [served.route.provider.id]

/-! ## The whole arm -/

theorem leaks_nil : Leaks env [] True := ⟨0, rfl, iff_of_true rfl trivial⟩

theorem leaks_calling_bind {α β : Type} {x : Run α} {f : α → Account β} {p : α → Prop}
    (h : ∀ a, x.result = .ok a → Leaks env (f a).log (p a)) :
    Leaks env (calling x >>= f).log (Free env x.log ∧ ∀ a, x.result = .ok a → p a) := by
  cases hresult : x.result with
  | error e =>
    rw [bind_of_error (show (calling x).result = .error e from hresult)]
    refine (leaks_calling x).congr ?_
    rw [Result.forall_error, and_true]
  | ok a =>
    rw [bind_of_ok (show (calling x).result = .ok a from hresult)]
    rw [Result.forall_ok]
    exact (leaks_calling x).append (h a hresult)

/-- What follows the record of the answer is free. -/
def TailFree (ctx : DispatchCtx) (env : DispatchEnv) (served : Served) : Prop :=
  (ctx.proxyToolsInjected = true → HopsFree env 3 0 served.anthropic) ∧
    ∀ hopped, (proxyHops ctx env served).result = .ok hopped → RefusalFree ctx env hopped.2

/-- The answer of the request is recorded, and what follows is free. An answer without a choice
is not recorded. -/
def AnswerSettled (ctx : DispatchCtx) (env : DispatchEnv) : Prop :=
  ∀ answer, (primaryAnswer ctx env).result = .ok answer →
    (answer.1.choices = [] → tokensOf answer.1 = 0) ∧
      ∀ response, toAnthropicResponse (env.tokenHex .plain) answer.1 = .ok response →
        TailFree ctx env ⟨answer.2, answer.1, response⟩

theorem toAnthropicResponse_of_no_choice {tokenHex : Nat → String} {result : Completion}
    (h : result.choices = []) : ∃ e, toAnthropicResponse tokenHex result = .error e := by
  unfold toAnthropicResponse
  rw [h]
  exact ⟨_, rfl⟩

theorem toAnthropicResponse_of_choice {tokenHex : Nat → String} {result : Completion}
    (h : result.choices ≠ []) : ∃ response, toAnthropicResponse tokenHex result = .ok response := by
  unfold toAnthropicResponse
  obtain ⟨choice, rest, hchoices⟩ := List.exists_cons_of_ne_nil h
  rw [hchoices]
  exact ⟨_, rfl⟩

theorem tail_leaks (served : Served) :
    Leaks env (do
      let hopped ← calling (proxyHops ctx env served)
      let cascade ← calling (refusalCascade ctx env hopped.1 hopped.2)
      pure (if isEmptyCompletion cascade.final.anthropic then Reply.emptyCompletion cascade.final
        else .answered cascade.final) : Account Reply).log (TailFree ctx env served) := by
  refine (leaks_calling_bind (p := fun hopped => RefusalFree ctx env hopped.2) ?_).congr
    (and_congr_left fun _ => proxyHops_free served)
  intro hopped _
  refine (leaks_calling_bind (p := fun _ => True) fun _ _ => leaks_nil).congr ?_
  rw [refusalCascade_free]
  exact ⟨fun h => h.1, fun h => ⟨h, fun _ _ => trivial⟩⟩

theorem answerAccounted_leaks : Leaks env (answerAccounted ctx env).log (AnswerSettled ctx env) := by
  have hpaid := @primaryAnswer_paid ctx env
  unfold Paid at hpaid
  unfold answerAccounted AnswerSettled
  cases hprimary : (primaryAnswer ctx env).result with
  | error e =>
    rw [hprimary] at hpaid
    rw [bind_of_error (show (calling (primaryAnswer ctx env)).result = .error e from hprimary),
      Result.forall_error]
    exact (leaks_calling _).congr (iff_of_true ((billed_eq_zero_iff _).mp hpaid) trivial)
  | ok answer =>
    rw [hprimary] at hpaid
    rw [bind_of_ok (show (calling (primaryAnswer ctx env)).result = .ok answer from hprimary),
      Result.forall_ok]
    by_cases hchoices : answer.1.choices = []
    · -- the conversion raises before anything is recorded
      obtain ⟨e, hconvert⟩ :=
        @toAnthropicResponse_of_no_choice (env.tokenHex .plain) answer.1 hchoices
      have hrun : (calling (convert (env.tokenHex .plain) answer.1)).result =
          .error ⟨"ValueError", e⟩ := by
        show ((toAnthropicResponse (env.tokenHex .plain) answer.1).mapError _ : Except _ _) = _
        rw [hconvert]
        rfl
      rw [bind_of_error hrun, hconvert, Result.forall_error, and_true]
      refine ((leaks_calling (primaryAnswer ctx env)).append leaks_nil).congr ?_
      rw [← billed_eq_zero_iff, hpaid, and_true]
      exact ⟨fun hzero _ => hzero, fun h => h hchoices⟩
    · obtain ⟨response, hconvert⟩ :=
        @toAnthropicResponse_of_choice (env.tokenHex .plain) answer.1 hchoices
      have hrun : (calling (convert (env.tokenHex .plain) answer.1)).result = .ok response :=
        convert_of_ok hconvert
      rw [bind_of_ok hrun, hconvert, Result.forall_ok]
      have hrecorded := (leaks_recorded hpaid).append
        (@tail_leaks ctx env ⟨answer.2, answer.1, response⟩)
      rw [List.append_assoc] at hrecorded
      refine Leaks.congr (show Leaks env ((calling (primaryAnswer ctx env)).log ++
        ((recordUsage answer.1).log ++ _)) _ from hrecorded) ?_
      rw [true_and]
      exact ⟨fun htail => ⟨fun hcontra => absurd hcontra hchoices, htail⟩, fun h => h.2⟩

def cheapAnswer (ctx : DispatchCtx) (env : DispatchEnv) : Option (RouteResult × Completion) :=
  match selectRoute env.cheapWorld (cheapRequest ctx), env.up.answer .cheap with
  | .ok cheap, .ok result => some (cheap, result)
  | _, _ => none

def gradable (ctx : DispatchCtx) (result : Completion) : Bool :=
  !result.choices.isEmpty && (lastUserText ctx.messages).isSome

def graderAccepts (env : DispatchEnv) : Bool :=
  match env.up.answer .grader with
  | .ok answer =>
    match answer.choices with
    | choice :: _ => parseVerdict (choice.content.getD "")
    | [] => false
  | .error _ => false

def cheapTaken (ctx : DispatchCtx) (env : DispatchEnv) : Bool :=
  (cheapAnswer ctx env).any fun (cheap, result) =>
    gradable ctx result && ((graderRoute ctx env cheap).isNone || graderAccepts env)

/-- A cheap answer is taken or free, and its grader is free. -/
def CheapSettled (ctx : DispatchCtx) (env : DispatchEnv) : Prop :=
  ∀ cheap result, cheapAnswer ctx env = some (cheap, result) →
    (cheapTaken ctx env = false → tokensOf result = 0) ∧
      (gradable ctx result = true → (graderRoute ctx env cheap).isSome = true →
        tokensAt env .grader = 0)

theorem gradeAnswer_result (grader : RouteResult) (userText answer : String) :
    (gradeAnswer env.up grader userText answer).result = .ok (graderAccepts env) := by
  unfold gradeAnswer graderAccepts
  dsimp only
  rw [attempt_bind]
  dsimp only [acompletionWithRetry, perform]
  cases env.up.answer .grader with
  | error e => rfl
  | ok completion =>
    dsimp only
    cases completion.choices <;> rfl

theorem gradeAnswer_free (grader : RouteResult) (userText answer : String) :
    Free env (gradeAnswer env.up grader userText answer).log ↔ tokensAt env .grader = 0 := by
  unfold gradeAnswer
  dsimp only
  rw [attempt_bind]
  dsimp only [acompletionWithRetry, perform]
  rw [free_append]
  refine (and_iff_left ?_).trans free_singleton
  cases env.up.answer .grader with
  | error e => exact fun call hcall => absurd hcall List.not_mem_nil
  | ok completion =>
    dsimp only
    cases completion.choices <;> exact fun call hcall => absurd hcall List.not_mem_nil

theorem Leaks.of_perm {log log' : List Entry} {p : Prop} (hperm : log.Perm log')
    (h : Leaks env log p) : Leaks env log' p := by
  obtain ⟨leak, hbilled, hleak⟩ := h
  refine ⟨leak, ?_, hleak⟩
  have hcalls : billedTokens env log' = billedTokens env log :=
    (((hperm.filterMap Entry.call?).map fun call : Call => tokensAt env call.site).sum_eq).symm
  have hrecords : recordedTokens log' = recordedTokens log :=
    ((hperm.filterMap Entry.recorded?).sum_eq).symm
  rw [hcalls, hrecords, hbilled]

theorem cascadeVerdict_eq (grader : Option RouteResult) (userText answer : String) :
    (cascadeVerdict env.up grader userText answer).result =
        .ok (grader.isNone || graderAccepts env) ∧
      (Free env (cascadeVerdict env.up grader userText answer).log ↔
        (grader.isSome = true → tokensAt env .grader = 0)) := by
  cases grader with
  | none =>
    refine ⟨rfl, iff_of_true (fun call hcall => absurd hcall List.not_mem_nil) ?_⟩
    exact fun hcontra => absurd hcontra Bool.false_ne_true
  | some grader =>
    refine ⟨gradeAnswer_result grader userText answer, ?_⟩
    refine (gradeAnswer_free grader userText answer).trans ?_
    exact ⟨fun hzero _ => hzero, fun h => h rfl⟩

theorem cheapSettled_of_none (h : cheapAnswer ctx env = none) :
    CheapSettled ctx env ∧ cheapTaken ctx env = false := by
  refine ⟨fun cheap result hcontra => ?_, by rw [cheapTaken, h]; rfl⟩
  rw [h] at hcontra
  cases hcontra

theorem cheapSettled_of_answer {cheap : RouteResult} {result : Completion}
    (h : cheapAnswer ctx env = some (cheap, result)) :
    CheapSettled ctx env ↔
      (cheapTaken ctx env = false → tokensOf result = 0) ∧
        (gradable ctx result = true → (graderRoute ctx env cheap).isSome = true →
          tokensAt env .grader = 0) := by
  unfold CheapSettled
  constructor
  · exact fun hall => hall cheap result h
  · intro hone cheap' result' h'
    have hsame := Option.some.inj (h.symm.trans h')
    cases hsame
    exact hone

theorem gradeAccounted_of_ungradable {cheap : RouteResult} {result : Completion}
    (h : gradable ctx result = false) : gradeAccounted ctx env cheap result = pure none := by
  unfold gradeAccounted
  unfold gradable at h
  cases hchoices : result.choices with
  | nil => rfl
  | cons choice rest =>
    cases htext : lastUserText ctx.messages with
    | none => rfl
    | some userText =>
      rw [hchoices, htext] at h
      cases h

theorem gradeAccounted_of_gradable {cheap : RouteResult} {result : Completion}
    (h : gradable ctx result = true) :
    ∃ userText answer, gradeAccounted ctx env cheap result =
      calling (cascadeVerdict env.up (graderRoute ctx env cheap) userText answer) >>=
        acceptAccounted env cheap result := by
  unfold gradeAccounted
  unfold gradable at h
  cases hchoices : result.choices with
  | nil =>
    rw [hchoices] at h
    cases h
  | cons choice rest =>
    cases htext : lastUserText ctx.messages with
    | none =>
      rw [htext, hchoices] at h
      cases h
    | some userText => exact ⟨_, _, rfl⟩

theorem acceptAccounted_true (cheap : RouteResult) {result : Completion} (h : result.choices ≠ []) :
    ∃ served, acceptAccounted env cheap result true =
      ⟨(recordUsage result).log, .ok (some served)⟩ := by
  obtain ⟨response, hconvert⟩ := @toAnthropicResponse_of_choice (env.tokenHex .cheap) result h
  refine ⟨⟨cheap, result, response⟩, ?_⟩
  unfold acceptAccounted
  rw [if_pos rfl, bind_of_ok rfl, hconvert]
  rfl

theorem gradeAccounted_leaks {α : Type} {x : Run α} {cheap : RouteResult} {result : Completion}
    (hpaid : billed env x.log = tokensOf result)
    (htaken : cheapTaken ctx env =
      (gradable ctx result && ((graderRoute ctx env cheap).isNone || graderAccepts env))) :
    Leaks env ((calling x).log ++ (gradeAccounted ctx env cheap result).log)
        ((cheapTaken ctx env = false → tokensOf result = 0) ∧
          (gradable ctx result = true → (graderRoute ctx env cheap).isSome = true →
            tokensAt env .grader = 0)) ∧
      ∃ accepted, (gradeAccounted ctx env cheap result).result = .ok accepted ∧
        accepted.isSome = cheapTaken ctx env := by
  have hfree : Free env x.log ↔ tokensOf result = 0 := by rw [← billed_eq_zero_iff, hpaid]
  cases hgradable : gradable ctx result with
  | false =>
    rw [hgradable, Bool.false_and] at htaken
    rw [gradeAccounted_of_ungradable hgradable, htaken]
    refine ⟨((leaks_calling x).append leaks_nil).congr ?_, none, rfl, rfl⟩
    rw [hfree]
    simp
  | true =>
    rw [hgradable, Bool.true_and] at htaken
    obtain ⟨userText, answer, hgrade⟩ := @gradeAccounted_of_gradable ctx env cheap result hgradable
    obtain ⟨hverdict, hgrader⟩ := @cascadeVerdict_eq env (graderRoute ctx env cheap) userText answer
    have hrun : (calling (cascadeVerdict env.up (graderRoute ctx env cheap) userText
        answer)).result = .ok (cheapTaken ctx env) := by
      rw [htaken]
      exact hverdict
    have hcosts := (@leaks_calling env _ (cascadeVerdict env.up (graderRoute ctx env cheap) userText
      answer)).congr hgrader
    rw [hgrade, bind_of_ok hrun]
    cases hcheap : cheapTaken ctx env with
    | false =>
      refine ⟨((leaks_calling x).append (hcosts.append leaks_nil)).congr ?_, none, rfl, rfl⟩
      rw [hfree]
      simp
    | true =>
      have hchoices : result.choices ≠ [] := by
        intro hnil
        unfold gradable at hgradable
        rw [hnil] at hgradable
        cases hgradable
      obtain ⟨served, haccept⟩ := @acceptAccounted_true env cheap result hchoices
      rw [haccept]
      refine ⟨Leaks.congr (Leaks.of_perm ?_ ((leaks_recorded hpaid).append hcosts)) (by simp),
        some served, rfl, rfl⟩
      rw [List.append_assoc]
      exact List.perm_append_comm.append_left _

theorem cascadeAccounted_leaks :
    Leaks env (cascadeAccounted ctx env).log (CheapSettled ctx env) ∧
      ∃ accepted, (cascadeAccounted ctx env).result = .ok accepted ∧
        accepted.isSome = cheapTaken ctx env := by
  unfold cascadeAccounted
  cases hselect : selectRoute env.cheapWorld (cheapRequest ctx) with
  | error e =>
    have hnone : cheapAnswer ctx env = none := by
      unfold cheapAnswer
      rw [hselect]
    obtain ⟨hsettled, htaken⟩ := cheapSettled_of_none hnone
    exact ⟨leaks_nil.congr (iff_of_true trivial hsettled), none, rfl, htaken.symm⟩
  | ok cheap =>
    dsimp only
    rw [attempt_bind]
    obtain ⟨x, hx⟩ : ∃ x, x = callWithRoute env.up ctx.settings.toFanoutSettings ctx.parts
      ctx.messages .cheap cheap := ⟨_, rfl⟩
    have hresult : (calling x).result = env.up.answer .cheap := by
      rw [hx]
      rfl
    have hpaid : billed env x.log = paidFor tokensOf (env.up.answer .cheap) := by
      rw [hx]
      exact acompletionWithRetry_paid _ _ _ _
    rw [← hx, hresult]
    cases hanswer : env.up.answer .cheap with
    | error e =>
      have hnone : cheapAnswer ctx env = none := by
        unfold cheapAnswer
        rw [hselect, hanswer]
      obtain ⟨hsettled, htaken⟩ := cheapSettled_of_none hnone
      rw [hanswer] at hpaid
      refine ⟨?_, none, rfl, htaken.symm⟩
      refine ((leaks_calling x).append leaks_nil).congr (iff_of_true ⟨?_, trivial⟩ hsettled)
      exact (billed_eq_zero_iff _).mp hpaid
    | ok result =>
      have hsome : cheapAnswer ctx env = some (cheap, result) := by
        unfold cheapAnswer
        rw [hselect, hanswer]
      have htaken : cheapTaken ctx env =
          (gradable ctx result && ((graderRoute ctx env cheap).isNone || graderAccepts env)) := by
        rw [cheapTaken, hsome]
        rfl
      rw [hanswer] at hpaid
      rw [cheapSettled_of_answer hsome]
      exact gradeAccounted_leaks hpaid htaken

/-- The request is charged for what it costs. -/
def DispatchSettled (ctx : DispatchCtx) (env : DispatchEnv) : Prop :=
  (ctx.cheapFirst = true → CheapSettled ctx env) ∧
    ((ctx.cheapFirst && cheapTaken ctx env) = false → AnswerSettled ctx env)

theorem dispatchAccounted_leaks :
    Leaks env (dispatchAccounted ctx env).log (DispatchSettled ctx env) := by
  unfold dispatchAccounted DispatchSettled
  cases ctx.cheapFirst with
  | false =>
    refine answerAccounted_leaks.congr ?_
    simp
  | true =>
    obtain ⟨hleaks, accepted, hresult, htaken⟩ := @cascadeAccounted_leaks ctx env
    rw [if_pos rfl, bind_of_ok hresult, ← htaken]
    cases accepted with
    | some served =>
      refine (hleaks.append leaks_nil).congr ?_
      simp
    | none =>
      refine (hleaks.append answerAccounted_leaks).congr ?_
      simp

/-! ## Emulated tools and structured output -/

namespace Event

def billed : Event (Except Failure Answer) → ℕ × ℕ
  | .attempt _ answer => paidFor (fun a => tokensOf a.toCompletion) answer
  | .outcome _ _ _ _ => 0

def charged : Event (Except Failure Answer) → ℤ × ℤ
  | .outcome _ .success inTok outTok => (inTok, outTok)
  | _ => 0

end Event

/-- The tokens recorded are the tokens billed. -/
def Charged (log : List (Event (Except Failure Answer))) : Prop :=
  (log.map Event.charged).sum = Prod.map Nat.cast Nat.cast (log.map Event.billed).sum

/-- A run of attempts that is recorded without tokens. -/
def Uncharged (arm : ChatRun Finish) : Prop :=
  (∀ event ∈ arm.log, event.charged = 0) ∧
    ∀ done, arm.result = .ok done → done.inTok = 0 ∧ done.outTok = 0 ∧ done.empty = none

theorem recordFailed_tokens (keyId providerId errorStr : String) :
    ∀ event ∈ (recordFailed keyId providerId errorStr : ChatRun Unit).log,
      event.billed = 0 ∧ event.charged = 0 := by
  unfold recordFailed
  intro event hmem
  cases hout : Breaker.failedOutcome errorStr (keyId = "probe-keepalive") with
  | none =>
    rw [hout] at hmem
    cases hmem
  | some outcome =>
    rw [hout] at hmem
    rw [List.mem_singleton.mp hmem]
    refine ⟨rfl, ?_⟩
    cases outcome <;> rfl

theorem concluded_uncharged (keyId : String) (route : RouteResult) {arm : ChatRun Finish}
    (h : Uncharged arm) :
    ∃ tail, (concluded keyId route arm).log = arm.log ++ tail ∧
      ∀ event ∈ tail, event.billed = 0 ∧ event.charged = 0 := by
  unfold concluded
  rw [attempt_bind]
  refine ⟨_, rfl, ?_⟩
  cases hresult : arm.result with
  | error e =>
    dsimp only
    rw [upstreamError_log]
    exact recordFailed_tokens _ _ _
  | ok done =>
    obtain ⟨hin, hout, hempty⟩ := h.2 done hresult
    dsimp only
    rw [bind_of_ok rfl, hempty, hin, hout]
    intro event hmem
    rw [List.mem_singleton.mp hmem]
    exact ⟨rfl, rfl⟩

theorem cast_tokens_eq_zero_iff (tokens : ℕ × ℕ) :
    (0 : ℤ × ℤ) = Prod.map Nat.cast Nat.cast tokens ↔ tokens = 0 := by
  rw [Prod.ext_iff, Prod.ext_iff]
  simp [eq_comm]

theorem charged_iff (keyId : String) (route : RouteResult) {arm : ChatRun Finish}
    (h : Uncharged arm) :
    Charged (concluded keyId route arm).log ↔ ∀ event ∈ arm.log, event.billed = 0 := by
  obtain ⟨tail, hlog, htail⟩ := concluded_uncharged keyId route h
  have hcharged : ((arm.log ++ tail).map Event.charged).sum = 0 := by
    refine List.sum_eq_zero fun tokens hmem => ?_
    obtain ⟨event, hevent, heq⟩ := List.mem_map.mp hmem
    rw [← heq]
    rcases List.mem_append.mp hevent with harm | hend
    · exact h.1 event harm
    · exact (htail event hend).2
  unfold Charged
  rw [hlog, hcharged, cast_tokens_eq_zero_iff, List.sum_eq_zero_iff]
  constructor
  · intro hzero event hmem
    exact hzero _ (List.mem_map_of_mem (List.mem_append_left _ hmem))
  · intro hzero tokens hmem
    obtain ⟨event, hevent, heq⟩ := List.mem_map.mp hmem
    rw [← heq]
    rcases List.mem_append.mp hevent with harm | hend
    · exact hzero event harm
    · exact (htail event hend).1

section

variable (env : CompletionsEnv) (route : RouteResult)

theorem emulated_uncharged : Uncharged (emulated env route) := by
  rw [emulated_eq]
  refine ⟨fun event hmem => by rw [List.mem_singleton.mp hmem]; rfl, fun done hdone => ?_⟩
  obtain ⟨text, -, hroute⟩ := Result.map_ok hdone
  rw [← hroute]
  exact ⟨rfl, rfl, rfl⟩

theorem emulated_charged (keyId : String) :
    Charged (concluded keyId route (emulated env route)).log ↔
      ∀ a, env.answer 0 = .ok a → tokensOf a.toCompletion = 0 := by
  rw [charged_iff keyId route (emulated_uncharged env route), emulated_eq]
  refine List.forall_mem_singleton.trans ?_
  cases hanswer : env.answer 0 with
  | error e =>
    rw [Result.forall_error]
    exact iff_of_true rfl trivial
  | ok a =>
    rw [Result.forall_ok]
    exact Iff.rfl

/-- No call of the repair loop reports tokens: `left` to go, the n-th next. -/
def SchemaFree (env : CompletionsEnv) : Nat → Nat → Prop
  | 0, _ => True
  | left + 1, n =>
    ∀ a, env.answer n = .ok a → tokensOf a.toCompletion = 0 ∧
      ∀ text, a.firstText = .ok text → env.conforms text = false → SchemaFree env left (n + 1)

theorem Event.charged_of_unrecorded {event : Event (Except Failure Answer)}
    (h : event.recorded = none) : event.charged = 0 := by
  cases event with
  | attempt providerId answer => rfl
  | outcome providerId outcome inTok outTok => cases h

theorem structured_uncharged : Uncharged (structured env route) := by
  refine ⟨fun event hmem => ?_, fun done hdone => ?_⟩
  · exact Event.charged_of_unrecorded ((structured_only env route).1 event hmem)
  · unfold structured at hdone
    rw [bind_pure_map] at hdone
    obtain ⟨answer, -, hroute⟩ := Result.map_ok hdone
    rw [← hroute]
    exact ⟨rfl, rfl, rfl⟩

theorem callWithSchema_of_stopped (h : env.llmStopped = true) (providerId : String) (left n : Nat)
    (lastText : String) : (callWithSchema env providerId left n lastText).log = [] := by
  cases left with
  | zero => rfl
  | succ left => rw [callWithSchema, acompletion_of_stopped env h, bind_of_error rfl]; rfl

theorem callWithSchema_free (h : env.llmStopped = false) (providerId : String) (left n : Nat)
    (lastText : String) :
    (∀ event ∈ (callWithSchema env providerId left n lastText).log, event.billed = 0) ↔
      SchemaFree env left n := by
  induction left generalizing n lastText with
  | zero => exact iff_of_true (fun event hmem => nomatch hmem) trivial
  | succ left ih =>
    unfold SchemaFree
    cases hanswer : env.answer n with
    | error e =>
      have hraised : env.answer n >>= Answer.firstText = .error e := by
        rw [hanswer]
        rfl
      rw [callWithSchema_raises h _ _ _ _ hraised, hanswer, Result.forall_error]
      exact iff_of_true (fun event hmem => by rw [List.mem_singleton.mp hmem]; rfl) trivial
    | ok a =>
      have htext : env.answer n >>= Answer.firstText = a.firstText := by
        rw [hanswer]
        rfl
      rw [Result.forall_ok]
      cases hfirst : a.firstText with
      | error e =>
        rw [callWithSchema_raises h _ _ _ _ (htext.trans hfirst), hanswer, Result.forall_error,
          and_true]
        exact List.forall_mem_singleton
      | ok text =>
        rw [callWithSchema_answers h _ _ _ _ (htext.trans hfirst), hanswer, Result.forall_ok]
        refine List.forall_mem_cons.trans (and_congr Iff.rfl ?_)
        cases hconforms : env.conforms text with
        | true => exact iff_of_true (fun event hmem => nomatch hmem) (fun hfalse => nomatch hfalse)
        | false =>
          rw [if_neg Bool.false_ne_true, ih]
          exact ⟨fun hfree _ => hfree, fun hfree => hfree rfl⟩

theorem structured_charged (keyId : String) :
    Charged (concluded keyId route (structured env route)).log ↔
      (env.llmStopped = false → SchemaFree env (env.maxRepairs + 1).toNat 0) := by
  rw [charged_iff keyId route (structured_uncharged env route)]
  unfold structured
  rw [bind_pure_map]
  cases hstop : env.llmStopped with
  | true =>
    dsimp only
    rw [callWithSchema_of_stopped env hstop]
    exact iff_of_true (fun event hmem => nomatch hmem) (fun hfalse => nomatch hfalse)
  | false =>
    rw [forall_prop_of_true rfl]
    exact callWithSchema_free env hstop _ _ _ _

end

/-! ## The charge -/

/-- A row whose models take no tools. -/
def llamaRow : Provider :=
  { id := "p1", name := "Ollama", providerType := "ollama", defaultModel := some "llama3" }

def llamaWorld : World := quietWorld [llamaRow] [] {} [] none llamaRow

/-- The route of a request with tools to it. -/
def llamaRoute : RouteResult :=
  boundRoute llamaWorld { hasTools := true } false llamaRow
    (soleRanked llamaWorld { hasTools := true } llamaRow) []

/-- The completion of the emulated call, with its usage. -/
def llamaChat : CompletionsEnv where
  worlds := fun _ => llamaWorld
  answer := fun _ => .ok
    { id := some "chatcmpl-1"
      model := some "llama3"
      choices := [⟨some "It is sunny.", [], some "stop"⟩]
      usage := some ⟨12, 7, none, none, none⟩ }
  conforms := fun _ => true
  emptyMessage := fun _ => ""

end LlmProxy.Dispatch
