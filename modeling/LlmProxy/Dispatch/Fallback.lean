import LlmProxy.Dispatch.Calls
import LlmProxy.Routing.Exclusion

/-! # Ordered fallback across ranked providers

`app/routing/fallback.py`: `try_ranked_non_streaming` calls the primary route and, when the call
fails, the next one `_next_route` hands over, until a call succeeds, the cap is reached or no
candidate is left.

Mirroring notes.
* `tried` is a set of ids. A route handed over is never one of them (`nextRoute_fresh`), so the
  list with the new id in front has the set's size.
* The selections of one `_next_route` are made in one world. A change between them offers
  nothing more: `nextRoute_first` finds every route handed over in a first selection.

Main results: `nextRoute_first`, and `tryRanked_ensures`, the rule that carries a property of
the calls and of the routes through a whole chain.
-/

namespace LlmProxy.Dispatch

open LlmProxy.Providers
open LlmProxy.Routing
open Logged

/-! ## The chain -/

/-- `_SAME_PROVIDER_RETRIABLE_PREFIXES`. -/
def sameProviderRetriablePrefixes : List String :=
  ["litellm.Timeout", "litellm.APIConnectionError", "litellm.InternalServerError",
    "litellm.RateLimitError"]

/-- `is_same_provider_retriable`. -/
def isSameProviderRetriable (exc : Failure) : Bool :=
  sameProviderRetriablePrefixes.any fun pre => PyStr.contains exc.message pre

/-- The types with a dispatcher of their own that the chain passes over. -/
def oauthTypes : List String := ["claude-oauth", "ChatGPT-oauth-plan"]

def isOauthRoute (r : RouteResult) : Bool := oauthTypes.contains r.provider.providerType

/-- `FallbackChain.attempts`. -/
abbrev FallbackChain := List String

/-- `FallbackChain.add`. -/
def FallbackChain.add (chain : FallbackChain) (providerName outcome : String) : FallbackChain :=
  chain ++ [providerName ++ ":" ++ outcome]

def failedOutcome (exc : Failure) : String :=
  if isSameProviderRetriable exc then "retry-exhausted" else "err:" ++ exc.type

/-- What the selections of a chain are asked for. -/
structure RankedArgs where
  request : RouteRequest
  pinnedProviderId : Option String
  /-- `max_providers`, or the setting `fallback_max_providers` -/
  maxProviders : Int

inductive NextRouteError where
  /-- pinned provider has no fallback candidates -/
  | pinned
  /-- no untried candidate remains -/
  | noneLeft
  /-- select_provider returned an excluded provider; refusing to loop -/
  | excluded (id : String)
  /-- an exception of the selection that is no `RuntimeError` -/
  | selection (e : RoutingError)

/-- `except RuntimeError: raise RuntimeError("no untried candidate remains")`. -/
def NextRouteError.ofSelection : RoutingError → NextRouteError
  | .runtime _ => .noneLeft
  | e => .selection e

def rowsLeft (w : World) (excluded : List String) : List Provider :=
  w.providers.filter fun p => !excluded.contains p.id

theorem rowsLeft_cons_lt {w : World} {excluded : List String} {p : Provider}
    (hrow : p ∈ w.providers) (hnew : p.id ∉ excluded) :
    (rowsLeft w (p.id :: excluded)).length < (rowsLeft w excluded).length := by
  have hsplit : rowsLeft w (p.id :: excluded) =
      (rowsLeft w excluded).filter fun q => q.id ≠ p.id := by
    unfold rowsLeft
    rw [List.filter_filter]
    apply List.filter_congr
    intro q _
    by_cases heq : q.id = p.id <;> simp [heq]
  rw [hsplit, List.length_filter_lt_length_iff_exists]
  exact ⟨p, List.mem_filter.mpr ⟨hrow, by simpa using hnew⟩, by simp⟩

set_option linter.unusedVariables false in
/-- The loop of `_next_route`. Every pass returns, raises or excludes one more row. -/
def nextFrom (w : World) (req : RouteRequest) (excluded : List String) :
    Except NextRouteError RouteResult :=
  match h : selectRoute w (req.around excluded) with
  | .error e => .error (.ofSelection e)
  | .ok candidate =>
    if hin : candidate.provider.id ∈ excluded then .error (.excluded candidate.provider.id)
    else if isOauthRoute candidate then nextFrom w req (candidate.provider.id :: excluded)
    else .ok candidate
termination_by (rowsLeft w excluded).length
decreasing_by exact rowsLeft_cons_lt (selectRoute_route h).1.row hin

/-- `_next_route`. -/
def nextRoute (w : World) (args : RankedArgs) (triedIds : List String) :
    Except NextRouteError RouteResult :=
  if (truthy args.pinnedProviderId).isSome then .error .pinned
  else if triedIds.isEmpty then .error .noneLeft
  else nextFrom w args.request triedIds

/-- The loop of `try_ranked_non_streaming`; `n` counts the calls. -/
def tryFrom {ω α : Type} (worlds : Nat → World) (args : RankedArgs)
    (call : Nat → RouteResult → Logged ω Failure α) (n : Nat) (tried : List String)
    (chain : FallbackChain) (current : RouteResult) :
    Logged ω Failure (α × RouteResult × FallbackChain) := do
  match ← attempt (call n current) with
  | .ok result => pure (result, current, chain.add current.provider.name "ok")
  | .error exc =>
    let chain := chain.add current.provider.name (failedOutcome exc)
    if args.maxProviders ≤ ((current.provider.id :: tried).length : Int) then raise exc
    else
      match nextRoute (worlds (n + 1)) args (current.provider.id :: tried) with
      | .error _ => raise exc
      | .ok next => tryFrom worlds args call (n + 1) (current.provider.id :: tried) chain next
termination_by args.maxProviders.toNat - tried.length
decreasing_by
  simp only [List.length_cons] at *
  omega

/-- `try_ranked_non_streaming`: the result, the route that gave it and the chain. -/
def tryRankedNonStreaming {ω α : Type} (worlds : Nat → World) (args : RankedArgs)
    (call : Nat → RouteResult → Logged ω Failure α) (primary : RouteResult) :
    Logged ω Failure (α × RouteResult × FallbackChain) :=
  if isOauthRoute primary then
    let chain := FallbackChain.add [] primary.provider.name "skip:oauth-not-via-litellm"
    match nextRoute (worlds 0) args [primary.provider.id] with
    | .error _ => raise ⟨"RuntimeError", "fallback chain exhausted with no exception captured"⟩
    | .ok next => tryFrom worlds args call 0 [primary.provider.id] chain next
  else tryFrom worlds args call 0 [] [] primary

/-! ## The routes handed over -/

theorem nextFrom_ok {w : World} {req : RouteRequest} {excluded : List String} {r : RouteResult}
    (h : nextFrom w req excluded = .ok r) :
    isOauthRoute r = false ∧ r.provider.id ∉ excluded ∧
      ∃ ids, (∀ id ∈ excluded, id ∈ ids) ∧ selectRoute w (req.around ids) = .ok r := by
  -- along the loop: each pass over an OAuth candidate only adds to the excluded ids
  induction excluded using nextFrom.induct w req with
  | case1 excluded e hselect =>
    rw [nextFrom, hselect] at h
    cases h
  | case2 excluded candidate hselect hin =>
    rw [nextFrom, hselect] at h
    simp [hin] at h
  | case3 excluded candidate hselect hin hoauth ih =>
    rw [nextFrom, hselect] at h
    simp only [hin, hoauth, dite_false, if_true] at h
    obtain ⟨hr, hfresh, ids, hids, hroute⟩ := ih h
    exact ⟨hr, fun hmem => hfresh (List.mem_cons_of_mem _ hmem), ids,
      fun id hmem => hids id (List.mem_cons_of_mem _ hmem), hroute⟩
  | case4 excluded candidate hselect hin hoauth =>
    rw [nextFrom, hselect] at h
    simp only [hin, hoauth, dite_false] at h
    have hr := Except.ok.inj h
    rw [← hr]
    exact ⟨by simpa using hoauth, hin, excluded, fun _ hmem => hmem, hselect⟩

theorem nextFrom_of_select {w : World} {req : RouteRequest} {excluded : List String}
    {r : RouteResult} (h : selectRoute w (req.around excluded) = .ok r)
    (hoauth : isOauthRoute r = false) : nextFrom w req excluded = .ok r := by
  have hfresh : r.provider.id ∉ excluded := (selectRoute_route h).1.notExcludedIds
  rw [nextFrom, h]
  simp [hfresh, hoauth]

variable {w : World} {args : RankedArgs} {tried : List String} {r : RouteResult}

theorem nextRoute_ok (h : nextRoute w args tried = .ok r) :
    truthy args.pinnedProviderId = none ∧ nextFrom w args.request tried = .ok r := by
  unfold nextRoute at h
  split at h
  · cases h
  · next hpin =>
    split at h
    · cases h
    · exact ⟨Option.not_isSome_iff_eq_none.mp hpin, h⟩

theorem nextRoute_fresh (h : nextRoute w args tried = .ok r) : r.provider.id ∉ tried :=
  (nextFrom_ok (nextRoute_ok h).2).2.1

/-- A route the chain can be handed over first, once `first` has been tried. -/
structure HandsOver (args : RankedArgs) (first : String) (w : World) (r : RouteResult) : Prop where
  unpinned : truthy args.pinnedProviderId = none
  notOauth : isOauthRoute r = false
  selected : selectRoute w (args.request.around [first]) = .ok r

/-- **Later routes are first routes**: what is handed over around some ids is handed over around
the first of them where the others are unavailable. -/
theorem nextRoute_first {first : String} (hmem : first ∈ tried)
    (h : nextRoute w args tried = .ok r) :
    ∃ ids, HandsOver args first (w.without ids) r := by
  obtain ⟨hpin, hfrom⟩ := nextRoute_ok h
  obtain ⟨hoauth, -, ids, hids, hselect⟩ := nextFrom_ok hfrom
  have hsub : ∀ id ∈ [first], id ∈ ids := by
    intro id hid
    rw [List.mem_singleton.mp hid]
    exact hids first hmem
  exact ⟨ids, hpin, hoauth, selectRoute_shrink hsub hselect⟩

theorem HandsOver.nextRoute {first : String} (h : HandsOver args first w r) :
    nextRoute w args [first] = .ok r := by
  unfold Dispatch.nextRoute
  rw [h.unpinned]
  exact nextFrom_of_select h.selected h.notOauth

/-! ## A whole chain -/

theorem FallbackChain.length_add (chain : FallbackChain) (name outcome : String) :
    (chain.add name outcome).length = chain.length + 1 := by
  simp [FallbackChain.add]

section

variable {ω α : Type} {worlds : Nat → World} {call : Nat → RouteResult → Logged ω Failure α}
  {P : ω → Prop} {first : String}

theorem tryFrom_ensures (Q : RouteResult → Prop)
    (hcall : ∀ n r, Q r → Ensures P (fun _ => True) (call n r))
    (hnext : ∀ n ids r, first ∈ ids → (ids.length : Int) < args.maxProviders →
      nextRoute (worlds n) args ids = .ok r → Q r)
    (n : Nat) (tried : List String) (chain : FallbackChain) (current : RouteResult)
    (hcurrent : Q current) (hfirst : first ∈ current.provider.id :: tried) :
    Ensures P (fun out => Q out.2.1 ∧ chain.length < out.2.2.length)
      (tryFrom worlds args call n tried chain current) := by
  -- on the calls the cap leaves: each failed call uses one up
  induction hleft : args.maxProviders.toNat - tried.length using Nat.strong_induction_on
    generalizing n tried chain current with
  | _ left ih =>
    rw [tryFrom]
    apply ((hcall n current hcurrent).attempt).bind
    intro outcome _
    cases outcome with
    | ok result =>
      refine ensures_pure ⟨hcurrent, ?_⟩
      rw [FallbackChain.length_add]
      exact Nat.lt_succ_self _
    | error exc =>
      dsimp only
      split
      · exact ensures_raise exc
      · next hcap =>
        split
        · exact ensures_raise exc
        · next next hroute =>
          have hq : Q next := hnext (n + 1) _ next hfirst (by omega) hroute
          have hless : args.maxProviders.toNat - (current.provider.id :: tried).length < left := by
            rw [← hleft]
            simp only [List.length_cons] at hcap ⊢
            omega
          have hrest := ih _ hless (n + 1) (current.provider.id :: tried)
            (chain.add current.provider.name (failedOutcome exc)) next hq
            (List.mem_cons_of_mem _ hfirst) rfl
          refine hrest.weaken fun out hout => ⟨hout.1, ?_⟩
          rw [FallbackChain.length_add] at hout
          omega

/-- **The rule of the chain**: what holds of the calls on the primary route and on every route
handed over holds of all calls of the chain, and what holds of these routes holds of the route
returned. A route is handed over only where the cap leaves room for a second provider, or the
primary route was passed over; a chain that passed it over has a second entry. -/
theorem tryRanked_ensures (Q : RouteResult → Prop) {primary : RouteResult}
    (hcall : ∀ n r, Q r → Ensures P (fun _ => True) (call n r))
    (hprimary : isOauthRoute primary = false → Q primary)
    (hnext : ∀ n ids r, primary.provider.id ∈ ids →
      isOauthRoute primary = true ∨ 2 ≤ args.maxProviders →
        nextRoute (worlds n) args ids = .ok r → Q r) :
    Ensures P (fun out => Q out.2.1 ∧ (isOauthRoute primary = true → 1 < out.2.2.length))
      (tryRankedNonStreaming worlds args call primary) := by
  have hroom : ∀ n ids r, primary.provider.id ∈ ids → (ids.length : Int) < args.maxProviders →
      nextRoute (worlds n) args ids = .ok r → Q r := by
    intro n ids r hmem hlen hroute
    have hpos : 0 < ids.length := List.length_pos_of_mem hmem
    exact hnext n ids r hmem (Or.inr (by omega)) hroute
  unfold tryRankedNonStreaming
  split
  · next hoauth =>
    dsimp only
    split
    · exact ensures_raise _
    · next next hroute =>
      have hq : Q next := hnext 0 _ next (List.mem_singleton.mpr rfl) (Or.inl hoauth) hroute
      have hrest := tryFrom_ensures Q hcall hroom 0 [primary.provider.id]
        (FallbackChain.add [] primary.provider.name "skip:oauth-not-via-litellm") next hq
        (List.mem_cons_of_mem _ (List.mem_singleton.mpr rfl))
      exact hrest.weaken fun out hout => ⟨hout.1, fun _ => hout.2⟩
  · next hoauth =>
    have hrest := tryFrom_ensures Q hcall hroom 0 [] [] primary
      (hprimary (by simpa using hoauth)) List.mem_cons_self
    exact hrest.weaken fun out hout => ⟨hout.1, fun hyes => absurd hyes hoauth⟩

theorem tryFrom_error (E : Failure → Prop)
    (hcall : ∀ n r e, (call n r).result = .error e → E e) (n : Nat) (tried : List String)
    (chain : FallbackChain) (current : RouteResult) {e : Failure}
    (h : (tryFrom worlds args call n tried chain current).result = .error e) : E e := by
  induction hleft : args.maxProviders.toNat - tried.length using Nat.strong_induction_on
    generalizing n tried chain current with
  | _ left ih =>
    rw [tryFrom, attempt_bind] at h
    cases hresult : (call n current).result with
    | ok a =>
      rw [hresult] at h
      cases h
    | error exc =>
      rw [hresult] at h
      have hexc : E exc := hcall n current exc hresult
      dsimp only at h
      split at h
      · rw [← Except.error.inj h]
        exact hexc
      · next hcap =>
        split at h
        · rw [← Except.error.inj h]
          exact hexc
        · have hless : args.maxProviders.toNat - (current.provider.id :: tried).length < left := by
            simp only [List.length_cons] at hcap ⊢
            omega
          exact ih _ hless _ _ _ _ h rfl

theorem tryRanked_error (E : Failure → Prop)
    (hcall : ∀ n r e, (call n r).result = .error e → E e)
    (hexhausted : E ⟨"RuntimeError", "fallback chain exhausted with no exception captured"⟩)
    {primary : RouteResult} {e : Failure}
    (h : (tryRankedNonStreaming worlds args call primary).result = .error e) : E e := by
  unfold tryRankedNonStreaming at h
  split at h
  · dsimp only at h
    split at h
    · rw [← Except.error.inj h]
      exact hexhausted
    · exact tryFrom_error E hcall _ _ _ _ h
  · exact tryFrom_error E hcall _ _ _ _ h

/-! ## Following one chain -/

theorem tryFrom_eq_of_ok {n : Nat} {chain : FallbackChain} {current : RouteResult} {a : α}
    (h : (call n current).result = .ok a) :
    tryFrom worlds args call n tried chain current =
      ⟨(call n current).log, .ok (a, current, chain.add current.provider.name "ok")⟩ := by
  rw [tryFrom, attempt_bind, h]
  show (⟨(call n current).log ++ [], _⟩ : Logged ω Failure _) = _
  rw [List.append_nil]
  rfl

theorem tryFrom_ok {n : Nat} {chain : FallbackChain} {current : RouteResult} {a : α}
    (h : (call n current).result = .ok a) :
    (tryFrom worlds args call n tried chain current).result =
      .ok (a, current, chain.add current.provider.name "ok") := by
  rw [tryFrom_eq_of_ok h]

theorem tryFrom_eq_of_last {n : Nat} {chain : FallbackChain} {current : RouteResult}
    {exc : Failure} (h : (call n current).result = .error exc)
    (hlast : args.maxProviders ≤ ((current.provider.id :: tried).length : Int) ∨
      ∀ next, nextRoute (worlds (n + 1)) args (current.provider.id :: tried) ≠ .ok next) :
    tryFrom worlds args call n tried chain current = ⟨(call n current).log, .error exc⟩ := by
  rw [tryFrom, attempt_bind, h]
  have hraise : (⟨(call n current).log ++ (raise exc : Logged ω Failure (α × RouteResult ×
      FallbackChain)).log, .error exc⟩ : Logged ω Failure (α × RouteResult × FallbackChain)) =
        ⟨(call n current).log, .error exc⟩ := by
    show (⟨(call n current).log ++ [], _⟩ : Logged ω Failure _) = _
    rw [List.append_nil]
  dsimp only
  split
  · exact hraise
  · next hcap =>
    cases hnext : nextRoute (worlds (n + 1)) args (current.provider.id :: tried) with
    | error e => exact hraise
    | ok next =>
      rcases hlast with hmax | hnone
      · exact absurd hmax hcap
      · exact absurd hnext (hnone next)

theorem tryFrom_failed {n : Nat} {chain : FallbackChain} {current next : RouteResult}
    {exc : Failure} (h : (call n current).result = .error exc)
    (hcap : ((current.provider.id :: tried).length : Int) < args.maxProviders)
    (hnext : nextRoute (worlds (n + 1)) args (current.provider.id :: tried) = .ok next) :
    (tryFrom worlds args call n tried chain current).result =
      (tryFrom worlds args call (n + 1) (current.provider.id :: tried)
        (chain.add current.provider.name (failedOutcome exc)) next).result := by
  rw [tryFrom, result_bind (a := (call n current).result) rfl, h]
  dsimp only
  rw [if_neg (by omega), hnext]

theorem tryRanked_start {primary : RouteResult} (hoauth : isOauthRoute primary = false) :
    tryRankedNonStreaming worlds args call primary = tryFrom worlds args call 0 [] [] primary := by
  unfold tryRankedNonStreaming
  rw [hoauth, if_neg Bool.false_ne_true]

theorem tryRanked_skip {primary next : RouteResult} (hoauth : isOauthRoute primary = true)
    (hnext : nextRoute (worlds 0) args [primary.provider.id] = .ok next) :
    tryRankedNonStreaming worlds args call primary =
      tryFrom worlds args call 0 [primary.provider.id]
        (FallbackChain.add [] primary.provider.name "skip:oauth-not-via-litellm") next := by
  unfold tryRankedNonStreaming
  rw [if_pos hoauth, hnext]

theorem tryRanked_exhausted {primary : RouteResult} {e : NextRouteError}
    (hoauth : isOauthRoute primary = true)
    (hnext : nextRoute (worlds 0) args [primary.provider.id] = .error e) :
    tryRankedNonStreaming worlds args call primary =
      raise ⟨"RuntimeError", "fallback chain exhausted with no exception captured"⟩ := by
  unfold tryRankedNonStreaming
  rw [if_pos hoauth, hnext]

theorem tryRanked_primary {primary : RouteResult} {a : α} (hoauth : isOauthRoute primary = false)
    (h : (call 0 primary).result = .ok a) :
    (tryRankedNonStreaming worlds args call primary).result =
      .ok (a, primary, [primary.provider.name ++ ":" ++ "ok"]) := by
  rw [tryRanked_start hoauth]
  exact tryFrom_ok h

theorem mem_log_tryFrom {n : Nat} {chain : FallbackChain} {current : RouteResult} {entry : ω}
    (h : entry ∈ (call n current).log) :
    entry ∈ (tryFrom worlds args call n tried chain current).log := by
  rw [tryFrom]
  exact mem_log_bind_left h

theorem mem_log_tryFrom_next {n : Nat} {chain : FallbackChain} {current next : RouteResult}
    {exc : Failure} {entry : ω} (h : (call n current).result = .error exc)
    (hcap : ((current.provider.id :: tried).length : Int) < args.maxProviders)
    (hnext : nextRoute (worlds (n + 1)) args (current.provider.id :: tried) = .ok next)
    (hmem : entry ∈ (call (n + 1) next).log) :
    entry ∈ (tryFrom worlds args call n tried chain current).log := by
  rw [tryFrom]
  -- the failed call is handed on as a value, and the chain goes on to the next route
  apply mem_log_bind (a := (call n current).result) rfl
  rw [h]
  dsimp only
  rw [if_neg (by omega), hnext]
  exact mem_log_tryFrom hmem

theorem mem_log_tryRanked_second {primary next : RouteResult} {entry : ω} (exc : Failure)
    (hover : ∀ n, HandsOver args primary.provider.id (worlds n) next)
    (hroom : 2 ≤ args.maxProviders)
    (hfail : isOauthRoute primary = false → (call 0 primary).result = .error exc)
    (h : entry ∈ (call (if isOauthRoute primary then 0 else 1) next).log) :
    entry ∈ (tryRankedNonStreaming worlds args call primary).log := by
  cases hoauth : isOauthRoute primary with
  | true =>
    rw [hoauth] at h
    rw [tryRanked_skip hoauth (hover 0).nextRoute]
    exact mem_log_tryFrom h
  | false =>
    rw [hoauth] at h
    rw [tryRanked_start hoauth]
    have hcap : (([primary.provider.id] : List String).length : Int) < args.maxProviders := by
      simp only [List.length_singleton]
      omega
    exact mem_log_tryFrom_next (hfail hoauth) hcap (hover 1).nextRoute h

theorem tryRanked_second {primary next : RouteResult} {a : α} (exc : Failure)
    (hover : ∀ n, HandsOver args primary.provider.id (worlds n) next)
    (hroom : isOauthRoute primary = true ∨ 2 ≤ args.maxProviders)
    (hfail : isOauthRoute primary = false → (call 0 primary).result = .error exc)
    (h : (call (if isOauthRoute primary then 0 else 1) next).result = .ok a) :
    ∃ chain, 1 < chain.length ∧
      (tryRankedNonStreaming worlds args call primary).result = .ok (a, next, chain) := by
  cases hoauth : isOauthRoute primary with
  | true =>
    rw [hoauth] at h
    rw [tryRanked_skip hoauth (hover 0).nextRoute]
    refine ⟨_, ?_, tryFrom_ok h⟩
    rw [FallbackChain.length_add]
    exact Nat.lt_succ_self 1
  | false =>
    rw [hoauth] at h hroom
    have hcap : (([primary.provider.id] : List String).length : Int) < args.maxProviders := by
      rcases hroom with hcontra | htwo
      · cases hcontra
      · simp only [List.length_singleton]
        omega
    rw [tryRanked_start hoauth, tryFrom_failed (hfail hoauth) hcap (hover 1).nextRoute]
    refine ⟨_, ?_, tryFrom_ok h⟩
    rw [FallbackChain.length_add, FallbackChain.length_add]
    exact Nat.lt_succ_self 1

end

end LlmProxy.Dispatch
