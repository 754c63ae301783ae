import LlmProxy.Dispatch.Fallback

/-! # Runs of the ranked fallback

The chain of `app/routing/fallback.py` with its calls, over one provider table: every selection
of a run reads that table, and its own breakers, clock, telemetry and sample.

> `tryRanked_exact`: what every run calls, returns and stops for.

`RunsFrom` is what holds of the rest of a run behind some tried ids; `tryFromTable_runs` carries
it along the chain, one failed call at a time, and the whole run is read off at its start. With
one world for all selections the run is the chain of `tryRankedNonStreaming`
(`tryRankedRun_result`).
-/

namespace LlmProxy.Dispatch

open LlmProxy.Providers
open LlmProxy.Routing

variable {α : Type}

/-- What the `n`-th selection of a run reads. -/
def tableAt (table : List Provider) (envs : Nat → World) (n : Nat) : World :=
  { envs n with providers := table }

/-- The loop of `_next_route`, with the number of selections made when it is done. -/
def nextFromTable (table : List Provider) (envs : Nat → World) (req : RouteRequest) (n : Nat)
    (excluded : List String) : Except NextRouteError RouteResult × Nat :=
  match h : selectRoute (tableAt table envs n) (req.around excluded) with
  | .error e => (.error (.ofSelection e), n + 1)
  | .ok candidate =>
    if hin : candidate.provider.id ∈ excluded then
      (.error (.excluded candidate.provider.id), n + 1)
    else if isOauthRoute candidate then
      nextFromTable table envs req (n + 1) (candidate.provider.id :: excluded)
    else (.ok candidate, n + 1)
termination_by (rowsLeft (tableAt table envs n) excluded).length
decreasing_by exact rowsLeft_cons_lt (selectRoute_route h).1.row hin

/-- `_next_route`. -/
def nextRouteTable (table : List Provider) (envs : Nat → World) (args : RankedArgs) (n : Nat)
    (triedIds : List String) : Except NextRouteError RouteResult × Nat :=
  if (truthy args.pinnedProviderId).isSome then (.error .pinned, n)
  else if triedIds.isEmpty then (.error .noneLeft, n)
  else nextFromTable table envs args.request n triedIds

/-- A call of `call_fn`. -/
structure RankedCall (α : Type) where
  route : RouteResult
  outcome : Except Failure α

/-- A run: its calls in order, and what it returns or raises. -/
structure RankedRun (α : Type) where
  calls : List (RankedCall α)
  result : Except Failure (α × RouteResult × FallbackChain)

def RankedRun.after (c : RankedCall α) (run : RankedRun α) : RankedRun α :=
  { run with calls := c :: run.calls }

/-- The loop of `try_ranked_non_streaming`, after `k` calls and `n` selections. -/
def tryFromTable (table : List Provider) (envs : Nat → World) (args : RankedArgs)
    (call : Nat → RouteResult → Except Failure α) (k n : Nat) (tried : List String)
    (chain : FallbackChain) (current : RouteResult) : RankedRun α :=
  match call k current with
  | .ok result =>
    { calls := [⟨current, .ok result⟩]
      result := .ok (result, current, chain.add current.provider.name "ok") }
  | .error exc =>
    if args.maxProviders ≤ ((current.provider.id :: tried).length : Int) then
      { calls := [⟨current, .error exc⟩], result := .error exc }
    else
      match nextRouteTable table envs args n (current.provider.id :: tried) with
      | (.error _, _) => { calls := [⟨current, .error exc⟩], result := .error exc }
      | (.ok next, n') =>
        (tryFromTable table envs args call (k + 1) n' (current.provider.id :: tried)
          (chain.add current.provider.name (failedOutcome exc)) next).after
            ⟨current, .error exc⟩
termination_by args.maxProviders.toNat - tried.length
decreasing_by
  simp only [List.length_cons] at *
  omega

/-- What is raised when no call was made. -/
def nothingCalled : Failure :=
  ⟨"RuntimeError", "fallback chain exhausted with no exception captured"⟩

/-- `try_ranked_non_streaming`. -/
def tryRankedRun (table : List Provider) (envs : Nat → World) (args : RankedArgs)
    (call : Nat → RouteResult → Except Failure α) (primary : RouteResult) : RankedRun α :=
  if isOauthRoute primary then
    match nextRouteTable table envs args 0 [primary.provider.id] with
    | (.error _, _) => { calls := [], result := .error nothingCalled }
    | (.ok next, n) =>
      tryFromTable table envs args call 0 n [primary.provider.id]
        (FallbackChain.add [] primary.provider.name "skip:oauth-not-via-litellm") next
  else tryFromTable table envs args call 0 0 [] [] primary

/-! ## The routes offered -/

section

variable {table : List Provider} {envs : Nat → World} {req : RouteRequest} {n : Nat}
  {excluded : List String}

/-- `select_provider`, asked around some ids, offers OAuth providers only, until it raises. -/
inductive OffersNone (table : List Provider) (envs : Nat → World) (req : RouteRequest) :
    Nat → List String → Prop where
  | raised {n : Nat} {ids : List String} {e : RoutingError}
      (h : selectRoute (tableAt table envs n) (req.around ids) = .error e) :
      OffersNone table envs req n ids
  | oauth {n : Nat} {ids : List String} {r : RouteResult}
      (offered : selectRoute (tableAt table envs n) (req.around ids) = .ok r)
      (own : isOauthRoute r = true)
      (rest : OffersNone table envs req (n + 1) (r.provider.id :: ids)) :
      OffersNone table envs req n ids

theorem nextFromTable_raised {e : RoutingError}
    (h : selectRoute (tableAt table envs n) (req.around excluded) = .error e) :
    nextFromTable table envs req n excluded = (.error (.ofSelection e), n + 1) := by
  rw [nextFromTable, h]

theorem nextFromTable_oauth {r : RouteResult}
    (h : selectRoute (tableAt table envs n) (req.around excluded) = .ok r)
    (hoauth : isOauthRoute r = true) :
    nextFromTable table envs req n excluded =
      nextFromTable table envs req (n + 1) (r.provider.id :: excluded) := by
  have hfresh : r.provider.id ∉ excluded := (selectRoute_route h).1.notExcludedIds
  rw [nextFromTable, h]
  simp only [hfresh, hoauth, dite_false, if_true]

theorem nextFromTable_offered {r : RouteResult}
    (h : selectRoute (tableAt table envs n) (req.around excluded) = .ok r)
    (hoauth : isOauthRoute r = false) :
    nextFromTable table envs req n excluded = (.ok r, n + 1) := by
  have hfresh : r.provider.id ∉ excluded := (selectRoute_route h).1.notExcludedIds
  rw [nextFromTable, h]
  simp only [hfresh, hoauth, dite_false, Bool.false_eq_true, if_false]

/-- What `_next_route` hands over is new and no OAuth provider; otherwise none is offered. -/
theorem nextFromTable_spec (table : List Provider) (envs : Nat → World) (req : RouteRequest)
    (n : Nat) (excluded : List String) :
    (∃ r, (nextFromTable table envs req n excluded).1 = .ok r ∧ isOauthRoute r = false ∧
        r.provider.id ∉ excluded) ∨
      ((∃ e, (nextFromTable table envs req n excluded).1 = .error e) ∧
        OffersNone table envs req n excluded) := by
  -- along the loop: a pass over an OAuth provider excludes one more id
  induction n, excluded using nextFromTable.induct table envs req with
  | case1 n excluded e hselect =>
    rw [nextFromTable_raised hselect]
    exact Or.inr ⟨⟨_, rfl⟩, .raised hselect⟩
  | case2 n excluded r hselect hin =>
    exact absurd hin (selectRoute_route hselect).1.notExcludedIds
  | case3 n excluded r hselect hin hoauth ih =>
    rw [nextFromTable_oauth hselect hoauth]
    rcases ih with ⟨next, hnext, hroute, hfresh⟩ | ⟨herror, hnone⟩
    · exact Or.inl ⟨next, hnext, hroute, fun hmem => hfresh (List.mem_cons_of_mem _ hmem)⟩
    · exact Or.inr ⟨herror, .oauth hselect hoauth hnone⟩
  | case4 n excluded r hselect hin hoauth =>
    have hfalse : isOauthRoute r = false := eq_false_of_ne_true hoauth
    rw [nextFromTable_offered hselect hfalse]
    exact Or.inl ⟨r, rfl, hfalse, hin⟩

end

/-- Why a chain goes no further behind the tried ids. -/
inductive Stopped (table : List Provider) (envs : Nat → World) (args : RankedArgs)
    (tried : List String) : Prop where
  | cap (h : args.maxProviders ≤ (tried.length : Int))
  | pinned (h : (truthy args.pinnedProviderId).isSome = true)
  | noneOffered (n : Nat) (h : OffersNone table envs args.request n tried)

theorem nextRouteTable_spec (table : List Provider) (envs : Nat → World) (args : RankedArgs)
    (n : Nat) (first : String) (tried : List String) :
    (∃ r n', nextRouteTable table envs args n (first :: tried) = (.ok r, n') ∧
        isOauthRoute r = false ∧ r.provider.id ∉ first :: tried) ∨
      ((∃ e n', nextRouteTable table envs args n (first :: tried) = (.error e, n')) ∧
        Stopped table envs args (first :: tried)) := by
  unfold nextRouteTable
  by_cases hpin : (truthy args.pinnedProviderId).isSome = true
  · rw [if_pos hpin]
    exact Or.inr ⟨⟨_, _, rfl⟩, .pinned hpin⟩
  · rw [if_neg hpin, if_neg (by simp)]
    rcases nextFromTable_spec table envs args.request n (first :: tried) with
      ⟨r, hr, hroute, hfresh⟩ | ⟨⟨e, he⟩, hnone⟩
    · exact Or.inl ⟨r, _, Prod.ext hr rfl, hroute, hfresh⟩
    · exact Or.inr ⟨⟨e, _, Prod.ext he rfl⟩, .noneOffered n hnone⟩

/-! ## The rest of a run -/

def RankedRun.ids (run : RankedRun α) : List String := run.calls.map (·.route.provider.id)

/-- Every call made so far has failed. -/
def AllFailed (calls : List (RankedCall α)) : Prop := ∀ c ∈ calls, ∃ exc, c.outcome = .error exc

/-- What a run comes to behind some tried ids, most recent first, when it makes its calls:
the first success, or the exception of its last call. -/
structure EndsFrom (table : List Provider) (envs : Nat → World) (args : RankedArgs)
    (tried : List String) (run : RankedRun α) : Prop where
  success : ∀ a r chain, run.result = .ok (a, r, chain) →
    ∃ before, run.calls = before ++ [⟨r, .ok a⟩] ∧ AllFailed before
  failure : ∀ exc, run.result = .error exc →
    AllFailed run.calls ∧ (∃ r, run.calls.getLast? = some ⟨r, .error exc⟩) ∧
      Stopped table envs args (run.ids.reverse ++ tried)

/-- What holds of the calls of a run behind some tried ids. -/
structure CallsFrom (args : RankedArgs) (tried : List String) (run : RankedRun α) : Prop where
  litellm : ∀ c ∈ run.calls, isOauthRoute c.route = false
  new : ∀ id ∈ run.ids, id ∉ tried
  distinct : run.ids.Nodup
  few : (run.calls.length : Int) ≤ max 1 (args.maxProviders - tried.length)

section

variable {table : List Provider} {envs : Nat → World} {args : RankedArgs}
  {call : Nat → RouteResult → Except Failure α} {tried : List String}

theorem callsFrom_single {c : RankedCall α}
    {result : Except Failure (α × RouteResult × FallbackChain)} (hroute : isOauthRoute c.route = false) (hnew : c.route.provider.id ∉ tried) :
    CallsFrom args tried { calls := [c], result := result } where
  litellm := fun c' hc => by rw [List.mem_singleton.mp hc]; exact hroute
  new := fun id hid => by rw [List.mem_singleton.mp hid]; exact hnew
  distinct := List.nodup_singleton _
  few := le_max_left 1 _

theorem callsFrom_after {c : RankedCall α} {run : RankedRun α}
    (hroute : isOauthRoute c.route = false) (hnew : c.route.provider.id ∉ tried)
    (hroom : ((c.route.provider.id :: tried).length : Int) < args.maxProviders)
    (hrun : CallsFrom args (c.route.provider.id :: tried) run) :
    CallsFrom args tried (run.after c) where
  litellm := by
    intro c' hc
    rcases List.mem_cons.mp hc with rfl | hrest
    · exact hroute
    · exact hrun.litellm c' hrest
  new := by
    intro id hid
    rcases List.mem_cons.mp hid with rfl | hrest
    · exact hnew
    · exact fun hmem => hrun.new id hrest (List.mem_cons_of_mem _ hmem)
  distinct := by
    refine List.nodup_cons.mpr ⟨fun hmem => ?_, hrun.distinct⟩
    exact hrun.new _ hmem List.mem_cons_self
  few := by
    have hrest := hrun.few
    have hlen : (run.after c).calls.length = run.calls.length + 1 := rfl
    rw [hlen]
    rw [List.length_cons] at hrest hroom
    omega

theorem endsFrom_after {c : RankedCall α} {run : RankedRun α} {exc : Failure}
    (hfailed : c.outcome = .error exc)
    (hrun : EndsFrom table envs args (c.route.provider.id :: tried) run) :
    EndsFrom table envs args tried (run.after c) where
  success := by
    intro a r chain hresult
    obtain ⟨before, hcalls, hbefore⟩ := hrun.success a r chain hresult
    refine ⟨c :: before, congrArg (List.cons c) hcalls, ?_⟩
    intro c' hc
    rcases List.mem_cons.mp hc with rfl | hrest
    · exact ⟨exc, hfailed⟩
    · exact hbefore c' hrest
  failure := by
    intro last hresult
    obtain ⟨hall, ⟨r, hlast⟩, hstopped⟩ := hrun.failure last hresult
    refine ⟨?_, ⟨r, ?_⟩, ?_⟩
    · intro c' hc
      rcases List.mem_cons.mp hc with rfl | hrest
      · exact ⟨exc, hfailed⟩
      · exact hall c' hrest
    · show (c :: run.calls).getLast? = _
      rw [List.getLast?_cons, hlast]
      rfl
    · have hids : (run.after c).ids.reverse ++ tried =
          run.ids.reverse ++ c.route.provider.id :: tried := by
        show (c.route.provider.id :: run.ids).reverse ++ tried = _
        rw [List.reverse_cons, List.append_assoc, List.singleton_append]
      rw [hids]
      exact hstopped

/-- **The chain keeps both**, by induction on the calls the cap leaves. -/
theorem tryFromTable_runs (table : List Provider) (envs : Nat → World) (args : RankedArgs)
    (call : Nat → RouteResult → Except Failure α) (k n : Nat) (tried : List String) (chain : FallbackChain)
    (current : RouteResult) (hroute : isOauthRoute current = false)
    (hnew : current.provider.id ∉ tried) :
    CallsFrom args tried (tryFromTable table envs args call k n tried chain current) ∧
      EndsFrom table envs args tried
        (tryFromTable table envs args call k n tried chain current) := by
  induction hleft : args.maxProviders.toNat - tried.length using Nat.strong_induction_on
    generalizing k n tried chain current with
  | _ left ih =>
    rw [tryFromTable]
    cases hcall : call k current with
    | ok a =>
      refine ⟨callsFrom_single hroute hnew, ?_, ?_⟩
      · intro a' r chain' hresult
        obtain ⟨rfl, hrest⟩ := Prod.mk.inj (Except.ok.inj hresult)
        obtain ⟨rfl, -⟩ := Prod.mk.inj hrest
        exact ⟨[], rfl, fun c hc => absurd hc List.not_mem_nil⟩
      · intro exc hresult
        cases hresult
    | error exc =>
      have hfailed : AllFailed ([⟨current, .error exc⟩] : List (RankedCall α)) := by
        intro c hc
        rw [List.mem_singleton.mp hc]
        exact ⟨exc, rfl⟩
      have hend : ∀ stopped : Stopped table envs args (current.provider.id :: tried),
          EndsFrom table envs args tried
            ({ calls := [⟨current, .error exc⟩], result := .error exc } : RankedRun α) := by
        intro stopped
        constructor
        · intro a r chain' hresult
          cases hresult
        · intro last hresult
          obtain rfl := Except.error.inj hresult
          exact ⟨hfailed, ⟨current, rfl⟩, stopped⟩
      dsimp only
      split
      · next hcap => exact ⟨callsFrom_single hroute hnew, hend (.cap hcap)⟩
      · next hcap =>
        rcases nextRouteTable_spec table envs args n current.provider.id tried with
          ⟨next, n', hnext, hnextRoute, hfresh⟩ | ⟨⟨e, n', hnext⟩, hstopped⟩
        · rw [hnext]
          have hless : args.maxProviders.toNat - (current.provider.id :: tried).length < left := by
            rw [← hleft]
            simp only [List.length_cons] at hcap ⊢
            omega
          obtain ⟨hcalls, hends⟩ := ih _ hless (k + 1) n' (current.provider.id :: tried)
            (chain.add current.provider.name (failedOutcome exc)) next hnextRoute hfresh rfl
          exact ⟨callsFrom_after hroute hnew (lt_of_not_ge hcap) hcalls, endsFrom_after rfl hends⟩
        · rw [hnext]
          exact ⟨callsFrom_single hroute hnew, hend hstopped⟩

end

/-! ## In one world -/

theorem nextFromTable_const (w : World) (req : RouteRequest) (n : Nat) (excluded : List String) :
    (nextFromTable w.providers (fun _ => w) req n excluded).1 = nextFrom w req excluded := by
  induction n, excluded using nextFromTable.induct w.providers (fun _ => w) req with
  | case1 n excluded e hselect =>
    have hworld : selectRoute w (req.around excluded) = .error e := hselect
    rw [nextFromTable_raised hselect, nextFrom, hworld]
  | case2 n excluded r hselect hin =>
    exact absurd hin (selectRoute_route hselect).1.notExcludedIds
  | case3 n excluded r hselect hin hoauth ih =>
    have hworld : selectRoute w (req.around excluded) = .ok r := hselect
    rw [nextFromTable_oauth hselect hoauth, nextFrom, hworld, ih]
    simp only [hin, hoauth, dite_false, if_true]
  | case4 n excluded r hselect hin hoauth =>
    have hworld : selectRoute w (req.around excluded) = .ok r := hselect
    have hfalse : isOauthRoute r = false := eq_false_of_ne_true hoauth
    rw [nextFromTable_offered hselect hfalse, nextFrom_of_select hworld hfalse]

theorem nextRouteTable_const (w : World) (args : RankedArgs) (n : Nat) (tried : List String) :
    (nextRouteTable w.providers (fun _ => w) args n tried).1 = nextRoute w args tried := by
  unfold nextRouteTable nextRoute
  split
  · rfl
  · split
    · rfl
    · exact nextFromTable_const w args.request n tried

theorem tryFromTable_result {ω : Type} (w : World) (args : RankedArgs)
    (call : Nat → RouteResult → Logged ω Failure α) (k n : Nat) (tried : List String)
    (chain : FallbackChain) (current : RouteResult) :
    (tryFromTable w.providers (fun _ => w) args (fun k r => (call k r).result) k n tried chain
        current).result =
      (tryFrom (fun _ => w) args call k tried chain current).result := by
  induction hleft : args.maxProviders.toNat - tried.length using Nat.strong_induction_on
    generalizing k n tried chain current with
  | _ left ih =>
    rw [tryFromTable]
    cases hcall : (call k current).result with
    | ok a =>
      rw [tryFrom_ok hcall]
    | error exc =>
      have hnext := nextRouteTable_const w args n (current.provider.id :: tried)
      dsimp only
      split
      · next hcap => rw [tryFrom_eq_of_last hcall (Or.inl hcap)]
      · next hcap =>
        have hroom : ((current.provider.id :: tried).length : Int) < args.maxProviders :=
          lt_of_not_ge hcap
        cases hroute : nextRouteTable w.providers (fun _ => w) args n
            (current.provider.id :: tried) with
        | mk handed n' =>
          rw [hroute] at hnext
          cases handed with
          | error e =>
            have hnone : ∀ next,
                nextRoute w args (current.provider.id :: tried) ≠ .ok next := by
              intro next hok
              rw [← hnext] at hok
              cases hok
            rw [tryFrom_eq_of_last hcall (Or.inr hnone)]
          | ok next =>
            have hless :
                args.maxProviders.toNat - (current.provider.id :: tried).length < left := by
              rw [← hleft]
              simp only [List.length_cons] at hroom ⊢
              omega
            rw [tryFrom_failed hcall hroom hnext.symm]
            exact ih _ hless (k + 1) n' _ _ next rfl

/-- **The runs of the chain**: with one world for all selections a run returns and raises what
`tryRankedNonStreaming` does. -/
theorem tryRankedRun_result {ω : Type} (w : World) (args : RankedArgs)
    (call : Nat → RouteResult → Logged ω Failure α) (primary : RouteResult) :
    (tryRankedRun w.providers (fun _ => w) args (fun k r => (call k r).result) primary).result =
      (tryRankedNonStreaming (fun _ => w) args call primary).result := by
  unfold tryRankedRun
  cases hoauth : isOauthRoute primary with
  | false =>
    rw [tryRanked_start hoauth]
    exact tryFromTable_result w args call 0 0 [] [] primary
  | true =>
    rw [if_pos rfl]
    have hnext := nextRouteTable_const w args 0 [primary.provider.id]
    cases hroute : nextRouteTable w.providers (fun _ => w) args 0 [primary.provider.id] with
    | mk handed n =>
      rw [hroute] at hnext
      cases handed with
      | error e =>
        rw [tryRanked_exhausted hoauth hnext.symm]
        rfl
      | ok next =>
        rw [tryRanked_skip hoauth hnext.symm]
        exact tryFromTable_result w args call 0 n _ _ next

/-! ## Whole runs -/

/-- The ids a run is done with: a primary route that is passed over, and those it calls. -/
def triedBy (primary : RouteResult) (run : RankedRun α) : List String :=
  run.ids.reverse ++ (if isOauthRoute primary then [primary.provider.id] else [])

structure ExactRun (table : List Provider) (envs : Nat → World) (args : RankedArgs)
    (primary : RouteResult) (run : RankedRun α) : Prop where
  few : (run.calls.length : Int) ≤ args.maxProviders
  distinct : run.ids.Nodup
  litellm : ∀ c ∈ run.calls, isOauthRoute c.route = false
  success : ∀ a r chain, run.result = .ok (a, r, chain) →
    ∃ before, run.calls = before ++ [⟨r, .ok a⟩] ∧ AllFailed before
  /-- what is raised is the exception of the last call, or the `RuntimeError` of none -/
  failure : ∀ exc, run.result = .error exc →
    AllFailed run.calls ∧
      ((∃ r, run.calls.getLast? = some ⟨r, .error exc⟩) ∨ (run.calls = [] ∧ exc = nothingCalled))
  stopped : ∀ exc, run.result = .error exc → Stopped table envs args (triedBy primary run)

theorem exactRun_of_rest {table : List Provider} {envs : Nat → World} {args : RankedArgs}
    {primary : RouteResult} {tried : List String} {run : RankedRun α}
    (hcap : 1 ≤ args.maxProviders) (hcalls : CallsFrom args tried run)
    (hends : EndsFrom table envs args tried run)
    (htried : tried = if isOauthRoute primary then [primary.provider.id] else []) :
    ExactRun table envs args primary run where
  few := by
    have hfew := hcalls.few
    omega
  distinct := hcalls.distinct
  litellm := hcalls.litellm
  success := hends.success
  failure := by
    intro exc hresult
    obtain ⟨hall, hlast, -⟩ := hends.failure exc hresult
    exact ⟨hall, Or.inl hlast⟩
  stopped := by
    intro exc hresult
    unfold triedBy
    rw [← htried]
    exact (hends.failure exc hresult).2.2

/-- **Every run of the ranked fallback is exact**, whatever the calls come to and whatever else
the selections read. -/
theorem tryRanked_exact (table : List Provider) (envs : Nat → World) (args : RankedArgs)
    (call : Nat → RouteResult → Except Failure α) (primary : RouteResult)
    (hcap : 1 ≤ args.maxProviders) :
    ExactRun table envs args primary (tryRankedRun table envs args call primary) := by
  unfold tryRankedRun
  cases hoauth : isOauthRoute primary with
  | true =>
    have htried : [primary.provider.id] =
        (if isOauthRoute primary then [primary.provider.id] else []) := by
      rw [hoauth, if_pos rfl]
    rw [if_pos rfl]
    rcases nextRouteTable_spec table envs args 0 primary.provider.id [] with
      ⟨next, n, hnext, hroute, hfresh⟩ | ⟨⟨e, n, hnext⟩, hstopped⟩
    · rw [hnext]
      obtain ⟨hcalls, hends⟩ := tryFromTable_runs table envs args call 0 n [primary.provider.id]
        (FallbackChain.add [] primary.provider.name "skip:oauth-not-via-litellm") next hroute hfresh
      exact exactRun_of_rest hcap hcalls hends htried
    · rw [hnext]
      refine ⟨?_, List.nodup_nil, List.forall_mem_nil _, ?_, ?_, ?_⟩
      · show (0 : Int) ≤ args.maxProviders
        omega
      · intro a r chain hresult
        cases hresult
      · intro exc hresult
        obtain rfl := Except.error.inj hresult
        exact ⟨List.forall_mem_nil _, Or.inr ⟨rfl, rfl⟩⟩
      · intro exc hresult
        unfold triedBy
        rw [← htried]
        exact hstopped
  | false =>
    rw [if_neg Bool.false_ne_true]
    obtain ⟨hcalls, hends⟩ := tryFromTable_runs table envs args call 0 0 [] [] primary hoauth List.not_mem_nil
    exact exactRun_of_rest hcap hcalls hends (by rw [hoauth, if_neg Bool.false_ne_true])

/-- One row, and the route of a plain request to it. -/
def onlyRow : Provider :=
  { id := "p1", name := "Anthropic", providerType := "anthropic", apiKey := some "sk-ant",
    defaultModel := some "claude-sonnet-4-6" }

def onlyWorld : World := quietWorld [onlyRow] [] {} [] none onlyRow

def onlyRoute : RouteResult :=
  boundRoute onlyWorld {} false onlyRow (soleRanked onlyWorld {} onlyRow) []

/-- A second row behind it. -/
def spareRow : Provider :=
  { id := "p2", name := "OpenAI", providerType := "openai", apiKey := some "sk-oai",
    defaultModel := some "gpt-4o", priority := 20 }

def rowsWorld : World := quietWorld [onlyRow, spareRow] [] {} [] none onlyRow

/-- The call of the first row fails. -/
theorem two_rows_exact :
    (1 : Int) ≤ 3 ∧
      ExactRun [onlyRow, spareRow] (fun _ => rowsWorld) ⟨{}, none, 3⟩ onlyRoute
        (tryRankedRun [onlyRow, spareRow] (fun _ => rowsWorld) ⟨{}, none, 3⟩
          (fun n _ => if n = 0 then .error ⟨"AuthenticationError", "401"⟩
            else (.ok () : Except Failure Unit)) onlyRoute) :=
  ⟨by decide,
    tryRanked_exact [onlyRow, spareRow] (fun _ => rowsWorld) ⟨{}, none, 3⟩ _ onlyRoute (by decide)⟩

end LlmProxy.Dispatch
