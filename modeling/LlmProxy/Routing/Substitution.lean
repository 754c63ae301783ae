import LlmProxy.Routing.Exclusion

/-! # Substituting the requested model

A request for a model that no candidate can serve falls back across families: the family filter or
the scanned capabilities leave nobody, and `select_provider` (`app/routing/router.py`) keeps the
candidates and substitutes their own model for the caller's.

> `substitution_disclosed_by_route_iff`: the route says so, and binds the provider's own model,
> exactly when it is not the route of the cheapest candidate.

The early return for `prefer_cheapest` and `:floor` builds its route from `model_override` and
knows nothing of the flag.
-/

namespace LlmProxy.Routing

open LlmProxy.Providers

/-! ## When nobody serves the model -/

/-- No candidate is of the model's family. -/
def NoFamily (m : String) (pool : List Provider) : Prop :=
  ∃ family, modelFamilyProviderTypes m = some family ∧
    ∀ p ∈ pool, family.contains p.providerType = false

/-- No candidate that the family filter leaves has the model among its scanned ones. -/
def NoCapability (capabilities : List ModelCapability) (m : String) (pool : List Provider) : Prop :=
  ∀ p ∈ (familyStage m pool).1, supports capabilities m p = false

/-- The request names a model, and none of its candidates supports it. -/
def Unsupported (w : World) (req : RouteRequest) : Prop :=
  ∃ pool m, candidatePool w req = .ok pool ∧ truthy req.modelOverride = some m ∧
    (NoFamily m pool ∨ NoCapability w.capabilities m pool)

theorem familyStage_flag {m : String} {pool : List Provider} (h : NoFamily m pool) :
    (familyStage m pool).2 = true := by
  obtain ⟨family, hfamily, hnone⟩ := h
  have hempty : pool.filter (fun p => family.contains p.providerType) = [] :=
    List.filter_eq_nil_iff.mpr fun p hp => by rw [hnone p hp]; exact Bool.false_ne_true
  unfold familyStage
  rw [hfamily]
  dsimp only
  rw [hempty]
  rfl

theorem capabilityStage_flag {w : World} {m : String} {pool : List Provider × Bool}
    (h : pool.2 = true ∨ ∀ p ∈ pool.1, supports w.capabilities m p = false) :
    (capabilityStage w m pool).2 = true := by
  unfold capabilityStage
  dsimp only
  split
  · next hkept =>
    rcases h with hflag | hnone
    · exact hflag
    · have hempty : pool.1.filter (supports w.capabilities m) = [] :=
        List.filter_eq_nil_iff.mpr fun p hp => by rw [hnone p hp]; exact Bool.false_ne_true
      rw [hempty] at hkept
      cases hkept
  · split
    · next hflag => exact hflag
    · rfl

theorem modelStage_flag {w : World} {req : RouteRequest} {pool : List Provider} {m : String}
    (hm : truthy req.modelOverride = some m)
    (h : NoFamily m pool ∨ NoCapability w.capabilities m pool) :
    (modelStage w req pool).2 = true := by
  unfold modelStage
  rw [hm]
  apply capabilityStage_flag
  rcases h with hfamily | hcapability
  · exact Or.inl (familyStage_flag hfamily)
  · exact Or.inr hcapability

/-! ## The route -/

/-- The route discloses the substitution, and binds the provider's own model. -/
structure Substituted (req : RouteRequest) (r : RouteResult) : Prop where
  fallback : r.crossFamilyFallback = true
  requested : r.requestedModel = req.modelOverride
  unmet : "model" ∈ r.unmetHints
  bound : r.litellmModel = buildLitellmModel r.provider none

/-- `prefer_cheapest`, or `:floor` behind the model's name. -/
def RouteRequest.asksCheapest (req : RouteRequest) : Bool :=
  req.preferCheapest || req.sortMode = some "floor"

theorem boundRoute_substituted (w : World) (req : RouteRequest) (p : Provider) (t : Ranked)
    (skipped : List (String × String)) :
    Substituted req (boundRoute w req true p t skipped) where
  fallback := rfl
  requested := rfl
  unmet := List.mem_append_right _ (List.mem_singleton.mpr rfl)
  bound := rfl

theorem cheapestRoute_not_substituted (req : RouteRequest) (p : Provider) (t : Ranked)
    (skipped : List (String × String)) : ¬ Substituted req (cheapestRoute req p t skipped) := by
  intro h
  cases h.fallback

theorem route_of_unsupported {w : World} {req : RouteRequest} {r : RouteResult}
    (hnobody : Unsupported w req) (h : selectProvider w req = .ok (.route r)) :
    ∃ p t skipped, (req.asksCheapest = true ∧ r = cheapestRoute req p t skipped) ∨
      (req.asksCheapest = false ∧ r = boundRoute w req true p t skipped) := by
  obtain ⟨pool, m, hpool, hm, hnone⟩ := hnobody
  obtain ⟨pool', ranked, weighed, best, rest, hpool', -, -, -, hbind⟩ := selectProvider_stages h
  obtain rfl : pool = pool' := Except.ok.inj (hpool.symm.trans hpool')
  rw [modelStage_flag hm hnone] at hbind
  obtain ⟨p, ⟨hcheap, -, hr⟩ | ⟨hchosen, -, hr⟩⟩ := bindStage_route hbind
  · exact ⟨p, _, _, Or.inl ⟨hcheap, hr⟩⟩
  · exact ⟨p, _, _, Or.inr ⟨hchosen, hr⟩⟩

/-- **Substitution on every path**: a request for a model nobody supports gets a route that
discloses the substitution exactly when it does not ask for the cheapest candidate. -/
theorem substitution_disclosed_by_route_iff (w : World) (req : RouteRequest) (r : RouteResult)
    (hnobody : Unsupported w req) (h : selectProvider w req = .ok (.route r)) :
    Substituted req r ↔ req.asksCheapest = false := by
  obtain ⟨p, t, skipped, ⟨hcheap, hr⟩ | ⟨hchosen, hr⟩⟩ := route_of_unsupported hnobody h
  · rw [hr, hcheap]
    exact iff_of_false (cheapestRoute_not_substituted _ _ _ _) Bool.false_ne_true.symm
  · rw [hr, hchosen]
    exact iff_of_true (boundRoute_substituted _ _ _ _ _) rfl

/-! ### A table without the vendor -/

def sonnetRow : Provider :=
  { id := "p1", name := "Anthropic", providerType := "anthropic",
    defaultModel := some "claude-sonnet-4-6" }

def sonnetWorld : World := quietWorld [sonnetRow] [] {} [] none sonnetRow

def gptRequest (sortMode : Option String) : RouteRequest :=
  { modelOverride := some "gpt-4o", sortMode := sortMode }

theorem gptRequest_unsupported (sortMode : Option String) :
    Unsupported sonnetWorld (gptRequest sortMode) := by
  refine ⟨[sonnetRow], "gpt-4o", rfl, rfl, Or.inl ⟨_, rfl, ?_⟩⟩
  decide

/-- `gpt-4o` without a suffix is substituted, and says so. -/
theorem gptRequest_substituted :
    ∃ r, selectProvider sonnetWorld (gptRequest none) = .ok (.route r) ∧
      Substituted (gptRequest none) r := by
  have hok : (selectRoute sonnetWorld (gptRequest none)).isOk = true := by decide +kernel
  obtain ⟨r, hr⟩ := Result.exists_ok hok
  have hroute := selectProvider_of_selectRoute hr
  exact ⟨r, hroute, (substitution_disclosed_by_route_iff _ _ r (gptRequest_unsupported none)
    hroute).mpr rfl⟩

/-- `gpt-4o:floor` goes to the same provider under the name it does not know. -/
theorem floorRequest_undisclosed :
    ∃ r, Unsupported sonnetWorld (gptRequest (some "floor")) ∧
      selectProvider sonnetWorld (gptRequest (some "floor")) = .ok (.route r) ∧
      r.litellmModel = "anthropic/gpt-4o" ∧ ¬ Substituted (gptRequest (some "floor")) r := by
  have hnobody := gptRequest_unsupported (some "floor")
  have hok : ((selectRoute sonnetWorld (gptRequest (some "floor"))).map
      (·.litellmModel)).toOption = some "anthropic/gpt-4o" := by decide +kernel
  obtain ⟨r, hr, hmodel⟩ := Result.map_ok (Result.ok_of_toOption hok)
  have hroute := selectProvider_of_selectRoute hr
  refine ⟨r, hnobody, hroute, hmodel, ?_⟩
  obtain ⟨p, t, skipped, ⟨-, hcheapest⟩ | ⟨hfalse, -⟩⟩ := route_of_unsupported hnobody hroute
  · rw [hcheapest]
    exact cheapestRoute_not_substituted _ _ _ _
  · cases hfalse

end LlmProxy.Routing
