import LlmProxy.Dispatch.Primary
import LlmProxy.Routing.Substitution

/-! # The safety net for tool blocks

A `/v1/messages` request that carries tool blocks and falls back across families
(`app/api/messages.py`) is walked past the providers whose type takes no translated tool blocks.
The loop tests the flag of the route it stands on, and the selection that replaces the route is
not told the model, so it never raises the flag: the loop ends after one pass, on whatever that
selection returns.

> `tool_blocks_safe_iff`: over a provider table, the loop ends on a type that takes the blocks
> exactly when no provider that takes none can stand in for the model beside another one that
> takes none and is offered without a model.
-/

namespace LlmProxy.Dispatch

open LlmProxy.Providers
open LlmProxy.Routing
open LlmProxy.Compliance
open LlmProxy.Cluster (ApiKey)

/-- The type takes tool blocks, as they are or translated. -/
def takesToolBlocks (p : Provider) : Bool := toolBlockTypes.contains p.providerType

/-- `_cross_family_skipped`, by id. -/
def crossFamilySkipped (req : ChatRequest) (env : ApproachEnv) :
    Nat → Nat → RouteResult → List String
  | 0, _, _ => []
  | fuel + 1, n, route =>
    if req.hasToolBlocks && untranslatable route then
      match selectExcluding (env.walkWorlds n) env.setOrder (walkRequest req)
          [route.provider.id] 20 0 with
      | .error _ => [route.provider.id]
      | .ok next => route.provider.id :: crossFamilySkipped req env fuel (n + 1) next
    else []

/-- What the net is for: the loop ends, and where it ends normally the route takes the blocks and
is none of those skipped. -/
structure NetHolds (req : ChatRequest) (env : ApproachEnv) (primary : RouteResult) : Prop where
  ends : ∃ fuel, ∀ more, toolWalk req env (fuel + more) 0 primary ≠ .error unfinished ∧
    toolWalk req env (fuel + more) 0 primary = toolWalk req env fuel 0 primary
  takes : ∀ fuel r, toolWalk req env fuel 0 primary = .ok r → takesToolBlocks r.provider = true
  fresh : ∀ fuel r, toolWalk req env fuel 0 primary = .ok r →
    r.provider.id ∉ crossFamilySkipped req env fuel 0 primary

section

variable (rows : List Provider) (keys : List ApiKey) (system : Policy) (key : ApiKeyRecord)
  (capabilities : List ModelCapability) (m : String)

/-- The worlds of the primary selection and of the walk have the given tables. -/
structure ApproachEnv.Over (env : ApproachEnv) : Prop where
  primary : Visible rows keys system key env.primaryWorld
  walk : ∀ n k, Visible rows keys system key (env.walkWorlds n k)
  scanned : env.primaryWorld.capabilities = capabilities

/-- Every request of the key for the model that carries tool blocks and begins on a provider of
another family. -/
def ToolBlocksSafe : Prop :=
  ∀ (req : ChatRequest) (env : ApproachEnv) (primary : RouteResult), req.endpoint = .messages →
    req.key = key → req.hasToolBlocks = true → req.primaryModel = some m →
    env.Over rows keys system key capabilities →
    selectProviderWith503 env.primaryWorld req = .ok primary →
    primary.crossFamilyFallback = true → NetHolds req env primary

/-- The provider cannot serve the model: another family, or scanned without it. -/
def cannotServe (p : Provider) : Bool :=
  (modelFamilyProviderTypes m).any (fun family => !family.contains p.providerType) ||
    !supports capabilities m p

def standsIn (p : Provider) : Bool :=
  starts rows keys system key (some m) p && cannotServe capabilities m p

end

variable {rows : List Provider} {keys : List ApiKey} {system : Policy} {key : ApiKeyRecord}
  {capabilities : List ModelCapability} {m : String}

/-! ## One pass -/

section

variable {req : ChatRequest} {env : ApproachEnv}

theorem crossFamily_of_no_model {w : World} {request : RouteRequest} {r : RouteResult}
    (hmodel : truthy request.modelOverride = none) (h : selectRoute w request = .ok r) :
    r.crossFamilyFallback = false := by
  obtain ⟨pool, ranked, weighed, best, rest, -, -, -, -, hbind⟩ :=
    selectProvider_stages (selectProvider_of_selectRoute h)
  rw [modelStage_of_no_model hmodel] at hbind
  exact (route_of_same_family hbind).1

/-- What `_select_excluding` returns was selected, around one of the ids, and is none of them. -/
theorem selectExcluding_ok {worlds : Nat → World} {setOrder : List String → List String}
    {request : RouteRequest} {excluded : List String} {r : RouteResult} (left n : Nat)
    (h : selectExcluding worlds setOrder request excluded left n = .ok r) :
    r.provider.id ∉ excluded ∧ ∃ k, selectRoute (worlds k)
      { request with excludeProviderId := (setOrder excluded).head? } = .ok r := by
  induction left generalizing n with
  | zero => cases h
  | succ left ih =>
    unfold selectExcluding at h
    split at h
    · cases h
    · next r' hselect =>
      split at h
      · exact ih (n + 1) h
      · next hout =>
        rw [Except.ok.inj h] at hselect hout
        exact ⟨fun hmem => hout (List.contains_iff_mem.mpr hmem), n, hselect⟩

theorem untranslatable_next {n : Nat} {route next : RouteResult}
    (h : selectExcluding (env.walkWorlds n) env.setOrder (walkRequest req)
      [route.provider.id] 20 0 = .ok next) : untranslatable next = false := by
  obtain ⟨-, k, hselect⟩ := selectExcluding_ok 20 0 h
  unfold untranslatable
  rw [crossFamily_of_no_model rfl hselect]
  rfl

theorem toolWalk_stays {route : RouteResult} (h : (req.hasToolBlocks && untranslatable route) = false)
    (fuel n : Nat) : toolWalk req env (fuel + 1) n route = .ok route ∧
      crossFamilySkipped req env (fuel + 1) n route = [] := by
  unfold toolWalk crossFamilySkipped
  rw [h]
  exact ⟨rfl, rfl⟩

theorem toolWalk_ok {fuel : Nat} {primary r : RouteResult}
    (h : toolWalk req env fuel 0 primary = .ok r) :
    ((req.hasToolBlocks && untranslatable primary) = false ∧ r = primary ∧
        crossFamilySkipped req env fuel 0 primary = []) ∨
      ((req.hasToolBlocks && untranslatable primary) = true ∧
        selectExcluding (env.walkWorlds 0) env.setOrder (walkRequest req)
          [primary.provider.id] 20 0 = .ok r ∧
        crossFamilySkipped req env fuel 0 primary = [primary.provider.id]) := by
  cases fuel with
  | zero => cases h
  | succ fuel =>
    cases hpass : req.hasToolBlocks && untranslatable primary with
    | false =>
      obtain ⟨hstays, hnone⟩ := @toolWalk_stays req env primary hpass fuel 0
      rw [hstays] at h
      exact Or.inl ⟨rfl, (Except.ok.inj h).symm, hnone⟩
    | true =>
      unfold toolWalk at h
      unfold crossFamilySkipped
      rw [if_pos hpass] at h ⊢
      cases hnext : selectExcluding (env.walkWorlds 0) env.setOrder (walkRequest req)
          [primary.provider.id] 20 0 with
      | error e =>
        rw [hnext] at h
        cases h
      | ok next =>
        rw [hnext] at h
        have hfit : (req.hasToolBlocks && untranslatable next) = false := by
          rw [untranslatable_next hnext, Bool.and_false]
        cases fuel with
        | zero => cases h
        | succ fuel =>
          obtain ⟨hstays, hnone⟩ := @toolWalk_stays req env next hfit fuel 1
          dsimp only at h ⊢
          rw [hstays] at h
          rw [hnone, Except.ok.inj h]
          exact Or.inr ⟨rfl, rfl, rfl⟩

theorem toolWalk_moves {primary next : RouteResult}
    (hpass : (req.hasToolBlocks && untranslatable primary) = true)
    (hnext : selectExcluding (env.walkWorlds 0) env.setOrder (walkRequest req)
      [primary.provider.id] 20 0 = .ok next) (more : Nat) :
    toolWalk req env (more + 2) 0 primary = .ok next := by
  have hfit : (req.hasToolBlocks && untranslatable next) = false := by
    rw [untranslatable_next hnext, Bool.and_false]
  rw [toolWalk, if_pos hpass, hnext]
  exact (@toolWalk_stays req env next hfit more 1).1

theorem toolWalk_ends (more : Nat) (primary : RouteResult) :
    toolWalk req env (2 + more) 0 primary ≠ .error unfinished ∧
      toolWalk req env (2 + more) 0 primary = toolWalk req env 2 0 primary := by
  rw [show 2 + more = more + 2 from by omega]
  cases hpass : req.hasToolBlocks && untranslatable primary with
  | false =>
    rw [(@toolWalk_stays req env primary hpass (more + 1) 0).1,
      (@toolWalk_stays req env primary hpass 1 0).1]
    exact ⟨(fun hcontra => nomatch hcontra), rfl⟩
  | true =>
    cases hnext : selectExcluding (env.walkWorlds 0) env.setOrder (walkRequest req)
        [primary.provider.id] 20 0 with
    | error e =>
      rw [toolWalk, toolWalk, if_pos hpass, if_pos hpass, hnext]
      refine ⟨fun hcontra => ?_, rfl⟩
      have htype : "HTTPException" = "" := congrArg Failure.type (Except.error.inj hcontra)
      exact absurd htype (by decide)
    | ok next =>
      rw [toolWalk_moves hpass hnext, toolWalk_moves hpass hnext 0]
      exact ⟨(fun hcontra => nomatch hcontra), rfl⟩

end

/-! ## Sufficiency -/

section

variable {req : ChatRequest} {env : ApproachEnv}

theorem familyStage_crossed {pool : List Provider} {p : Provider}
    (hflag : (familyStage m pool).2 = true) (hp : p ∈ pool) :
    (modelFamilyProviderTypes m).any (fun family => !family.contains p.providerType) = true := by
  unfold familyStage at hflag
  cases hfamily : modelFamilyProviderTypes m with
  | none =>
    rw [hfamily] at hflag
    cases hflag
  | some family =>
    rw [hfamily] at hflag
    dsimp only at hflag
    split at hflag
    · next hempty =>
      have hout := List.filter_eq_nil_iff.mp (List.isEmpty_iff.mp hempty) p hp
      rw [Option.any_some, Bool.eq_false_iff.mpr hout]
      rfl
    · cases hflag

theorem cannotServe_of_flag {w : World} {pool : List Provider} {p : Provider}
    (hflag : (capabilityStage w m (familyStage m pool)).2 = true)
    (hp : p ∈ (capabilityStage w m (familyStage m pool)).1) :
    cannotServe w.capabilities m p = true := by
  unfold cannotServe
  cases hcrossed : (familyStage m pool).2 with
  | true => rw [familyStage_crossed hcrossed (familyStage_mem (capabilityStage_mem hp)), Bool.true_or]
  | false =>
    -- the flag was raised by the scanned capabilities
    have hkept := capabilityStage_mem hp
    unfold capabilityStage at hflag
    dsimp only at hflag
    split at hflag
    · rw [hcrossed] at hflag
      cases hflag
    · next hempty =>
      have hnil : (familyStage m pool).1.filter (supports w.capabilities m) = [] := by
        simpa using hempty
      rw [Bool.eq_false_iff.mpr (List.filter_eq_nil_iff.mp hnil p hkept)]
      exact Bool.or_true _

theorem cannotServe_of_crossFamily {w : World} {request : RouteRequest} {r : RouteResult}
    (hmodel : truthy request.modelOverride = some m) (hscanned : w.capabilities = capabilities)
    (hflag : r.crossFamilyFallback = true) (h : selectRoute w request = .ok r) :
    cannotServe capabilities m r.provider = true := by
  obtain ⟨pool, ranked, weighed, best, rest, -, -, -, -, hbind⟩ :=
    selectProvider_stages (selectProvider_of_selectRoute h)
  obtain ⟨p, ⟨-, -, hr⟩ | ⟨-, hp, hr⟩⟩ := bindStage_route hbind
  · rw [hr] at hflag
    cases hflag
  · rw [hr] at hflag ⊢
    have hmem := providerOf_ok hp
    have hcross : (modelStage w request pool).2 = true := hflag
    show cannotServe capabilities m p = true
    unfold modelStage at hmem hcross
    rw [hmodel] at hmem hcross
    rw [← hscanned]
    exact cannotServe_of_flag hcross hmem

theorem selectRoute_providerType {w : World} {request : RouteRequest} {r : RouteResult}
    (hids : (w.providers.map (·.id)).Nodup) (h : selectRoute w request = .ok r) :
    r.profile.providerType = r.provider.providerType := by
  rw [(selectProvider_profile hids (selectProvider_of_selectRoute h)).1]
  exact candidateProfile_providerType _ _ _

theorem starts_of_unasked {w : World} {request : RouteRequest} {r : RouteResult}
    (hw : Visible rows keys system key w) (hkey : request.apiKeyId = some key.id)
    (hlist : request.blockedCompanies = none) (hmodel : request.modelOverride = none)
    (h : selectRoute w request = .ok r) :
    r.provider ∈ rows ∧ starts rows keys system key none r.provider = true := by
  obtain ⟨hrow, hopen, htakes, -⟩ := selected_opens hw (Or.inr hkey) h
  have hclear := selected_cleared hw hkey hlist h
  rw [hmodel] at htakes hclear
  refine ⟨hrow, ?_⟩
  unfold starts
  rw [hopen, htakes, hclear]
  rfl

/-- **One pass suffices** over a table on which no two such providers meet. -/
theorem toolBlocksSafe_of_pairs (hids : (rows.map (·.id)).Nodup)
    (h : ∀ p ∈ rows, ∀ q ∈ rows, p.id ≠ q.id →
      standsIn rows keys system key capabilities m p = true →
      starts rows keys system key none q = true →
        takesToolBlocks p = true ∨ takesToolBlocks q = true) :
    ToolBlocksSafe rows keys system key capabilities m := by
  intro req env primary _ hkey hblocks hmodel henv hprimary hflag
  obtain ⟨hrow, hstarts⟩ := selectProviderWith503_starts hkey hmodel henv.primary hprimary
  have hselect := selectRoute_of_503 hprimary
  have hm : truthy (primaryRequest req).modelOverride = some m := by
    rw [primaryRequest_modelOverride, hmodel]
    exact truthy_some fun hempty => ne_of_askable (askable_of_starts hstarts) (by rw [hempty])
  have hstands : standsIn rows keys system key capabilities m primary.provider = true := by
    unfold standsIn
    rw [hstarts, cannotServe_of_crossFamily hm henv.scanned hflag hselect]
    rfl
  have htype : primary.profile.providerType = primary.provider.providerType :=
    selectRoute_providerType (by rw [henv.primary.rows]; exact hids) hselect
  refine ⟨⟨2, fun more => toolWalk_ends more primary⟩, ?_, ?_⟩
  · intro fuel r hwalk
    rcases toolWalk_ok hwalk with ⟨hstays, hr, -⟩ | ⟨hleaves, hnext, -⟩
    · rw [hr]
      rw [hblocks, Bool.true_and, untranslatable, hflag, htype, Bool.true_and] at hstays
      exact (Bool.not_eq_false' _).mp hstays
    · rw [hblocks, Bool.true_and, untranslatable, hflag, htype, Bool.true_and] at hleaves
      obtain ⟨hfresh, k, hroute⟩ := selectExcluding_ok 20 0 hnext
      have hq := starts_of_unasked (henv.walk 0 k) (by rw [← hkey]; rfl) rfl rfl hroute
      rcases h primary.provider hrow r.provider hq.1
        (fun hsame => hfresh (List.mem_singleton.mpr hsame.symm)) hstands hq.2 with hp | hq
      · rw [takesToolBlocks] at hp
        rw [hp] at hleaves
        cases hleaves
      · exact hq
  · intro fuel r hwalk
    rcases toolWalk_ok hwalk with ⟨-, -, hskipped⟩ | ⟨-, hnext, hskipped⟩
    · rw [hskipped]
      exact List.not_mem_nil
    · rw [hskipped]
      exact (selectExcluding_ok 20 0 hnext).1

end

/-! ## Necessity -/

/-- A request for the model through an alias, with tool blocks. -/
def toolProbe (key : ApiKeyRecord) (m : String) : ChatRequest :=
  { probe key (some m) .messages false false with hasToolBlocks := true }

/-- The primary selection meets one world, the walk another. -/
def walkEnv (primary walk : World) : ApproachEnv where
  primaryWorld := primary
  walkWorlds := fun _ _ => walk
  oauthWorlds := fun _ _ => walk
  oauthOutcome := fun _ => .answered
  setOrder := id
  setOrder_perm := fun ids => List.Perm.refl ids
  fuel := 2

theorem unsupported_of_cannotServe {p : Provider} (h : cannotServe capabilities m p = true) :
    NoFamily m [p] ∨ NoCapability capabilities m [p] := by
  rcases Bool.or_eq_true_iff.mp h with hfamily | hscan
  · obtain ⟨family, hsome, hout⟩ := (Option.any_eq_true _ _).mp hfamily
    refine Or.inl ⟨family, hsome, fun q hq => ?_⟩
    rw [List.mem_singleton.mp hq]
    exact (Bool.not_eq_true' _).mp hout
  · refine Or.inr fun q hq => ?_
    rw [List.mem_singleton.mp (familyStage_mem hq)]
    exact (Bool.not_eq_true' _).mp hscan

theorem toolProbe_primary (hids : (rows.map (·.id)).Nodup) {p : Provider} (hrow : p ∈ rows)
    (hp : standsIn rows keys system key capabilities m p = true) :
    ∃ r, selectProviderWith503 (aloneWorld rows keys system capabilities key.id p)
        (toolProbe key m) = .ok r ∧ r.provider = p ∧ r.crossFamilyFallback = true := by
  obtain ⟨hstarts, hcannot⟩ := Bool.and_eq_true_iff.mp hp
  simp only [starts, Bool.and_eq_true] at hstarts
  obtain ⟨⟨⟨hask, hopen⟩, htakes⟩, hclear⟩ := hstarts
  have hne := ne_of_askable hask
  have hoverride : (primaryRequest (toolProbe key m)).modelOverride = some m :=
    @probe_primaryModel key (some m) .messages false false hne
  have hpin : (primaryRequest (toolProbe key m)).pinnedProviderId = none := by
    rw [primaryRequest_pinnedProviderId,
      show (toolProbe key m).modelAlias = some ⟨none, m⟩ from
        @probe_modelAlias key (some m) .messages false false]
    rfl
  have hm : truthy (primaryRequest (toolProbe key m)).modelOverride = some m := by
    rw [hoverride]
    exact truthy_some fun hempty => hne (by rw [hempty])
  have hpool := candidatePool_primary capabilities hids hrow hopen rfl (by rw [hpin]; rfl) rfl
    (by rw [hoverride]; exact hclear) rfl rfl rfl rfl (by rw [hoverride]; exact htakes)
  have hoffer := offered_one hpool (rankStage_unhinted rfl) rfl rfl
  rw [modelStage_flag hm (unsupported_of_cannotServe hcannot)] at hoffer
  have hroute := selectRoute_one hoffer (candidateProfile_providerId _ _ _) rfl rfl rfl rfl rfl
  refine ⟨_, selectProviderWith503_of_route ?_ hroute, rfl, rfl⟩
  -- the self-hosted guard is part of `askable`
  simp only [askable, Bool.and_eq_true, Bool.or_eq_true, decide_eq_true_eq] at hask
  rw [show (toolProbe key m).requestedModel = some m from
    @probe_requestedModel key (some m) .messages false false hne]
  exact hask.2

theorem toolProbe_next (hids : (rows.map (·.id)).Nodup) {p q : Provider} (hrow : q ∈ rows)
    (hq : starts rows keys system key none q = true) (hne : p.id ≠ q.id) :
    ∃ r, selectExcluding (fun _ => aloneWorld rows keys system capabilities key.id q) id
        (walkRequest (toolProbe key m)) [p.id] 20 0 = .ok r ∧ r.provider = q := by
  simp only [starts, Bool.and_eq_true] at hq
  obtain ⟨⟨⟨-, hopen⟩, htakes⟩, hclear⟩ := hq
  have hadm := admitted_alone keys system capabilities
    { walkRequest (toolProbe key m) with excludeProviderId := some p.id } hrow hopen rfl rfl
    (Or.inr ⟨rfl, hclear⟩) (fun hsame => hne (Option.some.inj hsame)) List.not_mem_nil htakes
  have hpool := candidatePool_alone hids hadm rfl rfl
  have hoffer := offered_one hpool (rankStage_unhinted rfl) rfl rfl
  have hroute := selectRoute_one hoffer (candidateProfile_providerId _ _ _) rfl rfl rfl rfl rfl
  obtain ⟨r, hr, hprovider⟩ : ∃ r, selectRoute (aloneWorld rows keys system capabilities key.id q)
      { walkRequest (toolProbe key m) with excludeProviderId := some p.id } = .ok r ∧
        r.provider = q := ⟨_, hroute, rfl⟩
  refine ⟨r, ?_, hprovider⟩
  have hfresh : ([p.id].contains r.provider.id) = false := by
    rw [hprovider]
    simpa using hne.symm
  rw [selectExcluding, show (id [p.id]).head? = some p.id from rfl, hr]
  dsimp only
  rw [hfresh]
  rfl

/-- **Two providers that meet** break the net. -/
theorem pairs_of_toolBlocksSafe (hids : (rows.map (·.id)).Nodup)
    (h : ToolBlocksSafe rows keys system key capabilities m) :
    ∀ p ∈ rows, ∀ q ∈ rows, p.id ≠ q.id →
      standsIn rows keys system key capabilities m p = true →
      starts rows keys system key none q = true →
        takesToolBlocks p = true ∨ takesToolBlocks q = true := by
  intro p hp q hq hne hstands hstarts
  cases hunfit : takesToolBlocks p with
  | true => exact Or.inl rfl
  | false =>
    right
    obtain ⟨primary, hprimary, hprovider, hflag⟩ := toolProbe_primary hids hp hstands
    obtain ⟨next, hnext, hnextProvider⟩ := @toolProbe_next rows keys system key capabilities m hids
      p q hq hstarts hne
    have hne' := ne_of_askable (askable_of_starts (Bool.and_eq_true_iff.mp hstands).1)
    have hnet := h (toolProbe key m)
      (walkEnv (aloneWorld rows keys system capabilities key.id p)
        (aloneWorld rows keys system capabilities key.id q)) primary rfl rfl rfl
      (@probe_primaryModel key (some m) .messages false false hne')
      ⟨⟨rfl, rfl, rfl, rfl⟩, fun _ _ => ⟨rfl, rfl, rfl, rfl⟩, rfl⟩ hprimary hflag
    have htype := selectRoute_providerType hids (selectRoute_of_503 hprimary)
    have hleaves : untranslatable primary = true := by
      rw [untranslatable, hflag, htype, hprovider]
      rw [takesToolBlocks] at hunfit
      rw [hunfit]
      rfl
    rw [← hprovider] at hnext
    rw [← hnextProvider]
    have hpass : ((toolProbe key m).hasToolBlocks && untranslatable primary) = true := hleaves
    exact hnet.takes 2 next (toolWalk_moves hpass hnext 0)

/-- **The safety net**: over a provider table, every request for the model that carries tool
blocks and falls back across families ends on a provider that takes them exactly when no two
providers that take none meet, one that can stand in for the model and one that is offered without
a model. -/
theorem tool_blocks_safe_iff (rows : List Provider) (keys : List ApiKey) (system : Policy)
    (key : ApiKeyRecord) (capabilities : List ModelCapability) (m : String)
    (hids : (rows.map (·.id)).Nodup) :
    ToolBlocksSafe rows keys system key capabilities m ↔
      ∀ p ∈ rows, ∀ q ∈ rows, p.id ≠ q.id →
        standsIn rows keys system key capabilities m p = true →
        starts rows keys system key none q = true →
          takesToolBlocks p = true ∨ takesToolBlocks q = true :=
  ⟨pairs_of_toolBlocksSafe hids, toolBlocksSafe_of_pairs hids⟩

/-! ### Two Gemini rows -/

def geminiRow (id : String) : Provider :=
  { id := id, name := "Gemini " ++ id, providerType := "google",
    defaultModel := some "gemini-2.5-pro" }

/-- The net walks from one Gemini row to the other. -/
theorem gemini_rows_unsafe : ¬ ToolBlocksSafe [geminiRow "p1", geminiRow "p2"] [] {} auditedKey []
    "claude-sonnet-4-6" := by
  intro h
  have hids : ([geminiRow "p1", geminiRow "p2"].map (·.id)).Nodup := by decide
  have hmeet := pairs_of_toolBlocksSafe hids h (geminiRow "p1") (by decide) (geminiRow "p2")
    (by decide) (by decide) (by decide) (by decide)
  revert hmeet
  decide

/-- Beside a row of the vendor there is only one Gemini row to meet. -/
theorem gemini_beside_claude_safe : ([sonnetRow, geminiRow "p2"].map (·.id)).Nodup ∧
    ToolBlocksSafe [sonnetRow, geminiRow "p2"] [] {} auditedKey [] "claude-sonnet-4-6" := by
  refine ⟨by decide, (tool_blocks_safe_iff _ _ _ _ _ _ (by decide)).mpr ?_⟩
  decide

end LlmProxy.Dispatch
