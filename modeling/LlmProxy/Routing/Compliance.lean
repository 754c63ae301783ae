import LlmProxy.Routing.Selection

/-! # Compliance of the served model

The policy filter of `select_provider` looks at a provider's owner, its *default* model and
the *requested* model; the model a route sends upstream is bound hundreds of lines later, to
the requested model where the provider's type serves its family, to the provider's default
after a cross-family fallback, and always to the requested model on the cheapest path. An
aggregator passes the filter on its own company and default and is then asked for a model of a
blocked company; an allow-list is met by either of the two models and the other one is served.

Main result: `routes_permitted_iff` — the routes of a key are permitted by its policy exactly
when, for every provider the filter accepts, each model the binding can pick is permitted.
-/

namespace LlmProxy.Routing

open LlmProxy.Providers
open LlmProxy.Compliance
open LlmProxy.Cluster (ApiKey)

/-- The policy permits a served model: none of its companies is blocked, no blocked pattern
matches it, and an allow-list of models, if there is one, names it. -/
def permits (policy : Policy) (model : String) : Bool :=
  !meets (modelFamilyCompanies (some model)) policy.blockedCompanies &&
    !modelMatchesAny (some model) policy.blockedModels &&
    (policy.allowedModels.isEmpty || modelMatchesAny (some model) policy.allowedModels)

section

variable (rows : List Provider) (keys : List ApiKey) (system : Policy) (keyId : String)
  (model : Option String)

/-- Every route `select_provider` returns for the key and the requested model, whatever the
hint, the flags, the breakers, the metrics and the scanned capabilities, sends a permitted
model upstream. -/
def RoutesPermitted : Prop :=
  ∀ (w : World) (req : RouteRequest) (r : RouteResult),
    w.providers = rows → w.keys = keys → w.systemPolicy = system →
    req.apiKeyId = some keyId → req.blockedCompanies = none → req.modelOverride = model →
    selectProvider w req = .ok (.route r) →
      permits (getEffectivePolicy keys system (some keyId)) (stripProviderPrefix r.litellmModel) =
        true

/-- The provider is enabled, open to the key, and accepted by the policy filter. -/
def eligible (policy : Policy) (p : Provider) : Bool :=
  p.enabled && accessible (some keyId) p && accepts policy p model

/-- Each model the binding can pick for the provider is permitted: the requested one and the
default. Without a requested model only the default is bound, and an embedding default is
never routed to. -/
def bindingsPermitted (policy : Policy) (p : Provider) : Bool :=
  match truthy model with
  | none => !chatDefault p || permits policy (servedModel p none)
  | some m => permits policy (servedModel p (some m)) && permits policy (servedModel p none)

end

variable {rows : List Provider} {keys : List ApiKey} {system : Policy} {keyId : String}
  {model : Option String} {p : Provider}

theorem truthy_some {s : String} (h : s ≠ "") : truthy (some s) = some s := by
  simp [truthy, h]

theorem eq_some_of_truthy {s : Option String} {m : String} (h : truthy s = some m) :
    s = some m := by
  unfold truthy at h
  exact (Option.filter_eq_some_iff.mp h).1

/-- The binding reads its override through `truthy`. -/
theorem servedModel_of_falsy (p : Provider) (h : truthy model = none) :
    servedModel p model = servedModel p none := by
  unfold servedModel
  rw [h]
  rfl

theorem effectiveKey_of_id {w : World} {req : RouteRequest} (hid : keyId ≠ "")
    (hkey : req.apiKeyId = some keyId) : effectiveKey w req = some keyId := by
  unfold effectiveKey
  rw [hkey, truthy_some hid]
  rfl

/-! ## Sufficiency -/

theorem routesPermitted_of_bindings (hid : keyId ≠ "")
    (h : ∀ p ∈ rows,
      eligible keyId model (getEffectivePolicy keys system (some keyId)) p = true →
        bindingsPermitted model (getEffectivePolicy keys system (some keyId)) p = true) :
    RoutesPermitted rows keys system keyId model := by
  intro w req r hrows hkeys hsystem hkey hlist hmodel hroute
  obtain ⟨hadm, hbound, -⟩ := selectProvider_route hroute
  -- the provider of the route is one the condition speaks of
  have haccess : accessible (some keyId) r.provider = true := by
    have hown := hadm.accessible
    rwa [effectiveKey_of_id hid hkey] at hown
  have hpolicy : accepts (getEffectivePolicy keys system (some keyId)) r.provider model = true := by
    have hfilter := hadm.compliant hlist keyId (by rw [hkey, truthy_some hid])
    rwa [hkeys, hsystem, hmodel] at hfilter
  have helig : eligible keyId model (getEffectivePolicy keys system (some keyId)) r.provider =
      true := by
    simp [eligible, hadm.enabled, haccess, hpolicy]
  have hrow : r.provider ∈ rows := by
    rw [← hrows]
    exact hadm.row
  have hperm := h r.provider hrow helig
  unfold bindingsPermitted at hperm
  cases hm : truthy model with
  | none =>
    rw [hm] at hperm
    have hchat : chatDefault r.provider = true := hadm.chat (by rw [hmodel, hm])
    have hdefault : permits (getEffectivePolicy keys system (some keyId))
        (servedModel r.provider none) = true := by
      simpa [hchat] using hperm
    rcases hbound with hsame | ⟨hsome, -⟩
    · rw [hsame, stripProviderPrefix_buildLitellmModel, hmodel, servedModel_of_falsy _ hm]
      exact hdefault
    · rw [hmodel, hm] at hsome
      cases hsome
  | some m =>
    rw [hm] at hperm
    obtain ⟨hover, hdefault⟩ := Bool.and_eq_true_iff.mp hperm
    rcases hbound with hsame | ⟨-, hfall⟩
    · rw [hsame, stripProviderPrefix_buildLitellmModel, hmodel, eq_some_of_truthy hm]
      exact hover
    · rw [hfall, stripProviderPrefix_buildLitellmModel]
      exact hdefault

/-! ## Necessity: every binding is reached -/

/-- The request that leaves `p` alone. -/
def soleRequest (rows : List Provider) (keyId : String) (model : Option String) (cheapest : Bool)
    (p : Provider) : RouteRequest where
  modelOverride := model
  apiKeyId := some keyId
  excludeProviderIds := otherIds rows p
  preferCheapest := cheapest

theorem soleRequest_admitted (hid : keyId ≠ "") (hrow : p ∈ rows)
    (helig : eligible keyId model (getEffectivePolicy keys system (some keyId)) p = true)
    (hchat : truthy model = none → chatDefault p = true) (caps : List ModelCapability)
    (cheapest : Bool) :
    Admitted (quietWorld rows keys system caps none p)
      (soleRequest rows keyId model cheapest p) p := by
  obtain ⟨hopen, hpolicy⟩ := Bool.and_eq_true_iff.mp helig
  obtain ⟨hen, haccess⟩ := Bool.and_eq_true_iff.mp hopen
  have hpass : ∀ id, truthy (some keyId) = some id →
      accepts (getEffectivePolicy keys system (some id)) p model = true := by
    intro id hsome
    rw [truthy_some hid] at hsome
    rw [← Option.some.inj hsome]
    exact hpolicy
  have htenant : accessible (effectiveKey (quietWorld rows keys system caps none p)
      (soleRequest rows keyId model cheapest p)) p = true := by
    rw [effectiveKey_of_id hid rfl]
    exact haccess
  exact
    { row := hrow
      enabled := hen
      pinned := fun _ h => nomatch h
      compliant := fun _ => hpass
      notExcluded := fun h => nomatch h
      notExcludedIds := not_mem_otherIds rows p
      accessible := htenant
      available := rfl
      tools := fun h => nomatch h
      type := List.not_mem_nil
      chat := hchat }

theorem soleRequest_route (hid : keyId ≠ "") (hids : (rows.map (·.id)).Nodup) (hrow : p ∈ rows)
    (helig : eligible keyId model (getEffectivePolicy keys system (some keyId)) p = true)
    (hchat : truthy model = none → chatDefault p = true) (caps : List ModelCapability)
    (cheapest : Bool) :
    ∃ r, selectProvider (quietWorld rows keys system caps none p)
        (soleRequest rows keyId model cheapest p) = .ok (.route r) ∧
      r.litellmModel = buildLitellmModel p
        (if cheapest = false ∧ (modelStage (quietWorld rows keys system caps none p)
          (soleRequest rows keyId model cheapest p) [p]).2 = true then none else model) := by
  have hadm := soleRequest_admitted hid hrow helig hchat caps cheapest
  obtain ⟨huse, hnodup⟩ :=
    quietWorld_usable keys system caps none hrow hadm.enabled hids.of_map
  obtain ⟨r, hroute, -, hmodel⟩ :=
    selectProvider_sole hadm (leavesOnly_otherIds hids hrow rfl)
      ⟨rfl, rfl, rfl, rfl, rfl, rfl, rfl⟩ rfl rfl huse hnodup
  exact ⟨r, hroute, hmodel⟩

/-- A scan of the provider that does not list the model. -/
def foreignScan (p : Provider) (m : String) : List ModelCapability :=
  [{ providerId := p.id, modelId := if normModel m = "" then "x" else "" }]

theorem supports_foreignScan (p : Provider) (m : String) :
    supports (foreignScan p m) m p = false := by
  have hx : normModel "x" = "x" := by decide
  have hempty : normModel "" = "" := by decide
  have hne : normModel m ≠ normModel (if normModel m = "" then "x" else "") := by
    split
    · next hm =>
      rw [hm, hx]
      decide
    · next hm =>
      rw [hempty]
      exact hm
  simp [supports, foreignScan, matchesCapability, hne]

theorem modelStage_foreignScan {w : World} {req : RouteRequest} {m : String}
    (hm : truthy req.modelOverride = some m) (hcaps : w.capabilities = foreignScan p m) :
    (modelStage w req [p]).2 = true := by
  unfold modelStage
  rw [hm]
  dsimp only
  unfold capabilityStage
  rw [familyStage_sole m p, hcaps]
  dsimp only
  have hnone : [p].filter (supports (foreignScan p m) m) = [] := by
    simp [supports_foreignScan p m]
  rw [hnone]
  cases hflag : (familyStage m [p]).2 <;> simp [hflag]

theorem bindings_of_routesPermitted (hid : keyId ≠ "") (hids : (rows.map (·.id)).Nodup)
    (h : RoutesPermitted rows keys system keyId model) (hrow : p ∈ rows)
    (helig : eligible keyId model (getEffectivePolicy keys system (some keyId)) p = true) :
    bindingsPermitted model (getEffectivePolicy keys system (some keyId)) p = true := by
  unfold bindingsPermitted
  cases hm : truthy model with
  | none =>
    dsimp only
    cases hchat : chatDefault p with
    | false => rfl
    | true =>
      obtain ⟨r, hroute, hbound⟩ :=
        soleRequest_route hid hids hrow helig (fun _ => hchat) [] true
      have hperm := h _ _ r rfl rfl rfl rfl rfl rfl hroute
      rw [hbound, stripProviderPrefix_buildLitellmModel] at hperm
      rw [if_neg (fun hboth => by cases hboth.1), servedModel_of_falsy p hm] at hperm
      rw [hperm]
      rfl
  | some m =>
    have hsome : truthy model = none → chatDefault p = true := fun hnone => by
      rw [hm] at hnone
      cases hnone
    -- the cheapest path binds the requested model
    obtain ⟨cheap, hcheap, hcheapBound⟩ := soleRequest_route hid hids hrow helig hsome [] true
    have hover := h _ _ cheap rfl rfl rfl rfl rfl rfl hcheap
    rw [hcheapBound, stripProviderPrefix_buildLitellmModel,
      if_neg (fun hboth => by cases hboth.1), eq_some_of_truthy hm] at hover
    -- a scan without the model sends the ordinary path to the default
    obtain ⟨other, hother, hotherBound⟩ :=
      soleRequest_route hid hids hrow helig hsome (foreignScan p m) false
    have hdefault := h _ _ other rfl rfl rfl rfl rfl rfl hother
    rw [hotherBound, stripProviderPrefix_buildLitellmModel,
      if_pos ⟨rfl, modelStage_foreignScan hm rfl⟩] at hdefault
    dsimp only
    rw [hover, hdefault]
    rfl

/-- **Compliance of the served model**: the routes of a key with the requested model are
permitted by the key's policy exactly when each model the binding can pick is permitted, for
every enabled provider that is open to the key and passes the policy filter. -/
theorem routes_permitted_iff (rows : List Provider) (keys : List ApiKey) (system : Policy)
    (keyId : String) (model : Option String) (hid : keyId ≠ "")
    (hids : (rows.map (·.id)).Nodup) :
    RoutesPermitted rows keys system keyId model ↔
      ∀ p ∈ rows, eligible keyId model (getEffectivePolicy keys system (some keyId)) p = true →
        bindingsPermitted model (getEffectivePolicy keys system (some keyId)) p = true := by
  constructor
  · intro h p hrow helig
    exact bindings_of_routesPermitted hid hids h hrow helig
  · intro h
    exact routesPermitted_of_bindings hid h

/-! ## Fixed tables -/

/-- A key whose policy blocks Anthropic. -/
def noAnthropicKey : ApiKey :=
  { id := "k1", name := "audited", keyHash := "h", keyPrefix := "sk-",
    blockedCompanies := some ["anthropic"] }

def openaiRow : Provider :=
  { id := "p1", name := "OpenAI", providerType := "openai", defaultModel := some "gpt-4o",
    ownerCompany := some "openai" }

def anthropicRow : Provider :=
  { id := "p2", name := "Anthropic", providerType := "anthropic",
    defaultModel := some "claude-sonnet-4-6", ownerCompany := some "anthropic" }

/-- Cursor's relay serves the Claude catalogue under its own company. -/
def cursorRow : Provider :=
  { id := "p3", name := "Cursor", providerType := "cursor-oauth", defaultModel := some "gpt-4o",
    ownerCompany := some "cursor" }

/-- Two vendors with their own models: the blocked one is filtered, the other one serves. -/
theorem routes_permitted_two_vendors :
    RoutesPermitted [openaiRow, anthropicRow] [noAnthropicKey] {} "k1" (some "gpt-4o") :=
  (routes_permitted_iff [openaiRow, anthropicRow] [noAnthropicKey] {} "k1" (some "gpt-4o")
    (by decide) (by decide)).mpr (by decide)

/-- The relay passes the filter on its own company and default and is then sent a Claude
model. -/
theorem cursor_relay_serves_blocked_company :
    ¬ RoutesPermitted [cursorRow] [noAnthropicKey] {} "k1" (some "claude-4-sonnet") := by
  intro h
  have hperm := bindings_of_routesPermitted (by decide) (by decide) h
    (List.mem_singleton.mpr rfl) (p := cursorRow) (by decide)
  have hblocked : bindingsPermitted (some "claude-4-sonnet")
      (getEffectivePolicy [noAnthropicKey] {} (some "k1")) cursorRow = false := by decide
  rw [hblocked] at hperm
  cases hperm

end LlmProxy.Routing
