import LlmProxy.Dispatch.Secondary
import LlmProxy.Routing.Offers
import LlmProxy.Routing.Soundness

/-! # The primary selection of a request

`select_provider_with_503` (`app/api/_request_pipeline.py`) and the three things its callers rely
on. Each is about every world a key's request can meet with a fixed provider table, so each holds
of a table, a key and a policy or does not.

> `substitution_disclosed_iff`: a request for a model of a blocked company is served with the
> disclosure. The disclosure needs a blocklist argument that this caller does not pass.
> `coordinator_local_iff`: `coordinator-local` stays on self-hosted providers. What is checked is
> that there is one.
> `auto_routing_iff`: an `auto` model is routed as a request without a model. The name is passed
> on as a model to ask for.
-/

namespace LlmProxy.Dispatch

open LlmProxy.Providers
open LlmProxy.Routing
open LlmProxy.Compliance
open LlmProxy.Cluster (ApiKey)

/-! ## Logical aliases -/

/-- `parse_hint(logical_alias_hint(alias))`: both parsers read the same dimensions. -/
def logicalAliasHint : String → Option LMRHHint
  | "coordinator-code" =>
    some ⟨"task=code, safety-min=3, cost=standard, exclude=anthropic;require",
      [{ key := "task", value := "code" }, { key := "safety-min", value := "3" },
        { key := "cost", value := "standard" },
        { key := "exclude", value := "anthropic", required := true }]⟩
  | "coordinator-fast" =>
    some ⟨"task=code, latency=low, cost=economy, exclude=anthropic;require",
      [{ key := "task", value := "code" }, { key := "latency", value := "low" },
        { key := "cost", value := "economy" },
        { key := "exclude", value := "anthropic", required := true }]⟩
  | "coordinator-reasoning" =>
    some ⟨"task=reasoning, safety-min=3, context-length=100000, exclude=anthropic;require",
      [{ key := "task", value := "reasoning" }, { key := "safety-min", value := "3" },
        { key := "context-length", value := "100000" },
        { key := "exclude", value := "anthropic", required := true }]⟩
  | "coordinator-local" =>
    some ⟨"task=code, exclude=anthropic;require",
      [{ key := "task", value := "code" },
        { key := "exclude", value := "anthropic", required := true }]⟩
  | _ => none

/-- `_layer_logical_alias_hint`: the caller's own dimensions win. -/
def layerLogicalAliasHint (hint : Option LMRHHint) (aliasName : String) : Option LMRHHint :=
  match logicalAliasHint aliasName, hint with
  | none, hint => hint
  | some aliasHint, none => some aliasHint
  | some aliasHint, some h =>
    some { h with
      dimensions := h.dimensions ++
        aliasHint.dimensions.filter fun d => !(h.dimensions.map (·.key)).contains d.key }

/-- The hint of the primary selection is the caller's, with the alias layered in. -/
def ChatRequest.Layered (req : ChatRequest) : Prop :=
  req.primaryHint =
    if req.logical then layerLogicalAliasHint req.hint (req.requestedModel.getD "") else req.hint

instance (req : ChatRequest) : Decidable req.Layered := inferInstanceAs (Decidable (_ = _))

section

variable (rows : List Provider) (keys : List ApiKey) (system : Policy) (key : ApiKeyRecord)

/-! ## Disclosure of a substitution -/

/-- The disclosures of a route for the model `m`, when the key's policy blocks the company of
`m`. -/
def Disclosed (m : String) (r : RouteResult) : Prop :=
  ∀ c, modelFamilyToCompany (some m) = some c →
    c ∈ (getEffectivePolicy keys system (some key.id)).blockedCompanies →
      r.complianceSubstituted = true ∧ r.complianceBlockedCompany = some c ∧
        r.complianceServedCompany = providerTypeToCompany r.provider.providerType

/-- Every route for the model is disclosed. -/
def SubstitutionDisclosed (m : String) : Prop :=
  ∀ (w : World) (req : ChatRequest) (r : RouteResult), Visible rows keys system key w →
    req.key = key → req.Layered → req.requestedModel = some m →
      selectProviderWith503 w req = .ok r → Disclosed keys system key m r

/-! ## Self-hosted providers -/

/-- Every route for `coordinator-local` is self-hosted. -/
def LocalOnly : Prop :=
  ∀ (w : World) (req : ChatRequest) (r : RouteResult), Visible rows keys system key w →
    req.key = key → req.Layered → req.model = "coordinator-local" → req.aliasRow = none →
      selectProviderWith503 w req = .ok r → isSelfHostedProvider r.provider = true

/-! ## Automatic models -/

/-- The provider types an endpoint has a dispatcher of its own for; it reads the model from the
body. -/
def ownDispatcherTypes : Endpoint → List String
  | .messages => ["claude-oauth", "grok-web"]
  | .completions => ["ChatGPT-oauth-plan", "claude-oauth", "grok-web"]

def upstreamModel (req : ChatRequest) (r : RouteResult) : Option String :=
  if (ownDispatcherTypes req.endpoint).contains r.provider.providerType then
    (resolveBodyModel req r).toOption.join
  else some (stripProviderPrefix r.litellmModel)

/-- Every request for the automatic model is offered what a request without a model is, and the
name is no reason to substitute and no model id. -/
def RoutedByHint (capabilities : List ModelCapability) (m : String) : Prop :=
  ∀ (w : World) (req : ChatRequest), Visible rows keys system key w →
    w.capabilities = capabilities → req.key = key → req.Layered → req.model = m →
      (offered w (primaryRequest req)).toOption =
          (offered w ((primaryRequest req).asking none)).toOption ∧
        ∀ r, selectProviderWith503 w req = .ok r →
          r.crossFamilyFallback = false ∧ upstreamModel req r ≠ some m

end

variable {rows : List Provider} {keys : List ApiKey} {system : Policy} {key : ApiKeyRecord}
  {m : String}

theorem selectRoute_of_503 {w : World} {req : ChatRequest} {r : RouteResult}
    (h : selectProviderWith503 w req = .ok r) : selectRoute w (primaryRequest req) = .ok r := by
  unfold selectProviderWith503 at h
  split at h
  · cases h
  · cases hselect : selectRoute w (primaryRequest req) with
    | error e =>
      rw [hselect] at h
      cases h
    | ok r' =>
      rw [hselect] at h
      rw [Except.ok.inj h]

theorem selectProviderWith503_of_route {w : World} {req : ChatRequest} {r : RouteResult}
    (hcheck : req.requestedModel ≠ some "coordinator-local" ∨
      w.providers.any (fun p => p.enabled && !p.deleted && isSelfHostedProvider p) = true)
    (h : selectRoute w (primaryRequest req) = .ok r) : selectProviderWith503 w req = .ok r := by
  unfold selectProviderWith503
  rw [if_neg, h]
  · rfl
  · intro hcontra
    obtain ⟨hlocal, hnone⟩ := Bool.and_eq_true_iff.mp hcontra
    rcases hcheck with hother | hany
    · exact hother (of_decide_eq_true hlocal)
    · rw [hany] at hnone
      cases hnone

theorem complianceSubstituted_of_no_blocklist {w : World} {req : RouteRequest} {r : RouteResult}
    (hlist : req.blockedCompanies = none) (h : selectRoute w req = .ok r) :
    r.complianceSubstituted = false := by
  obtain ⟨o, best, rest, -, -, hbind⟩ := offered_of_route (selectProvider_of_selectRoute h)
  obtain ⟨p, ⟨-, -, hr⟩ | ⟨-, -, hr⟩⟩ := bindStage_route hbind
  · rw [hr]
    rfl
  · rw [hr]
    show (complianceDisclosure req o.crossFamily).isSome = false
    unfold complianceDisclosure
    rw [hlist]
    split
    · rw [Option.isSome_eq_false_iff, Option.isNone_iff_eq_none, Option.filter_eq_none_iff]
      simp
    · rfl

theorem not_logical_of_company {c : String} (h : modelFamilyToCompany (some m) = some c) :
    isLogicalAlias (some m) = false := by
  rw [Bool.eq_false_iff]
  intro hlogical
  have hmem : m ∈ logicalAliases := by simpa [isLogicalAlias] using hlogical
  have hnone : ∀ a ∈ logicalAliases, modelFamilyToCompany (some a) = none := by decide
  rw [hnone m hmem] at h
  cases h

theorem ne_empty_of_company {c : String} (h : modelFamilyToCompany (some m) = some c) : m ≠ "" := by
  intro hempty
  rw [hempty] at h
  cases h

theorem probe_layered (endpoint : Endpoint) (stream webhook : Bool) (model : Option String) :
    (probe key model endpoint stream webhook).Layered := by
  unfold ChatRequest.Layered ChatRequest.logical
  rw [probe_modelAlias]
  rfl

theorem starts_of_eligible {c : String} {p : Provider}
    (hcompany : modelFamilyToCompany (some m) = some c)
    (h : eligible key.id (some m) (getEffectivePolicy keys system (some key.id)) p = true) :
    starts rows keys system key (some m) p = true := by
  have hne := ne_empty_of_company hcompany
  have hlocal : m ≠ "coordinator-local" := by
    intro heq
    have hlogical := not_logical_of_company hcompany
    rw [heq] at hlogical
    cases hlogical
  obtain ⟨hopen, hclear⟩ := Bool.and_eq_true_iff.mp h
  have hask : askable rows (some m) = true := by simp [askable, hne, hlocal]
  have htakes : takes (some m) p = true := by
    unfold takes
    rw [truthy_some hne]
    rfl
  simp only [starts, Bool.and_eq_true]
  exact ⟨⟨⟨hask, hopen⟩, htakes⟩, hclear⟩

theorem eligible_of_503 {w : World} {req : ChatRequest} {r : RouteResult} {c : String}
    (hw : Visible rows keys system key w) (hkey : req.key = key)
    (hmodel : req.requestedModel = some m) (hcompany : modelFamilyToCompany (some m) = some c)
    (h : selectProviderWith503 w req = .ok r) :
    r.provider ∈ rows ∧
      eligible key.id (some m) (getEffectivePolicy keys system (some key.id)) r.provider = true := by
  have hprimary : req.primaryModel = some m := by
    unfold ChatRequest.primaryModel ChatRequest.logical
    rw [hmodel, not_logical_of_company hcompany, Bool.and_false]
    rfl
  obtain ⟨hrow, hstarts⟩ := selectProviderWith503_starts hkey hprimary hw h
  simp only [starts, Bool.and_eq_true] at hstarts
  exact ⟨hrow, Bool.and_eq_true_iff.mpr ⟨hstarts.1.1.2, hstarts.2⟩⟩

/-- **Disclosure.** The routes of a key for a model are disclosed exactly when its policy does not
block the company of the model, or no provider open to the key is accepted for it. -/
theorem substitution_disclosed_iff (rows : List Provider) (keys : List ApiKey) (system : Policy)
    (key : ApiKeyRecord) (m : String) (hids : (rows.map (·.id)).Nodup) :
    SubstitutionDisclosed rows keys system key m ↔
      (∀ c, modelFamilyToCompany (some m) = some c →
        c ∉ (getEffectivePolicy keys system (some key.id)).blockedCompanies) ∨
      ∀ p ∈ rows,
        eligible key.id (some m) (getEffectivePolicy keys system (some key.id)) p = false := by
  constructor
  · intro h
    by_contra hneither
    obtain ⟨hblocked, heligible⟩ := not_or.mp hneither
    push Not at hblocked heligible
    obtain ⟨c, hcompany, hc⟩ := hblocked
    obtain ⟨p, hrow, hp⟩ := heligible
    have hstarts : starts rows keys system key (some m) p = true :=
      starts_of_eligible hcompany (by simpa using hp)
    obtain ⟨r, hselect, -, -, -⟩ :=
      selectProviderWith503_probe .messages false false hids hrow hstarts
    have hne : some m ≠ some "" := fun heq => ne_empty_of_company hcompany (Option.some.inj heq)
    have hdisclosed := (h _ _ r (soleWorld_visible p) rfl (probe_layered _ _ _ _)
      (probe_requestedModel hne) hselect c hcompany hc).1
    rw [complianceSubstituted_of_no_blocklist rfl (selectRoute_of_503 hselect)] at hdisclosed
    cases hdisclosed
  · intro hcond w req r hw hkey _ hmodel hselect c hcompany hc
    rcases hcond with hfree | hnobody
    · exact absurd hc (hfree c hcompany)
    · obtain ⟨hrow, helig⟩ := eligible_of_503 hw hkey hmodel hcompany hselect
      rw [hnobody r.provider hrow] at helig
      cases helig

/-- A key that blocks Anthropic asks for a Claude model and is served by OpenAI, undisclosed. -/
def claudeRequest : ChatRequest where
  endpoint := .completions
  key := auditedKey
  model := "claude-sonnet-4-6"

theorem claudeRequest_undisclosed :
    ¬ SubstitutionDisclosed [openaiRow] [noAnthropicKey] {} auditedKey "claude-sonnet-4-6" := by
  intro h
  have hserved : (selectProviderWith503 (quietWorld [openaiRow] [noAnthropicKey] {} []
      (some "k1") openaiRow) claudeRequest).isOk = true := by decide +kernel
  cases hselect : selectProviderWith503 (quietWorld [openaiRow] [noAnthropicKey] {} []
      (some "k1") openaiRow) claudeRequest with
  | error e =>
    rw [hselect] at hserved
    cases hserved
  | ok r =>
    have hdisclosed := (h _ claudeRequest r ⟨rfl, rfl, rfl, rfl⟩ rfl (by decide) (by decide)
      hselect "anthropic" (by decide) (by decide)).1
    rw [complianceSubstituted_of_no_blocklist rfl (selectRoute_of_503 hselect)] at hdisclosed
    cases hdisclosed

/-- The same key asks for an OpenAI model: there is nothing to disclose. -/
theorem openaiRequest_disclosed :
    ([openaiRow].map (·.id)).Nodup ∧
      SubstitutionDisclosed [openaiRow] [noAnthropicKey] {} auditedKey "gpt-4o" := by
  refine ⟨by decide, (substitution_disclosed_iff [openaiRow] [noAnthropicKey] {} auditedKey
    "gpt-4o" (by decide)).mpr (Or.inl ?_)⟩
  intro c hcompany
  have hopenai : modelFamilyToCompany (some "gpt-4o") = some "openai" := by decide
  rw [hopenai] at hcompany
  rw [← Option.some.inj hcompany]
  decide

/-! ## Self-hosted providers only -/

/-- A row that `coordinator-local` finds in its check. -/
def selfHostedRow (p : Provider) : Bool := p.enabled && !p.deleted && isSelfHostedProvider p

/-- A caller's own hint: it excludes nobody, and of the alias nothing is left to layer in. -/
def openHint : LMRHHint :=
  ⟨"exclude=none, task=chat", [{ key := "exclude", value := "none" },
    { key := "task", value := "chat" }]⟩

theorem scoreCandidate_openHint (profile : CapabilityProfile) :
    ∃ q unmet, scoreCandidate profile openHint = .ok (.fin q, unmet) := by
  have hexclude : scoreDim profile { key := "exclude", value := "none" } = .ignored ∨
      ∃ points, scoreDim profile { key := "exclude", value := "none" } = .penalised points := by
    simp only [scoreDim]
    split
    · exact Or.inr ⟨_, rfl⟩
    · exact Or.inl rfl
  have htask : scoreDim profile { key := "task", value := "chat" } = .missed ∨
      ∃ points, scoreDim profile { key := "task", value := "chat" } = .met points := by
    simp only [scoreDim, judge]
    split
    · exact Or.inr ⟨_, rfl⟩
    · exact Or.inl rfl
  unfold scoreCandidate
  simp only [openHint, scoreDims]
  rcases hexclude with hexclude | ⟨penalty, hexclude⟩ <;> rcases htask with htask | ⟨points, htask⟩
  all_goals
    simp only [hexclude, htask]
    exact ⟨_, _, rfl⟩

def localRequest (key : ApiKeyRecord) : ChatRequest where
  endpoint := .completions
  key := key
  model := "coordinator-local"
  hint := some openHint
  primaryHint := some openHint

theorem requestedModel_of_local {req : ChatRequest} (hmodel : req.model = "coordinator-local")
    (halias : req.aliasRow = none) :
    req.modelAlias = none ∧ req.requestedModel = some "coordinator-local" := by
  have hnone : req.modelAlias = none := by
    unfold ChatRequest.modelAlias
    rw [halias]
    split <;> rfl
  refine ⟨hnone, ?_⟩
  unfold ChatRequest.requestedModel
  rw [hnone, hmodel]
  rfl

theorem logical_of_local {req : ChatRequest} (hmodel : req.model = "coordinator-local")
    (halias : req.aliasRow = none) : req.logical = true := by
  obtain ⟨hnone, hrequested⟩ := requestedModel_of_local hmodel halias
  unfold ChatRequest.logical
  rw [hnone, hrequested]
  rfl

theorem primaryModel_of_local {req : ChatRequest} (hmodel : req.model = "coordinator-local")
    (halias : req.aliasRow = none) : req.primaryModel = none := by
  unfold ChatRequest.primaryModel
  rw [logical_of_local hmodel halias]
  rfl

theorem localRequest_layered (key : ApiKeyRecord) : (localRequest key).Layered := by
  unfold ChatRequest.Layered
  rw [logical_of_local rfl rfl, (requestedModel_of_local rfl rfl).2, if_pos rfl]
  show some openHint = layerLogicalAliasHint (some openHint) "coordinator-local"
  decide

theorem candidatePool_primary (capabilities : List ModelCapability) {request : RouteRequest}
    (hids : (rows.map (·.id)).Nodup) {p : Provider} (hrow : p ∈ rows) (hopen : opens key p = true)
    (htools : request.hasTools = false) (hpin : truthy request.pinnedProviderId = none)
    (hkey : request.apiKeyId = some key.id)
    (hclear : cleared keys system key request.modelOverride p = true)
    (hlist : request.blockedCompanies = none) (hone : request.excludeProviderId = none)
    (hmany : request.excludeProviderIds = []) (htypes : request.excludedProviderTypes = [])
    (htakes : takes request.modelOverride p = true) :
    candidatePool (aloneWorld rows keys system capabilities key.id p) request = .ok [p] := by
  have hadm := admitted_alone keys system capabilities request hrow hopen htools hpin
    (Or.inr ⟨hkey, hclear⟩) (by rw [hone]; exact Option.some_ne_none p.id |>.symm)
    (by rw [htypes]; exact List.not_mem_nil) htakes
  exact candidatePool_alone hids hadm hlist hmany

theorem localRequest_served (hids : (rows.map (·.id)).Nodup) {p q : Provider} (hrow : p ∈ rows)
    (hopen : opens key p = true) (hclear : cleared keys system key none p = true)
    (hchat : chatDefault p = true) (hq : q ∈ rows) (hlocal : selfHostedRow q = true) :
    ∃ r, selectProviderWith503 (aloneWorld rows keys system [] key.id p) (localRequest key) =
      .ok r ∧ r.provider = p := by
  have hoverride : (primaryRequest (localRequest key)).modelOverride = none :=
    primaryModel_of_local rfl rfl
  have hpin : (primaryRequest (localRequest key)).pinnedProviderId = none := by
    rw [primaryRequest_pinnedProviderId, (requestedModel_of_local rfl rfl).1]
    rfl
  have htakes : takes (primaryRequest (localRequest key)).modelOverride p = true := by
    rw [hoverride, takes_of_falsy rfl]
    exact hchat
  have hpool := candidatePool_primary [] hids hrow hopen rfl (by rw [hpin]; rfl) rfl
    (by rw [hoverride]; exact hclear) rfl rfl rfl rfl htakes
  obtain ⟨score, unmet, hscore⟩ := scoreCandidate_openHint
    (candidateProfile (aloneWorld rows keys system [] key.id p) (primaryRequest (localRequest key))
      p)
  have hoffer := offered_one hpool (rankStage_hinted rfl hscore) rfl rfl
  have hroute := selectRoute_one hoffer (candidateProfile_providerId _ _ _) rfl rfl rfl rfl rfl
  have hany : rows.any (fun p => p.enabled && !p.deleted && isSelfHostedProvider p) = true :=
    List.any_eq_true.mpr ⟨q, hq, hlocal⟩
  exact ⟨_, selectProviderWith503_of_route (Or.inr hany) hroute, rfl⟩

/-- **Self-hosted providers only.** The routes of a key for `coordinator-local` are self-hosted
exactly when the table has no self-hosted provider at all, and the request is refused, or every
provider that is open to the key, accepted by its policy and has a chat default is one. -/
theorem coordinator_local_iff (rows : List Provider) (keys : List ApiKey) (system : Policy)
    (key : ApiKeyRecord) (hids : (rows.map (·.id)).Nodup) :
    LocalOnly rows keys system key ↔
      (∀ p ∈ rows, selfHostedRow p = false) ∨
      ∀ p ∈ rows, opens key p = true → cleared keys system key none p = true →
        chatDefault p = true → isSelfHostedProvider p = true := by
  constructor
  · intro h
    by_cases hnone : ∀ p ∈ rows, selfHostedRow p = false
    · exact Or.inl hnone
    · refine Or.inr fun p hrow hopen hclear hchat => ?_
      push Not at hnone
      obtain ⟨q, hq, hlocal⟩ := hnone
      obtain ⟨r, hselect, hprovider⟩ := @localRequest_served rows keys system key hids p q
        hrow hopen hclear hchat hq (by simpa using hlocal)
      have hself := h _ (localRequest key) r ⟨rfl, rfl, rfl, rfl⟩ rfl
        (localRequest_layered key) rfl rfl hselect
      rw [hprovider] at hself
      exact hself
  · intro hcond w req r hw hkey _ hmodel halias hselect
    rcases hcond with hnone | hall
    · have hcheck : w.providers.any (fun p => p.enabled && !p.deleted && isSelfHostedProvider p) =
          false := by
        rw [hw.rows]
        exact List.any_eq_false.mpr fun p hp => by
          rw [show (p.enabled && !p.deleted && isSelfHostedProvider p) = false from hnone p hp]
          exact Bool.false_ne_true
      unfold selectProviderWith503 at hselect
      rw [(requestedModel_of_local hmodel halias).2, hcheck] at hselect
      cases hselect
    · obtain ⟨hrow, hstarts⟩ := selectProviderWith503_starts hkey
        (primaryModel_of_local hmodel halias) hw hselect
      simp only [starts, Bool.and_eq_true] at hstarts
      obtain ⟨⟨⟨-, hopen⟩, htakes⟩, hclear⟩ := hstarts
      rw [takes_of_falsy rfl] at htakes
      exact hall r.provider hrow hopen hclear htakes

/-- A self-hosted provider next to a hosted one. -/
def ollamaRow : Provider :=
  { id := "p4", name := "Ollama", providerType := "ollama", defaultModel := some "llama3",
    priority := 20 }

def plainLocalRequest : ChatRequest where
  endpoint := .completions
  key := auditedKey
  model := "coordinator-local"
  primaryHint := logicalAliasHint "coordinator-local"

/-- The hosted provider has the better priority, and the request is sent to it. -/
theorem plainLocalRequest_leaves : ¬ LocalOnly [openaiRow, ollamaRow] [] {} auditedKey := by
  intro h
  have hserved : (selectProviderWith503 (quietWorld [openaiRow, ollamaRow] [] {} [] (some "k1")
      openaiRow) plainLocalRequest).toOption.any (fun r => !isSelfHostedProvider r.provider) =
        true := by decide +kernel
  cases hselect : selectProviderWith503 (quietWorld [openaiRow, ollamaRow] [] {} [] (some "k1")
      openaiRow) plainLocalRequest with
  | error e =>
    rw [hselect] at hserved
    cases hserved
  | ok r =>
    rw [hselect] at hserved
    have hhosted : (!isSelfHostedProvider r.provider) = true := hserved
    rw [h _ plainLocalRequest r ⟨rfl, rfl, rfl, rfl⟩ rfl (by decide) rfl rfl hselect] at hhosted
    cases hhosted

/-- Every provider is self-hosted. -/
theorem ollamaTable_local_only :
    ([ollamaRow].map (·.id)).Nodup ∧ LocalOnly [ollamaRow] [] {} auditedKey := by
  refine ⟨by decide, (coordinator_local_iff [ollamaRow] [] {} auditedKey (by decide)).mpr
    (Or.inr ?_)⟩
  intro p hp _ _ _
  rw [List.mem_singleton.mp hp]
  decide

/-! ## Automatic models are models -/

/-- `is_auto_model`, of a name. -/
def isAutoModel (m : String) : Bool := ["auto", "llmp-auto"].contains (PyStr.lower m)

section

variable {capabilities : List ModelCapability}

theorem lower_of_auto (h : isAutoModel m = true) :
    PyStr.lower m = "auto" ∨ PyStr.lower m = "llmp-auto" := by
  simpa [isAutoModel] using h

theorem ne_of_auto (h : isAutoModel m = true) {s : String} (hs : isAutoModel s = false) : m ≠ s := by
  intro heq
  rw [heq, hs] at h
  cases h

theorem family_of_auto (h : isAutoModel m = true) :
    modelFamilyProviderTypes m = none ∧ requestedTier m = none := by
  have hne : m ≠ "" := ne_of_auto h (by decide)
  unfold modelFamilyProviderTypes requestedTier
  rw [if_neg hne]
  rcases lower_of_auto h with hlower | hlower
  · rw [hlower]
    decide
  · rw [hlower]
    decide

theorem servedModel_auto (h : isAutoModel m = true) (p : Provider) :
    servedModel p (some m) = m := by
  have hne : m ≠ "" := ne_of_auto h (by decide)
  have hvendor : lookupOr bareToVendor m m = m := by
    have hgrok3 : m ≠ "grok-3" := ne_of_auto h (by decide)
    have hgrok4 : m ≠ "grok-4" := ne_of_auto h (by decide)
    have hbeta : m ≠ "grok-3-beta" := ne_of_auto h (by decide)
    simp [lookupOr, bareToVendor, hgrok3.symm, hgrok4.symm, hbeta.symm]
  unfold servedModel
  rw [truthy_some hne]
  dsimp only [Option.orElse, Option.getD]
  split
  · exact hvendor
  · rfl

theorem primaryModel_auto (h : isAutoModel m = true) {req : ChatRequest} (hmodel : req.model = m) :
    req.modelAlias = none ∧ req.requestedModel = some m ∧ req.primaryModel = some m ∧
      req.isAuto = true := by
  have hauto : req.isAuto = true := by
    unfold ChatRequest.isAuto
    rw [hmodel]
    exact h
  have halias : req.modelAlias = none := by
    unfold ChatRequest.modelAlias
    rw [hauto]
    rfl
  have hrequested : req.requestedModel = some m := by
    unfold ChatRequest.requestedModel
    rw [halias, hmodel]
    exact truthy_some (ne_of_auto h (by decide))
  have hlogical : isLogicalAlias (some m) = false := by
    have hnone : ∀ a ∈ logicalAliases, isAutoModel a = false := by decide
    rw [Bool.eq_false_iff]
    intro hlogical
    have hmem : m ∈ logicalAliases := by simpa [isLogicalAlias] using hlogical
    rw [hnone m hmem] at h
    cases h
  refine ⟨halias, hrequested, ?_, hauto⟩
  unfold ChatRequest.primaryModel ChatRequest.logical
  rw [hrequested, hlogical, Bool.and_false]
  rfl

/-- The provider is offered to a request for the name exactly if it is to one without a model, and
then it supports the name and has a dispatcher that reads another model from the body. -/
def hintOnly (capabilities : List ModelCapability) (keys : List ApiKey) (system : Policy)
    (key : ApiKeyRecord) (m : String) (p : Provider) : Prop :=
  cleared keys system key (some m) p = (cleared keys system key none p && chatDefault p) ∧
    (cleared keys system key (some m) p = true → supports capabilities m p = true ∧
      ["claude-oauth", "grok-web"].contains p.providerType = true ∧ p.defaultModel ≠ some m)

theorem cleared_same {p q : Provider} (hp : cleared keys system key (some m) p = true)
    (hq : hintOnly capabilities keys system key m q) :
    cleared keys system key none q = cleared keys system key (some m) q ∧
      (cleared keys system key none q = true → chatDefault q = true) := by
  have hsame := hq.1
  cases hnone : cleared keys system key none q with
  | false =>
    rw [hnone, Bool.false_and] at hsame
    exact ⟨hsame.symm, fun hcontra => absurd hcontra Bool.false_ne_true⟩
  | true =>
    have hsome : cleared keys system key (some m) q = true := accepts_of_accepts_none hp hnone
    rw [hsome, hnone, Bool.true_and] at hsame
    exact ⟨hsome.symm, fun _ => hsame.symm⟩

section

variable {w : World} {req : ChatRequest}

theorem opens_of_admitted {request : RouteRequest} {q : Provider}
    (hkey : request.apiKeyId = some key.id) (hen : q.enabled = true)
    (haccess : accessible (effectiveKey w request) q = true) : opens key q = true := by
  rw [effectiveKey_of_id key.nonempty hkey] at haccess
  exact Bool.and_eq_true_iff.mpr ⟨hen, haccess⟩

theorem candidatePool_auto (hauto : isAutoModel m = true) (hw : Visible rows keys system key w)
    (hkey : req.key = key) (hmodel : req.model = m)
    (h : ∀ p ∈ rows, opens key p = true → hintOnly capabilities keys system key m p)
    (pool : List Provider) :
    candidatePool w (primaryRequest req) = .ok pool ↔
      candidatePool w ((primaryRequest req).asking none) = .ok pool := by
  obtain ⟨-, -, hprimary, -⟩ := primaryModel_auto hauto hmodel
  have hid : (primaryRequest req).apiKeyId = some key.id := by
    rw [← hkey]
    rfl
  have htruthy : truthy (primaryRequest req).apiKeyId = some key.id := by
    rw [hid, truthy_some key.nonempty]
  have hoverride : (primaryRequest req).modelOverride = some m := hprimary
  have hpolicy : getEffectivePolicy w.keys w.systemPolicy (some key.id) =
      getEffectivePolicy keys system (some key.id) := by rw [hw.keys, hw.system]
  -- the rows open to the key, given one accepted for the name
  have hsame : ∀ p, cleared keys system key (some m) p = true → ∀ q ∈ w.providers,
      q.enabled = true → accessible (effectiveKey w (primaryRequest req)) q = true →
        cleared keys system key none q = cleared keys system key (some m) q ∧
          (cleared keys system key none q = true → chatDefault q = true) := by
    intro p hp q hq hen haccess
    rw [hw.rows] at hq
    exact cleared_same hp (h q hq (opens_of_admitted hid hen haccess))
  constructor
  · intro hpool
    obtain ⟨p, hp⟩ := List.exists_mem_of_ne_nil _ (candidatePool_ne_nil hpool)
    have hadm := candidatePool_admitted hpool hp
    have hclear : cleared keys system key (some m) p = true := by
      have hfilter := hadm.compliant rfl key.id htruthy
      rw [hpolicy, hoverride] at hfilter
      exact hfilter
    refine candidatePool_transfer htruthy rfl rfl rfl ?_ ?_ hpool
    · intro q hq hen haccess
      rw [hpolicy, hoverride]
      exact (hsame p hclear q hq hen haccess).1
    · intro q hq hen haccess hacc
      rw [hpolicy, hoverride] at hacc
      obtain ⟨heq, hchat⟩ := hsame p hclear q hq hen haccess
      exact hchat (heq.trans hacc)
  · intro hpool
    obtain ⟨p, hp⟩ := List.exists_mem_of_ne_nil _ (candidatePool_ne_nil hpool)
    have hadm := candidatePool_admitted hpool hp
    have hnone : cleared keys system key none p = true := by
      have hfilter := hadm.compliant rfl key.id htruthy
      rw [hpolicy] at hfilter
      exact hfilter
    have hopen : opens key p = true := opens_of_admitted hid hadm.enabled hadm.accessible
    have hclear : cleared keys system key (some m) p = true := by
      rw [(h p (hw.rows ▸ hadm.row) hopen).1, hnone, hadm.chat rfl]
      rfl
    have hback : ((primaryRequest req).asking none).asking (some m) = primaryRequest req := by
      rw [← hoverride]
      rfl
    have htruthy' : truthy ((primaryRequest req).asking none).apiKeyId = some key.id := htruthy
    rw [← hback]
    refine candidatePool_transfer htruthy' rfl rfl rfl ?_ ?_ hpool
    · intro q hq hen haccess
      rw [hpolicy]
      exact (hsame p hclear q hq hen haccess).1.symm
    · intro q hq hen haccess hacc
      rw [hpolicy] at hacc
      exact (hsame p hclear q hq hen haccess).2 hacc

theorem supports_of_pool (hauto : isAutoModel m = true) (hw : Visible rows keys system key w)
    (hkey : req.key = key) (hmodel : req.model = m)
    (h : ∀ p ∈ rows, opens key p = true → hintOnly capabilities keys system key m p)
    {pool : List Provider} (hpool : candidatePool w (primaryRequest req) = .ok pool) :
    ∀ q ∈ pool, supports capabilities m q = true := by
  intro q hq
  have hadm := candidatePool_admitted hpool hq
  have hid : (primaryRequest req).apiKeyId = some key.id := by
    rw [← hkey]
    rfl
  have hclear : cleared keys system key (some m) q = true := by
    have hfilter := hadm.compliant rfl key.id (by rw [hid, truthy_some key.nonempty])
    rw [hw.keys, hw.system, primaryRequest_modelOverride,
      (primaryModel_auto hauto hmodel).2.2.1] at hfilter
    exact hfilter
  have hopen := opens_of_admitted hid hadm.enabled hadm.accessible
  exact ((h q (hw.rows ▸ hadm.row) hopen).2 hclear).1

theorem offered_auto (hauto : isAutoModel m = true) (hw : Visible rows keys system key w)
    (hcaps : w.capabilities = capabilities) (hkey : req.key = key) (hmodel : req.model = m)
    (h : ∀ p ∈ rows, opens key p = true → hintOnly capabilities keys system key m p) :
    (offered w (primaryRequest req)).toOption =
      (offered w ((primaryRequest req).asking none)).toOption := by
  obtain ⟨-, -, hprimary, -⟩ := primaryModel_auto hauto hmodel
  have hoverride : truthy (primaryRequest req).modelOverride = some m := by
    rw [primaryRequest_modelOverride, hprimary, truthy_some (ne_of_auto hauto (by decide))]
  obtain ⟨hfamily, htier⟩ := family_of_auto hauto
  have hfrom : ∀ pool, candidatePool w (primaryRequest req) = .ok pool →
      offerFrom w (primaryRequest req) pool = offerFrom w ((primaryRequest req).asking none) pool := by
    intro pool hpool
    refine offerFrom_asking_none hoverride hfamily htier (candidatePool_ne_nil hpool) ?_
    rw [hcaps]
    exact supports_of_pool hauto hw hkey hmodel h hpool
  apply Result.toOption_congr
  intro o
  constructor
  · intro ho
    obtain ⟨pool, hpool, ho⟩ := Result.bind_ok ho
    rw [offered_of_pool ((candidatePool_auto hauto hw hkey hmodel h pool).mp hpool),
      ← hfrom pool hpool]
    exact ho
  · intro ho
    obtain ⟨pool, hpool, ho⟩ := Result.bind_ok ho
    have hpool' := (candidatePool_auto hauto hw hkey hmodel h pool).mpr hpool
    rw [offered_of_pool hpool', hfrom pool hpool']
    exact ho

/-- A dispatcher that reads the body sends an automatic request with the default of its
provider. -/
theorem upstreamModel_own {r : RouteResult}
    (hown : (ownDispatcherTypes req.endpoint).contains r.provider.providerType = true)
    (hauto : req.isAuto = true) (hprofile : r.profile.modelId = r.provider.defaultModel.getD "")
    (hnative : r.servedModelNative = none) :
    upstreamModel req r = truthy r.provider.defaultModel := by
  unfold upstreamModel resolveBodyModel
  rw [if_pos hown, hauto, hnative, hprofile]
  cases hdefault : r.provider.defaultModel with
  | none => rfl
  | some d =>
    by_cases hempty : d = ""
    · rw [hempty]
      rfl
    · have htruthy : truthy (some d) = some d := truthy_some hempty
      simp only [Bool.true_or, if_true, Option.getD_some, htruthy, Option.orElse]
      rfl

theorem upstreamModel_auto (hauto : isAutoModel m = true) (hw : Visible rows keys system key w)
    (hids : (rows.map (·.id)).Nodup) (hcaps : w.capabilities = capabilities) (hkey : req.key = key)
    (hmodel : req.model = m)
    (h : ∀ p ∈ rows, opens key p = true → hintOnly capabilities keys system key m p)
    {r : RouteResult} (hselect : selectProviderWith503 w req = .ok r) :
    r.crossFamilyFallback = false ∧ upstreamModel req r ≠ some m := by
  obtain ⟨-, -, hprimary, hisAuto⟩ := primaryModel_auto hauto hmodel
  have hoverride : truthy (primaryRequest req).modelOverride = some m := by
    rw [primaryRequest_modelOverride, hprimary, truthy_some (ne_of_auto hauto (by decide))]
  have hroute := selectProvider_of_selectRoute (selectRoute_of_503 hselect)
  -- no substitution
  obtain ⟨o, best, rest, hoffered, -, hbind⟩ := offered_of_route hroute
  obtain ⟨pool, hpool, hcross⟩ := offered_crossFamily hoffered
  have hsupports := supports_of_pool hauto hw hkey hmodel h hpool
  rw [← hcaps] at hsupports
  rw [modelStage_supported hoverride (family_of_auto hauto).1 (candidatePool_ne_nil hpool)
    hsupports] at hcross
  rw [hcross] at hbind
  obtain ⟨hsame, hnative⟩ := route_of_same_family hbind
  refine ⟨hsame, ?_⟩
  -- the provider has a dispatcher that reads its default from the body
  obtain ⟨hrow, hstarts⟩ := selectProviderWith503_starts hkey hprimary hw hselect
  simp only [starts, Bool.and_eq_true] at hstarts
  obtain ⟨-, hown, hdefault⟩ := (h r.provider hrow hstarts.1.1.2).2 hstarts.2
  have hids' : (w.providers.map (·.id)).Nodup := by
    rw [hw.rows]
    exact hids
  have hprofile : r.profile.modelId = r.provider.defaultModel.getD "" := by
    rw [(selectProvider_profile hids' hroute).1]
    exact candidateProfile_modelId _ _ _
  have hdispatcher : (ownDispatcherTypes req.endpoint).contains r.provider.providerType = true := by
    have hmem : r.provider.providerType = "claude-oauth" ∨ r.provider.providerType = "grok-web" := by
      simpa using hown
    cases req.endpoint <;> rcases hmem with heq | heq <;> rw [heq] <;> decide
  rw [upstreamModel_own hdispatcher hisAuto hprofile hnative]
  intro hcontra
  exact hdefault (eq_some_of_truthy hcontra)

end

/-! ### Necessity -/

def autoRequest (key : ApiKeyRecord) (m : String) : ChatRequest where
  endpoint := .messages
  key := key
  model := m

theorem autoRequest_layered (hauto : isAutoModel m = true) : (autoRequest key m).Layered := by
  obtain ⟨-, hrequested, hprimary, -⟩ := primaryModel_auto hauto (rfl : (autoRequest key m).model = m)
  unfold ChatRequest.Layered
  rw [if_neg]
  · rfl
  · intro hlogical
    unfold ChatRequest.primaryModel at hprimary
    rw [if_pos hlogical] at hprimary
    cases hprimary

section

variable {p : Provider}

theorem offered_autoRequest (capabilities : List ModelCapability) (hauto : isAutoModel m = true)
    (hids : (rows.map (·.id)).Nodup) (hrow : p ∈ rows) (hopen : opens key p = true)
    (hclear : cleared keys system key (some m) p = true) :
    ∃ t : Ranked, t.profile.subject = (p.id, p.defaultModel.getD "") ∧ (∃ q, t.score = .fin q) ∧
      offered (aloneWorld rows keys system capabilities key.id p) (primaryRequest (autoRequest key m))
        = .ok ⟨[p], !supports capabilities m p, [], [t]⟩ := by
  obtain ⟨halias, -, hprimary, -⟩ := primaryModel_auto hauto (rfl : (autoRequest key m).model = m)
  have hne : m ≠ "" := ne_of_auto hauto (by decide)
  have hoverride : (primaryRequest (autoRequest key m)).modelOverride = some m := hprimary
  have hpin : (primaryRequest (autoRequest key m)).pinnedProviderId = none := by
    rw [primaryRequest_pinnedProviderId, halias]
    rfl
  have htakes : takes (primaryRequest (autoRequest key m)).modelOverride p = true := by
    rw [hoverride]
    unfold takes
    rw [truthy_some hne]
    rfl
  have hpool := candidatePool_primary capabilities hids hrow hopen rfl (by rw [hpin]; rfl) rfl
    (by rw [hoverride]; exact hclear) rfl rfl rfl rfl htakes
  have hcross := modelStage_one_cross
    (w := aloneWorld rows keys system capabilities key.id p)
    (by rw [hoverride, truthy_some hne]) (family_of_auto hauto).1 p
  have hoffer := offered_one hpool (rankStage_unhinted rfl) rfl rfl
  rw [hcross] at hoffer
  refine ⟨_, ?_, ⟨_, rfl⟩, hoffer⟩
  exact Prod.ext (candidateProfile_providerId _ _ _) (candidateProfile_modelId _ _ _)

theorem offered_autoRequest_none (capabilities : List ModelCapability)
    (hauto : isAutoModel m = true) (hids : (rows.map (·.id)).Nodup) (hrow : p ∈ rows)
    (hopen : opens key p = true) (hclear : cleared keys system key none p = true)
    (hchat : chatDefault p = true) :
    ∃ t : Ranked,
      offered (aloneWorld rows keys system capabilities key.id p)
        ((primaryRequest (autoRequest key m)).asking none) = .ok ⟨[p], false, [], [t]⟩ := by
  have hpin : ((primaryRequest (autoRequest key m)).asking none).pinnedProviderId = none := by
    show (primaryRequest (autoRequest key m)).pinnedProviderId = none
    rw [primaryRequest_pinnedProviderId, (primaryModel_auto hauto rfl).1]
    rfl
  have htakes : takes ((primaryRequest (autoRequest key m)).asking none).modelOverride p = true := by
    rw [takes_of_falsy rfl]
    exact hchat
  have hpool := candidatePool_primary capabilities hids hrow hopen rfl (by rw [hpin]; rfl) rfl
    hclear rfl rfl rfl rfl htakes
  have hoffer := offered_one hpool (rankStage_unhinted rfl) rfl rfl
  rw [modelStage_of_no_model rfl] at hoffer
  exact ⟨_, hoffer⟩

theorem cleared_of_routed (hauto : isAutoModel m = true) (hids : (rows.map (·.id)).Nodup)
    (h : RoutedByHint rows keys system key capabilities m) (hrow : p ∈ rows)
    (hopen : opens key p = true) :
    cleared keys system key (some m) p = true ↔
      cleared keys system key none p = true ∧ chatDefault p = true := by
  have hsame := (h (aloneWorld rows keys system capabilities key.id p) (autoRequest key m)
    ⟨rfl, rfl, rfl, rfl⟩ rfl rfl (autoRequest_layered hauto) rfl).1
  have htruthy : truthy (primaryRequest (autoRequest key m)).apiKeyId = some key.id :=
    truthy_some key.nonempty
  constructor
  · intro hclear
    obtain ⟨t, -, -, hoffer⟩ := offered_autoRequest capabilities hauto hids hrow hopen hclear
    rw [hoffer] at hsame
    have hadm := offered_aloneWorld_admitted hids hrow (Result.ok_of_toOption hsame.symm)
    exact ⟨hadm.compliant rfl key.id htruthy, hadm.chat rfl⟩
  · rintro ⟨hclear, hchat⟩
    obtain ⟨t, hoffer⟩ := offered_autoRequest_none capabilities hauto hids hrow hopen hclear hchat
    rw [hoffer] at hsame
    have hadm := offered_aloneWorld_admitted hids hrow (Result.ok_of_toOption hsame)
    have hfilter := hadm.compliant rfl key.id htruthy
    rw [primaryRequest_modelOverride, (primaryModel_auto hauto rfl).2.2.1] at hfilter
    exact hfilter

theorem supports_of_routed (hauto : isAutoModel m = true) (hids : (rows.map (·.id)).Nodup)
    (h : RoutedByHint rows keys system key capabilities m) (hrow : p ∈ rows)
    (hopen : opens key p = true) (hclear : cleared keys system key (some m) p = true) :
    supports capabilities m p = true := by
  have hsame := (h (aloneWorld rows keys system capabilities key.id p) (autoRequest key m)
    ⟨rfl, rfl, rfl, rfl⟩ rfl rfl (autoRequest_layered hauto) rfl).1
  obtain ⟨t, -, -, hoffer⟩ := offered_autoRequest capabilities hauto hids hrow hopen hclear
  rw [hoffer] at hsame
  obtain ⟨pool, -, hcross⟩ := offered_crossFamily (Result.ok_of_toOption hsame.symm)
  have hnone : truthy ((primaryRequest (autoRequest key m)).asking none).modelOverride = none := rfl
  rw [modelStage_of_no_model hnone] at hcross
  cases hsupports : supports capabilities m p with
  | true => rfl
  | false =>
    rw [hsupports] at hcross
    cases hcross

theorem dispatcher_of_routed (hauto : isAutoModel m = true) (hids : (rows.map (·.id)).Nodup)
    (h : RoutedByHint rows keys system key capabilities m) (hrow : p ∈ rows)
    (hopen : opens key p = true) (hclear : cleared keys system key (some m) p = true) :
    ["claude-oauth", "grok-web"].contains p.providerType = true ∧ p.defaultModel ≠ some m := by
  obtain ⟨-, hrequested, hprimary, hisAuto⟩ :=
    primaryModel_auto hauto (rfl : (autoRequest key m).model = m)
  obtain ⟨t, hsubject, ⟨q, hscore⟩, hoffer⟩ :=
    offered_autoRequest capabilities hauto hids hrow hopen hclear
  rw [supports_of_routed hauto hids h hrow hopen hclear] at hoffer
  have hroute := selectRoute_one hoffer (congrArg Prod.fst hsubject) hscore rfl rfl rfl rfl
  have hlocal : (autoRequest key m).requestedModel ≠ some "coordinator-local" := by
    rw [hrequested]
    intro heq
    exact ne_of_auto hauto (by decide) (Option.some.inj heq)
  obtain ⟨r, hr⟩ : ∃ r, r = boundRoute (aloneWorld rows keys system capabilities key.id p)
    (primaryRequest (autoRequest key m)) (!true) p t [] := ⟨_, rfl⟩
  rw [← hr] at hroute
  have hprovider : r.provider = p := by rw [hr]; rfl
  have hupstream := ((h _ (autoRequest key m) ⟨rfl, rfl, rfl, rfl⟩ rfl rfl
    (autoRequest_layered hauto) rfl).2 r (selectProviderWith503_of_route (Or.inl hlocal) hroute)).2
  have hprofile : r.profile.modelId = r.provider.defaultModel.getD "" := by
    rw [hr]
    exact congrArg Prod.snd hsubject
  rw [← hprovider]
  by_cases hown : (ownDispatcherTypes (autoRequest key m).endpoint).contains
      r.provider.providerType = true
  · rw [upstreamModel_own hown hisAuto hprofile (by rw [hr]; rfl)] at hupstream
    refine ⟨hown, fun hdefault => hupstream ?_⟩
    rw [hdefault, truthy_some (ne_of_auto hauto (by decide))]
  · refine absurd ?_ hupstream
    unfold upstreamModel
    rw [if_neg hown, hr]
    show some (stripProviderPrefix (buildLitellmModel p (autoRequest key m).primaryModel)) = some m
    rw [stripProviderPrefix_buildLitellmModel, hprimary, servedModel_auto hauto]

end

/-- **Automatic models.** The requests of a key for an automatic model are routed by their hints
alone exactly when every provider open to the key is accepted for the name if it is accepted
without a model and has a chat default, and each so accepted supports the name and has a
dispatcher that reads another model from the body. -/
theorem auto_routing_iff (rows : List Provider) (keys : List ApiKey) (system : Policy)
    (key : ApiKeyRecord) (capabilities : List ModelCapability) (m : String)
    (hauto : isAutoModel m = true) (hids : (rows.map (·.id)).Nodup) :
    RoutedByHint rows keys system key capabilities m ↔
      ∀ p ∈ rows, opens key p = true → hintOnly capabilities keys system key m p := by
  constructor
  · intro h p hrow hopen
    constructor
    · rw [Bool.eq_iff_iff, Bool.and_eq_true]
      exact cleared_of_routed hauto hids h hrow hopen
    · intro hclear
      exact ⟨supports_of_routed hauto hids h hrow hopen hclear,
        dispatcher_of_routed hauto hids h hrow hopen hclear⟩
  · intro h w req hw hcaps hkey _ hmodel
    refine ⟨offered_auto hauto hw hcaps hkey hmodel h, fun r hselect => ?_⟩
    exact upstreamModel_auto hauto hw hids hcaps hkey hmodel h hselect

end

/-- The first provider is scanned, and no scan lists a model of that name: it is not a candidate,
where a request without a model has both. -/
theorem autoRequest_misrouted :
    ¬ RoutedByHint [openaiRow, ollamaRow] [] {} auditedKey
      [{ providerId := "p1", modelId := "gpt-4o" }] "auto" := by
  intro h
  have hsame := (h (quietWorld [openaiRow, ollamaRow] [] {}
    [{ providerId := "p1", modelId := "gpt-4o" }] (some "k1") openaiRow)
    (autoRequest auditedKey "auto") ⟨rfl, rfl, rfl, rfl⟩ rfl rfl (by decide) rfl).1
  have hcandidates := congrArg (Option.map fun o => o.available.map (·.id)) hsame
  revert hcandidates
  decide +kernel

def claudeMaxRow : Provider :=
  { id := "p5", name := "Claude Max", providerType := "claude-oauth",
    defaultModel := some "claude-sonnet-4-6" }

/-- The dispatcher of the only provider puts its own default in the body. -/
theorem claudeMax_routed_by_hint :
    isAutoModel "auto" = true ∧ ([claudeMaxRow].map (·.id)).Nodup ∧
      RoutedByHint [claudeMaxRow] [] {} auditedKey [] "auto" := by
  refine ⟨by decide, by decide,
    (auto_routing_iff [claudeMaxRow] [] {} auditedKey [] "auto" (by decide) (by decide)).mpr ?_⟩
  intro p hp _
  rw [List.mem_singleton.mp hp]
  exact ⟨by decide, fun _ => ⟨by decide, by decide, by decide⟩⟩

end LlmProxy.Dispatch
