import LlmProxy.Routing.Lmrh
import LlmProxy.Providers.Row

/-! # Capability profiles

How the router turns a provider row into a profile: the scanned `ModelCapability` row of its
default model, or an inference from the model's name (`app/routing/capability_inference.py`),
with the measured speed and the daily budget on top; and the tests a profile is put to
(`_capability_fit`, `_apply_tool_success_weighting` of `app/routing/router.py`).
-/

namespace LlmProxy.Routing

open LlmProxy.Providers

/-- A row of `model_capabilities`, the columns the router reads. -/
structure ModelCapability where
  providerId : String
  modelId : String
  aliases : List String := []
  tasks : List String := []
  latency : String := "medium"
  costTier : String := "standard"
  safety : Int := 3
  contextLength : Int := 128000
  regions : List String := []
  modalities : List String := []
  nativeReasoning : Bool := false
  nativeTools : Option Bool := some true
  nativeVision : Option Bool := some true
  toolCallSuccessRate : Option Rat := none
  deriving DecidableEq

/-- `_norm` of `canonical.py`. -/
def normModel (s : String) : String := PyStr.lower (PyStr.strip s)

/-- `matches_capability`. -/
def matchesCapability (requested : String) (cap : ModelCapability) : Bool :=
  requested ≠ "" && (normModel requested = normModel cap.modelId ||
    cap.aliases.any fun a => normModel a = normModel requested)

/-- Some fragment occurs in the (lower-cased) model name. -/
def mentions (m : String) (fragments : List String) : Bool := fragments.any (PyStr.contains m)

/-! ### Inference from the model's name

The paragraphs of `infer_capability_profile`, in its order. -/

def inferTier (m : String) (profile : CapabilityProfile) : CapabilityProfile :=
  if mentions m ["opus", "o1", "o3", "o4", "r1", "deepseek-r", "gemini-2.5", "claude-3-7"] then
    { profile with
      nativeReasoning := true
      tasks := ["reasoning", "analysis", "code", "chat"]
      costTier := "premium"
      latency := "high"
      safety := 4 }
  else if mentions m ["sonnet", "gpt-4o", "gemini-2.0", "gpt-4-turbo", "grok-2"] then
    { profile with
      tasks := ["reasoning", "analysis", "code", "chat"]
      costTier := "standard"
      latency := "medium"
      safety := 4 }
  else if mentions m ["haiku", "flash", "mini", "gpt-3.5", "grok-beta"] then
    { profile with
      tasks := ["chat", "analysis"]
      costTier := "economy"
      latency := "low"
      safety := 3 }
  else profile

def inferVision (m : String) (profile : CapabilityProfile) : CapabilityProfile :=
  if mentions m ["vision", "vl", "gpt-4o", "gemini", "claude-3", "llava"] then
    { profile with modalities := ["text", "vision"], nativeVision := true }
  else profile

def inferTools (profile : CapabilityProfile) : CapabilityProfile :=
  if ["ollama", "compatible"].contains profile.providerType then
    { profile with nativeTools := false }
  else profile

def inferRegions (profile : CapabilityProfile) : CapabilityProfile :=
  if ["google", "openrouter", "nvidia_nim"].contains profile.providerType then
    { profile with regions := ["us", "eu", "asia"] }
  else if ["anthropic", "openai", "grok", "grok-web", "claude-oauth", "ChatGPT-oauth-plan",
      "cohere", "azure"].contains profile.providerType then
    { profile with regions := ["us"] }
  else if profile.providerType = "ollama" then
    { profile with regions := ["local"], costTier := "economy", latency := "medium" }
  else profile

/-- `infer_capability_profile`. -/
def inferCapabilityProfile (providerId providerType modelId : String) (priority : Int) :
    CapabilityProfile :=
  let m := PyStr.lower modelId
  inferRegions (inferTools (inferVision m (inferTier m
    { providerId := providerId, providerType := providerType, modelId := modelId,
      priority := priority })))

/-- The measurements `_load_profile` reads. -/
structure Telemetry where
  /-- `avg_ttft_ms` of the most recent metric bucket -/
  recentTtftMs : String → Option Rat
  todayCost : String → Rat
  /-- `max_output_tokens_for` of the pricing catalogue -/
  maxOutputTokens : String → Option Int

/-- `x or default` for the column types of a capability row. -/
def listOr (l default : List String) : List String := if l.isEmpty then default else l

def scannedProfile (tel : Telemetry) (provider : Provider) (cap : ModelCapability) :
    CapabilityProfile where
  providerId := provider.id
  providerType := provider.providerType
  providerName := provider.name
  modelId := provider.defaultModel.getD ""
  tasks := listOr cap.tasks ["chat"]
  latency := if cap.latency = "" then "medium" else cap.latency
  costTier := if cap.costTier = "" then "standard" else cap.costTier
  safety := if cap.safety = 0 then 3 else cap.safety
  contextLength := if cap.contextLength = 0 then 128000 else cap.contextLength
  maxOutputTokens := tel.maxOutputTokens (provider.defaultModel.getD "")
  regions := cap.regions
  modalities := listOr cap.modalities ["text"]
  nativeReasoning := cap.nativeReasoning
  nativeTools := cap.nativeTools.getD true
  nativeVision := cap.nativeVision.getD false
  priority := provider.priority
  toolCallSuccessRate := cap.toolCallSuccessRate

def withTtft (ttft : Option Rat) (profile : CapabilityProfile) : CapabilityProfile :=
  match ttft with
  | some t => if t = 0 then profile else { profile with avgTtftMs := t }
  | none => profile

def withBudget (budget : Option Rat) (cost : Rat) (profile : CapabilityProfile) :
    CapabilityProfile :=
  match budget with
  | some cap => if cap ≤ cost then { profile with overDailyBudget := true } else profile
  | none => profile

/-- `_load_profile`. -/
def loadProfile (tel : Telemetry) (capabilities : List ModelCapability) (provider : Provider) :
    CapabilityProfile :=
  let modelId := provider.defaultModel.getD ""
  let profile :=
    match capabilities.find? fun c => c.providerId = provider.id && c.modelId = modelId with
    | some cap => scannedProfile tel provider cap
    | none =>
      { inferCapabilityProfile provider.id provider.providerType modelId provider.priority with
        providerName := provider.name }
  withBudget provider.dailyBudgetUsd (tel.todayCost provider.id)
    (withTtft (tel.recentTtftMs provider.id) profile)

def requestedTier (model : String) : Option String :=
  let m := PyStr.lower model
  if mentions m ["opus", "o1", "o3", "o4", "r1", "deepseek-r", "claude-3-7"] then some "premium"
  else if mentions m ["sonnet", "gpt-4o", "gemini-2.0", "gpt-4-turbo", "grok-2"] then
    some "standard"
  else if mentions m ["haiku", "flash", "mini", "gpt-3.5", "grok-beta"] then some "economy"
  else none

/-- `_TOOL_SUCCESS_HARD_SKIP_THRESHOLD`. -/
def toolSuccessHardSkipThreshold : Rat := 3 / 10

/-- `score * rate`. -/
def Score.scale (s : Score) (rate : Rat) : Score :=
  match s with
  | .negInf => .negInf
  | .fin q => .fin (q * rate)

/-- `_apply_tool_success_weighting`. -/
def applyToolSuccessWeighting (ranked : List Ranked) : List Ranked :=
  ranked.map fun t =>
    match t.profile.toolCallSuccessRate with
    | none => t
    | some rate =>
      if rate < toolSuccessHardSkipThreshold then { t with score := .negInf }
      else { t with score := t.score.scale rate }

/-- `_capability_fit`: why the provider cannot serve the request, or `none` when it can. -/
def capabilityFit (profile : CapabilityProfile) (hasImages : Bool) (estInputTokens : Option Int)
    (requestedMaxTokens : Option Int) : Option String :=
  let exceeds (requested : Option Int) (bound : Int) : Option Int :=
    requested.filter fun n => n ≠ 0 && bound ≠ 0 && bound < n
  if hasImages && !profile.nativeVision then some "no native vision"
  else match exceeds estInputTokens profile.contextLength with
    | some n =>
      some ("context window " ++ toString profile.contextLength ++ " < ~" ++ toString n ++ " tokens")
    | none =>
      let bound := profile.maxOutputTokens.getD 0
      (exceeds requestedMaxTokens bound).map fun n =>
        "max output " ++ toString bound ++ " < requested " ++ toString n ++ " tokens"

/-! ## A profile is of its provider and its default model -/

def CapabilityProfile.subject (p : CapabilityProfile) : String × String := (p.providerId, p.modelId)

/-- The subject with the type of its provider and its priority. -/
def CapabilityProfile.identity (p : CapabilityProfile) : String × String × String × Int :=
  (p.providerId, p.providerType, p.modelId, p.priority)

theorem inferTier_identity (m : String) (p : CapabilityProfile) :
    (inferTier m p).identity = p.identity := by
  unfold inferTier
  repeat' split
  all_goals rfl

theorem inferVision_identity (m : String) (p : CapabilityProfile) :
    (inferVision m p).identity = p.identity := by
  unfold inferVision
  split <;> rfl

theorem inferTools_identity (p : CapabilityProfile) :
    (inferTools p).identity = p.identity := by
  unfold inferTools
  split <;> rfl

theorem inferRegions_identity (p : CapabilityProfile) :
    (inferRegions p).identity = p.identity := by
  unfold inferRegions
  repeat' split
  all_goals rfl

theorem withTtft_identity (ttft : Option Rat) (p : CapabilityProfile) :
    (withTtft ttft p).identity = p.identity := by
  unfold withTtft
  repeat' split
  all_goals rfl

theorem withBudget_identity (budget : Option Rat) (cost : Rat) (p : CapabilityProfile) :
    (withBudget budget cost p).identity = p.identity := by
  unfold withBudget
  repeat' split
  all_goals rfl

theorem inferCapabilityProfile_identity (providerId providerType modelId : String) (priority : Int) :
    (inferCapabilityProfile providerId providerType modelId priority).identity =
      (providerId, providerType, modelId, priority) := by
  unfold inferCapabilityProfile
  simp only [inferRegions_identity, inferTools_identity, inferVision_identity, inferTier_identity]
  rfl

theorem loadProfile_identity (tel : Telemetry) (caps : List ModelCapability) (p : Provider) :
    (loadProfile tel caps p).identity =
      (p.id, p.providerType, p.defaultModel.getD "", p.priority) := by
  unfold loadProfile
  dsimp only
  rw [withBudget_identity, withTtft_identity]
  split
  · rfl
  · have hinferred :=
      inferCapabilityProfile_identity p.id p.providerType (p.defaultModel.getD "") p.priority
    simp only [CapabilityProfile.identity] at hinferred ⊢
    exact hinferred

@[simp] theorem loadProfile_providerId (tel : Telemetry) (caps : List ModelCapability)
    (p : Provider) : (loadProfile tel caps p).providerId = p.id :=
  congrArg Prod.fst (loadProfile_identity tel caps p)

@[simp] theorem loadProfile_providerType (tel : Telemetry) (caps : List ModelCapability)
    (p : Provider) : (loadProfile tel caps p).providerType = p.providerType :=
  congrArg (fun t => t.2.1) (loadProfile_identity tel caps p)

@[simp] theorem loadProfile_modelId (tel : Telemetry) (caps : List ModelCapability)
    (p : Provider) : (loadProfile tel caps p).modelId = p.defaultModel.getD "" :=
  congrArg (fun t => t.2.2.1) (loadProfile_identity tel caps p)

@[simp] theorem loadProfile_priority (tel : Telemetry) (caps : List ModelCapability)
    (p : Provider) : (loadProfile tel caps p).priority = p.priority :=
  congrArg (fun t => t.2.2.2) (loadProfile_identity tel caps p)

theorem applyToolSuccessWeighting_mem {ranked : List Ranked} {t : Ranked}
    (h : t ∈ applyToolSuccessWeighting ranked) : ∃ u ∈ ranked, t.profile = u.profile := by
  obtain ⟨u, hu, heq⟩ := List.mem_map.mp h
  refine ⟨u, hu, ?_⟩
  rw [← heq]
  split
  · rfl
  · split <;> rfl

end LlmProxy.Routing
