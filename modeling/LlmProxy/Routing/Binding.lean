import LlmProxy.Lib.PyStr
import LlmProxy.Providers.Row

/-! # Binding a provider row to a litellm call

`app/routing/litellm_binding.py`: which litellm prefix and which model name a provider is
called with, and which credential keyword arguments go with the call.

Mirroring notes.
* A litellm model is `prefix/model`; `servedModel` is the part after the prefix, which is
  what the upstream receives.
* `truthy` is Python's truth of an optional string: absent and empty read the same.
* The thinking-budget clamp is a property of the request body and lives with the dispatch.
-/

namespace LlmProxy.Routing

open LlmProxy.Providers

/-- `s or None`: an empty string counts as absent. -/
def truthy (s : Option String) : Option String := s.filter (· ≠ "")

/-- The value a `dict` literal of strings holds under a key. -/
def lookupOr (table : List (String × String)) (key default : String) : String :=
  match table.find? (·.1 = key) with
  | some entry => entry.2
  | none => default

/-- `PROVIDER_TYPE_TO_LITELLM`. -/
def providerTypeToLitellm : List (String × String) :=
  [("anthropic", "anthropic"), ("openai", "openai"), ("google", "gemini"),
   ("vertex", "vertex_ai"), ("ollama", "ollama"), ("grok", "xai"), ("compatible", "openai"),
   ("claude-oauth", "anthropic"), ("ChatGPT-oauth-plan", "openai"), ("cohere", "cohere"),
   ("azure", "azure"), ("openrouter", "openrouter"), ("grok-web", "xai"),
   ("cursor-oauth", "openai"), ("nvidia_nim", "nvidia_nim")]

/-- `PROVIDER_DEFAULT_MODELS`. -/
def providerDefaultModels : List (String × String) :=
  [("anthropic", "claude-sonnet-4-6"), ("google", "gemini-2.0-flash"),
   ("vertex", "gemini-2.0-flash-002"), ("openai", "gpt-4o"), ("grok", "grok-2"),
   ("ollama", "llama3"), ("compatible", "gpt-4o"), ("azure", "gpt-4o"),
   ("claude-oauth", "claude-sonnet-4-6"), ("ChatGPT-oauth-plan", "gpt-5.5"),
   ("cohere", "embed-english-v3.0"), ("openrouter", "openai/gpt-4o"), ("grok-web", "grok-3"),
   ("cursor-oauth", "claude-4-sonnet"), ("nvidia_nim", "nvidia/nemotron-3-super-120b-a12b")]

/-- `OWN_DISPATCHER_PROVIDER_TYPES`. -/
def ownDispatcherProviderTypes : List String := ["claude-oauth", "ChatGPT-oauth-plan", "grok-web"]

/-- `_is_embedding_model`. -/
def isEmbeddingModel (model : String) : Bool :=
  let m := PyStr.lower model
  PyStr.startsWith m "embed-" || PyStr.startsWith m "text-embedding-" ||
    PyStr.startsWith m "embedding-"

/-- `_model_family_provider_types`: the provider types that can serve a model of a known
family; `none` when no family is recognised. -/
def modelFamilyProviderTypes (model : String) : Option (List String) :=
  let m := PyStr.lower model
  let starts (prefixes : List String) : Bool := prefixes.any fun pre => PyStr.startsWith m pre
  if model = "" then none
  else if starts ["claude-", "claude/"] then
    some ["anthropic", "anthropic-direct", "anthropic-oauth", "claude-oauth", "cursor-oauth"]
  else if starts ["gpt-", "o1-", "o3-", "o4-", "text-embedding-", "whisper-", "dall-e-",
      "codex-"] then
    some ["openai", "ChatGPT-oauth-plan", "cursor-oauth"]
  else if starts ["gemini-", "text-bison", "chat-bison"] then some ["google", "vertex", "vertex_ai"]
  else if starts ["embed-", "command-"] then some ["cohere"]
  else if starts ["grok-", "x-ai/"] then some ["grok", "grok-web", "openrouter"]
  else none

/-- The bare slugs OpenRouter lists under a vendor namespace. -/
def bareToVendor : List (String × String) :=
  [("grok-3", "x-ai/grok-3"), ("grok-4", "x-ai/grok-4"), ("grok-3-beta", "x-ai/grok-3-beta")]

/-- The prefix of `build_litellm_model`. -/
def litellmPrefix (provider : Provider) : String :=
  lookupOr providerTypeToLitellm provider.providerType "openai"

/-- The model of `build_litellm_model`: override, row default or type default, with the
OpenRouter namespace added to a bare slug. -/
def servedModel (provider : Provider) (modelOverride : Option String) : String :=
  let default := lookupOr providerDefaultModels provider.providerType "gpt-4o"
  let model := ((truthy modelOverride).orElse fun _ => truthy provider.defaultModel).getD default
  if provider.providerType = "openrouter" && !PyStr.containsChar model '/' then
    lookupOr bareToVendor model model
  else model

/-- `build_litellm_model`. -/
def buildLitellmModel (provider : Provider) (modelOverride : Option String) : String :=
  litellmPrefix provider ++ "/" ++ servedModel provider modelOverride

/-- The keyword arguments of a litellm call that come from a provider row. -/
structure LitellmKwargs where
  apiKey : Option String
  apiBase : Option String
  timeout : Option Int
  deriving DecidableEq, Repr

/-- `build_litellm_kwargs`: a keyword that is absent is `none`; `timeout` is always passed. -/
def buildLitellmKwargs (provider : Provider) : LitellmKwargs where
  apiKey := truthy provider.apiKey
  apiBase :=
    if ["ollama", "compatible", "cursor-oauth"].contains provider.providerType then
      truthy provider.baseUrl
    else none
  timeout := provider.timeoutSec

/-- The reasoning keyword arguments a provider with native reasoning gets. -/
inductive ThinkingParams where
  | none
  | thinking (budgetTokens : Int)
  | reasoningEffort (effort : String)
  deriving DecidableEq, Repr

/-- `_native_thinking_params`; `^o[0-9]` is the `_O_SERIES` pattern. -/
def nativeThinkingParams (budgetTokens : Int) (effort : String) (providerType modelId : String) :
    ThinkingParams :=
  let m := PyStr.lower modelId
  if ["google", "vertex"].contains providerType && PyStr.contains m "2.5" then
    .thinking budgetTokens
  else if providerType = "openai" then
    match m.toList with
    | 'o' :: d :: _ => if d.isDigit then .reasoningEffort effort else .none
    | _ => .none
  else .none

/-- `failover_preserves_model`. -/
def failoverPreservesModel (provider : Provider) (requestedModel : Option String) : Bool :=
  match truthy requestedModel with
  | none => false
  | some m =>
    match modelFamilyProviderTypes m with
    | none => true
    | some family => family.contains provider.providerType

/-! ## Reading the served model back -/

/-- A litellm model without its provider prefix: what follows the first slash. -/
def stripProviderPrefix (litellmModel : String) : String :=
  String.ofList ((litellmModel.toList.dropWhile (· ≠ '/')).drop 1)

theorem lookupOr_mem (table : List (String × String)) (key default : String) :
    lookupOr table key default = default ∨ ∃ entry ∈ table, lookupOr table key default = entry.2 := by
  unfold lookupOr
  split
  · next entry hfind => exact Or.inr ⟨entry, List.mem_of_find?_eq_some hfind, rfl⟩
  · exact Or.inl rfl

theorem litellmPrefix_no_slash (provider : Provider) : '/' ∉ (litellmPrefix provider).toList := by
  have htable : ∀ entry ∈ providerTypeToLitellm, '/' ∉ entry.2.toList := by decide
  rcases lookupOr_mem providerTypeToLitellm provider.providerType "openai" with h | ⟨entry, hmem, h⟩
  · unfold litellmPrefix
    rw [h]
    decide
  · unfold litellmPrefix
    rw [h]
    exact htable entry hmem

/-- What the upstream receives is the served model: the prefix and nothing more is stripped,
also where the model itself is a `vendor/model` slug. -/
theorem stripProviderPrefix_buildLitellmModel (provider : Provider) (modelOverride : Option String) :
    stripProviderPrefix (buildLitellmModel provider modelOverride) =
      servedModel provider modelOverride := by
  have hskip : ∀ c ∈ (litellmPrefix provider).toList, (decide (c ≠ '/')) = true := by
    intro c hc
    have hne : c ≠ '/' := fun heq => litellmPrefix_no_slash provider (heq ▸ hc)
    exact decide_eq_true hne
  unfold stripProviderPrefix buildLitellmModel
  rw [String.toList_append, String.toList_append, List.append_assoc,
    List.dropWhile_append_of_pos hskip]
  exact String.ofList_toList

end LlmProxy.Routing
