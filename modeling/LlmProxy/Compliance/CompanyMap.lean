import LlmProxy.Lib.PyStr

/-! # Companies, provider types and model families

`app/compliance/company_map.py`: which company a provider type belongs to, and which
companies a model name is attributed to. Display names and user-agent patterns are not read
by the routing and are left out of the table.
-/

namespace LlmProxy.Compliance

structure Company where
  id : String
  modelPrefixes : List String
  providerTypes : List String
  deriving DecidableEq, Repr

/-- `KNOWN_COMPANIES`, in the source's order. -/
def knownCompanies : List Company :=
  [{ id := "anthropic"
     modelPrefixes := ["claude-", "claude/", "anthropic.claude-"]
     providerTypes := ["anthropic", "anthropic-direct", "anthropic-oauth", "claude-oauth"] },
   { id := "openai"
     modelPrefixes := ["gpt-", "o1-", "o3-", "o4-", "codex-", "text-embedding-", "whisper-",
       "dall-e-"]
     providerTypes := ["openai", "ChatGPT-oauth-plan"] },
   { id := "google"
     modelPrefixes := ["gemini-", "bison", "palm-", "text-bison", "chat-bison"]
     providerTypes := ["google", "vertex"] },
   { id := "xai"
     modelPrefixes := ["grok-", "x-ai/"]
     providerTypes := ["grok", "grok-web"] },
   { id := "cohere"
     modelPrefixes := ["embed-", "command-", "rerank-"]
     providerTypes := ["cohere"] },
   { id := "meta"
     modelPrefixes := ["llama-", "llama2-", "llama3-", "code-llama-"]
     providerTypes := [] },
   { id := "mistral"
     modelPrefixes := ["mistral-", "mixtral-", "codestral-", "magistral-"]
     providerTypes := [] },
   { id := "aws"
     modelPrefixes := ["anthropic.claude-", "ai21.j2-", "cohere.command-", "meta.llama-",
       "mistral.mistral-", "amazon.titan-", "stability.sd-"]
     providerTypes := ["bedrock"] },
   { id := "microsoft"
     modelPrefixes := ["phi-", "orca-"]
     providerTypes := ["azure"] },
   { id := "amazon"
     modelPrefixes := ["amazon.titan-", "titan-", "nova-", "nova."]
     providerTypes := [] }]

/-- `_AGGREGATOR_COMPANIES`. -/
def aggregatorCompanies : List (String × String) :=
  [("openrouter", "openrouter"), ("cursor-oauth", "cursor"), ("openai-compatible", "compatible"),
   ("compatible", "compatible"), ("custom", "custom")]

/-- `provider_type_to_company`. -/
def providerTypeToCompany (providerType : String) : Option String :=
  if providerType = "" then none
  else match knownCompanies.find? (·.providerTypes.contains providerType) with
    | some c => some c.id
    | none => (aggregatorCompanies.find? (·.1 = providerType)).map Prod.snd

/-- One of the company's prefixes starts the (lower-cased) model name. -/
def Company.claims (c : Company) (m : String) : Bool :=
  c.modelPrefixes.any fun pre => PyStr.startsWith m (PyStr.lower pre)

/-- `model_family_to_company`: the first company that claims the model. -/
def modelFamilyToCompany (model : Option String) : Option String :=
  match model with
  | none => none
  | some m =>
    if m = "" then none
    else (knownCompanies.find? (·.claims (PyStr.lower m))).map Company.id

/-- `model_family_companies`: every company that claims the model. -/
def modelFamilyCompanies (model : Option String) : List String :=
  match model with
  | none => []
  | some m =>
    if m = "" then []
    else (knownCompanies.filter (·.claims (PyStr.lower m))).map Company.id

/-- A Bedrock-hosted Claude model belongs to both companies (decision 11). -/
example : modelFamilyCompanies (some "anthropic.claude-3-haiku-v1:0") = ["anthropic", "aws"] := by
  decide

end LlmProxy.Compliance
