import LlmProxy.Lib.PyList
import LlmProxy.Lib.Result
import LlmProxy.Cluster.ApiKeys
import LlmProxy.Compliance.CompanyMap
import LlmProxy.Providers.Admin

/-! # Edits of an API key

The whole row of `app/models/db_apikey.py`, as far as an operator sets it, and
`PATCH /api/keys/{id}` (`update_key` of `app/api/apikeys.py`). A refused request raises before the
commit, so the row stays as it was.

> `updateKey_stamped`: an accepted edit stamps the row, and moves neither its hash nor its
> tombstone.
-/

namespace LlmProxy.Cluster

open LlmProxy.Compliance (knownCompanies)
open LlmProxy.Providers (HttpError)

/-- A row with the columns the sync knows, and those it does not. -/
structure KeyRow extends ApiKey where
  defaultRefuseTolerance : Option String := none
  systemPromptMcpAugmentation : Bool := false
  mcpToolsAllow : Option (List String) := none
  mcpToolsDeny : Option (List String) := none
  mcpSchemaTokenBudget : Option Int := none
  refusalDetectionEnabled : Bool := false
  refusalPromptHardening : Bool := false
  refusalRetryEnabled : Bool := false
  refusalRetryStreamingHeartbeat : Bool := false
  refusalRetryMaxAttempts : Option Int := none
  selfEditPermissions : Option (List String) := none
  deriving DecidableEq

/-- `KeyUpdate`: a field that is absent is not touched. -/
structure KeyUpdate where
  name : Option String := none
  keyType : Option String := none
  enabled : Option Bool := none
  spendingCapUsd : Option Rat := none
  rateLimitRpm : Option Int := none
  rateLimitTier : Option String := none
  defaultRefuseTolerance : Option String := none
  dailySoftCapUsd : Option Rat := none
  dailyHardCapUsd : Option Rat := none
  hourlyCapUsd : Option Rat := none
  semanticCacheEnabled : Option Bool := none
  callerMemoryTtlDays : Option Int := none
  blockedCompanies : Option (List String) := none
  allowedPaths : Option (List String) := none
  allowedCompanies : Option (List String) := none
  blockedModels : Option (List String) := none
  allowedModels : Option (List String) := none
  debugEchoEnabled : Option Bool := none
  refusalDetectionEnabled : Option Bool := none
  refusalPromptHardening : Option Bool := none
  refusalRetryEnabled : Option Bool := none
  refusalRetryMaxAttempts : Option Int := none
  selfEditPermissions : Option (List String) := none
  reason : Option String := none

/-- What an edit reads from its surroundings: `time.time()`, the custom companies, and Python's
text of a list. -/
structure KeyEnv where
  now : EditStamp
  customCompanies : List String := []
  listText : List String → String := fun _ => ""

/-! ## Validation -/

/-- `tier_names()`. -/
def tierNames : List String := ["unlimited", "free", "starter", "pro", "enterprise"]

/-- `_validate_tier`, of a name that is sent: an empty one clears the tier. -/
def validateTier (tierName : String) : Except HttpError (Option String) :=
  if tierName = "" then .ok none
  else if tierNames.contains (PyStr.lower tierName) then .ok (some (PyStr.lower tierName))
  else .error ⟨400, "Unknown rate_limit_tier '" ++ tierName ++ "'. Valid: " ++
    PyStr.join ", " tierNames⟩

/-- `_validate_blocked_companies`. -/
def validateBlockedCompanies (env : KeyEnv) (ids : List String) : Except HttpError Unit :=
  let allowed := knownCompanies.map (·.id) ++ env.customCompanies
  let bad := ids.filter fun c => !(allowed.contains c)
  if bad.isEmpty then .ok ()
  else .error ⟨400, "Unknown company IDs in blocked_companies: " ++ env.listText bad ++
    ". Allowed: " ++ env.listText (PyList.sortBy (fun a b => decide (a ≤ b)) allowed.eraseDups)⟩

/-- `_validate_model_patterns`. -/
def validateModelPatterns (env : KeyEnv) (patterns : List String) : Except HttpError Unit :=
  let bad := patterns.filter fun p =>
    PyStr.strip p == "" || 128 < p.length || p.toList.any PyStr.isSpace
  if bad.isEmpty then .ok ()
  else .error ⟨400, "Invalid model patterns: " ++ env.listText bad ++ ". Each must be a non-empty " ++
    "string ≤128 chars with no whitespace. Wildcards (*, ?) are honored by the matcher."⟩

def whenSent {α : Type} (sent : Option α) (validate : α → Except HttpError Unit) :
    Except HttpError Unit :=
  match sent with
  | none => .ok ()
  | some value => validate value

/-- `_validate_refuse_tolerance`. -/
def validateRefuseTolerance (val : String) : Option String :=
  if ["strict", "default", "lenient"].contains val then some val else none

/-- `ELIGIBLE_FIELDS` of `app/integration/self_update.py`. -/
def eligibleFields : List String :=
  ["mcp_tools_allow", "mcp_tools_deny", "mcp_schema_token_budget",
    "system_prompt_mcp_augmentation", "refusal_detection_enabled", "refusal_prompt_hardening",
    "refusal_retry_enabled", "refusal_retry_max_attempts", "semantic_cache_enabled"]

/-! ## The edit -/

/-- `value or None`, of a list. -/
def orNone (value : Option (List String)) : Option (List String) := value.filter (!·.isEmpty)

def setLimit {α : Type} [LT α] [OfNat α 0] [DecidableLT α] (sent existing : Option α) : Option α :=
  match sent with
  | none => existing
  | some value => if value < 0 then none else some value

/-- A sent policy list; an empty one clears the column, and a list that says the same leaves it. -/
def setPolicy (sent existing : Option (List String)) : Option (List String) :=
  match sent with
  | none => existing
  | some value => if orNone existing ≠ orNone (some value) then orNone (some value) else existing

def changesPolicy (sent existing : Option (List String)) : Bool :=
  match sent with
  | none => false
  | some value => decide (orNone existing ≠ orNone (some value))

/-- `policy_changed`. -/
def policyChanged (k : KeyRow) (body : KeyUpdate) : Bool :=
  changesPolicy body.blockedCompanies k.blockedCompanies ||
    changesPolicy body.allowedPaths k.allowedPaths ||
    changesPolicy body.allowedCompanies k.allowedCompanies ||
    changesPolicy body.blockedModels k.blockedModels ||
    changesPolicy body.allowedModels k.allowedModels

def setFields (now : EditStamp) (tier : Option (Option String)) (body : KeyUpdate) (k : KeyRow) :
    KeyRow :=
  { k with
    name := body.name.getD k.name
    keyType := body.keyType.getD k.keyType
    enabled := body.enabled.getD k.enabled
    spendingCapUsd := setLimit body.spendingCapUsd k.spendingCapUsd
    rateLimitRpm := setLimit body.rateLimitRpm k.rateLimitRpm
    rateLimitTier := tier.getD k.rateLimitTier
    defaultRefuseTolerance :=
      (body.defaultRefuseTolerance.map validateRefuseTolerance).getD k.defaultRefuseTolerance
    dailySoftCapUsd := setLimit body.dailySoftCapUsd k.dailySoftCapUsd
    dailyHardCapUsd := setLimit body.dailyHardCapUsd k.dailyHardCapUsd
    hourlyCapUsd := setLimit body.hourlyCapUsd k.hourlyCapUsd
    semanticCacheEnabled := body.semanticCacheEnabled.getD k.semanticCacheEnabled
    callerMemoryTtlDays :=
      (body.callerMemoryTtlDays.map fun days => if days ≤ 0 then none else some days).getD
        k.callerMemoryTtlDays
    blockedCompanies := setPolicy body.blockedCompanies k.blockedCompanies
    allowedPaths := setPolicy body.allowedPaths k.allowedPaths
    allowedCompanies := setPolicy body.allowedCompanies k.allowedCompanies
    blockedModels := setPolicy body.blockedModels k.blockedModels
    allowedModels := setPolicy body.allowedModels k.allowedModels
    debugEchoEnabled := body.debugEchoEnabled.getD k.debugEchoEnabled
    refusalDetectionEnabled := body.refusalDetectionEnabled.getD k.refusalDetectionEnabled
    refusalPromptHardening := body.refusalPromptHardening.getD k.refusalPromptHardening
    refusalRetryEnabled := body.refusalRetryEnabled.getD k.refusalRetryEnabled
    refusalRetryMaxAttempts := setLimit body.refusalRetryMaxAttempts k.refusalRetryMaxAttempts
    selfEditPermissions :=
      (body.selfEditPermissions.map fun fields =>
        orNone (some (fields.filter eligibleFields.contains))).getD k.selfEditPermissions
    lastUserEditAt := some now }

def givesReason (body : KeyUpdate) : Bool :=
  match body.reason with
  | none => false
  | some reason => PyStr.strip reason != ""

/-- `update_key`, to its commit: the row, and whether its policy changed. -/
def updateKey (env : KeyEnv) (k : KeyRow) (body : KeyUpdate) : Except HttpError (KeyRow × Bool) := do
  let tier ← body.rateLimitTier.mapM validateTier
  whenSent body.blockedCompanies (validateBlockedCompanies env)
  whenSent body.allowedCompanies (validateBlockedCompanies env)
  whenSent body.blockedModels (validateModelPatterns env)
  whenSent body.allowedModels (validateModelPatterns env)
  if policyChanged k body && !givesReason body then
    .error ⟨422, "reason required for compliance policy edits"⟩
  else .ok (setFields env.now tier body k, policyChanged k body)

/-! ## What an edit does -/

variable {env : KeyEnv} {k k' : KeyRow} {body : KeyUpdate} {changed : Bool}

theorem updateKey_ok (h : updateKey env k body = .ok (k', changed)) :
    ∃ tier, k' = setFields env.now tier body k ∧ changed = policyChanged k body := by
  unfold updateKey at h
  obtain ⟨tier, -, h⟩ := Result.bind_ok h
  obtain ⟨_, -, h⟩ := Result.bind_ok h
  obtain ⟨_, -, h⟩ := Result.bind_ok h
  obtain ⟨_, -, h⟩ := Result.bind_ok h
  obtain ⟨_, -, h⟩ := Result.bind_ok h
  split at h
  · cases h
  · obtain ⟨hrow, hchanged⟩ := Prod.mk.inj (Except.ok.inj h)
    exact ⟨tier, hrow.symm, hchanged.symm⟩

/-- **An accepted edit** is stamped, and the row stays under its hash, live or not as it was. -/
theorem updateKey_stamped (h : updateKey env k body = .ok (k', changed)) :
    k'.lastUserEditAt = some env.now ∧ k'.keyHash = k.keyHash ∧ k'.deletedAt = k.deletedAt := by
  obtain ⟨tier, hrow, -⟩ := updateKey_ok h
  rw [hrow]
  exact ⟨rfl, rfl, rfl⟩

end LlmProxy.Cluster
