import LlmProxy.Lib.PyStr
import LlmProxy.Lib.Result
import LlmProxy.Lib.Table
import LlmProxy.Compliance.CompanyMap
import LlmProxy.Providers.Row

/-! # The provider administration API

`app/api/providers.py` and `app/api/provider_lifecycle.py`: create, update, soft-delete and
toggle a provider, and the bulk release of manual overrides. A refused request raises an
`HTTPException` before the commit, so the table stays as it was.

Mirroring notes.
* The lookup of `_get_or_404` is by id alone: a tombstoned row is found like any other. Only
  `release_manual_overrides` and `name_is_taken` restrict themselves to live rows.
* A credentials blob is given by what `parse_credentials` makes of it.
* `validate_base_url` has already been passed; breaker registration, the seeding of OAuth
  accounts and the usage-rotation columns are not part of the row modelled here.
-/

namespace LlmProxy.Providers

open LlmProxy.Cluster (Stamp serverNow)
open LlmProxy.Compliance (providerTypeToCompany)

structure HttpError where
  status : Nat
  detail : String
  deriving DecidableEq, Repr

/-- What `parse_credentials` extracts from a pasted blob. -/
structure Credentials where
  accessToken : String
  refreshToken : Option String := none
  expiresAt : Option Int := none
  chatgptAccountId : Option String := none
  chatgptPlanType : Option String := none
  deriving DecidableEq, Repr

/-- `ProviderCreate`, and `ProviderUpdate`, which inherits every field and default. -/
structure ProviderBody where
  name : String
  providerType : String
  apiKey : Option String := none
  baseUrl : Option String := none
  defaultModel : Option String := none
  priority : Int := 10
  enabled : Bool := true
  timeoutSec : Int := 30
  excludeFromToolRequests : Bool := false
  holdDownSec : Option Int := none
  failureThreshold : Option Int := none
  dailyBudgetUsd : Option Rat := none
  extraConfig : List (String × String) := []
  ownedByKeyId : Option String := none
  oauthCredentialsBlob : Option (Except String Credentials) := none

/-- What a request reads from its surroundings: the clock, the fresh id, the sidecar's URL. -/
structure AdminEnv where
  clk : FlushClock
  newId : String
  cursorBridgeUrl : String := "http://llm-proxy2-cursor-bridge:3010"

/-! ## Validation -/

/-- `RETIRED_PROVIDER_TYPES`, `DEPRECATED_PROVIDER_TYPES` and the reason they share. -/
def retiredProviderTypes : List String := ["ChatGPT-oauth-plan"]

def deprecatedProviderTypes : List String := ["claude-oauth", "grok-web"]

def retirementReason : String :=
  "Consumer-subscription OAuth is not a permitted integration path: the " ++
  "vendor terms reserve subscription credentials for their own first-party " ++
  "clients and prohibit third parties from storing or intermediating them. " ++
  "Use an API key from the provider's console instead. " ++
  "See docs/market-review.md (2026-09-26)."

/-- `validate_provider_type`, run by the body's validators before the handler. -/
def typeRefusal (providerType : String) : Option HttpError :=
  if retiredProviderTypes.contains providerType then
    some ⟨422, "provider_type '" ++ providerType ++ "' is retired. " ++ retirementReason⟩
  else if deprecatedProviderTypes.contains providerType then
    some ⟨422, "provider_type '" ++ providerType ++ "' is deprecated and closed to new " ++
      "providers. " ++ retirementReason⟩
  else none

/-- `name_is_taken`: another live row has the name. -/
def nameIsTaken (rows : List Provider) (name : String) (excludeId : Option String) : Bool :=
  rows.any fun p => p.name = name && !p.deleted && excludeId ≠ some p.id

/-- `_TYPES_REQUIRING_API_KEY`. -/
def typesRequiringApiKey : List String :=
  ["anthropic", "openai", "google", "vertex", "grok", "cohere", "mistral", "groq", "together",
   "fireworks", "azure", "openrouter"]

/-- A text setting of `extra_config` is absent or blank. -/
def settingBlank (config : List (String × String)) (key : String) : Bool :=
  match config.find? (·.1 = key) with
  | none => true
  | some entry => !jsonTruthy entry.2 || PyStr.strip (PyStr.replace entry.2 "\"" "") = ""

/-! ## Priorities -/

/-- The first priority from `current` on that no row holds. -/
def firstFree (held : Int → Bool) : Nat → Int → Int
  | 0, current => current
  | fuel + 1, current => if held current then firstFree held fuel (current + 1) else current

/-- The rows that may have to move: all but the one that takes the slot. -/
def mayMove (excludeId : Option String) (p : Provider) : Bool :=
  match excludeId with
  | some id => p.id ≠ id
  | none => p.id ≠ ""

/-- The row stands in the occupied run of priorities that starts at the target. -/
def inTheWay (target : Int) (excludeId : Option String) (rows : List Provider) (p : Provider) :
    Bool :=
  let held (n : Int) : Bool := rows.any fun q => mayMove excludeId q && q.priority = n
  mayMove excludeId p && target ≤ p.priority && p.priority < firstFree held rows.length target

/-- `_bump_priority_conflicts`: the rows in the way move up by one. -/
def bumpPriorityConflicts (clk : FlushClock) (target : Int) (excludeId : Option String)
    (rows : List Provider) : List Provider :=
  rows.map fun p =>
    if inTheWay target excludeId rows p then flush clk p { p with priority := p.priority + 1 } else p

/-! ## Create -/

/-- `codex-oauth` is the old name of a type. -/
def normalizedType (providerType : String) : String :=
  if providerType = "codex-oauth" then "ChatGPT-oauth-plan" else providerType

/-- `x or default` for an optional text. -/
def textOr (s : Option String) (default : String) : Option String :=
  if s.all (· = "") then some default else s

def withCredentials (row : Provider) (creds : Credentials) : Provider :=
  { row with
    apiKey := some creds.accessToken
    oauthRefreshToken := creds.refreshToken
    oauthExpiresAt := creds.expiresAt }

/-- `cfg[key] = value`, when there is one. -/
def stash (config : List (String × String)) (key : String) (value : Option String) :
    List (String × String) :=
  match value with
  | none => config
  | some v =>
    if v = "" then config
    else config.filter (·.1 ≠ key) ++ [(key, "\"" ++ v ++ "\"")]

def requiredBlob (blob : Option (Except String Credentials)) (missing : String) :
    Except HttpError Credentials :=
  match blob with
  | none => .error ⟨400, missing⟩
  | some (.error e) => .error ⟨400, "Credential parse failed: " ++ e⟩
  | some (.ok creds) => .ok creds

def bodyRow (env : AdminEnv) (body : ProviderBody) : Provider where
  id := env.newId
  name := body.name
  providerType := normalizedType body.providerType
  apiKey := body.apiKey
  baseUrl := body.baseUrl
  defaultModel := body.defaultModel
  priority := body.priority
  enabled := body.enabled
  timeoutSec := some body.timeoutSec
  excludeFromToolRequests := body.excludeFromToolRequests
  holdDownSec := body.holdDownSec
  failureThreshold := body.failureThreshold
  dailyBudgetUsd := body.dailyBudgetUsd
  extraConfig := body.extraConfig
  ownedByKeyId := body.ownedByKeyId
  createdAt := serverNow env.clk.db
  updatedAt := some (serverNow env.clk.db)
  lastUserEditAt := some env.clk.unix
  ownerCompany := providerTypeToCompany (normalizedType body.providerType)

/-- The branch of `create_provider` for the provider's type. -/
def typedRow (env : AdminEnv) (body : ProviderBody) : Except HttpError Provider :=
  let row := bodyRow env body
  match row.providerType with
  | "claude-oauth" => do
    let creds ← requiredBlob body.oauthCredentialsBlob
      ("claude-oauth providers require 'oauth_credentials_blob' — paste your " ++
        "`~/.claude/credentials.json` contents or a bare 'sk-ant-oat...' token.")
    .ok { withCredentials row creds with
      defaultModel := textOr row.defaultModel "claude-sonnet-4-6" }
  | "ChatGPT-oauth-plan" => do
    let creds ← requiredBlob body.oauthCredentialsBlob
      ("codex-oauth providers require 'oauth_credentials_blob' — paste your " ++
        "`~/.codex/auth.json` contents or a bare access_token JWT.")
    .ok { withCredentials row creds with
      extraConfig := stash (stash row.extraConfig "chatgpt_account_id" creds.chatgptAccountId)
        "chatgpt_plan_type" creds.chatgptPlanType
      defaultModel := textOr row.defaultModel "gpt-5.5" }
  | "cursor-oauth" => do
    let creds ← requiredBlob body.oauthCredentialsBlob
      ("cursor-oauth providers require 'oauth_credentials_blob' — paste " ++
        "a 'user_<id>::<JWT>' Cursor cookie or a JSON blob containing " ++
        "'access_token'. To generate a fresh one via the deep-link flow, " ++
        "use the Generate Auth URL button in the admin UI.")
    .ok { row with
      apiKey := some creds.accessToken
      oauthRefreshToken := none
      oauthExpiresAt := none
      defaultModel := textOr row.defaultModel "claude-3-7-sonnet"
      baseUrl := textOr row.baseUrl (env.cursorBridgeUrl ++ "/v1") }
  | "grok-web" =>
    let missing := ["cookie_header", "conversation_id"].filter (settingBlank row.extraConfig)
    if !settingBlank row.extraConfig "bridge_url" && settingBlank row.extraConfig "conversation_id"
    then
      .error ⟨400, "grok-web bridge mode requires extra_config.conversation_id " ++
        "(an existing grok.com conversation UUID — the bit after " ++
        "grok.com/c/ in your browser's URL bar)."⟩
    else if settingBlank row.extraConfig "bridge_url" && !missing.isEmpty then
      .error ⟨400, "grok-web providers require extra_config fields [" ++
        PyStr.join ", " (missing.map fun k => "'" ++ k ++ "'") ++ "]. " ++
        "Easiest path: switch to Bridge mode in the form (one-time " ++
        "browser login, no cookie pasting). Or: in a logged-in " ++
        "browser at grok.com, copy a fetch as cURL — paste the cookie " ++
        "header into 'cookie_header' and the UUID from the URL " ++
        "(grok.com/c/<this-uuid>) into 'conversation_id'."⟩
    else .ok { row with defaultModel := textOr row.defaultModel "grok-3" }
  | providerType =>
    if body.oauthCredentialsBlob.isSome then
      .error ⟨400, "oauth_credentials_blob is only valid when provider_type is 'claude-oauth' " ++
        "or 'ChatGPT-oauth-plan' (got '" ++ providerType ++ "')"⟩
    else .ok row

/-- The checks of `create_provider` that precede the type's branch. -/
def createRefusal (body : ProviderBody) (rows : List Provider) : Option HttpError :=
  let providerType := normalizedType body.providerType
  (typeRefusal body.providerType).orElse fun _ =>
    if typesRequiringApiKey.contains providerType && PyStr.strip (body.apiKey.getD "") = "" then
      some ⟨400, providerType ++ " providers require an api_key — paste a key in the form."⟩
    else if nameIsTaken rows body.name none then
      some ⟨409, "A provider named '" ++ body.name ++ "' already exists. " ++
        "Pick a unique name (or rename / delete the existing one first)."⟩
    else none

/-- `create_provider`. -/
def createProvider (env : AdminEnv) (body : ProviderBody) (rows : List Provider) :
    Except HttpError (List Provider) :=
  match createRefusal body rows with
  | some e => .error e
  | none =>
    match typedRow env body with
    | .error e => .error e
    | .ok row => .ok (bumpPriorityConflicts env.clk row.priority none rows ++ [row])

/-! ## Update -/

/-- The incoming `api_key` is absent, blank or a masked display value, and is ignored. -/
def maskedKey (p : Provider) (incoming : Option String) : Bool :=
  match incoming with
  | none => true
  | some s =>
    s = "" || PyStr.contains s "…" || PyStr.contains s "***" ||
      ((p.apiKey.getD "") ≠ "" &&
        (((p.apiKey.getD "").toList.take 4).isPrefixOf s.toList) && PyStr.contains s "...")

/-- The OAuth types whose credentials an update without a blob leaves alone. -/
def keepsCredentials (p : Provider) : Bool :=
  ["claude-oauth", "ChatGPT-oauth-plan"].contains p.providerType

/-- `dict(existing)` updated with the incoming settings. -/
def mergeConfig (existing incoming : List (String × String)) : List (String × String) :=
  incoming.foldl (fun config entry => config.filter (·.1 ≠ entry.1) ++ [entry]) existing

/-- Why an update of row `p` is refused, if it is. -/
def updateRefusal (rows : List Provider) (p : Provider) (body : ProviderBody) : Option HttpError :=
  match body.oauthCredentialsBlob with
  | some (.error e) =>
    if p.providerType = "claude-oauth" then some ⟨400, "Credential parse failed: " ++ e⟩
    else some ⟨400, "oauth_credentials_blob is only valid for claude-oauth providers (this one is '"
      ++ p.providerType ++ "')"⟩
  | some (.ok _) =>
    if p.providerType = "claude-oauth" then renameRefusal
    else some ⟨400, "oauth_credentials_blob is only valid for claude-oauth providers (this one is '"
      ++ p.providerType ++ "')"⟩
  | none => renameRefusal
where
  renameRefusal : Option HttpError :=
    if body.name ≠ "" && body.name ≠ p.name && nameIsTaken rows body.name (some p.id) then
      some ⟨409, "Another provider already uses the name '" ++ body.name ++ "'."⟩
    else none

/-- The row after the `setattr` loop, with the derived owner and the edit stamp. -/
def updatedRow (clk : FlushClock) (body : ProviderBody) (p : Provider) : Provider :=
  let noBlob := body.oauthCredentialsBlob.isNone
  let creds := body.oauthCredentialsBlob.bind Except.toOption
  let incomingKey := (creds.map (·.accessToken)).orElse fun _ => body.apiKey
  let derived := providerTypeToCompany body.providerType
  { p with
    name := body.name
    providerType := body.providerType
    apiKey :=
      if (keepsCredentials p && noBlob) || maskedKey p incomingKey then p.apiKey else incomingKey
    oauthRefreshToken :=
      match creds with
      | some c => c.refreshToken
      | none => p.oauthRefreshToken
    oauthExpiresAt :=
      match creds with
      | some c => c.expiresAt
      | none => p.oauthExpiresAt
    baseUrl := body.baseUrl
    defaultModel := body.defaultModel
    priority := body.priority
    enabled := body.enabled
    timeoutSec := some body.timeoutSec
    excludeFromToolRequests := body.excludeFromToolRequests
    holdDownSec := body.holdDownSec
    failureThreshold := body.failureThreshold
    dailyBudgetUsd := body.dailyBudgetUsd
    extraConfig :=
      if keepsCredentials p && noBlob then mergeConfig p.extraConfig body.extraConfig
      else body.extraConfig
    ownedByKeyId := body.ownedByKeyId
    ownerCompany := derived.orElse fun _ => p.ownerCompany
    lastUserEditAt := some clk.unix }

/-- The row `_get_or_404` returns. -/
def getRow (rows : List Provider) (id : String) : Option Provider := rows.find? (·.id = id)

def updateById (clk : FlushClock) (id : String) (edit : Provider → Provider)
    (rows : List Provider) : List Provider :=
  Table.updateFirst (fun p => p.id = id) (fun p => flush clk p (edit p)) rows

def notFound : HttpError := ⟨404, "Provider not found"⟩

/-- `update_provider`. -/
def updateProvider (clk : FlushClock) (id : String) (body : ProviderBody) (rows : List Provider) :
    Except HttpError (List Provider) :=
  match typeRefusal body.providerType with
  | some e => .error e
  | none =>
    match getRow rows id with
    | none => .error notFound
    | some p =>
      match updateRefusal rows p body with
      | some e => .error e
      | none =>
        let bumped :=
          if body.priority ≠ p.priority then
            bumpPriorityConflicts clk body.priority (some p.id) rows
          else rows
        .ok (updateById clk id (updatedRow clk body) bumped)

/-! ## Delete, toggle, release -/

/-- `delete_provider`: the tombstone. -/
def deletedRow (clk : FlushClock) (p : Provider) : Provider :=
  { p with
    deletedAt := some clk.db
    enabled := false
    updatedAt := some clk.db
    lastUserEditAt := some clk.unix }

def deleteProvider (clk : FlushClock) (id : String) (rows : List Provider) :
    Except HttpError (List Provider) :=
  match getRow rows id with
  | none => .error notFound
  | some _ => .ok (updateById clk id (deletedRow clk) rows)

/-- `INDEFINITE_LOCK`: the last second of the year 9999. -/
def indefiniteLock : Stamp := 253402300799000000

/-- `toggle_provider`: flip `enabled`, and set or release the manual override with it. -/
def toggledRow (clk : FlushClock) (user : Option String) (p : Provider) : Provider :=
  if p.enabled then
    { p with
      enabled := false
      manualOverrideUntil := some indefiniteLock
      manualOverrideSetBy := user
      manualOverrideSetAt := some clk.db
      lastUserEditAt := some clk.unix }
  else
    { p with
      enabled := true
      manualOverrideUntil := none
      manualOverrideSetBy := none
      manualOverrideSetAt := none
      manualOverrideReason := none
      lastUserEditAt := some clk.unix }

def toggleProvider (clk : FlushClock) (user : Option String) (id : String) (rows : List Provider) :
    Except HttpError (List Provider) :=
  match getRow rows id with
  | none => .error notFound
  | some _ => .ok (updateById clk id (toggledRow clk user) rows)

/-- `release_manual_overrides`: one `UPDATE` over the live rows that hold an override; only the
column's `onupdate` runs, not the ORM listener. -/
def releaseManualOverrides (clk : FlushClock) (enable : Bool) (rows : List Provider) :
    List Provider :=
  rows.map fun p =>
    if p.manualOverrideUntil.isSome && !p.deleted then
      { p with
        manualOverrideUntil := none
        manualOverrideSetBy := none
        manualOverrideSetAt := none
        manualOverrideReason := none
        enabled := enable || p.enabled
        updatedAt := some (serverNow clk.db) }
    else p

/-! ## What the operations do to a row's tombstone and switch -/

def Provider.switch (p : Provider) : Bool × Option Stamp := (p.enabled, p.deletedAt)

@[simp] theorem flush_switch (clk : FlushClock) (old new : Provider) :
    (flush clk old new).switch = new.switch := by
  simp [Provider.switch]

theorem bumped_row (clk : FlushClock) (target : Int) (excl : Option String) (rows : List Provider)
    (p : Provider) :
    (if inTheWay target excl rows p then flush clk p { p with priority := p.priority + 1 }
      else p).id = p.id ∧
    (if inTheWay target excl rows p then flush clk p { p with priority := p.priority + 1 }
      else p).switch = p.switch := by
  split
  · exact ⟨flush_id clk p _, flush_switch clk p _⟩
  · exact ⟨rfl, rfl⟩

theorem mem_bumpPriorityConflicts {clk : FlushClock} {target : Int} {excl : Option String}
    {rows : List Provider} {q : Provider} (h : q ∈ bumpPriorityConflicts clk target excl rows) :
    ∃ p ∈ rows, q.switch = p.switch := by
  obtain ⟨p, hp, hq⟩ := List.mem_map.mp h
  exact ⟨p, hp, by rw [← hq]; exact (bumped_row clk target excl rows p).2⟩

theorem getRow_bump (clk : FlushClock) (target : Int) (excl : Option String) {id : String}
    {rows : List Provider} {p : Provider} (h : getRow rows id = some p) :
    ∃ q, getRow (bumpPriorityConflicts clk target excl rows) id = some q ∧
      q.switch = p.switch := by
  have hpred : ((fun p : Provider => decide (p.id = id)) ∘ fun p =>
      if inTheWay target excl rows p then flush clk p { p with priority := p.priority + 1 }
      else p) = fun p => decide (p.id = id) := by
    funext q
    simp only [Function.comp]
    rw [(bumped_row clk target excl rows q).1]
  unfold getRow bumpPriorityConflicts
  rw [List.find?_map, hpred]
  unfold getRow at h
  rw [h]
  exact ⟨_, rfl, (bumped_row clk target excl rows p).2⟩

theorem typedRow_live {env : AdminEnv} {body : ProviderBody} {row : Provider}
    (h : typedRow env body = .ok row) : row.deletedAt = none := by
  unfold typedRow at h
  dsimp only at h
  split at h
  · obtain ⟨creds, -, hrow⟩ := Result.bind_ok h
    rw [← Except.ok.inj hrow]
    rfl
  · obtain ⟨creds, -, hrow⟩ := Result.bind_ok h
    rw [← Except.ok.inj hrow]
    rfl
  · obtain ⟨creds, -, hrow⟩ := Result.bind_ok h
    rw [← Except.ok.inj hrow]
    rfl
  · split at h
    · cases h
    · split at h
      · cases h
      · rw [← Except.ok.inj h]
        rfl
  · split at h
    · cases h
    · rw [← Except.ok.inj h]
      rfl

end LlmProxy.Providers
