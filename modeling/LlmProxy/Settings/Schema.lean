/-! # The tunable settings

`SCHEMA` of `app/config_runtime.py` and the fields of `Settings` (`app/config.py`) it names. Each
key is declared twice: `SCHEMA` has a `type`, a hint for the settings page, and the field has an
annotation, which is what the rest of the application reads by.

> `canonicalType_declared`: the two agree on every key.

Mirroring notes.
* The keys are grouped by their two declarations; a dict has no other order that is read here.
* Defaults, labels and groups are left out.
-/

namespace LlmProxy.Settings

/-- The annotation of a field, `Optional` or not. Other annotations have no name here. -/
inductive Annotation where
  | plain (type : String)
  | optional (type : String)
  | other
  deriving DecidableEq, Repr

/-- What `SCHEMA` and `Settings` say about a key; `none` where there is no such field. -/
structure SettingMeta where
  type : String
  annotation : Option Annotation
  deriving DecidableEq, Repr

def boolKeys : List String :=
  ["lmrh_v2_enabled", "cot_enabled", "cot_verify_enabled", "cot_verify_auto_detect",
    "cot_cross_provider_critique", "cot_verify_execute", "cot_plan_compact", "fallback_enabled",
    "task_auto_detect_enabled", "structured_output_enabled", "vision_route_enabled",
    "semantic_cache_enabled", "hedge_enabled", "activity_log_capture_previews",
    "activity_log_capture_bodies", "smtp_enabled", "sso_enabled", "sso_auto_provision",
    "integration_enabled", "pii_masking_enabled", "prompt_guard_enabled", "ai_rate_limiter_enabled",
    "ai_rate_limiter_auto_apply", "ai_provider_supervisor_enabled",
    "ai_provider_supervisor_auto_apply", "ai_tool_prober_enabled", "caller_memory_enabled",
    "caller_memory_active_flush_enabled", "caller_memory_recovery_enabled", "compliance_enabled",
    "compliance_ua_block_enabled", "compliance_backfill_applied"]

def intKeys : List String :=
  ["cot_max_iterations", "cot_quality_threshold", "cot_critique_max_tokens", "cot_plan_max_tokens",
    "cot_min_tokens_skip", "cot_verify_max_tokens", "fallback_max_providers",
    "structured_output_max_repairs", "semantic_cache_ttl_sec", "semantic_cache_min_response_chars",
    "native_thinking_budget_tokens", "activity_log_max_body_chars", "circuit_breaker_threshold",
    "circuit_breaker_timeout_sec", "circuit_breaker_halfopen_sec", "circuit_breaker_success_needed",
    "hold_down_sec", "runs_max_turns_ceiling", "runs_max_model_calls_per_minute",
    "keepalive_probe_interval_sec", "activity_log_retention_days", "smtp_port",
    "audit_export_retention_days", "integration_max_messages_per_session",
    "ai_rate_limiter_interval_sec", "ai_rate_limiter_window_min",
    "ai_rate_limiter_throttle_floor_rpm", "ai_provider_supervisor_interval_sec",
    "ai_provider_supervisor_short_window_min", "ai_provider_supervisor_trend_window_days",
    "ai_provider_supervisor_max_priority_delta", "ai_provider_supervisor_max_auto_skip_hours",
    "anthropic_billing_scrape_interval_sec", "anthropic_billing_min_scrape_gap_sec",
    "codex_billing_scrape_interval_sec", "codex_billing_min_scrape_gap_sec",
    "ai_tool_prober_interval_sec", "ai_tool_prober_success_window",
    "compliance_audit_retention_days"]

def floatKeys : List String :=
  ["cot_verify_step_timeout_sec", "shadow_traffic_rate", "semantic_cache_threshold",
    "hedge_max_per_sec", "activity_log_body_sample_rate_4xx",
    "integration_default_daily_budget_usd", "integration_max_daily_budget_usd",
    "ai_tool_prober_native_threshold", "ai_tool_prober_emulate_threshold"]

def strKeys : List String :=
  ["shadow_candidate_provider_id", "semantic_cache_embedding_model", "semantic_cache_provider_id",
    "native_reasoning_effort", "sso_issuer", "sso_default_role", "integration_passphrase",
    "integration_model", "ai_rate_limiter_model", "ai_provider_supervisor_model",
    "ai_provider_supervisor_internal_api_key", "ai_tool_prober_internal_api_key",
    "compliance_system_blocked_companies", "compliance_custom_companies"]

def optionalStrKeys : List String :=
  ["smtp_host", "smtp_from", "smtp_to", "smtp_user", "smtp_pass", "smtp_helo", "sso_client_id",
    "sso_client_secret", "sso_redirect_uri", "sso_allowed_domains", "audit_export_s3_bucket",
    "audit_export_s3_endpoint", "audit_export_s3_region", "audit_export_s3_access_key",
    "audit_export_s3_secret_key", "prompt_guard_denylist", "sso_entity_id", "sso_idp_metadata_url",
    "sso_acs_url", "ai_rate_limiter_internal_api_key"]

/-- `SCHEMA.get(key)`. -/
def schema (key : String) : Option SettingMeta :=
  if boolKeys.contains key then some ⟨"bool", some (.plain "bool")⟩
  else if intKeys.contains key then some ⟨"int", some (.plain "int")⟩
  else if floatKeys.contains key then some ⟨"float", some (.plain "float")⟩
  else if strKeys.contains key then some ⟨"str", some (.plain "str")⟩
  else if optionalStrKeys.contains key then some ⟨"str", some (.optional "str")⟩
  else none

/-- `_pydantic_field_type`: the annotation, an `Optional` unwrapped, if it is one of the four. -/
def pydanticFieldType (entry : SettingMeta) : Option String :=
  match entry.annotation with
  | some (.plain type) | some (.optional type) =>
    if ["bool", "int", "float", "str"].contains type then some type else none
  | _ => none

/-- `canonical_type`. -/
def canonicalType (entry : SettingMeta) : String := (pydanticFieldType entry).getD entry.type

/-- **The declarations agree**: coercion by either is the same. -/
theorem canonicalType_declared {key : String} {entry : SettingMeta} (h : schema key = some entry) :
    canonicalType entry = entry.type := by
  unfold schema at h
  repeat' split at h
  all_goals first
    | rw [← Option.some.inj h]
      rfl
    | cases h

/-- Every key of `SCHEMA` is a field of `Settings`. -/
theorem schema_field {key : String} {entry : SettingMeta} (h : schema key = some entry) :
    entry.annotation.isSome = true := by
  unfold schema at h
  repeat' split at h
  all_goals first
    | rw [← Option.some.inj h]
      rfl
    | cases h

end LlmProxy.Settings
