import Mathlib.Data.List.Nodup
import Mathlib.Logic.Function.Basic
import LlmProxy.Lib.Dict
import LlmProxy.Lib.PyNum
import LlmProxy.Lib.PyStr

/-! # Self-update of an API key

`app/integration/self_update.py`: the caller's key is looked up, each field of the payload is
applied to its row or denied with a reason, and the outcome is logged.

> `updateKey_respects_iff`: behind the look-up a call does what was pre-authorised and no more,
> except that it stamps the row of a key it has not changed.
> `self_update_never`: the look-up asks for a column that keys do not have, and raises.

Mirroring notes.
* A row is its columns by name. A payload's dict has each field once.
* `hash_key` is SHA-256 and stays a parameter. The texts of the log entries are left out.
-/

namespace LlmProxy.Integration

/-- A JSON value as Python has it, and the values of columns. -/
inductive PyValue where
  | none
  | bool (b : Bool)
  | int (i : Int)
  | float (x : PyNum.Float)
  | str (s : String)
  | list (items : List PyValue)
  | dict (members : List (String × PyValue))

/-- `bool(value)`. -/
def PyValue.truthy : PyValue → Bool
  | .none => false
  | .bool b => b
  | .int i => i ≠ 0
  | .float x => x ≠ .fin 0
  | .str s => s ≠ ""
  | .list items => !items.isEmpty
  | .dict members => !members.isEmpty

def PyValue.isNone : PyValue → Bool
  | .none => true
  | _ => false

def PyValue.isStr : PyValue → Option String
  | .str s => some s
  | _ => Option.none

/-! ## Keys -/

structure KeyRow where
  id : String
  columns : String → PyValue

/-- The columns of `ApiKey`. -/
def apiKeyColumns : List String :=
  ["id", "name", "key_hash", "key_prefix", "encrypted_key", "key_type", "enabled", "total_requests",
    "total_tokens", "total_cost_usd", "spending_cap_usd", "rate_limit_rpm", "rate_limit_tier",
    "semantic_cache_enabled", "daily_soft_cap_usd", "daily_hard_cap_usd", "hourly_cap_usd",
    "caller_memory_ttl_days", "last_user_edit_at", "day_bucket_ts", "day_cost_usd",
    "hour_bucket_ts", "hour_cost_usd", "last_used_at", "created_at", "deleted_at",
    "lmrh_polling_rpm", "lmrh_quotes_rpm", "blocked_companies", "allowed_companies",
    "blocked_models", "allowed_models", "allowed_paths", "debug_echo_enabled",
    "system_prompt_mcp_augmentation", "mcp_tools_allow", "mcp_tools_deny",
    "mcp_schema_token_budget", "refusal_detection_enabled", "refusal_prompt_hardening",
    "refusal_retry_enabled", "default_refuse_tolerance", "refusal_retry_streaming_heartbeat",
    "refusal_retry_max_attempts", "self_edit_permissions"]

/-- `setattr(key, field, value)`. -/
def KeyRow.setattr (k : KeyRow) (field : String) (value : PyValue) : KeyRow :=
  { k with columns := Function.update k.columns field value }

@[simp] theorem KeyRow.setattr_same (k : KeyRow) (field : String) (value : PyValue) :
    (k.setattr field value).columns field = value := Function.update_self _ _ _

theorem KeyRow.setattr_other {column field : String} (h : column ≠ field) (k : KeyRow)
    (value : PyValue) : (k.setattr field value).columns column = k.columns column :=
  Function.update_of_ne h _ _

inductive Failure where
  | http (status : Nat) (detail : String)
  | attributeError (name : String)
  | typeError
  | multipleResultsFound
  deriving DecidableEq, Repr

/-! ## The fields -/

/-- `ELIGIBLE_FIELDS`. -/
def eligibleFields : List (String × String) :=
  [("mcp_tools_allow", "list_str_or_null"), ("mcp_tools_deny", "list_str_or_null"),
    ("mcp_schema_token_budget", "int_or_null"), ("system_prompt_mcp_augmentation", "bool"),
    ("refusal_detection_enabled", "bool"), ("refusal_prompt_hardening", "bool"),
    ("refusal_retry_enabled", "bool"), ("refusal_retry_max_attempts", "int_or_null"),
    ("semantic_cache_enabled", "bool")]

def eligible (field : String) : Bool := eligibleFields.any (·.1 = field)

/-- `FORBIDDEN_FIELDS`. -/
def forbiddenFields : List String :=
  ["id", "key", "encrypted_key", "key_type", "enabled", "deleted_at", "self_edit_permissions",
    "spending_cap_usd", "daily_soft_cap_usd", "daily_hard_cap_usd", "hourly_cap_usd",
    "day_cost_usd", "hour_cost_usd", "day_bucket_ts", "hour_bucket_ts", "rate_limit_rpm",
    "rate_limit_tier", "blocked_companies", "blocked_models", "allowed_models", "allowed_paths",
    "debug_echo_enabled"]

def forbidden (field : String) : Bool :=
  forbiddenFields.contains field || PyStr.startsWith field "compliance_" ||
    PyStr.startsWith field "oauth_"

/-- `_coerce_value`; the error is the message of its `ValueError`. -/
def coerceValue (field : String) (value : PyValue) : Except String PyValue :=
  match (eligibleFields.find? (·.1 = field)).map Prod.snd with
  | none => .error "field not eligible for self-edit"
  | some t =>
    if t = "bool" then
      match value with
      | .bool b => .ok (.bool b)
      | .int i => .ok (.bool (PyValue.int i).truthy)
      | .float x => .ok (.bool (PyValue.float x).truthy)
      | _ => .error "expected bool"
    else if t = "int_or_null" then
      match value with
      | .none => .ok .none
      | .bool _ => .error "expected int or null, got bool"
      | .int i => .ok (.int i)
      | _ => .error "expected int or null"
    else if t = "list_str_or_null" then
      match value with
      | .none => .ok .none
      | .list items =>
        if items.all (·.isStr.isSome) then .ok (.list items)
        else .error "expected list[str] or null"
      | _ => .error "expected list[str] or null"
    else .error ("unknown coercion type: " ++ t)

/-- `list(key.self_edit_permissions or [])`. -/
def permissionsOf (value : PyValue) : Except Failure (List PyValue) :=
  if !value.truthy then .ok []
  else match value with
    | .list items => .ok items
    | .str s => .ok (s.toList.map fun c => .str (String.singleton c))
    | .dict members => .ok (members.map fun m => .str m.1)
    | _ => .error .typeError

def permitted (permissions : List PyValue) (field : String) : Bool :=
  permissions.any fun p => p.isStr = some field

/-! ## The loop over the payload -/

structure SelfUpdateRequest where
  updates : Dict String PyValue
  protocolProposal : Option String := none
  reason : Option String := none

structure Outcome where
  key : KeyRow
  applied : List (String × PyValue) := []
  denied : List (String × String) := []

/-- What becomes of one field: the coerced value, or the reason it is denied. -/
def ruling (permissions : List PyValue) (field : String) (value : PyValue) :
    Except String PyValue :=
  if forbidden field then .error "field is never self-editable (admin-only)"
  else if !eligible field then .error "field is not on the self-edit-eligible list"
  else if !permitted permissions field then .error "not in this key's self_edit_permissions"
  else match coerceValue field value with
    | .error e => .error ("type coercion failed: " ++ e)
    | .ok coerced => .ok coerced

def Outcome.update (permissions : List PyValue) (o : Outcome) (u : String × PyValue) : Outcome :=
  match ruling permissions u.1 u.2 with
  | .error reason => { o with denied := o.denied ++ [(u.1, reason)] }
  | .ok coerced =>
    { o with key := o.key.setattr u.1 coerced, applied := o.applied ++ [(u.1, coerced)] }

structure LogEntry where
  eventType : String
  apiKeyId : String
  proposal : Option String := none
  reason : Option String
  applied : List (String × PyValue) := []
  denied : List (String × String) := []
  permissions : List PyValue := []

structure SelfUpdateResult where
  applied : List (String × PyValue)
  denied : List (String × String)
  protocolProposalLogged : Bool

/-- The call behind the look-up: the row, what is answered and what is logged. -/
def updateKey (now : Rat) (k : KeyRow) (payload : SelfUpdateRequest) :
    Except Failure (KeyRow × SelfUpdateResult × List LogEntry) := do
  let permissions ← permissionsOf (k.columns "self_edit_permissions")
  let o := payload.updates.items.foldl (Outcome.update permissions) { key := k }
  -- the stamp of the last edit, whatever was applied
  let key := o.key.setattr "last_user_edit_at" (.float (.fin now))
  let proposal := payload.protocolProposal.filter (· ≠ "")
  let proposed : List LogEntry := match proposal with
    | some text =>
      [{ eventType := "integration.protocol_proposal", apiKeyId := key.id, proposal := some text
         reason := payload.reason }]
    | none => []
  let outcome : LogEntry :=
    { eventType :=
        if o.applied.isEmpty then "integration.self_update_noop" else "integration.self_update"
      apiKeyId := key.id
      reason := payload.reason
      applied := o.applied
      denied := o.denied
      permissions := permissions }
  .ok (key, ⟨o.applied, o.denied, proposal.isSome⟩, proposed ++ [outcome])

/-! ## The look-up -/

structure Headers where
  xApiKey : Option String := none
  authorization : Option String := none
  deriving DecidableEq, Repr

/-- `s.split()`. -/
def words (s : String) : List (List Char) :=
  (s.toList.splitOnP PyStr.isSpace).filter (· ≠ [])

/-- The key of the headers: `x-api-key`, or a bearer token. -/
def Headers.supplied (h : Headers) : Option String :=
  match h.xApiKey.filter (· ≠ "") with
  | some key => some key
  | none =>
    match h.authorization.filter (· ≠ "") with
    | none => none
    | some authorization =>
      match words (PyStr.strip authorization) with
      | [scheme, key] =>
        if PyStr.lower (String.ofList scheme) = "bearer" then some (String.ofList key) else none
      | _ => none

/-- `ApiKey.<name>`. -/
def classAttribute (name : String) : Except Failure String :=
  if apiKeyColumns.contains name then .ok name else .error (.attributeError name)

structure Db where
  keys : List KeyRow
  activity : List LogEntry := []

/-- `_resolve_key_from_headers`. -/
def resolveKeyFromHeaders (h : Headers) (db : Db) : Except Failure KeyRow :=
  match h.supplied with
  | none => .error (.http 401 "missing API key")
  | some supplied => do
    let column ← classAttribute "key"
    match db.keys.filter fun k => (k.columns column).isStr = some supplied with
    | [] => .error (.http 401 "invalid or disabled key")
    | [k] =>
      if !(k.columns "enabled").truthy || !(k.columns "deleted_at").isNone then
        .error (.http 401 "invalid or disabled key")
      else .ok k
    | _ => .error .multipleResultsFound

/-- `integration_self_update`. -/
def integrationSelfUpdate (integrationEnabled : Bool) (now : Rat) (h : Headers)
    (payload : SelfUpdateRequest) (db : Db) : Except Failure (Db × SelfUpdateResult) :=
  if !integrationEnabled then .error (.http 404 "integration disabled")
  else do
    let k ← resolveKeyFromHeaders h db
    let (key, result, entries) ← updateKey now k payload
    .ok
      ({ keys := db.keys.map fun r => if r.id = key.id then key else r
         activity := db.activity ++ entries }, result)

/-! ## What was pre-authorised -/

/-- What a call may do to a key with these permissions, the stamp of the last edit aside. -/
structure Authorised (permissions : List PyValue) (updates : Dict String PyValue) (k k' : KeyRow)
    (result : SelfUpdateResult) : Prop where
  partition : ∀ u ∈ updates.items,
    Xor (u.1 ∈ result.applied.map Prod.fst) (u.1 ∈ result.denied.map Prod.fst)
  appliedIff : ∀ u ∈ updates.items, u.1 ∈ result.applied.map Prod.fst ↔
    forbidden u.1 = false ∧ eligible u.1 = true ∧ permitted permissions u.1 = true ∧
      ∃ c, coerceValue u.1 u.2 = .ok c
  values : ∀ a ∈ result.applied, k'.columns a.1 = a.2 ∧
    ∃ v, (a.1, v) ∈ updates.items ∧ coerceValue a.1 v = .ok a.2
  frame : ∀ column, column ∉ result.applied.map Prod.fst → column ≠ "last_user_edit_at" →
    k'.columns column = k.columns column
  sameId : k'.id = k.id

/-- And a row that nothing is applied to keeps its stamp. -/
structure Respects (permissions : List PyValue) (updates : Dict String PyValue) (k k' : KeyRow)
    (result : SelfUpdateResult) : Prop extends Authorised permissions updates k k' result where
  stamp : result.applied = [] →
    k'.columns "last_user_edit_at" = k.columns "last_user_edit_at"

variable {permissions : List PyValue} {items : List (String × PyValue)} {o : Outcome} {k k' : KeyRow}
  {field column : String} {value : PyValue}

theorem ruling_ok_iff {c : PyValue} : ruling permissions field value = .ok c ↔
    forbidden field = false ∧ eligible field = true ∧ permitted permissions field = true ∧
      coerceValue field value = .ok c := by
  unfold ruling
  cases forbidden field <;> cases eligible field <;> cases permitted permissions field <;>
    cases coerceValue field value <;> simp

def appliedOf (permissions : List PyValue) (u : String × PyValue) : Option (String × PyValue) :=
  (ruling permissions u.1 u.2).toOption.map fun c => (u.1, c)

def deniedOf (permissions : List PyValue) (u : String × PyValue) : Option (String × String) :=
  match ruling permissions u.1 u.2 with
  | .error reason => some (u.1, reason)
  | .ok _ => none

theorem appliedOf_iff {u a : String × PyValue} : appliedOf permissions u = some a ↔
    a.1 = u.1 ∧ ruling permissions u.1 u.2 = .ok a.2 := by
  obtain ⟨f, c⟩ := a
  unfold appliedOf
  cases ruling permissions u.1 u.2 with
  | error e => simp [Except.toOption]
  | ok c' => simp [Except.toOption, eq_comm]

theorem appliedOf_ok {u : String × PyValue} {c : PyValue}
    (h : ruling permissions u.1 u.2 = .ok c) : appliedOf permissions u = some (u.1, c) :=
  appliedOf_iff.mpr ⟨rfl, h⟩

theorem appliedOf_error {u : String × PyValue} {reason : String}
    (h : ruling permissions u.1 u.2 = .error reason) : appliedOf permissions u = none := by
  unfold appliedOf
  rw [h]
  rfl

theorem update_ok {u : String × PyValue} {c : PyValue} (h : ruling permissions u.1 u.2 = .ok c) :
    o.update permissions u =
      { o with key := o.key.setattr u.1 c, applied := o.applied ++ [(u.1, c)] } := by
  unfold Outcome.update
  rw [h]

theorem update_error {u : String × PyValue} {reason : String}
    (h : ruling permissions u.1 u.2 = .error reason) :
    o.update permissions u = { o with denied := o.denied ++ [(u.1, reason)] } := by
  unfold Outcome.update
  rw [h]

theorem loop_applied : (items.foldl (Outcome.update permissions) o).applied =
    o.applied ++ items.filterMap (appliedOf permissions) := by
  induction items generalizing o with
  | nil => simp
  | cons u items ih =>
    rw [List.foldl_cons, ih, List.filterMap_cons]
    cases hrule : ruling permissions u.1 u.2 with
    | error reason => rw [update_error hrule, appliedOf_error hrule]
    | ok c => rw [update_ok hrule, appliedOf_ok hrule, List.append_assoc]; rfl

theorem loop_denied : (items.foldl (Outcome.update permissions) o).denied =
    o.denied ++ items.filterMap (deniedOf permissions) := by
  induction items generalizing o with
  | nil => simp
  | cons u items ih =>
    rw [List.foldl_cons, ih, List.filterMap_cons]
    unfold deniedOf
    cases hrule : ruling permissions u.1 u.2 with
    | error reason => rw [update_error hrule, List.append_assoc]; rfl
    | ok c => rw [update_ok hrule]

theorem loop_id : (items.foldl (Outcome.update permissions) o).key.id = o.key.id := by
  induction items generalizing o with
  | nil => rfl
  | cons u items ih =>
    rw [List.foldl_cons, ih]
    cases hrule : ruling permissions u.1 u.2 with
    | error reason => rw [update_error hrule]
    | ok c => rw [update_ok hrule]; rfl

theorem loop_frame (h : column ∉ (items.filterMap (appliedOf permissions)).map Prod.fst) :
    (items.foldl (Outcome.update permissions) o).key.columns column = o.key.columns column := by
  induction items generalizing o with
  | nil => rfl
  | cons u items ih =>
    rw [List.foldl_cons]
    rw [List.filterMap_cons] at h
    cases hrule : ruling permissions u.1 u.2 with
    | error reason =>
      rw [appliedOf_error hrule] at h
      rw [ih h, update_error hrule]
    | ok c =>
      rw [appliedOf_ok hrule, List.map_cons, List.mem_cons, not_or] at h
      rw [ih h.2, update_ok hrule]
      exact KeyRow.setattr_other h.1 _ _

theorem loop_value (hnodup : (items.map Prod.fst).Nodup) {a : String × PyValue}
    (ha : a ∈ items.filterMap (appliedOf permissions)) :
    (items.foldl (Outcome.update permissions) o).key.columns a.1 = a.2 := by
  induction items generalizing o with
  | nil => cases ha
  | cons u items ih =>
    rw [List.map_cons, List.nodup_cons] at hnodup
    rw [List.foldl_cons]
    obtain ⟨u', hu', hof⟩ := List.mem_filterMap.mp ha
    rcases List.mem_cons.mp hu' with hhead | htail
    · obtain ⟨hname, hrule⟩ := appliedOf_iff.mp (hhead ▸ hof)
      have hlater : a.1 ∉ (items.filterMap (appliedOf permissions)).map Prod.fst := by
        intro hmem
        obtain ⟨b, hb, hsame⟩ := List.mem_map.mp hmem
        obtain ⟨w, hw, hwb⟩ := List.mem_filterMap.mp hb
        refine hnodup.1 ?_
        rw [← hname, ← hsame, (appliedOf_iff.mp hwb).1]
        exact List.mem_map_of_mem hw
      rw [loop_frame hlater, update_ok hrule, hname]
      exact KeyRow.setattr_same _ _ _
    · exact ih hnodup.2 (List.mem_filterMap.mpr ⟨u', htail, hof⟩)

theorem mem_appliedOf {u : String × PyValue} (hnodup : (items.map Prod.fst).Nodup)
    (hu : u ∈ items) : u.1 ∈ (items.filterMap (appliedOf permissions)).map Prod.fst ↔
      ∃ c, ruling permissions u.1 u.2 = .ok c := by
  constructor
  · intro h
    obtain ⟨a, ha, hname⟩ := List.mem_map.mp h
    obtain ⟨w, hw, hof⟩ := List.mem_filterMap.mp ha
    obtain ⟨hsame, hrule⟩ := appliedOf_iff.mp hof
    have heq : w = u := List.inj_on_of_nodup_map hnodup hw hu (hsame.symm.trans hname)
    exact ⟨a.2, heq ▸ hrule⟩
  · rintro ⟨c, hc⟩
    exact List.mem_map.mpr ⟨(u.1, c),
      List.mem_filterMap.mpr ⟨u, hu, appliedOf_iff.mpr ⟨rfl, hc⟩⟩, rfl⟩

theorem mem_deniedOf {u : String × PyValue} (hnodup : (items.map Prod.fst).Nodup)
    (hu : u ∈ items) : u.1 ∈ (items.filterMap (deniedOf permissions)).map Prod.fst ↔
      ∃ reason, ruling permissions u.1 u.2 = .error reason := by
  constructor
  · intro h
    obtain ⟨a, ha, hname⟩ := List.mem_map.mp h
    obtain ⟨w, hw, hof⟩ := List.mem_filterMap.mp ha
    unfold deniedOf at hof
    cases hrule : ruling permissions w.1 w.2 with
    | ok c =>
      rw [hrule] at hof
      cases hof
    | error reason =>
      rw [hrule] at hof
      have hsame : w.1 = u.1 := by
        rw [← hname, ← Option.some.inj hof]
      have heq : w = u := List.inj_on_of_nodup_map hnodup hw hu hsame
      exact ⟨reason, heq ▸ hrule⟩
  · rintro ⟨reason, hreason⟩
    refine List.mem_map.mpr ⟨(u.1, reason), List.mem_filterMap.mpr ⟨u, hu, ?_⟩, rfl⟩
    unfold deniedOf
    rw [hreason]

theorem not_eligible_stamp : eligible "last_user_edit_at" = false := by decide

theorem updateKey_ok {now : Rat} {payload : SelfUpdateRequest} {result : SelfUpdateResult}
    {entries : List LogEntry} (hperms : permissionsOf (k.columns "self_edit_permissions") =
      .ok permissions) (h : updateKey now k payload = .ok (k', result, entries)) :
    k' = (payload.updates.items.foldl (Outcome.update permissions) { key := k }).key.setattr
        "last_user_edit_at" (.float (.fin now)) ∧
      result.applied = payload.updates.items.filterMap (appliedOf permissions) ∧
      result.denied = payload.updates.items.filterMap (deniedOf permissions) := by
  unfold updateKey at h
  rw [hperms] at h
  obtain ⟨hkey, hresult, -⟩ : k' = _ ∧ result = _ ∧ _ := by
    simpa only [Prod.mk.injEq] using (Except.ok.inj h).symm
  refine ⟨hkey, ?_, ?_⟩
  · rw [hresult]
    exact loop_applied.trans (List.nil_append _)
  · rw [hresult]
    exact loop_denied.trans (List.nil_append _)

/-- **Everything but the stamp** is as pre-authorised. -/
theorem updateKey_authorised {now : Rat} {payload : SelfUpdateRequest} {result : SelfUpdateResult}
    {entries : List LogEntry} (hperms : permissionsOf (k.columns "self_edit_permissions") =
      .ok permissions) (h : updateKey now k payload = .ok (k', result, entries)) :
    Authorised permissions payload.updates k k' result := by
  obtain ⟨hkey, happlied, hdenied⟩ := updateKey_ok hperms h
  have hnodup := payload.updates.nodup
  have hother : ∀ column, column ≠ "last_user_edit_at" → k'.columns column =
      (payload.updates.items.foldl (Outcome.update permissions) { key := k }).key.columns column :=
    fun column hne => by
      rw [hkey]
      exact KeyRow.setattr_other hne _ _
  refine ⟨?_, ?_, ?_, ?_, ?_⟩
  · intro u hu
    rw [happlied, hdenied, mem_appliedOf hnodup hu, mem_deniedOf hnodup hu]
    cases ruling permissions u.1 u.2 <;> simp [Xor]
  · intro u hu
    rw [happlied, mem_appliedOf hnodup hu]
    simp only [ruling_ok_iff, exists_and_left]
  · intro a ha
    rw [happlied] at ha
    obtain ⟨u, hu, hof⟩ := List.mem_filterMap.mp ha
    obtain ⟨hname, hrule⟩ := appliedOf_iff.mp hof
    obtain ⟨-, helig, -, hcoerced⟩ := ruling_ok_iff.mp hrule
    have hne : a.1 ≠ "last_user_edit_at" := fun heq => by
      rw [← hname, heq, not_eligible_stamp] at helig
      cases helig
    exact ⟨(hother a.1 hne).trans (loop_value hnodup ha), u.2, by rw [hname]; exact hu,
      by rw [hname]; exact hcoerced⟩
  · intro column hnot hne
    rw [happlied] at hnot
    exact (hother column hne).trans (loop_frame hnot)
  · rw [hkey]
    exact loop_id

/-- **Behind the look-up** everything is as pre-authorised, and the stamp is too unless it is
written over a row nothing was applied to. -/
theorem updateKey_respects_iff {now : Rat} {payload : SelfUpdateRequest} {result : SelfUpdateResult}
    {entries : List LogEntry} (hperms : permissionsOf (k.columns "self_edit_permissions") =
      .ok permissions) (h : updateKey now k payload = .ok (k', result, entries)) :
    Authorised permissions payload.updates k k' result ∧
      (Respects permissions payload.updates k k' result ↔
        (result.applied = [] → k.columns "last_user_edit_at" = .float (.fin now))) := by
  have hauthorised := updateKey_authorised hperms h
  have hstamp : k'.columns "last_user_edit_at" = .float (.fin now) := by
    rw [(updateKey_ok hperms h).1]
    exact KeyRow.setattr_same _ _ _
  refine ⟨hauthorised, fun hr hnone => ?_, fun hsame => ⟨hauthorised, fun hnone => ?_⟩⟩
  · rw [← hr.stamp hnone]
    exact hstamp
  · exact hstamp.trans (hsame hnone).symm

/-! ## The look-up finds nothing -/

/-- The call succeeds and does what was pre-authorised. -/
def Lawful (integrationEnabled : Bool) (now : Rat) (h : Headers) (payload : SelfUpdateRequest)
    (db : Db) (k : KeyRow) : Prop :=
  ∃ db' result permissions k',
    integrationSelfUpdate integrationEnabled now h payload db = .ok (db', result) ∧
    permissionsOf (k.columns "self_edit_permissions") = .ok permissions ∧ k' ∈ db'.keys ∧
    Respects permissions payload.updates k k' result

theorem no_key_column : classAttribute "key" = .error (.attributeError "key") := by decide

theorem resolve_fails (h : Headers) (db : Db) :
    resolveKeyFromHeaders h db = .error (.http 401 "missing API key") ∨
      resolveKeyFromHeaders h db = .error (.attributeError "key") := by
  unfold resolveKeyFromHeaders
  cases h.supplied with
  | none => exact Or.inl rfl
  | some supplied =>
    dsimp only
    rw [no_key_column]
    exact Or.inr rfl

/-- **Self-update never succeeds**, for any key, headers, payload and setting. -/
theorem self_update_never (integrationEnabled : Bool) (now : Rat) (h : Headers)
    (payload : SelfUpdateRequest) (db : Db) (k : KeyRow) :
    ¬ Lawful integrationEnabled now h payload db k := by
  rintro ⟨db', result, permissions, k', hcall, -⟩
  unfold integrationSelfUpdate at hcall
  split at hcall
  · cases hcall
  · rcases resolve_fails h db with hfail | hfail <;> rw [hfail] at hcall <;> cases hcall

/-- An enabled key that may turn its semantic cache on. -/
def cachingKey : KeyRow where
  id := "k1"
  columns := fun column =>
    if column = "key_hash" then
      .str "5fd8b4ee11624f78485cc58480e62969a871affb4c10de2522f7a9dd6e9e7535"
    else if column = "enabled" then .bool true
    else if column = "self_edit_permissions" then .list [.str "semantic_cache_enabled"]
    else .none

/-- One update that is permitted, one that is not and one that never is. -/
def cachingOn : SelfUpdateRequest :=
  ⟨⟨[("semantic_cache_enabled", .bool true), ("mcp_tools_deny", .none), ("enabled", .bool true)],
    by decide⟩, none, none⟩

theorem updateKey_respects_cachingOn : ∃ k' result entries,
    updateKey 0 cachingKey cachingOn = .ok (k', result, entries) ∧
      Authorised [.str "semantic_cache_enabled"] cachingOn.updates cachingKey k' result ∧
      Respects [.str "semantic_cache_enabled"] cachingOn.updates cachingKey k' result := by
  have hcall : updateKey 0 cachingKey cachingOn = .ok (_, _, _) := rfl
  obtain ⟨hauthorised, hstamp⟩ := updateKey_respects_iff rfl hcall
  exact ⟨_, _, _, rfl, hauthorised, hstamp.mpr fun h => nomatch h⟩

/-- The key's own secret is presented, and the call raises for want of a column `key`. -/
theorem self_update_raises : ¬ Lawful true 0 { xApiKey := some "llmp-abc" }
    ⟨⟨[("semantic_cache_enabled", .bool true)], by decide⟩, none, none⟩ ⟨[cachingKey], []⟩
    cachingKey := by
  rintro ⟨db', result, permissions, k', hcall, -⟩
  cases hcall

end LlmProxy.Integration
