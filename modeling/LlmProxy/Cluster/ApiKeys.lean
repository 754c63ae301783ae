import LlmProxy.Lib.Dict
import LlmProxy.Lib.Table
import LlmProxy.Cluster.Stamp

/-! # The API keys section of `apply_sync`

`_apply_api_keys` (`app/cluster/sync_handlers.py`): a peer's key row is looked up by its
hash. A peer tombstone is adopted, a local tombstone outranks a live peer row, and between
two live rows `last_user_edit_at` decides. Beside the merged table the loop returns the
costs the peer reports, one entry for each row that reaches the end of the loop body; every
branch that leaves the body early (`continue`) leaves the row's cost unrecorded.
-/

namespace LlmProxy.Cluster

structure ApiKey where
  id : String
  name : String
  keyHash : String
  keyPrefix : String
  keyType : String := "standard"
  enabled : Bool := true
  totalCostUsd : Option Rat := some 0
  spendingCapUsd : Option Rat := none
  rateLimitRpm : Option Int := none
  rateLimitTier : Option String := none
  semanticCacheEnabled : Bool := false
  dailySoftCapUsd : Option Rat := none
  dailyHardCapUsd : Option Rat := none
  hourlyCapUsd : Option Rat := none
  callerMemoryTtlDays : Option Int := none
  lmrhPollingRpm : Option Int := none
  lmrhQuotesRpm : Option Int := none
  blockedCompanies : Option (List String) := none
  allowedCompanies : Option (List String) := none
  blockedModels : Option (List String) := none
  allowedModels : Option (List String) := none
  allowedPaths : Option (List String) := none
  debugEchoEnabled : Bool := false
  lastUserEditAt : Option EditStamp := none
  deletedAt : Option Stamp := none
  deriving DecidableEq

def ApiKey.live (k : ApiKey) : Bool := k.deletedAt.isNone

/-- A key row of a payload. A field that older peers leave out is an `Option` of its value;
on a nullable column the inner `Option` is the null. -/
structure PeerApiKey where
  id : String
  name : String
  keyHash : String
  keyPrefix : String
  keyType : Option String := none
  enabled : Option Bool := none
  totalCostUsd : Option Rat := none
  spendingCapUsd : Option (Option Rat) := none
  rateLimitRpm : Option (Option Int) := none
  rateLimitTier : Option (Option String) := none
  semanticCacheEnabled : Option Bool := none
  dailySoftCapUsd : Option (Option Rat) := none
  dailyHardCapUsd : Option (Option Rat) := none
  hourlyCapUsd : Option (Option Rat) := none
  callerMemoryTtlDays : Option (Option Int) := none
  lmrhPollingRpm : Option (Option Int) := none
  lmrhQuotesRpm : Option (Option Int) := none
  blockedCompanies : Option (Option (List String)) := none
  allowedCompanies : Option (Option (List String)) := none
  blockedModels : Option (Option (List String)) := none
  allowedModels : Option (Option (List String)) := none
  allowedPaths : Option (Option (List String)) := none
  debugEchoEnabled : Option Bool := none
  lastUserEditAt : Option EditStamp := none
  deletedAt : Option Stamp := none
  deriving DecidableEq

/-- The peer row carries a tombstone at least as new as the local one. -/
def adoptsKeyTombstone (k : PeerApiKey) (existing : ApiKey) : Bool :=
  match k.deletedAt, existing.deletedAt with
  | none, _ => false
  | some _, none => true
  | some p, some l => l ≤ p

/-- The edit-stamp gate: a tie keeps the local row, an unstamped peer loses against a
stamped row, an unstamped row accepts. -/
def acceptsKeyEdit (k : PeerApiKey) (existing : ApiKey) : Bool :=
  match k.lastUserEditAt, existing.lastUserEditAt with
  | some p, some l => l < p
  | none, some _ => false
  | _, none => true

/-- The operator-settable fields of an accepted peer row. -/
def takeKeyFields (k : PeerApiKey) (existing : ApiKey) : ApiKey :=
  { existing with
    spendingCapUsd := fieldOr k.spendingCapUsd existing.spendingCapUsd
    rateLimitRpm := fieldOr k.rateLimitRpm existing.rateLimitRpm
    enabled := fieldOr k.enabled existing.enabled
    semanticCacheEnabled := fieldOr k.semanticCacheEnabled existing.semanticCacheEnabled
    dailySoftCapUsd := fieldOr k.dailySoftCapUsd existing.dailySoftCapUsd
    dailyHardCapUsd := fieldOr k.dailyHardCapUsd existing.dailyHardCapUsd
    hourlyCapUsd := fieldOr k.hourlyCapUsd existing.hourlyCapUsd
    rateLimitTier := fieldOr k.rateLimitTier existing.rateLimitTier
    callerMemoryTtlDays := fieldOr k.callerMemoryTtlDays existing.callerMemoryTtlDays
    lmrhPollingRpm := fieldOr k.lmrhPollingRpm existing.lmrhPollingRpm
    lmrhQuotesRpm := fieldOr k.lmrhQuotesRpm existing.lmrhQuotesRpm
    blockedCompanies := fieldOr k.blockedCompanies existing.blockedCompanies
    allowedCompanies := fieldOr k.allowedCompanies existing.allowedCompanies
    blockedModels := fieldOr k.blockedModels existing.blockedModels
    allowedModels := fieldOr k.allowedModels existing.allowedModels
    allowedPaths := fieldOr k.allowedPaths existing.allowedPaths
    debugEchoEnabled := fieldOr k.debugEchoEnabled existing.debugEchoEnabled
    lastUserEditAt := k.lastUserEditAt.orElse fun _ => existing.lastUserEditAt }

/-- The loop body for a local row: the merged row, and whether the end of the body is
reached. -/
def mergeApiKey (k : PeerApiKey) (existing : ApiKey) : ApiKey × Bool :=
  if adoptsKeyTombstone k existing then
    ({ existing with deletedAt := k.deletedAt, enabled := false }, false)
  else if existing.deletedAt.isSome && k.deletedAt.isNone then (existing, false)
  else if acceptsKeyEdit k existing then (takeKeyFields k existing, true)
  else (existing, false)

/-- The row inserted for an unknown hash: none for a tombstone. -/
def insertApiKey (k : PeerApiKey) : Option ApiKey :=
  match k.deletedAt with
  | some _ => none
  | none => some
    { id := k.id
      name := k.name
      keyHash := k.keyHash
      keyPrefix := k.keyPrefix
      keyType := k.keyType.getD "standard"
      enabled := k.enabled.getD true
      spendingCapUsd := fieldGet k.spendingCapUsd
      rateLimitRpm := fieldGet k.rateLimitRpm
      semanticCacheEnabled := k.semanticCacheEnabled.getD false
      dailySoftCapUsd := fieldGet k.dailySoftCapUsd
      dailyHardCapUsd := fieldGet k.dailyHardCapUsd
      hourlyCapUsd := fieldGet k.hourlyCapUsd
      rateLimitTier := fieldGet k.rateLimitTier
      callerMemoryTtlDays := fieldGet k.callerMemoryTtlDays
      lmrhPollingRpm := fieldGet k.lmrhPollingRpm
      lmrhQuotesRpm := fieldGet k.lmrhQuotesRpm
      blockedCompanies := fieldGet k.blockedCompanies
      allowedCompanies := fieldGet k.allowedCompanies
      blockedModels := fieldGet k.blockedModels
      allowedModels := fieldGet k.allowedModels
      allowedPaths := fieldGet k.allowedPaths
      debugEchoEnabled := k.debugEchoEnabled.getD false
      lastUserEditAt := k.lastUserEditAt }

def keyLookup (k : PeerApiKey) : List (ApiKey → Bool) := [fun r => r.keyHash == k.keyHash]

/-- The row reaches the end of the loop body, where its cost is recorded. -/
def reachesEnd (table : List ApiKey) (k : PeerApiKey) : Bool :=
  match Table.target (keyLookup k) table with
  | some existing => (mergeApiKey k existing).2
  | none => k.deletedAt.isNone

def applyApiKey (table : List ApiKey) (k : PeerApiKey) : List ApiKey :=
  Table.upsert (keyLookup k) (fun e => (mergeApiKey k e).1) (insertApiKey k) table

/-- The cost a row reports: `key_id and "total_cost_usd" in k_data`. -/
def PeerApiKey.reports (k : PeerApiKey) : Option (String × Rat) :=
  if k.id = "" then none else k.totalCostUsd.map (k.id, ·)

def recordCost (table : List ApiKey) (costs : Dict String Rat) (k : PeerApiKey) :
    Dict String Rat :=
  if reachesEnd table k then
    match k.reports with
    | some (id, cost) => costs.set id cost
    | none => costs
  else costs

/-- The loop of `_apply_api_keys`, from the table and the costs so far. -/
def applyApiKeysFrom (table : List ApiKey) (costs : Dict String Rat) :
    List PeerApiKey → List ApiKey × Dict String Rat
  | [] => (table, costs)
  | k :: rows => applyApiKeysFrom (applyApiKey table k) (recordCost table costs k) rows

/-- `_apply_api_keys`: the merged table and the peer's costs. -/
def applyApiKeys (table : List ApiKey) (rows : List PeerApiKey) :
    List ApiKey × Dict String Rat :=
  applyApiKeysFrom table Dict.empty rows

@[simp] theorem mergeApiKey_keyHash (k : PeerApiKey) (e : ApiKey) :
    (mergeApiKey k e).1.keyHash = e.keyHash := by
  unfold mergeApiKey
  repeat' split
  all_goals rfl

theorem insertApiKey_live {k : PeerApiKey} (h : k.deletedAt = none) :
    ∃ r, insertApiKey k = some r ∧ r.keyHash = k.keyHash ∧ r.live = true := by
  unfold insertApiKey
  rw [h]
  exact ⟨_, rfl, rfl, rfl⟩

theorem insertApiKey_dead {k : PeerApiKey} (h : k.deletedAt.isSome = true) :
    insertApiKey k = none := by
  obtain ⟨d, hd⟩ := Option.isSome_iff_exists.mp h
  unfold insertApiKey
  rw [hd]

theorem mergeApiKey_dead {k : PeerApiKey} {e : ApiKey} (h : e.live = false) :
    (mergeApiKey k e).1.live = false := by
  unfold mergeApiKey
  split
  · next hadopt =>
    unfold adoptsKeyTombstone at hadopt
    unfold ApiKey.live
    cases hd : k.deletedAt with
    | none => rw [hd] at hadopt; cases hadopt
    | some d => rfl
  · repeat' split
    all_goals exact h

theorem mergeApiKey_live {k : PeerApiKey} {e : ApiKey} (h : e.live = true) :
    (mergeApiKey k e).1.live = k.deletedAt.isNone := by
  have he : e.deletedAt = none := Option.isNone_iff_eq_none.mp h
  unfold mergeApiKey adoptsKeyTombstone
  cases hd : k.deletedAt with
  | some d => rw [he]; rfl
  | none =>
    simp only [he, Option.isSome_none, Bool.false_and, Bool.false_eq_true, if_false]
    split
    · exact h
    · exact h

end LlmProxy.Cluster
