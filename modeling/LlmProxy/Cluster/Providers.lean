import LlmProxy.Lib.Table
import LlmProxy.Providers.Row

/-! # The providers section of `apply_sync`

`_apply_providers` (`app/cluster/sync_handlers.py`): a peer's provider row is looked up by
id, then by name. A peer tombstone reaches a row that is not deleted; a deleted row ignores
peer rows not written after its deletion; otherwise `last_user_edit_at` decides, with
`updated_at` as the tie-break, and the accepted row's columns are copied as a whole. A row
without a local counterpart is inserted unless it is a tombstone.

Mirroring notes.
* Clearing the circuit-breaker state on a tombstone and registering a fresh row touch
  in-memory state of other modules, not the table.
-/

namespace LlmProxy.Cluster

open LlmProxy.Providers

/-- A provider row of a payload. A field that older peers leave out is an `Option` of its
value; on a nullable column the inner `Option` is the null. -/
structure PeerProvider where
  id : String
  name : String
  providerType : String
  apiKey : Option (Option String) := none
  baseUrl : Option (Option String) := none
  defaultModel : Option (Option String) := none
  priority : Option Int := none
  enabled : Option Bool := none
  timeoutSec : Option (Option Int) := none
  excludeFromToolRequests : Option Bool := none
  holdDownSec : Option (Option Int) := none
  failureThreshold : Option (Option Int) := none
  extraConfig : Option (List (String × String)) := none
  ownedByKeyId : Option (Option String) := none
  dailyBudgetUsd : Option (Option Rat) := none
  oauthRefreshToken : Option (Option String) := none
  oauthExpiresAt : Option (Option Int) := none
  anthropicOrgUuid : Option (Option String) := none
  anthropicSessionCapturedAt : Option (Option Int) := none
  codexUsageEndpointUrl : Option (Option String) := none
  codexSessionCapturedAt : Option (Option Int) := none
  manualOverrideUntil : Option (Option Stamp) := none
  manualOverrideSetBy : Option (Option String) := none
  manualOverrideSetAt : Option (Option Stamp) := none
  manualOverrideReason : Option (Option String) := none
  autoSkipUntil : Option (Option Stamp) := none
  autoSkipReason : Option (Option String) := none
  ownerCompany : Option (Option String) := none
  deletedAt : Option Stamp := none
  updatedAt : Option Stamp := none
  lastUserEditAt : Option EditStamp := none
  deriving DecidableEq

/-- The providers section of `_build_sync_payload`: every column of the row, tombstones
included. -/
def buildPeerProvider (p : Provider) : PeerProvider :=
  { id := p.id
    name := p.name
    providerType := p.providerType
    apiKey := some p.apiKey
    baseUrl := some p.baseUrl
    defaultModel := some p.defaultModel
    priority := some p.priority
    enabled := some p.enabled
    timeoutSec := some p.timeoutSec
    excludeFromToolRequests := some p.excludeFromToolRequests
    holdDownSec := some p.holdDownSec
    failureThreshold := some p.failureThreshold
    extraConfig := some p.extraConfig
    ownedByKeyId := some p.ownedByKeyId
    dailyBudgetUsd := some p.dailyBudgetUsd
    oauthRefreshToken := some p.oauthRefreshToken
    oauthExpiresAt := some p.oauthExpiresAt
    anthropicOrgUuid := some p.anthropicOrgUuid
    anthropicSessionCapturedAt := some p.anthropicSessionCapturedAt
    codexUsageEndpointUrl := some p.codexUsageEndpointUrl
    codexSessionCapturedAt := some p.codexSessionCapturedAt
    manualOverrideUntil := some p.manualOverrideUntil
    manualOverrideSetBy := some p.manualOverrideSetBy
    manualOverrideSetAt := some p.manualOverrideSetAt
    manualOverrideReason := some p.manualOverrideReason
    autoSkipUntil := some p.autoSkipUntil
    autoSkipReason := some p.autoSkipReason
    ownerCompany := some p.ownerCompany
    deletedAt := p.deletedAt
    updatedAt := p.updatedAt
    lastUserEditAt := p.lastUserEditAt }

/-! ## The gates -/

/-- `peer_updated_at and (local_updated is None or peer_updated_at > local_updated)`. -/
def newerUpdate (peer existing : Option Stamp) : Bool :=
  match peer, existing with
  | none, _ => false
  | some _, none => true
  | some p, some l => l < p

/-- A deleted row ignores a peer row that is not stamped after its deletion. -/
def deletionOutranks (r : PeerProvider) (existing : Provider) : Bool :=
  match existing.deletedAt, r.updatedAt with
  | none, _ => false
  | some _, none => true
  | some d, some u => u ≤ d

/-- The edit-stamp gate with its `updated_at` tie-break. -/
def acceptsEdit (r : PeerProvider) (existing : Provider) : Bool :=
  match r.lastUserEditAt, existing.lastUserEditAt with
  | some p, some l =>
    if p ≠ l then l < p
    else match r.updatedAt, existing.updatedAt with
      | some pu, some lu => lu < pu
      | _, _ => false
  | none, some _ => false
  | _, none =>
    match r.updatedAt, existing.updatedAt with
    | some pu, some lu => lu ≤ pu
    | _, _ => true

/-! ## The merge -/

def takeFields (r : PeerProvider) (existing : Provider) : Provider :=
  { existing with
    name := r.name
    providerType := r.providerType
    apiKey := fieldOr r.apiKey existing.apiKey
    baseUrl := fieldOr r.baseUrl existing.baseUrl
    defaultModel := fieldOr r.defaultModel existing.defaultModel
    priority := fieldOr r.priority existing.priority
    enabled := fieldOr r.enabled existing.enabled
    timeoutSec := fieldOr r.timeoutSec existing.timeoutSec
    excludeFromToolRequests :=
      fieldOr r.excludeFromToolRequests existing.excludeFromToolRequests
    holdDownSec := fieldOr r.holdDownSec existing.holdDownSec
    failureThreshold := fieldOr r.failureThreshold existing.failureThreshold
    extraConfig := fieldOr r.extraConfig existing.extraConfig
    ownedByKeyId := fieldOr r.ownedByKeyId existing.ownedByKeyId
    dailyBudgetUsd := fieldOr r.dailyBudgetUsd existing.dailyBudgetUsd
    oauthRefreshToken := fieldOr r.oauthRefreshToken existing.oauthRefreshToken
    oauthExpiresAt := fieldOr r.oauthExpiresAt existing.oauthExpiresAt
    anthropicOrgUuid := fieldOr r.anthropicOrgUuid existing.anthropicOrgUuid
    anthropicSessionCapturedAt :=
      fieldOr r.anthropicSessionCapturedAt existing.anthropicSessionCapturedAt
    codexUsageEndpointUrl := fieldOr r.codexUsageEndpointUrl existing.codexUsageEndpointUrl
    codexSessionCapturedAt := fieldOr r.codexSessionCapturedAt existing.codexSessionCapturedAt
    manualOverrideUntil := fieldOr r.manualOverrideUntil existing.manualOverrideUntil
    manualOverrideSetBy := fieldOr r.manualOverrideSetBy existing.manualOverrideSetBy
    manualOverrideSetAt := fieldOr r.manualOverrideSetAt existing.manualOverrideSetAt
    manualOverrideReason := fieldOr r.manualOverrideReason existing.manualOverrideReason
    autoSkipUntil := fieldOr r.autoSkipUntil existing.autoSkipUntil
    autoSkipReason := fieldOr r.autoSkipReason existing.autoSkipReason
    ownerCompany := fieldOr r.ownerCompany existing.ownerCompany
    updatedAt := r.updatedAt.orElse fun _ => existing.updatedAt
    lastUserEditAt := r.lastUserEditAt.orElse fun _ => existing.lastUserEditAt }

def mergeProviderRow (r : PeerProvider) (existing : Provider) : Provider :=
  if r.deletedAt.isSome && existing.deletedAt.isNone then
    { existing with
      deletedAt := r.deletedAt
      enabled := false
      updatedAt := if newerUpdate r.updatedAt existing.updatedAt then r.updatedAt
        else existing.updatedAt }
  else if deletionOutranks r existing then existing
  else if acceptsEdit r existing then takeFields r existing
  else existing

def mergeProvider (clk : FlushClock) (r : PeerProvider) (existing : Provider) : Provider :=
  flush clk existing (mergeProviderRow r existing)

/-- The row inserted for a peer row nobody here knows: none for a tombstone. -/
def insertProvider (clk : FlushClock) (r : PeerProvider) : Option Provider :=
  match r.deletedAt with
  | some _ => none
  | none => some
    { id := r.id
      name := r.name
      providerType := r.providerType
      apiKey := fieldGet r.apiKey
      baseUrl := fieldGet r.baseUrl
      defaultModel := fieldGet r.defaultModel
      priority := r.priority.getD 10
      enabled := r.enabled.getD true
      timeoutSec := r.timeoutSec.getD (some 60)
      excludeFromToolRequests := r.excludeFromToolRequests.getD false
      holdDownSec := fieldGet r.holdDownSec
      failureThreshold := fieldGet r.failureThreshold
      extraConfig := r.extraConfig.getD []
      ownedByKeyId := fieldGet r.ownedByKeyId
      dailyBudgetUsd := fieldGet r.dailyBudgetUsd
      oauthRefreshToken := fieldGet r.oauthRefreshToken
      oauthExpiresAt := fieldGet r.oauthExpiresAt
      anthropicOrgUuid := fieldGet r.anthropicOrgUuid
      anthropicSessionCapturedAt := fieldGet r.anthropicSessionCapturedAt
      codexUsageEndpointUrl := fieldGet r.codexUsageEndpointUrl
      codexSessionCapturedAt := fieldGet r.codexSessionCapturedAt
      manualOverrideUntil := fieldGet r.manualOverrideUntil
      manualOverrideSetBy := fieldGet r.manualOverrideSetBy
      manualOverrideSetAt := fieldGet r.manualOverrideSetAt
      manualOverrideReason := fieldGet r.manualOverrideReason
      autoSkipUntil := fieldGet r.autoSkipUntil
      autoSkipReason := fieldGet r.autoSkipReason
      ownerCompany := fieldGet r.ownerCompany
      lastUserEditAt := r.lastUserEditAt
      createdAt := serverNow clk.db
      updatedAt := some (serverNow clk.db) }

def providerKeys (r : PeerProvider) : List (Provider → Bool) :=
  [fun p => p.id == r.id, fun p => p.name == r.name]

def applyProvider (clk : FlushClock) (table : List Provider) (r : PeerProvider) :
    List Provider :=
  Table.upsert (providerKeys r) (mergeProvider clk r) (insertProvider clk r) table

/-- `_apply_providers`. -/
def applyProviders (clk : FlushClock) (table : List Provider) (rows : List PeerProvider) :
    List Provider :=
  rows.foldl (applyProvider clk) table

/-! ## What the merge does -/

@[simp] theorem mergeProviderRow_id (r : PeerProvider) (e : Provider) :
    (mergeProviderRow r e).id = e.id := by
  unfold mergeProviderRow
  repeat' split
  all_goals rfl

@[simp] theorem mergeProvider_id (clk : FlushClock) (r : PeerProvider) (e : Provider) :
    (mergeProvider clk r e).id = e.id := by
  simp [mergeProvider]

theorem insertProvider_live (clk : FlushClock) {r : PeerProvider} (h : r.deletedAt = none) :
    ∃ p, insertProvider clk r = some p ∧ p.id = r.id ∧ p.deletedAt = none := by
  unfold insertProvider
  rw [h]
  exact ⟨_, rfl, rfl, rfl⟩

theorem insertProvider_dead (clk : FlushClock) {r : PeerProvider}
    (h : r.deletedAt.isSome = true) : insertProvider clk r = none := by
  obtain ⟨d, hd⟩ := Option.isSome_iff_exists.mp h
  unfold insertProvider
  rw [hd]

theorem mergeProvider_deleted {clk : FlushClock} {r : PeerProvider} {e : Provider}
    (h : e.deleted = true) : (mergeProvider clk r e).deletedAt = e.deletedAt := by
  have hn : e.deletedAt.isNone = false := by simpa [Provider.deleted] using h
  unfold mergeProvider mergeProviderRow
  rw [flush_deletedAt, hn, Bool.and_false, if_neg Bool.false_ne_true]
  repeat' split
  all_goals rfl

theorem mergeProvider_not_deleted {clk : FlushClock} {r : PeerProvider} {e : Provider}
    (h : e.deleted = false) : (mergeProvider clk r e).deletedAt = r.deletedAt := by
  have he : e.deletedAt = none := by simpa [Provider.deleted] using h
  unfold mergeProvider mergeProviderRow
  rw [flush_deletedAt]
  cases hr : r.deletedAt with
  | some d => simp [he]
  | none =>
    simp only [Option.isSome_none, Bool.false_and, Bool.false_eq_true, if_false]
    repeat' split
    all_goals exact he

theorem mergeProvider_enabled {clk : FlushClock} {r : PeerProvider} {e : Provider}
    (h : e.deleted = true) : (mergeProvider clk r e).enabled =
      if deletionOutranks r e = false ∧ acceptsEdit r e = true then fieldOr r.enabled e.enabled
      else e.enabled := by
  have hn : e.deletedAt.isNone = false := by simpa [Provider.deleted] using h
  unfold mergeProvider mergeProviderRow
  rw [flush_enabled, hn, Bool.and_false, if_neg Bool.false_ne_true]
  cases deletionOutranks r e <;> cases acceptsEdit r e <;> rfl

end LlmProxy.Cluster
