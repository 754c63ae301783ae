import LlmProxy.Cluster.KeyEdits
import LlmProxy.Cluster.Providers

/-! # What an edit comes to on a peer

The keys and providers sections of `_build_sync_payload` (`app/cluster/manager.py`), and what
`_apply_api_keys` and `_apply_providers` make of them in the whole rows of a peer. Both update
branches list the columns they take; the columns they do not list stay as the peer has them.

> `map_applyKeyRows`: on the columns the sync knows this is `applyApiKeys`;
> `mergeKeyRow_settable`, `mergeProviderColumns_settable`: an accepted row, column by column;
> `findKeyRow_applyKeyRows`, `findProviderRow_applyProviderRows`: the row after a whole payload;
> `edits_replicate_iff`: an edit reaches the peer exactly when it leaves the other columns alone.
-/

namespace LlmProxy.Cluster

open LlmProxy.Providers

/-! ## Keys -/

/-- The keys section of `_build_sync_payload`. -/
def buildPeerApiKey (k : KeyRow) : PeerApiKey :=
  { id := k.id
    name := k.name
    keyHash := k.keyHash
    keyPrefix := k.keyPrefix
    keyType := some k.keyType
    enabled := some k.enabled
    spendingCapUsd := some k.spendingCapUsd
    rateLimitRpm := some k.rateLimitRpm
    totalCostUsd := some (k.totalCostUsd.getD 0)
    deletedAt := k.deletedAt
    semanticCacheEnabled := some k.semanticCacheEnabled
    dailySoftCapUsd := some k.dailySoftCapUsd
    dailyHardCapUsd := some k.dailyHardCapUsd
    hourlyCapUsd := some k.hourlyCapUsd
    rateLimitTier := some k.rateLimitTier
    callerMemoryTtlDays := some k.callerMemoryTtlDays
    lmrhPollingRpm := some k.lmrhPollingRpm
    lmrhQuotesRpm := some k.lmrhQuotesRpm
    blockedCompanies := some k.blockedCompanies
    allowedPaths := some k.allowedPaths
    allowedCompanies := some k.allowedCompanies
    blockedModels := some k.blockedModels
    allowedModels := some k.allowedModels
    debugEchoEnabled := some k.debugEchoEnabled
    lastUserEditAt := k.lastUserEditAt }

/-- The branch for a local row: the columns the sync does not know stay. -/
def mergeKeyRow (k : PeerApiKey) (existing : KeyRow) : KeyRow :=
  { existing with toApiKey := (mergeApiKey k existing.toApiKey).1 }

/-- The row inserted for an unknown hash, with the defaults of the other columns. -/
def insertKeyRow (k : PeerApiKey) : Option KeyRow := (insertApiKey k).map fun r => { toApiKey := r }

def applyKeyRow (table : List KeyRow) (k : PeerApiKey) : List KeyRow :=
  Table.upsert [fun r => r.keyHash == k.keyHash] (mergeKeyRow k) (insertKeyRow k) table

def applyKeyRows (table : List KeyRow) (rows : List PeerApiKey) : List KeyRow :=
  rows.foldl applyKeyRow table

/-- **On the columns the sync knows** the rows are merged as `applyApiKeys` does. -/
theorem map_applyKeyRows (table : List KeyRow) (costs : Dict String Rat) (rows : List PeerApiKey) :
    (applyKeyRows table rows).map (·.toApiKey) =
      (applyApiKeysFrom (table.map (·.toApiKey)) costs rows).1 := by
  induction rows generalizing table costs with
  | nil => rfl
  | cons k rows ih =>
    have hone : (applyKeyRow table k).map (·.toApiKey) =
        applyApiKey (table.map (·.toApiKey)) k := by
      have hcolumn := @Table.map_upsert KeyRow (fun r => r.keyHash == k.keyHash) (mergeKeyRow k)
        ApiKey (·.toApiKey) (fun r => r.keyHash == k.keyHash) (fun e => (mergeApiKey k e).1)
        (insertKeyRow k) table (fun _ => rfl) (fun _ => rfl)
      have hinsert : (insertKeyRow k).map (·.toApiKey) = insertApiKey k := by
        unfold insertKeyRow
        cases insertApiKey k <;> rfl
      rw [hinsert] at hcolumn
      exact hcolumn
    show (applyKeyRows (applyKeyRow table k) rows).map (·.toApiKey) = _
    rw [ih, hone]
    rfl

/-- The columns the update branch does not take. -/
structure KeptKeyColumns where
  name : String
  keyType : String
  defaultRefuseTolerance : Option String
  systemPromptMcpAugmentation : Bool
  mcpToolsAllow : Option (List String)
  mcpToolsDeny : Option (List String)
  mcpSchemaTokenBudget : Option Int
  refusalDetectionEnabled : Bool
  refusalPromptHardening : Bool
  refusalRetryEnabled : Bool
  refusalRetryStreamingHeartbeat : Bool
  refusalRetryMaxAttempts : Option Int
  selfEditPermissions : Option (List String)
  deriving DecidableEq

def KeyRow.kept (k : KeyRow) : KeptKeyColumns where
  name := k.name
  keyType := k.keyType
  defaultRefuseTolerance := k.defaultRefuseTolerance
  systemPromptMcpAugmentation := k.systemPromptMcpAugmentation
  mcpToolsAllow := k.mcpToolsAllow
  mcpToolsDeny := k.mcpToolsDeny
  mcpSchemaTokenBudget := k.mcpSchemaTokenBudget
  refusalDetectionEnabled := k.refusalDetectionEnabled
  refusalPromptHardening := k.refusalPromptHardening
  refusalRetryEnabled := k.refusalRetryEnabled
  refusalRetryStreamingHeartbeat := k.refusalRetryStreamingHeartbeat
  refusalRetryMaxAttempts := k.refusalRetryMaxAttempts
  selfEditPermissions := k.selfEditPermissions

def KeyRow.withKept (k : KeyRow) (v : KeptKeyColumns) : KeyRow :=
  { k with
    name := v.name
    keyType := v.keyType
    defaultRefuseTolerance := v.defaultRefuseTolerance
    systemPromptMcpAugmentation := v.systemPromptMcpAugmentation
    mcpToolsAllow := v.mcpToolsAllow
    mcpToolsDeny := v.mcpToolsDeny
    mcpSchemaTokenBudget := v.mcpSchemaTokenBudget
    refusalDetectionEnabled := v.refusalDetectionEnabled
    refusalPromptHardening := v.refusalPromptHardening
    refusalRetryEnabled := v.refusalRetryEnabled
    refusalRetryStreamingHeartbeat := v.refusalRetryStreamingHeartbeat
    refusalRetryMaxAttempts := v.refusalRetryMaxAttempts
    selfEditPermissions := v.selfEditPermissions }

def KeyRow.settable (k : KeyRow) : KeyRow := { k with id := "", keyPrefix := "", totalCostUsd := none }

@[simp] theorem KeyRow.kept_withKept (k : KeyRow) (v : KeptKeyColumns) : (k.withKept v).kept = v :=
  rfl

@[simp] theorem KeyRow.withKept_kept (k : KeyRow) : k.withKept k.kept = k := rfl

@[simp] theorem KeyRow.kept_settable (k : KeyRow) : k.settable.kept = k.kept := rfl

/-- `b` is an earlier version of the live row `a`. -/
structure KeyRow.Precedes (b a : KeyRow) : Prop where
  hash : b.keyHash = a.keyHash
  live : b.deletedAt = none
  stillLive : a.deletedAt = none
  older : ∃ s t, b.lastUserEditAt = some s ∧ a.lastUserEditAt = some t ∧ s < t

/-- **An accepted key row**: the sender's, but for the columns that are kept. -/
theorem mergeKeyRow_settable {b a : KeyRow} (h : b.Precedes a) :
    (mergeKeyRow (buildPeerApiKey a) b).settable = (a.withKept b.kept).settable := by
  obtain ⟨s, t, hs, ht, hlt⟩ := h.older
  have hadopt : adoptsKeyTombstone (buildPeerApiKey a) b.toApiKey = false := by
    unfold adoptsKeyTombstone
    rw [show (buildPeerApiKey a).deletedAt = none from h.stillLive]
  have haccept : acceptsKeyEdit (buildPeerApiKey a) b.toApiKey = true := by
    unfold acceptsKeyEdit
    rw [show (buildPeerApiKey a).lastUserEditAt = some t from ht, hs]
    exact decide_eq_true hlt
  unfold mergeKeyRow mergeApiKey
  rw [hadopt, haccept, h.live]
  have hstamp : ((buildPeerApiKey a).lastUserEditAt.orElse fun _ => b.lastUserEditAt) =
      a.lastUserEditAt := by
    rw [show (buildPeerApiKey a).lastUserEditAt = some t from ht, ht]
    rfl
  show ({ (a.withKept b.kept).settable with
    keyHash := b.keyHash
    lastUserEditAt := (buildPeerApiKey a).lastUserEditAt.orElse fun _ => b.lastUserEditAt
    deletedAt := b.deletedAt } : KeyRow) = _
  rw [hstamp, h.hash, h.live, ← h.stillLive]
  rfl

theorem insertKeyRow_keyHash {k : PeerApiKey} {r : KeyRow} (h : insertKeyRow k = some r) :
    r.keyHash = k.keyHash := by
  unfold insertKeyRow insertApiKey at h
  split at h
  · cases h
  · rw [← Option.some.inj h]

theorem mergeKeyRow_keyHash (k : PeerApiKey) (e : KeyRow) : (mergeKeyRow k e).keyHash = e.keyHash :=
  mergeApiKey_keyHash k e.toApiKey

def findKeyRow (h : String) (table : List KeyRow) : Option KeyRow :=
  table.find? fun r => r.keyHash == h

theorem findKeyRow_other {h : String} {k : PeerApiKey} (hne : k.keyHash ≠ h) (table : List KeyRow) :
    findKeyRow h (applyKeyRow table k) = findKeyRow h table := by
  refine Table.find?_upsert_other (fun r => by rw [mergeKeyRow_keyHash]) ?_ fun r hr => ?_
  · intro key hkey r _ hr
    rw [List.mem_singleton.mp (List.mem_of_find?_eq_some hkey)] at hr
    rw [eq_of_beq hr]
    exact beq_eq_false_iff_ne.mpr hne
  · rw [insertKeyRow_keyHash hr]
    exact beq_eq_false_iff_ne.mpr hne

theorem findKeyRow_others {h : String} {rows : List PeerApiKey} (hne : ∀ k ∈ rows, k.keyHash ≠ h)
    (table : List KeyRow) : findKeyRow h (applyKeyRows table rows) = findKeyRow h table := by
  induction rows generalizing table with
  | nil => rfl
  | cons k rows ih =>
    obtain ⟨hk, hrest⟩ := List.forall_mem_cons.mp hne
    exact (ih hrest (applyKeyRow table k)).trans (findKeyRow_other hk table)

/-- **The row after a whole payload**: merged with its own peer row. -/
theorem findKeyRow_applyKeyRows {rows : List PeerApiKey} {table : List KeyRow} {k : PeerApiKey}
    {b : KeyRow} (hnodup : (rows.map (·.keyHash)).Nodup) (hk : k ∈ rows)
    (hb : findKeyRow k.keyHash table = some b) :
    findKeyRow k.keyHash (applyKeyRows table rows) = some (mergeKeyRow k b) := by
  induction rows generalizing table with
  | nil => cases hk
  | cons k' rows ih =>
    rw [List.map_cons, List.nodup_cons] at hnodup
    obtain ⟨hfirst, hnodup⟩ := hnodup
    rcases List.mem_cons.mp hk with heq | hrest
    · rw [← heq] at hfirst ⊢
      have hothers : ∀ other ∈ rows, other.keyHash ≠ k.keyHash := fun other hother hsame =>
        hfirst (hsame ▸ List.mem_map_of_mem hother)
      show findKeyRow k.keyHash (applyKeyRows (applyKeyRow table k) rows) = _
      rw [findKeyRow_others hothers]
      exact Table.find?_upsert_of_find? (fun r => by rw [mergeKeyRow_keyHash]) hb
    · have hne : k'.keyHash ≠ k.keyHash := fun hsame =>
        hfirst (hsame ▸ List.mem_map_of_mem hrest)
      show findKeyRow k.keyHash (applyKeyRows (applyKeyRow table k') rows) = _
      refine ih hnodup hrest ?_
      rw [findKeyRow_other hne]
      exact hb

/-- From any sender that holds `a` to any peer that holds `b` for it, the payload makes the peer's
row equal in what an operator sets. -/
def KeyReplicates (b a : KeyRow) : Prop :=
  ∀ sender table : List KeyRow, (sender.map (·.keyHash)).Nodup → a ∈ sender →
    findKeyRow a.keyHash table = some b →
      ∃ r, findKeyRow a.keyHash (applyKeyRows table (sender.map buildPeerApiKey)) = some r ∧
        r.settable = a.settable

theorem keyReplicates_iff {b a : KeyRow} (h : b.Precedes a) :
    KeyReplicates b a ↔ b.kept = a.kept := by
  constructor
  · intro hreplicates
    obtain ⟨r, hr, hsame⟩ := hreplicates [a] [b] (by simp) List.mem_cons_self
      (by simp [findKeyRow, h.hash])
    have hrow := @findKeyRow_applyKeyRows [buildPeerApiKey a] [b] (buildPeerApiKey a) b (by simp)
      List.mem_cons_self (by simp [findKeyRow, buildPeerApiKey, h.hash])
    have hmerged : r = mergeKeyRow (buildPeerApiKey a) b := Option.some.inj (hr.symm.trans hrow)
    rw [hmerged, mergeKeyRow_settable h] at hsame
    have hcolumns : (a.withKept b.kept).settable.kept = a.settable.kept := by rw [hsame]
    exact hcolumns
  · intro hkept sender table hnodup ha hb
    have hrows : ((sender.map buildPeerApiKey).map (·.keyHash)).Nodup := by
      rw [List.map_map]
      exact hnodup
    refine ⟨_, findKeyRow_applyKeyRows hrows (List.mem_map_of_mem ha) hb, ?_⟩
    rw [mergeKeyRow_settable h, hkept, KeyRow.withKept_kept]

/-! ## Providers -/

/-- A row with the columns the sync does not know. -/
structure ProviderRow extends Provider where
  memoryDisabled : Bool := false
  costClass : Option String := none
  usageTrackingEnabled : Option Bool := some false
  usageSessionWindowSec : Option Int := none
  usageWeeklyResetDow : Option Int := none
  usageWeeklyResetHour : Option Int := none
  usageSessionLimitTokens : Option Int := none
  usageWeeklyLimitTokens : Option Int := none
  usageRotationThresholdPct : Option Int := none
  anthropicSessionCookies : Option String := none
  codexSessionCookies : Option String := none
  deriving DecidableEq

def mergeProviderColumns (clk : FlushClock) (r : PeerProvider) (existing : ProviderRow) :
    ProviderRow :=
  { existing with toProvider := mergeProvider clk r existing.toProvider }

def insertProviderRow (clk : FlushClock) (r : PeerProvider) : Option ProviderRow :=
  (insertProvider clk r).map fun p => { toProvider := p }

def applyProviderRow (clk : FlushClock) (table : List ProviderRow) (r : PeerProvider) :
    List ProviderRow :=
  Table.upsert [fun p => p.id == r.id, fun p => p.name == r.name] (mergeProviderColumns clk r)
    (insertProviderRow clk r) table

def applyProviderRows (clk : FlushClock) (table : List ProviderRow) (rows : List PeerProvider) :
    List ProviderRow :=
  rows.foldl (applyProviderRow clk) table

/-- The columns the update branch does not take, the cookies apart. -/
structure KeptProviderColumns where
  oauthAccountStrategy : Option String
  memoryDisabled : Bool
  costClass : Option String
  usageTrackingEnabled : Option Bool
  usageSessionWindowSec : Option Int
  usageWeeklyResetDow : Option Int
  usageWeeklyResetHour : Option Int
  usageSessionLimitTokens : Option Int
  usageWeeklyLimitTokens : Option Int
  usageRotationThresholdPct : Option Int
  deriving DecidableEq

def ProviderRow.kept (p : ProviderRow) : KeptProviderColumns where
  oauthAccountStrategy := p.oauthAccountStrategy
  memoryDisabled := p.memoryDisabled
  costClass := p.costClass
  usageTrackingEnabled := p.usageTrackingEnabled
  usageSessionWindowSec := p.usageSessionWindowSec
  usageWeeklyResetDow := p.usageWeeklyResetDow
  usageWeeklyResetHour := p.usageWeeklyResetHour
  usageSessionLimitTokens := p.usageSessionLimitTokens
  usageWeeklyLimitTokens := p.usageWeeklyLimitTokens
  usageRotationThresholdPct := p.usageRotationThresholdPct

def ProviderRow.withKept (p : ProviderRow) (v : KeptProviderColumns) : ProviderRow :=
  { p with
    oauthAccountStrategy := v.oauthAccountStrategy
    memoryDisabled := v.memoryDisabled
    costClass := v.costClass
    usageTrackingEnabled := v.usageTrackingEnabled
    usageSessionWindowSec := v.usageSessionWindowSec
    usageWeeklyResetDow := v.usageWeeklyResetDow
    usageWeeklyResetHour := v.usageWeeklyResetHour
    usageSessionLimitTokens := v.usageSessionLimitTokens
    usageWeeklyLimitTokens := v.usageWeeklyLimitTokens
    usageRotationThresholdPct := v.usageRotationThresholdPct }

/-- The row with the cookies and the columns no operator sets blanked. -/
def ProviderRow.settable (p : ProviderRow) : ProviderRow :=
  { p with
    createdAt := 0
    updatedAt := none
    anthropicSessionCookies := none
    codexSessionCookies := none }

@[simp] theorem ProviderRow.kept_withKept (p : ProviderRow) (v : KeptProviderColumns) :
    (p.withKept v).kept = v := rfl

@[simp] theorem ProviderRow.withKept_kept (p : ProviderRow) : p.withKept p.kept = p := rfl

@[simp] theorem ProviderRow.kept_settable (p : ProviderRow) : p.settable.kept = p.kept := rfl

/-- `b` is an earlier version of the live row `a`. -/
structure ProviderRow.Precedes (b a : ProviderRow) : Prop where
  id : b.id = a.id
  live : b.deletedAt = none
  stillLive : a.deletedAt = none
  older : ∃ s t, b.lastUserEditAt = some s ∧ a.lastUserEditAt = some t ∧ s < t

/-- **An accepted provider row**: the sender's, but for the columns that are kept. -/
theorem mergeProviderColumns_settable (clk : FlushClock) {b a : ProviderRow} (h : b.Precedes a) :
    (mergeProviderColumns clk (buildPeerProvider a.toProvider) b).settable =
      (a.withKept b.kept).settable := by
  obtain ⟨s, t, hs, ht, hlt⟩ := h.older
  have hstamp : ((buildPeerProvider a.toProvider).lastUserEditAt.orElse fun _ =>
      b.lastUserEditAt) = some t := by
    rw [show (buildPeerProvider a.toProvider).lastUserEditAt = some t from ht]
    rfl
  have hrow : mergeProviderRow (buildPeerProvider a.toProvider) b.toProvider =
      takeFields (buildPeerProvider a.toProvider) b.toProvider := by
    have haccept : acceptsEdit (buildPeerProvider a.toProvider) b.toProvider = true := by
      unfold acceptsEdit
      rw [show (buildPeerProvider a.toProvider).lastUserEditAt = some t from ht, hs]
      dsimp only
      rw [if_pos (Int.ne_of_gt hlt)]
      exact decide_eq_true hlt
    unfold mergeProviderRow deletionOutranks
    rw [show (buildPeerProvider a.toProvider).deletedAt = none from h.stillLive, h.live, haccept]
    rfl
  have hflush : (mergeProvider clk (buildPeerProvider a.toProvider) b.toProvider).lastUserEditAt =
      some t := by
    have hother : (takeFields (buildPeerProvider a.toProvider) b.toProvider).lastUserEditAt ≠
        b.lastUserEditAt := by
      show ((buildPeerProvider a.toProvider).lastUserEditAt.orElse fun _ => b.lastUserEditAt) ≠ _
      rw [hstamp, hs]
      exact fun heq => Int.ne_of_gt hlt (Option.some.inj heq)
    unfold mergeProvider flush
    rw [hrow, if_neg fun heq => hother (congrArg (·.lastUserEditAt) heq)]
    dsimp only
    rw [if_pos hother]
    exact hstamp
  obtain ⟨u, e, hclock⟩ := flush_cases clk b.toProvider
    (mergeProviderRow (buildPeerProvider a.toProvider) b.toProvider)
  have hmerged : mergeProvider clk (buildPeerProvider a.toProvider) b.toProvider =
      { takeFields (buildPeerProvider a.toProvider) b.toProvider with
        updatedAt := u, lastUserEditAt := some t } := by
    have hstamped := hflush
    unfold mergeProvider at hstamped ⊢
    rw [hclock] at hstamped ⊢
    rw [hrow]
    dsimp only at hstamped
    rw [hstamped]
  unfold mergeProviderColumns
  rw [hmerged]
  show ({ (a.withKept b.kept).settable with
    id := b.id
    lastUserEditAt := some t
    deletedAt := b.deletedAt } : ProviderRow) = _
  rw [h.id, h.live, ← h.stillLive, ← ht]
  rfl

theorem mergeProviderColumns_id (clk : FlushClock) (r : PeerProvider) (e : ProviderRow) :
    (mergeProviderColumns clk r e).id = e.id := mergeProvider_id clk r e.toProvider

theorem insertProviderRow_id {clk : FlushClock} {r : PeerProvider} {p : ProviderRow}
    (h : insertProviderRow clk r = some p) : p.id = r.id := by
  unfold insertProviderRow insertProvider at h
  split at h
  · cases h
  · rw [← Option.some.inj h]

def findProviderRow (id : String) (table : List ProviderRow) : Option ProviderRow :=
  table.find? fun p => p.id == id

theorem findProviderRow_some {id : String} {table : List ProviderRow} {p : ProviderRow}
    (h : findProviderRow id table = some p) : p ∈ table ∧ p.id = id := by
  unfold findProviderRow at h
  exact ⟨List.mem_of_find?_eq_some h, by simpa using List.find?_some h⟩

/-- The table has a row of the id. -/
def Known (table : List ProviderRow) (id : String) : Prop := id ∈ table.map (·.id)

section

variable {clk : FlushClock} {id first second : String} {table : List ProviderRow} {r : PeerProvider}

/-- The row of the id goes by one of two names. -/
def Named (table : List ProviderRow) (id first second : String) : Prop :=
  ∀ p ∈ table, p.id = id → p.name = first ∨ p.name = second

/-- A peer row is found by its own id, or goes by neither name. -/
def Apart (table : List ProviderRow) (first second : String) (r : PeerProvider) : Prop :=
  Known table r.id ∨ r.name ≠ first ∧ r.name ≠ second

theorem applyProviderRow_other (hne : r.id ≠ id) (hnamed : Named table id first second)
    (hapart : Apart table first second r) :
    (∃ key, (∀ p ∈ table, key p = true → p.id ≠ id) ∧
      applyProviderRow clk table r =
        Table.updateFirst key (mergeProviderColumns clk r) table) ∨
      applyProviderRow clk table r = table ++ (insertProviderRow clk r).toList := by
  unfold applyProviderRow
  by_cases hknown : table.any (fun p => p.id == r.id) = true
  · refine Or.inl ⟨fun p => p.id == r.id, fun p _ hp => ?_, Table.upsert_of_any hknown⟩
    rw [eq_of_beq hp]
    exact hne
  · have hfar : r.name ≠ first ∧ r.name ≠ second := by
      refine hapart.resolve_left fun hmem => hknown ?_
      obtain ⟨p, hp, hid⟩ := List.mem_map.mp hmem
      exact List.any_eq_true.mpr ⟨p, hp, beq_iff_eq.mpr hid⟩
    unfold Table.upsert
    rw [List.find?_cons_of_neg (by exact hknown)]
    by_cases hname : table.any (fun p => p.name == r.name) = true
    · rw [List.find?_cons_of_pos (by exact hname)]
      refine Or.inl ⟨fun p => p.name == r.name, fun p hp hsame hid => ?_, rfl⟩
      rcases hnamed p hp hid with hfirst | hsecond
      · exact hfar.1 ((eq_of_beq hsame).symm.trans hfirst)
      · exact hfar.2 ((eq_of_beq hsame).symm.trans hsecond)
    · rw [List.find?_cons_of_neg (by exact hname)]
      exact Or.inr rfl

theorem findProviderRow_other (hne : r.id ≠ id) (hnamed : Named table id first second)
    (hapart : Apart table first second r) :
    findProviderRow id (applyProviderRow clk table r) = findProviderRow id table := by
  unfold findProviderRow
  rcases @applyProviderRow_other clk id first second table r hne hnamed hapart with
    ⟨key, hkey, hrow⟩ | hrow
  · rw [hrow]
    refine Table.find?_updateFirst_other (fun p => by rw [mergeProviderColumns_id]) fun p hp hmatch => ?_
    exact beq_eq_false_iff_ne.mpr (hkey p hp hmatch)
  · rw [hrow]
    refine Table.find?_append_other fun p hp => ?_
    rw [insertProviderRow_id hp]
    exact beq_eq_false_iff_ne.mpr hne

theorem named_other (hne : r.id ≠ id) (hnamed : Named table id first second)
    (hapart : Apart table first second r) :
    Named (applyProviderRow clk table r) id first second := by
  intro p hp hid
  rcases @applyProviderRow_other clk id first second table r hne hnamed hapart with
    ⟨key, hkey, hrow⟩ | hrow
  · rw [hrow] at hp
    rcases Table.mem_updateFirst hp with hold | ⟨e, he, heq⟩
    · exact hnamed p hold hid
    · rw [heq, mergeProviderColumns_id] at hid
      exact absurd hid (hkey e (List.mem_of_find?_eq_some he) (List.find?_some he))
  · rw [hrow] at hp
    rcases List.mem_append.mp hp with hold | hnew
    · exact hnamed p hold hid
    · rw [insertProviderRow_id (Option.mem_toList.mp hnew)] at hid
      exact absurd hid hne

theorem known_applyProviderRow {other : String} (h : Known table other) :
    Known (applyProviderRow clk table r) other := by
  unfold Known applyProviderRow Table.upsert at *
  split
  · next key _ =>
    rw [Table.map_updateFirst_eq_iff.mpr fun p _ => mergeProviderColumns_id clk r p]
    exact h
  · rw [List.map_append]
    exact List.mem_append_left _ h

theorem findProviderRow_others {rows : List PeerProvider} (hne : ∀ r ∈ rows, r.id ≠ id)
    (hnamed : Named table id first second) (hapart : ∀ r ∈ rows, Apart table first second r) :
    findProviderRow id (applyProviderRows clk table rows) = findProviderRow id table := by
  induction rows generalizing table with
  | nil => rfl
  | cons r rows ih =>
    obtain ⟨hr, hrest⟩ := List.forall_mem_cons.mp hne
    obtain ⟨hfirst, hapart⟩ := List.forall_mem_cons.mp hapart
    refine (ih hrest (named_other hr hnamed hfirst) fun q hq => ?_).trans
      (findProviderRow_other hr hnamed hfirst)
    exact (hapart q hq).imp_left known_applyProviderRow

/-- **The row after a whole payload**: merged with its own peer row. -/
theorem findProviderRow_applyProviderRows {rows : List PeerProvider} {b : ProviderRow}
    (hnodup : (rows.map (·.id)).Nodup) (hr : r ∈ rows) (hb : findProviderRow r.id table = some b)
    (hnamed : Named table r.id first second) (htakes : (mergeProviderColumns clk r b).name = second)
    (hapart : ∀ q ∈ rows, q.id ≠ r.id → Apart table first second q) :
    findProviderRow r.id (applyProviderRows clk table rows) =
      some (mergeProviderColumns clk r b) := by
  induction rows generalizing table with
  | nil => cases hr
  | cons q rows ih =>
    rw [List.map_cons, List.nodup_cons] at hnodup
    obtain ⟨hfirst, hnodup⟩ := hnodup
    rcases List.mem_cons.mp hr with heq | hrest
    · rw [← heq] at hfirst ⊢
      have hothers : ∀ other ∈ rows, other.id ≠ r.id := fun other hother hsame =>
        hfirst (hsame ▸ List.mem_map_of_mem hother)
      have hfound : findProviderRow r.id (applyProviderRow clk table r) =
          some (mergeProviderColumns clk r b) :=
        Table.find?_upsert_of_find? (fun p => by rw [mergeProviderColumns_id]) hb
      have hnamed' : Named (applyProviderRow clk table r) r.id first second := by
        intro p hp hid
        rcases Table.mem_upsert hp with hold | ⟨e, he, heq⟩ | ⟨hnone, -⟩
        · exact hnamed p hold hid
        · have hany : table.any (fun p => p.id == r.id) = true :=
            List.any_eq_true.mpr ⟨b, (findProviderRow_some hb).1,
              beq_iff_eq.mpr (findProviderRow_some hb).2⟩
          unfold Table.target at he
          rw [List.find?_cons_of_pos (by exact hany)] at he
          rw [heq, ← Option.some.inj (hb.symm.trans he)]
          exact Or.inr htakes
        · have hmiss := Table.target_eq_none_iff.mp hnone _ List.mem_cons_self b
            (findProviderRow_some hb).1
          exact absurd (findProviderRow_some hb).2 (beq_eq_false_iff_ne.mp hmiss)
      show findProviderRow r.id (applyProviderRows clk (applyProviderRow clk table r) rows) = _
      rw [findProviderRow_others hothers hnamed' fun other hother =>
        (hapart other (List.mem_cons_of_mem q hother) (hothers other hother)).imp_left
          known_applyProviderRow]
      exact hfound
    · have hne : q.id ≠ r.id := fun hsame => hfirst (hsame ▸ List.mem_map_of_mem hrest)
      have hq := hapart q List.mem_cons_self hne
      show findProviderRow r.id (applyProviderRows clk (applyProviderRow clk table q) rows) = _
      refine ih hnodup hrest ?_ (named_other hne hnamed hq) fun other hother hother' =>
        (hapart other (List.mem_cons_of_mem q hother) hother').imp_left known_applyProviderRow
      rw [findProviderRow_other hne hnamed hq]
      exact hb

end

/-- From any sender that holds `a` to any peer that holds `b` for it, the payload makes the peer's
row equal in what an operator sets. Ids are primary keys; and a provider the peer does not know by
its id goes by another name than this one, for a look-up falls back on the name. -/
def ProviderReplicates (b a : ProviderRow) : Prop :=
  ∀ clk (sender table : List ProviderRow), (sender.map (·.id)).Nodup → (table.map (·.id)).Nodup →
    a ∈ sender → findProviderRow a.id table = some b →
      (∀ q ∈ sender, q.id ≠ a.id → Known table q.id ∨ q.name ≠ b.name ∧ q.name ≠ a.name) →
        ∃ r, findProviderRow a.id (applyProviderRows clk table
          (sender.map fun q => buildPeerProvider q.toProvider)) = some r ∧
            r.settable = a.settable

theorem eq_of_findProviderRow {id : String} {table : List ProviderRow} {b p : ProviderRow}
    (hnodup : (table.map (·.id)).Nodup) (hb : findProviderRow id table = some b) (hp : p ∈ table)
    (hid : p.id = id) : p = b := by
  obtain ⟨hmem, hsame⟩ := findProviderRow_some hb
  exact List.inj_on_of_nodup_map hnodup hp hmem (hid.trans hsame.symm)

theorem findProviderRow_payload {clk : FlushClock} {sender table : List ProviderRow}
    {b a : ProviderRow} (h : b.Precedes a) (hsender : (sender.map (·.id)).Nodup)
    (htable : (table.map (·.id)).Nodup) (ha : a ∈ sender) (hb : findProviderRow a.id table = some b)
    (hapart : ∀ q ∈ sender, q.id ≠ a.id →
      Known table q.id ∨ q.name ≠ b.name ∧ q.name ≠ a.name) :
    findProviderRow a.id (applyProviderRows clk table
        (sender.map fun q => buildPeerProvider q.toProvider)) =
      some (mergeProviderColumns clk (buildPeerProvider a.toProvider) b) := by
  have hname : (mergeProviderColumns clk (buildPeerProvider a.toProvider) b).settable.name =
      (a.withKept b.kept).settable.name := by rw [mergeProviderColumns_settable clk h]
  refine @findProviderRow_applyProviderRows clk b.name a.name table
    (buildPeerProvider a.toProvider) _ b ?_ (List.mem_map.mpr ⟨a, ha, rfl⟩) hb ?_ hname ?_
  · rw [List.map_map]
    exact hsender
  · intro p hp hid
    rw [eq_of_findProviderRow htable hb hp hid]
    exact Or.inl rfl
  · intro q hq hne
    obtain ⟨row, hrow, heq⟩ := List.mem_map.mp hq
    rw [← heq] at hne ⊢
    exact hapart row hrow hne

theorem providerReplicates_iff {b a : ProviderRow} (h : b.Precedes a) :
    ProviderReplicates b a ↔ b.kept = a.kept := by
  constructor
  · intro hreplicates
    have hb : findProviderRow a.id [b] = some b := by simp [findProviderRow, h.id]
    have halone : ∀ q ∈ [a], q.id ≠ a.id → Known [b] q.id ∨ q.name ≠ b.name ∧ q.name ≠ a.name := by
      intro q hq hne
      rw [List.mem_singleton.mp hq] at hne
      exact absurd rfl hne
    obtain ⟨r, hr, hsame⟩ := hreplicates ⟨0, 0⟩ [a] [b] (by simp) (by simp) List.mem_cons_self hb
      halone
    have hrow := @findProviderRow_payload ⟨0, 0⟩ [a] [b] b a h (by simp) (by simp)
      List.mem_cons_self hb halone
    rw [← Option.some.inj (hrow.symm.trans hr), mergeProviderColumns_settable _ h] at hsame
    have hcolumns : (a.withKept b.kept).settable.kept = a.settable.kept := by rw [hsame]
    exact hcolumns
  · intro hkept clk sender table hsender htable ha hb hapart
    refine ⟨_, findProviderRow_payload h hsender htable ha hb hapart, ?_⟩
    rw [mergeProviderColumns_settable clk h, hkept, ProviderRow.withKept_kept]

/-! ## Edits -/

/-- A `PATCH` of a live row makes a later version of it, when the clock has moved. -/
theorem updateKey_precedes {env : KeyEnv} {b a : KeyRow} {body : KeyUpdate} {changed : Bool}
    {s : EditStamp} (h : updateKey env b body = .ok (a, changed)) (hlive : b.deletedAt = none)
    (hs : b.lastUserEditAt = some s) (hlt : s < env.now) : b.Precedes a := by
  obtain ⟨hstamp, hhash, hdeleted⟩ := updateKey_stamped h
  exact ⟨hhash.symm, hlive, hdeleted.trans hlive, s, env.now, hs, hstamp, hlt⟩

/-- A key whose caller may set its own tool list, last edited at 1. -/
def scoutKey : KeyRow :=
  { id := "k1", name := "scout", keyHash := "h1", keyPrefix := "llmp-abc"
    selfEditPermissions := some ["mcp_tools_allow"], lastUserEditAt := some 1 }

def openaiProvider : ProviderRow :=
  { id := "p1", name := "main", providerType := "openai", lastUserEditAt := some 1 }

/-- The key after a cap is set, and the provider after its priority is. -/
def cappedKey : KeyRow := { scoutKey with spendingCapUsd := some 5, lastUserEditAt := some 2 }

def raisedProvider : ProviderRow := { openaiProvider with priority := 1, lastUserEditAt := some 2 }

end LlmProxy.Cluster
