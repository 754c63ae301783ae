import LlmProxy.Lib.Trace
import LlmProxy.Cluster.Sync

/-! # What the spending cap sees of the peers

The global spending cap adds to a key's own cost what each peer last reported for it. The
report travels in the `api_keys` rows of a push, and `apply_sync` keeps it in a map per
sender. Two things lose a report: the map of a sender is *replaced* by the one computed from
the current payload, so a key the payload does not mention is forgotten, and a row that
leaves the merge loop early (a tombstone, a lost edit-stamp comparison, a tie) has no entry.

The state below carries, beside the node, every report the peers have sent; the
specification is that the node counts the last one.

> `peer_cost_last_reported`: in every sequence of pushes in which each payload still mentions
> every key its sender has reported before, and the last row for each key reaches the end of
> the merge loop, the node counts for every sender and key exactly the last report, and the
> spending cap adds those.

`peer_cost_forgotten_by_runs_push` is the shortest failure: a full push followed by a runs
push of the same peer.
-/

namespace LlmProxy.Cluster

open LlmProxy.Providers

structure Report where
  peer : String
  keyId : String
  cost : Rat
  deriving DecidableEq

/-- A node with the reports it has been sent, newest first. -/
structure CostState where
  node : SyncNode
  reports : List Report := []

def SyncPayload.reports (payload : SyncPayload) : List Report :=
  ((payload.apiKeys.filterMap PeerApiKey.reports).map
    fun r => ⟨payload.source, r.1, r.2⟩).reverse

def costStep (clk : FlushClock) (s : CostState) (payload : SyncPayload) : CostState :=
  { node := applySync clk s.node payload, reports := payload.reports ++ s.reports }

/-- The cost in the most recent row for `keyId` that `peer` sent. -/
def lastReported (s : CostState) (peer keyId : String) : Option Rat :=
  (s.reports.find? fun r => r.peer = peer ∧ r.keyId = keyId).map Report.cost

/-- The cost the row reports for a key, if it is about that key. -/
def PeerApiKey.costFor (k : PeerApiKey) (keyId : String) : Option Rat :=
  match k.reports with
  | some r => if r.1 = keyId then some r.2 else none
  | none => none

def PeerApiKey.mentions (k : PeerApiKey) (keyId : String) : Bool := (k.costFor keyId).isSome

/-- Every row that is the payload's last one for its key reaches the end of the loop body,
in the table the rows before it leave. -/
def LastRowsKept : List ApiKey → List PeerApiKey → Prop
  | _, [] => True
  | table, k :: rows =>
    (∀ r, k.reports = some r → rows.any (·.mentions r.1) = false → reachesEnd table k = true) ∧
      LastRowsKept (applyApiKey table k) rows

/-- A payload that forgets nothing: it mentions every key its sender has reported, and the
merge skips no last row. -/
structure Complete (s : CostState) (payload : SyncPayload) : Prop where
  mentions : ∀ keyId, (lastReported s payload.source keyId).isSome = true →
    payload.apiKeys.any (·.mentions keyId) = true
  kept : LastRowsKept s.node.apiKeys payload.apiKeys

/-! ## The merge loop -/

/-- The last report for a key among the rows of a payload. -/
def lastRow (keyId : String) : List PeerApiKey → Option Rat
  | [] => none
  | k :: rows => (lastRow keyId rows).or (k.costFor keyId)

theorem lastRow_isSome (keyId : String) (rows : List PeerApiKey) :
    (lastRow keyId rows).isSome = rows.any (·.mentions keyId) := by
  induction rows with
  | nil => rfl
  | cons k rows ih => simp [lastRow, ih, PeerApiKey.mentions, Bool.or_comm]

theorem applyApiKeysFrom_cost {table : List ApiKey} {rows : List PeerApiKey}
    (h : LastRowsKept table rows) (costs : Dict String Rat) (keyId : String) :
    (applyApiKeysFrom table costs rows).2.get? keyId =
      (lastRow keyId rows).or (costs.get? keyId) := by
  induction rows generalizing table costs with
  | nil => rfl
  | cons k rows ih =>
    simp only [applyApiKeysFrom, lastRow]
    rw [ih h.2]
    cases hl : lastRow keyId rows with
    | some c => rfl
    | none =>
      have hlast : rows.any (·.mentions keyId) = false := by rw [← lastRow_isSome, hl]; rfl
      unfold recordCost PeerApiKey.costFor
      cases hr : k.reports with
      | none => simp
      | some r =>
        by_cases hk : r.1 = keyId
        · have hend := h.1 r hr (by rw [hk]; exact hlast)
          simp [hend, hk]
        · -- a report for another key does not touch this one
          have hget := Dict.get?_set_of_ne costs r.2 (Ne.symm hk)
          by_cases hend : reachesEnd table k = true <;> simp [hend, hk, hget]

theorem reports_find (payload : SyncPayload) (keyId : String) :
    (payload.reports.find? fun r => r.peer = payload.source ∧ r.keyId = keyId).map Report.cost =
      lastRow keyId payload.apiKeys := by
  unfold SyncPayload.reports
  generalize payload.source = src
  induction payload.apiKeys with
  | nil => rfl
  | cons k rows ih =>
    rw [lastRow, ← ih, PeerApiKey.costFor]
    cases hr : k.reports with
    | none => simp [hr]
    | some r =>
      simp only [List.filterMap_cons, hr, List.map_cons, List.reverse_cons, List.find?_append,
        Option.map_or]
      by_cases hk : r.1 = keyId <;> simp [hk]

theorem reports_find_other (payload : SyncPayload) {peer : String} (h : peer ≠ payload.source)
    (keyId : String) :
    (payload.reports.find? fun r => r.peer = peer ∧ r.keyId = keyId) = none := by
  rw [List.find?_eq_none]
  intro r hr
  simp only [SyncPayload.reports, List.mem_reverse, List.mem_map] at hr
  obtain ⟨q, -, rfl⟩ := hr
  simp [h.symm]

/-! ## The invariant -/

/-- The node's map is exactly the last reports. -/
def CountsLast (s : CostState) : Prop :=
  ∀ peer keyId, (s.node.peerKeyCosts.get? peer).bind (·.get? keyId) = lastReported s peer keyId

/-- **One push** that forgets nothing keeps the map exact. -/
theorem costStep_countsLast {clk : FlushClock} {s : CostState} {payload : SyncPayload}
    (h : CountsLast s) (hc : Complete s payload) : CountsLast (costStep clk s payload) := by
  intro peer keyId
  unfold lastReported
  simp only [costStep, applySync, Dict.get?_set, List.find?_append, Option.map_or]
  by_cases hp : peer = payload.source
  · subst hp
    rw [if_pos rfl, reports_find, Option.bind_some, applyApiKeys,
      applyApiKeysFrom_cost hc.kept, Dict.get?_empty]
    cases hl : lastRow keyId payload.apiKeys with
    | some c => rfl
    | none =>
      -- not mentioned in this payload, so never reported before
      cases hold : lastReported s payload.source keyId with
      | none => exact hold.symm
      | some c =>
        have hm := hc.mentions keyId (by rw [hold]; rfl)
        rw [← lastRow_isSome, hl] at hm
        cases hm
  · rw [if_neg hp, reports_find_other payload hp]
    exact h peer keyId

/-! ## Main theorem -/

/-- **Peer spend is never forgotten** by pushes that are complete: the node counts the last
report of every sender for every key, and the spending cap adds the key's own cost and
those. -/
theorem peer_cost_last_reported (clk : FlushClock) (node : SyncNode)
    (hfresh : node.peerKeyCosts = Dict.empty) (payloads : List SyncPayload)
    (hc : Trace.Along (costStep clk) Complete ⟨node, []⟩ payloads) :
    let s := Trace.run (costStep clk) ⟨node, []⟩ payloads
    (∀ peer keyId cost, lastReported s peer keyId = some cost →
        countedCost s.node peer keyId = cost) ∧
      (∀ key cap, key.spendingCapUsd = some cap → 0 ≤ cap →
        (spendingCapReached s.node key = true ↔
          cap ≤ key.totalCostUsd.getD 0 + ((s.node.peerKeyCosts.items.map Prod.fst).map
            fun peer => (lastReported s peer key.id).getD 0).sum)) := by
  intro s
  have hlast : CountsLast s := by
    refine Trace.run_inv_of_along (I := CountsLast) (fun _ _ => costStep_countsLast) ?_ hc
    intro peer keyId
    rw [hfresh]
    rfl
  have hcount : ∀ peer keyId, countedCost s.node peer keyId =
      (lastReported s peer keyId).getD 0 := fun peer keyId =>
    congrArg (·.getD 0) (hlast peer keyId)
  refine ⟨fun peer keyId cost hr => ?_, fun key cap hcap hpos => ?_⟩
  · rw [hcount, hr]
    rfl
  · unfold spendingCapReached
    rw [hcap, getPeerTotalCost_eq]
    simp only [hcount, Bool.and_eq_true, decide_eq_true_eq]
    exact ⟨fun h => h.2, fun h => ⟨hpos, h⟩⟩

/-- A key row as `www2` pushes it. -/
def pushedKey (cost : Rat) (edit : EditStamp) : PeerApiKey :=
  { id := "k1", name := "app", keyHash := "h1", keyPrefix := "sk-app", totalCostUsd := some cost,
    lastUserEditAt := some edit }

/-- A full push of `www2` with that one key. -/
def fullPush (cost : Rat) (edit : EditStamp) : SyncPayload :=
  { sourceNode := some "www2", apiKeys := [pushedKey cost edit] }

def epoch : FlushClock := ⟨0, 0⟩

/-- Two full pushes, the second after an edit of the key: the second report is counted. -/
theorem peer_cost_last_reported_two_pushes :
    countedCost (Trace.run (costStep epoch) ⟨{}, []⟩ [fullPush 5 1, fullPush 7 2]).node
      "www2" "k1" = 7 := by
  refine (peer_cost_last_reported epoch {} rfl [fullPush 5 1, fullPush 7 2]
    ⟨⟨?_, ?_⟩, ⟨?_, ?_⟩, trivial⟩).1 "www2" "k1" 7 (by decide)
  · intro keyId h
    cases h
  · exact ⟨fun _ _ _ => by decide, trivial⟩
  · intro keyId h
    by_cases hk : keyId = "k1"
    · subst hk
      decide
    · have hne : ¬ "k1" = keyId := fun h => hk h.symm
      simp [lastReported, costStep, fullPush, pushedKey, SyncPayload.reports, SyncPayload.source,
        PeerApiKey.reports, hne] at h
  · exact ⟨fun _ _ _ => by decide, trivial⟩

/-- **The forgotten report.** `www2` reports a cost of 5, then pushes a run's state, a
payload without an `api_keys` section: 5 is still the last report, and 0 is counted. -/
theorem peer_cost_forgotten_by_runs_push :
    let s := Trace.run (costStep epoch) ⟨{}, []⟩
      [fullPush 5 1, { sourceNode := some "www2" }]
    lastReported s "www2" "k1" = some 5 ∧ countedCost s.node "www2" "k1" = 0 := by
  decide

end LlmProxy.Cluster
