import Mathlib
import LlmProxy.Cluster.ApiKeys
import LlmProxy.Cluster.Providers
import LlmProxy.Cluster.Users

/-! # `apply_sync`

The receiving end of a peer push (`app/cluster/sync.py`), for the three account tables and
the peer-cost map. A payload names its sender and carries any subset of the sections: the
full push sends them all, the runs push of `app/runs/replication.py` sends none of these
three. A section that is absent is an empty list (`payload.get("…", [])`).
-/

namespace LlmProxy.Cluster

open LlmProxy.Providers

structure SyncPayload where
  sourceNode : Option String := none
  users : List PeerUser := []
  apiKeys : List PeerApiKey := []
  providers : List PeerProvider := []
  deriving DecidableEq

/-- `payload.get("source_node", "unknown")`. -/
def SyncPayload.source (payload : SyncPayload) : String := payload.sourceNode.getD "unknown"

/-- What a node holds: its tables, and `_peer_key_costs`, the costs last computed for each
sender. -/
structure SyncNode where
  users : List User := []
  apiKeys : List ApiKey := []
  providers : List Provider := []
  peerKeyCosts : Dict String (Dict String Rat) := Dict.empty

def applySync (clk : FlushClock) (node : SyncNode) (payload : SyncPayload) : SyncNode :=
  let keys := applyApiKeys node.apiKeys payload.apiKeys
  { users := applyUsers node.users payload.users
    apiKeys := keys.1
    providers := applyProviders clk node.providers payload.providers
    peerKeyCosts := node.peerKeyCosts.set payload.source keys.2 }

/-- `get_peer_total_cost`. -/
def getPeerTotalCost (node : SyncNode) (keyId : String) : Rat :=
  (node.peerKeyCosts.items.map fun p => (p.2.get? keyId).getD 0).sum

/-- What `get_peer_total_cost` counts for one sender and key. -/
def countedCost (node : SyncNode) (peer keyId : String) : Rat :=
  ((node.peerKeyCosts.get? peer).bind (·.get? keyId)).getD 0

/-- The spending-cap test of `verify_api_key`: a missing or negative cap never blocks. -/
def spendingCapReached (node : SyncNode) (key : ApiKey) : Bool :=
  match key.spendingCapUsd with
  | none => false
  | some cap => 0 ≤ cap && cap ≤ key.totalCostUsd.getD 0 + getPeerTotalCost node key.id

theorem countedCost_of_mem {node : SyncNode} {p : String × Dict String Rat}
    (h : p ∈ node.peerKeyCosts.items) (keyId : String) :
    countedCost node p.1 keyId = (p.2.get? keyId).getD 0 := by
  unfold countedCost
  rw [Dict.get?_eq_some_of_mem h]
  rfl

theorem getPeerTotalCost_eq (node : SyncNode) (keyId : String) :
    getPeerTotalCost node keyId =
      ((node.peerKeyCosts.items.map Prod.fst).map fun p => countedCost node p keyId).sum := by
  unfold getPeerTotalCost
  rw [List.map_map]
  refine congrArg List.sum (List.map_congr_left fun p hp => ?_)
  exact (countedCost_of_mem hp keyId).symm

end LlmProxy.Cluster
