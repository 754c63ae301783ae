import LlmProxy.Lib.PyStr
import LlmProxy.Lib.Table
import LlmProxy.Cluster.Stamp
import LlmProxy.Providers.Admin

/-! # The peers of a node

The `cluster_peers` table: the nodes a node pushes to, itself never among them.
`add_cluster_peer` (`app/api/cluster.py`) edits it, a removal being a tombstone, and
`_apply_cluster_peers` (`app/cluster/sync_handlers.py`) merges a sender's rows into it. A row about
the receiving node is skipped.

> `find?_applyClusterPeers`: a row after a payload.
-/

namespace LlmProxy.Cluster

open LlmProxy.Providers (HttpError)

structure ClusterPeer where
  id : String
  url : String
  name : Option String := none
  addedAt : Option Stamp := none
  removedAt : Option Stamp := none
  lastUserEditAt : Option EditStamp := none
  deriving DecidableEq, Repr

def ClusterPeer.live (p : ClusterPeer) : Bool := p.removedAt.isNone

/-- A row of a payload. A text that is missing reads as empty; `name` may be left out. -/
structure PeerClusterPeer where
  id : String
  url : String
  name : Option (Option String) := none
  addedAt : Option Stamp := none
  removedAt : Option Stamp := none
  lastUserEditAt : Option EditStamp := none
  deriving DecidableEq, Repr

/-- The table; `id` is its primary key. -/
structure PeerTable where
  rows : List ClusterPeer
  unique : (rows.map ClusterPeer.id).Nodup

def findPeer (pid : String) (table : PeerTable) : Option ClusterPeer :=
  table.rows.find? fun r => r.id == pid

/-! ## The admin endpoints -/

/-- `_PeerCreate`. -/
structure PeerCreate where
  id : String
  url : String
  name : Option String := none
  idLength : 1 ≤ id.length ∧ id.length ≤ 64
  urlLength : 1 ≤ url.length ∧ url.length ≤ 512

/-- The clocks and the setting an endpoint reads. -/
structure PeerEnv where
  utcnow : Stamp
  time : EditStamp
  debug : Bool := false
  deriving Repr

/-- A row under the edit of `add_cluster_peer`: back to life if it was removed. -/
def PeerCreate.restore (body : PeerCreate) (env : PeerEnv) (existing : ClusterPeer) : ClusterPeer :=
  { existing with
    url := body.url
    name := if body.name.isSome then body.name else existing.name
    removedAt := none
    lastUserEditAt := some env.time }

def PeerCreate.row (body : PeerCreate) (env : PeerEnv) : ClusterPeer :=
  { id := body.id
    url := body.url
    name := body.name
    addedAt := some env.utcnow
    lastUserEditAt := some env.time }

theorem nodup_addClusterPeer (body : PeerCreate) (env : PeerEnv) (table : PeerTable) :
    ((Table.upsert [fun r => r.id == body.id] (body.restore env) (some (body.row env))
      table.rows).map ClusterPeer.id).Nodup :=
  @Table.nodup_upsert_key ClusterPeer PeerCreate String _ _ ClusterPeer.id (·.id)
    (fun body e => body.restore env e) (fun body => some (body.row env)) table.rows
    (fun _ _ => rfl) (fun _ _ h => by rw [← Option.some.inj h]; rfl) table.unique body

/-- `add_cluster_peer`, on the node `self`. -/
def addClusterPeer (self : String) (env : PeerEnv) (table : PeerTable) (body : PeerCreate) :
    Except HttpError PeerTable :=
  if body.id = self then .error ⟨400, "cannot add self as peer"⟩
  else if !PyStr.contains body.url "://" then
    .error ⟨400, "url must include scheme (http:// or https://)"⟩
  else if !PyStr.startsWith body.url "https://" && !env.debug then
    .error ⟨400, "cluster peer URLs must use https:// in production (cluster sync carries " ++
      "credentials). Set DEBUG=true to allow http:// for local development."⟩
  else
    .ok ⟨Table.upsert [fun r => r.id == body.id] (body.restore env) (some (body.row env)) table.rows,
      nodup_addClusterPeer body env table⟩

/-! ## The merge -/

/-- The peers section of `_build_sync_payload`. -/
def buildPeerClusterPeer (r : ClusterPeer) : PeerClusterPeer :=
  { id := r.id
    url := r.url
    name := some r.name
    addedAt := r.addedAt
    removedAt := r.removedAt
    lastUserEditAt := r.lastUserEditAt }

/-- The tombstone branch: the sender's removal is at least as new as ours. -/
def adoptsRemoval (r : PeerClusterPeer) (existing : ClusterPeer) : Bool :=
  match r.removedAt, existing.removedAt with
  | none, _ => false
  | some _, none => true
  | some p, some l => l ≤ p

/-- The edit stamps are both there, and the sender's is not newer. -/
def olderPeerEdit (r : PeerClusterPeer) (existing : ClusterPeer) : Bool :=
  match r.lastUserEditAt, existing.lastUserEditAt with
  | some p, some l => p ≤ l
  | _, _ => false

def mergeClusterPeer (r : PeerClusterPeer) (existing : ClusterPeer) : ClusterPeer :=
  if adoptsRemoval r existing then { existing with removedAt := r.removedAt }
  else if existing.removedAt.isSome && r.removedAt.isNone then existing
  else if olderPeerEdit r existing then existing
  else
    { existing with
      url := if r.url ≠ "" then r.url else existing.url
      name := fieldOr r.name existing.name
      lastUserEditAt := r.lastUserEditAt.orElse fun _ => existing.lastUserEditAt }

def insertClusterPeer (r : PeerClusterPeer) : Option ClusterPeer :=
  some
    { id := r.id
      url := r.url
      name := fieldGet r.name
      addedAt := r.addedAt
      removedAt := r.removedAt
      lastUserEditAt := r.lastUserEditAt }

/-- `not pid or pid == self_id`. -/
def skipsPeer (self : String) (r : PeerClusterPeer) : Bool := r.id == "" || r.id == self

/-- `_apply_cluster_peers`, on the node `self`. -/
def applyClusterPeers (self : String) (table : List ClusterPeer) (rows : List PeerClusterPeer) :
    List ClusterPeer :=
  rows.foldl (fun table r =>
    if skipsPeer self r then table
    else Table.upsert [fun e => e.id == r.id] (mergeClusterPeer r) (insertClusterPeer r) table) table

/-! ### What the merge does -/

theorem mergeClusterPeer_id (r : PeerClusterPeer) (e : ClusterPeer) :
    (mergeClusterPeer r e).id = e.id := by
  unfold mergeClusterPeer
  repeat' split
  all_goals rfl

theorem insertClusterPeer_id (r : PeerClusterPeer) (e : ClusterPeer)
    (h : insertClusterPeer r = some e) : e.id = r.id := by
  rw [← Option.some.inj h]

theorem applyClusterPeers_eq (self : String) (table : List ClusterPeer)
    (rows : List PeerClusterPeer) :
    applyClusterPeers self table rows =
      Table.mergeRows ClusterPeer.id PeerClusterPeer.id mergeClusterPeer insertClusterPeer table
        (rows.filter fun r => !skipsPeer self r) := by
  unfold applyClusterPeers Table.mergeRows
  rw [List.foldl_filter]
  refine congrArg (fun f => rows.foldl f table) ?_
  funext t r
  cases skipsPeer self r <;> rfl

theorem nodup_applyClusterPeers {self : String} {table : List ClusterPeer}
    (h : (table.map ClusterPeer.id).Nodup) (rows : List PeerClusterPeer) :
    ((applyClusterPeers self table rows).map ClusterPeer.id).Nodup := by
  rw [applyClusterPeers_eq]
  exact Table.nodup_mergeRows mergeClusterPeer_id insertClusterPeer_id h _

/-- **A row after a payload** of rows with different ids. -/
theorem find?_applyClusterPeers {self : String} {table : List ClusterPeer}
    {rows : List PeerClusterPeer} (h : (rows.map PeerClusterPeer.id).Nodup) (pid : String) :
    (applyClusterPeers self table rows).find? (fun r => r.id == pid) =
      Table.mergeRow mergeClusterPeer insertClusterPeer
        (if pid = "" ∨ pid = self then none else rows.find? fun r => r.id == pid)
        (table.find? fun r => r.id == pid) := by
  rw [applyClusterPeers_eq, Table.find?_mergeRows mergeClusterPeer_id insertClusterPeer_id
    (h.sublist (List.filter_sublist.map _)), List.find?_filter]
  refine congrArg (fun b => Table.mergeRow _ _ b _) ?_
  by_cases hskip : pid = "" ∨ pid = self
  · rw [if_pos hskip]
    refine List.find?_eq_none.mpr fun r _ hr => ?_
    obtain ⟨hkept, hid⟩ := of_decide_eq_true hr
    simp only [skipsPeer, eq_of_beq hid, Bool.not_eq_true', Bool.or_eq_false_iff,
      beq_eq_false_iff_ne] at hkept
    exact hskip.elim hkept.1 hkept.2
  · rw [if_neg hskip]
    refine congrArg (fun p => rows.find? p) ?_
    funext r
    by_cases hr : r.id = pid
    · rw [not_or] at hskip
      simp [skipsPeer, hr, hskip]
    · simp [hr]

theorem mergeClusterPeer_live {r : PeerClusterPeer} {e : ClusterPeer} (h : e.live = true) :
    (mergeClusterPeer r e).live = r.removedAt.isNone := by
  have he : e.removedAt = none := Option.isNone_iff_eq_none.mp h
  unfold mergeClusterPeer adoptsRemoval
  cases hr : r.removedAt with
  | some d => rw [he]; rfl
  | none =>
    simp only [he, Option.isSome_none, Bool.false_and, Bool.false_eq_true, if_false]
    split
    · exact h
    · rfl

end LlmProxy.Cluster
