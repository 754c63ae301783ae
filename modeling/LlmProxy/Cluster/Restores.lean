import LlmProxy.Lib.Gossip
import LlmProxy.Cluster.ClusterPeers
import LlmProxy.Cluster.Edits

/-! # Restored rows under the sync

`POST /api/keys/{id}/restore` (`restore_key` of `app/api/apikeys.py`) and `add_cluster_peer` on a
removed peer both clear the row's tombstone and stamp the edit. The merges do not look at that
stamp before they adopt a tombstone, so a tombstone that has left the node comes back.

Both tables are exchanged as snapshots (`Gossip`), and both merges let the tombstone win
(`keys_tombstoneWins`, `peers_tombstoneWins`).

> `restores_survive_iff`: a restored row survives the sync exactly when the tombstone has never
> left the node.
-/

namespace LlmProxy.Cluster

open LlmProxy.Providers (HttpError)
open Gossip Presence

/-! ## Keys -/

/-- The `api_keys` table; `key_hash` is unique. -/
structure KeyTable where
  rows : List KeyRow
  unique : (rows.map (·.keyHash)).Nodup

/-- What `restore_key` reads of the clocks and the settings. -/
structure RestoreEnv where
  utcnow : Stamp
  time : EditStamp
  tombstoneRetentionDays : Int := 90
  deriving Repr

/-- `int(getattr(…, 90) or 90)`. -/
def RestoreEnv.retentionDays (env : RestoreEnv) : Int :=
  if env.tombstoneRetentionDays = 0 then 90 else env.tombstoneRetentionDays

def RestoreEnv.cutoff (env : RestoreEnv) : Stamp :=
  env.utcnow - env.retentionDays * (86400 * 1000000)

def KeyRow.restored (k : KeyRow) (env : RestoreEnv) : KeyRow :=
  { k with deletedAt := none, enabled := true, lastUserEditAt := some env.time }

def findKeyId (keyId : String) (table : KeyTable) : Option KeyRow :=
  table.rows.find? fun r => r.id == keyId

theorem map_keyHash_updateFirst {table : KeyTable} {p : KeyRow → Bool} {f : KeyRow → KeyRow}
    (hf : ∀ r, (f r).keyHash = r.keyHash) :
    ((Table.updateFirst p f table.rows).map (·.keyHash)).Nodup := by
  rw [Table.map_updateFirst_eq_iff.mpr fun r _ => hf r]
  exact table.unique

/-- `restore_key`. -/
def restoreKey (env : RestoreEnv) (table : KeyTable) (keyId : String) :
    Except HttpError KeyTable :=
  match findKeyId keyId table with
  | none => .error ⟨404, "key not found"⟩
  | some k =>
    match k.deletedAt with
    | none => .error ⟨400, "key is not deleted; nothing to restore"⟩
    | some d =>
      if d < env.cutoff then
        .error ⟨410, "key was deleted more than " ++ toString env.retentionDays ++ " days ago " ++
          "(retention window expired). The next prune sweep will hard-delete it."⟩
      else .ok ⟨Table.updateFirst (fun r => r.id == keyId) (KeyRow.restored · env) table.rows,
        map_keyHash_updateFirst fun _ => rfl⟩

def heldKeyRow (h : String) (table : KeyTable) : Held :=
  heldOf (fun r : KeyRow => r.live) (findKeyRow h table.rows)

def receiveKeys (_ : String) (table sender : KeyTable) : KeyTable :=
  ⟨applyKeyRows table.rows (sender.rows.map buildPeerApiKey),
    Table.nodup_mergeRows mergeKeyRow_keyHash (fun _ _ => insertKeyRow_keyHash) table.unique _⟩

/-- The sender holds the key as restored at `time`. -/
def BringsKey (h : String) (time : EditStamp) (_ : String) (sender : KeyTable) : Prop :=
  ∃ r, findKeyRow h sender.rows = some r ∧ r.deletedAt = none ∧ r.lastUserEditAt = some time

variable {h : String} {time : EditStamp} {j : String}

theorem BringsKey.held {sender : KeyTable} (hb : BringsKey h time j sender) :
    heldKeyRow h sender = .live := by
  obtain ⟨r, hr, hlive, -⟩ := hb
  exact heldOf_live.mpr ⟨r, hr, Option.isNone_iff_eq_none.mpr hlive⟩

theorem findKeyRow_receiveKeys (h j : String) (table sender : KeyTable) :
    findKeyRow h (receiveKeys j table sender).rows =
      Table.mergeRow mergeKeyRow insertKeyRow
        ((findKeyRow h sender.rows).map buildPeerApiKey) (findKeyRow h table.rows) := by
  have hnodup : ((sender.rows.map buildPeerApiKey).map (·.keyHash)).Nodup := by
    rw [List.map_map]
    exact sender.unique
  have hfind := @Table.find?_mergeRows KeyRow PeerApiKey String _ _ (·.keyHash) (·.keyHash)
    mergeKeyRow insertKeyRow table.rows h mergeKeyRow_keyHash (fun _ _ => insertKeyRow_keyHash) _
    hnodup
  rw [List.find?_map] at hfind
  exact hfind

/-- **Tombstones win** between keys, whatever the edit stamps. -/
theorem keys_tombstoneWins (h : String) :
    TombstoneWins receiveKeys (heldKeyRow h) fun _ => True := by
  refine @tombstoneWins_of_merge String KeyTable _ _ KeyRow PeerApiKey _ _ buildPeerApiKey
    mergeKeyRow insertKeyRow _ (fun j t s => ?_) (fun a b hb => ?_) fun a ha => ?_
  · rw [if_pos trivial]
    exact findKeyRow_receiveKeys h j t s
  · exact mergeApiKey_live hb
  · obtain ⟨r, hr, -, hlive⟩ := insertApiKey_live (k := buildPeerApiKey a)
      (Option.isNone_iff_eq_none.mp ha)
    unfold insertKeyRow
    rw [hr]
    exact ⟨_, rfl, hlive⟩

theorem restoreKey_ok {env : RestoreEnv} {table table' : KeyTable} {keyId : String} {k : KeyRow}
    (hk : findKeyId keyId table = some k) (hok : restoreKey env table keyId = .ok table') :
    k.deletedAt ≠ none ∧
      table'.rows = Table.updateFirst (fun r => r.id == keyId) (KeyRow.restored · env) table.rows := by
  unfold restoreKey at hok
  rw [hk] at hok
  dsimp only at hok
  split at hok
  · cases hok
  · next d hd =>
    split at hok
    · cases hok
    · rw [← Except.ok.inj hok]
      rw [hd]
      exact ⟨Option.some_ne_none d, rfl⟩

theorem heldKeyRow_restoreKey {env : RestoreEnv} {table table' : KeyTable} {keyId : String}
    {k : KeyRow} (hk : findKeyId keyId table = some k)
    (hok : restoreKey env table keyId = .ok table') : heldKeyRow k.keyHash table' = .live := by
  obtain ⟨-, hrows⟩ := restoreKey_ok hk hok
  refine heldOf_live.mpr ⟨k.restored env, ?_, rfl⟩
  unfold findKeyRow
  rw [hrows]
  exact Table.find?_updateFirst_unique (fun _ => rfl) table.unique hk

/-! ## Peers -/

def heldPeer (pid : String) (table : PeerTable) : Held := heldOf ClusterPeer.live (findPeer pid table)

/-- A delivery of the peers section to the node `self`. -/
def receivePeers (self : String) (table sender : PeerTable) : PeerTable :=
  ⟨applyClusterPeers self table.rows (sender.rows.map buildPeerClusterPeer),
    nodup_applyClusterPeers table.unique _⟩

/-- The node keeps rows about the peer: it is not the peer itself. -/
def ReadsPeer (pid self : String) : Prop := ¬ (pid = "" ∨ pid = self)

instance (pid : String) : DecidablePred (ReadsPeer pid) :=
  fun self => inferInstanceAs (Decidable (¬ (pid = "" ∨ pid = self)))

/-- The sender holds the peer as restored at `time`, and the node keeps rows about it. -/
def BringsPeer (pid : String) (time : EditStamp) (self : String) (sender : PeerTable) : Prop :=
  ReadsPeer pid self ∧
    ∃ r, findPeer pid sender = some r ∧ r.removedAt = none ∧ r.lastUserEditAt = some time

theorem BringsPeer.held {pid self : String} {sender : PeerTable}
    (hb : BringsPeer pid time self sender) : ReadsPeer pid self ∧ heldPeer pid sender = .live := by
  obtain ⟨hreads, r, hr, hlive, -⟩ := hb
  exact ⟨hreads, heldOf_live.mpr ⟨r, hr, Option.isNone_iff_eq_none.mpr hlive⟩⟩

theorem findPeer_receivePeers (pid self : String) (table sender : PeerTable) :
    findPeer pid (receivePeers self table sender) =
      Table.mergeRow mergeClusterPeer insertClusterPeer
        (if ReadsPeer pid self then (findPeer pid sender).map buildPeerClusterPeer else none)
        (findPeer pid table) := by
  have hnodup : ((sender.rows.map buildPeerClusterPeer).map PeerClusterPeer.id).Nodup := by
    rw [List.map_map]
    exact sender.unique
  unfold findPeer receivePeers
  rw [find?_applyClusterPeers hnodup]
  by_cases hskip : pid = "" ∨ pid = self
  · rw [if_pos hskip, if_neg (fun h : ReadsPeer pid self => h hskip)]
  · rw [if_neg hskip, if_pos (show ReadsPeer pid self from hskip), List.find?_map]
    rfl

/-- **Tombstones win** between peers, whatever the edit stamps. -/
theorem peers_tombstoneWins (pid : String) :
    TombstoneWins receivePeers (heldPeer pid) (ReadsPeer pid) := by
  refine tombstoneWins_of_merge (findPeer_receivePeers pid) (fun a b hb => ?_) fun a ha => ?_
  · exact mergeClusterPeer_live hb
  · exact ⟨_, rfl, ha⟩

theorem addClusterPeer_ok {self : String} {env : PeerEnv} {table table' : PeerTable}
    {body : PeerCreate} (hok : addClusterPeer self env table body = .ok table') :
    body.id ≠ self ∧ table'.rows =
      Table.upsert [fun r => r.id == body.id] (body.restore env) (some (body.row env)) table.rows := by
  unfold addClusterPeer at hok
  split at hok
  · cases hok
  · next hself =>
    split at hok
    · cases hok
    · split at hok
      · cases hok
      · rw [← Except.ok.inj hok]
        exact ⟨hself, rfl⟩

theorem heldPeer_addClusterPeer {self : String} {env : PeerEnv} {table table' : PeerTable}
    {body : PeerCreate} (hok : addClusterPeer self env table body = .ok table') :
    ReadsPeer body.id self ∧ heldPeer body.id table' = .live := by
  obtain ⟨hself, hrows⟩ := addClusterPeer_ok hok
  have hempty : body.id ≠ "" := by
    intro hempty
    have hlength := body.idLength.1
    rw [hempty] at hlength
    exact absurd hlength (by decide)
  refine ⟨fun h => h.elim hempty hself, ?_⟩
  have hfind := @Table.find?_upsert_key ClusterPeer PeerCreate String _ _ ClusterPeer.id (·.id)
    (fun body e => body.restore env e) (fun body => some (body.row env)) table.rows body.id
    (fun _ _ => rfl) (fun _ _ h => by rw [← Option.some.inj h]; rfl) body
  rw [beq_self_eq_true, if_pos rfl] at hfind
  refine heldOf_live.mpr ?_
  unfold findPeer
  rw [hrows, hfind]
  cases table.rows.find? fun r => r.id == body.id with
  | none => exact ⟨_, rfl, rfl⟩
  | some r => exact ⟨_, rfl, rfl⟩

/-! ## Main theorem -/

/-- The tombstone is on no other node, and in no payload. -/
def KeptTombstone {τ : Type} (held : τ → Held) (c : Gossip.Cluster String τ) (i : String) : Prop :=
  (∀ j, j ≠ i → held (c.tables j) ≠ .dead) ∧ ∀ s ∈ c.sent, held s ≠ .dead

theorem noTombstone_setTable {τ : Type} {held : τ → Held} {c : Gossip.Cluster String τ} {i : String}
    {t : τ} (ht : held t = .live) : NoTombstone held (c.setTable i t) ↔ KeptTombstone held c i := by
  constructor
  · intro h
    refine ⟨fun j hj => ?_, h.2⟩
    have hone := h.1 j
    rwa [Cluster.setTable_other c t hj] at hone
  · intro h
    refine ⟨fun j => ?_, h.2⟩
    by_cases hj : j = i
    · rw [hj, Cluster.setTable_self, ht]
      exact fun h => nomatch h
    · rw [Cluster.setTable_other c t hj]
      exact h.1 j hj

/-- **Restores under the sync.** A key restored on a node, and a peer added on a node, stay live
there and wherever they arrive, in all runs of pushes and deliveries, exactly if no tombstone of
the row is on another node or in a payload. -/
theorem restores_survive_iff (keys : Gossip.Cluster String KeyTable) (node : String)
    (env : RestoreEnv) (keyId : String) (k : KeyRow) (keyTable : KeyTable)
    (hk : findKeyId keyId (keys.tables node) = some k)
    (hrestore : restoreKey env (keys.tables node) keyId = .ok keyTable)
    (peers : Gossip.Cluster String PeerTable) (self : String) (peerEnv : PeerEnv) (body : PeerCreate)
    (peerTable : PeerTable)
    (hadd : addClusterPeer self peerEnv (peers.tables self) body = .ok peerTable) :
    (StaysLive receiveKeys (heldKeyRow k.keyHash) (BringsKey k.keyHash env.time)
        (keys.setTable node keyTable) node ↔ KeptTombstone (heldKeyRow k.keyHash) keys node) ∧
      (StaysLive receivePeers (heldPeer body.id) (BringsPeer body.id peerEnv.time)
        (peers.setTable self peerTable) self ↔ KeptTombstone (heldPeer body.id) peers self) := by
  have hkey := heldKeyRow_restoreKey hk hrestore
  obtain ⟨hreads, hpeer⟩ := heldPeer_addClusterPeer hadd
  constructor
  · rw [← noTombstone_setTable hkey]
    exact staysLive_iff (keys_tombstoneWins k.keyHash) (fun j s hb => ⟨trivial, hb.held⟩) trivial
      (by rw [Cluster.setTable_self]; exact hkey)
  · rw [← noTombstone_setTable hpeer]
    exact staysLive_iff (peers_tombstoneWins body.id) (fun j s hb => hb.held) hreads
      (by rw [Cluster.setTable_self]; exact hpeer)

/-! ### A deletion that comes back -/

def deletedKey : KeyRow :=
  { id := "k1", name := "ci", keyHash := "h1", keyPrefix := "llmp-", enabled := false,
    deletedAt := some 1000000, lastUserEditAt := some 1 }

def removedPeer : ClusterPeer :=
  { id := "n3", url := "https://n3", removedAt := some 1000000, lastUserEditAt := some 1 }

/-- Two seconds after the epoch, a second after the deletions. -/
def restoreEnv : RestoreEnv := { utcnow := 2000000, time := 2 }

def peerEnv : PeerEnv := { utcnow := 2000000, time := 2 }

def addN3 : PeerCreate :=
  { id := "n3", url := "https://n3", idLength := by decide, urlLength := by decide }

def noKeys : KeyTable := ⟨[], List.nodup_nil⟩

def oneKey (k : KeyRow) : KeyTable := ⟨[k], List.nodup_singleton _⟩

def noPeers : PeerTable := ⟨[], List.nodup_nil⟩

def onePeer (p : ClusterPeer) : PeerTable := ⟨[p], List.nodup_singleton _⟩

/-- The deletions are on `n1` alone. -/
theorem restores_survive_alone :
    StaysLive receiveKeys (heldKeyRow "h1") (BringsKey "h1" 2)
        (Cluster.setTable ⟨fun j => if j = "n1" then oneKey deletedKey else noKeys, []⟩ "n1"
          (oneKey (deletedKey.restored restoreEnv))) "n1" ∧
      StaysLive receivePeers (heldPeer "n3") (BringsPeer "n3" 2)
        (Cluster.setTable ⟨fun j => if j = "n1" then onePeer removedPeer else noPeers, []⟩ "n1"
          (onePeer (addN3.restore peerEnv removedPeer))) "n1" := by
  have hboth := restores_survive_iff
    ⟨fun j => if j = "n1" then oneKey deletedKey else noKeys, []⟩ "n1" restoreEnv "k1" deletedKey
    (oneKey (deletedKey.restored restoreEnv)) rfl rfl
    ⟨fun j => if j = "n1" then onePeer removedPeer else noPeers, []⟩ "n1" peerEnv addN3
    (onePeer (addN3.restore peerEnv removedPeer)) rfl
  refine ⟨hboth.1.mpr ⟨fun j hj => ?_, fun s hs => ?_⟩, hboth.2.mpr ⟨fun j hj => ?_, fun s hs => ?_⟩⟩
  · show heldKeyRow _ (if j = "n1" then _ else _) ≠ _
    rw [if_neg hj]
    decide
  · cases hs
  · show heldPeer _ (if j = "n1" then _ else _) ≠ _
    rw [if_neg hj]
    decide
  · cases hs

/-- **The deletion that comes back.** `n2` has the tombstones; its next push undoes both restores
on `n1`. -/
theorem restores_undone :
    restoreKey restoreEnv (oneKey deletedKey) "k1" =
        .ok (oneKey (deletedKey.restored restoreEnv)) ∧
      ¬ StaysLive receiveKeys (heldKeyRow "h1") (BringsKey "h1" 2)
        (Cluster.setTable ⟨fun _ => oneKey deletedKey, []⟩ "n1"
          (oneKey (deletedKey.restored restoreEnv))) "n1" ∧
      addClusterPeer "n1" peerEnv (onePeer removedPeer) addN3 =
        .ok (onePeer (addN3.restore peerEnv removedPeer)) ∧
      ¬ StaysLive receivePeers (heldPeer "n3") (BringsPeer "n3" 2)
        (Cluster.setTable ⟨fun _ => onePeer removedPeer, []⟩ "n1"
          (onePeer (addN3.restore peerEnv removedPeer))) "n1" := by
  refine ⟨rfl, fun hstays => ?_, rfl, fun hstays => ?_⟩
  · exact absurd (hstays [.push "n2", .deliver 0 "n1"]).1 (by decide)
  · exact absurd (hstays [.push "n2", .deliver 0 "n1"]).1 (by decide)

end LlmProxy.Cluster
