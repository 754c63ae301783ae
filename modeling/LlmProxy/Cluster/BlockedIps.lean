import Mathlib.Data.Int.Order.Basic
import LlmProxy.Lib.Newest
import LlmProxy.Lib.PyStr
import LlmProxy.Lib.Trace
import LlmProxy.Cluster.Stamp

/-! # The blocked-IP list and its cluster merge

`add_blocked_ip` / `remove_blocked_ip` (`app/api/blocked_ips.py`) edit a node's row for an
IP, and `_apply_blocked_ips` (`app/cluster/sync_handlers.py`) merges a peer's rows into the
node's table. A removal is a tombstone: the row stays, with `deleted_at` set.

The merge is meant to be last-writer-wins between blocks (`added_at`) and removals
(`deleted_at`), but each branch compares only one of the two stamps with its local
counterpart, and the re-arm branch does not copy `added_at`. The first half of the file is
the source's functions; the second half is a cluster of nodes editing one IP and exchanging
rows in any order, with the specification it should meet: a node's verdict is the verdict
of the newest operation among those it has received (`Converged`).

> `blocked_ip_converges_iff`: a history of edits and deliveries keeps the specification
> throughout exactly when every delivered row that disagrees with the receiver's verdict
> wins the merge's comparison if and only if it is the newer one (`DeliveryOk`).

Mirroring notes.
* Stamps are microseconds. A fresh insert gets the column's `server_default`
  (`CURRENT_TIMESTAMP`), which has whole seconds; every other write has the full clock. A peer's
  row without `added_at` is inserted without one.
* Peer rows arrive with their stamps as ISO texts; they are parsed values here.
-/

namespace LlmProxy.Cluster

/-- A `blocked_ips` row without its key. -/
structure BlockedIp where
  reason : Option String := none
  addedBy : Option String := none
  addedAt : Option Stamp
  deletedAt : Option Stamp := none
  deriving DecidableEq, Repr

/-- The middleware blocks exactly the rows without a tombstone. -/
def BlockedIp.live (r : BlockedIp) : Bool := r.deletedAt.isNone

/-! ## The admin endpoints -/

/-- A non-empty text, Python's `if body.reason`. -/
def truthy (s : Option String) : Bool := s.any (· ≠ "")

/-- `add_blocked_ip` on the node's row for the IP. -/
def addBlockedIp (existing : Option BlockedIp) (reason : Option String) (username : String)
    (now : Stamp) : BlockedIp :=
  match existing with
  | none => { reason := reason, addedBy := some username, addedAt := some (serverNow now) }
  | some e =>
    if e.deletedAt.isSome then
      { e with
        deletedAt := none
        addedAt := some now
        addedBy := some username
        reason := if truthy reason then reason else e.reason }
    else if truthy reason && reason ≠ e.reason then
      { e with reason := reason, addedBy := some username }
    else e

/-- `remove_blocked_ip`: `none` is the 404 of an IP that is not currently blocked. -/
def removeBlockedIp (existing : Option BlockedIp) (now : Stamp) : Option BlockedIp :=
  match existing with
  | some e => if e.live then some { e with deletedAt := some now } else none
  | none => none

/-! ## The merge -/

/-- `existing.deleted_at is None or peer_deleted_at > existing.deleted_at`, for a peer row
that carries a tombstone. -/
def adoptsTombstone (e r : BlockedIp) : Bool :=
  match r.deletedAt, e.deletedAt with
  | none, _ => false
  | some _, none => true
  | some p, some l => l < p

/-- The guard of the re-arm branch: the peer row is live and its `added_at` is newer. -/
def rearms (e r : BlockedIp) : Bool :=
  match r.addedAt, r.deletedAt, e.addedAt with
  | some _, none, none => true
  | some p, none, some l => l < p
  | _, _, _ => false

/-- One row of `_apply_blocked_ips`, with the `changed` flag. -/
def mergeBlockedIp (existing : Option BlockedIp) (r : BlockedIp) : BlockedIp × Bool :=
  match existing with
  | none => (r, r.deletedAt.isNone)
  | some e =>
    if adoptsTombstone e r then ({ e with deletedAt := r.deletedAt }, true)
    else if rearms e r then
      -- `added_at` itself is not taken over
      ({ e with deletedAt := none, reason := r.reason, addedBy := r.addedBy },
        e.deletedAt.isSome || e.reason ≠ r.reason || e.addedBy ≠ r.addedBy)
    else (e, false)

/-- The node's table, by IP. -/
abbrev BlockTable := String → Option BlockedIp

/-- `_apply_blocked_ips`: rows without an IP are skipped. -/
def applyBlockedIps (table : BlockTable) : List (Option String × BlockedIp) → BlockTable × Bool
  | [] => (table, false)
  | (ip?, r) :: rows =>
    let ip := PyStr.strip (ip?.getD "")
    if ip = "" then applyBlockedIps table rows
    else
      let merged := mergeBlockedIp (table ip) r
      let rest := applyBlockedIps (fun j => if j = ip then some merged.1 else table j) rows
      (rest.1, merged.2 || rest.2)

/-- The rows of a payload that are about `ip`. -/
def rowsFor (ip : String) (rows : List (Option String × BlockedIp)) : List BlockedIp :=
  rows.filterMap fun p => if PyStr.strip (p.1.getD "") = ip then some p.2 else none

theorem applyBlockedIps_lookup (table : BlockTable) (rows : List (Option String × BlockedIp))
    {ip : String} (hip : ip ≠ "") :
    (applyBlockedIps table rows).1 ip =
      (rowsFor ip rows).foldl (fun e r => some (mergeBlockedIp e r).1) (table ip) := by
  induction rows generalizing table with
  | nil => rfl
  | cons row rows ih =>
    obtain ⟨ip?, r⟩ := row
    by_cases hempty : PyStr.strip (ip?.getD "") = ""
    · have hne : ¬ PyStr.strip (ip?.getD "") = ip := by rw [hempty]; exact hip.symm
      simp [applyBlockedIps, rowsFor, hempty, hip.symm, ih]
    · by_cases hsame : PyStr.strip (ip?.getD "") = ip
      · subst hsame
        simp [applyBlockedIps, rowsFor, hempty, ih]
      · simp [applyBlockedIps, rowsFor, hempty, hsame, ih, Ne.symm hsame]

/-! ### What the merge does to the verdict -/

theorem adoptsTombstone_dead {e r : BlockedIp} (h : adoptsTombstone e r = true) :
    r.live = false := by
  unfold adoptsTombstone at h
  unfold BlockedIp.live
  cases hr : r.deletedAt with
  | none => rw [hr] at h; cases h
  | some d => rfl

theorem adoptsTombstone_of_live {e r : BlockedIp} (he : e.live = true) (hr : r.live = false) :
    adoptsTombstone e r = true := by
  unfold BlockedIp.live at he hr
  unfold adoptsTombstone
  rw [Option.isNone_iff_eq_none.mp he]
  cases hd : r.deletedAt with
  | none => rw [hd] at hr; cases hr
  | some d => rfl

theorem rearms_live {e r : BlockedIp} (h : rearms e r = true) : r.live = true := by
  unfold rearms at h
  unfold BlockedIp.live
  split at h
  · next hd _ => rw [hd]; rfl
  · next hd _ => rw [hd]; rfl
  · cases h

theorem rearms_of_dead {e r : BlockedIp} (h : r.live = false) : rearms e r = false := by
  cases hre : rearms e r with
  | false => rfl
  | true => rw [rearms_live hre] at h; cases h

theorem mergeBlockedIp_of_live {e r : BlockedIp} (he : e.live = true) :
    (mergeBlockedIp (some e) r).1.live = r.live := by
  unfold mergeBlockedIp
  dsimp only
  by_cases ha : adoptsTombstone e r = true
  · rw [if_pos ha]
    rfl
  · have hr : r.live = true := by
      cases hr : r.live with
      | true => rfl
      | false => exact absurd (adoptsTombstone_of_live he hr) ha
    rw [if_neg ha, hr]
    split
    · rfl
    · exact he

theorem mergeBlockedIp_of_dead {e r : BlockedIp} (he : e.live = false) :
    (mergeBlockedIp (some e) r).1.live = rearms e r := by
  unfold mergeBlockedIp
  dsimp only
  by_cases ha : adoptsTombstone e r = true
  · rw [if_pos ha, rearms_of_dead (adoptsTombstone_dead ha)]
    exact adoptsTombstone_dead ha
  · rw [if_neg ha]
    by_cases hre : rearms e r = true
    · rw [if_pos hre, hre]
      rfl
    · rw [if_neg hre, he, Bool.eq_false_iff.mpr hre]

/-! ## A cluster editing one IP

The state keeps, beside the rows, what the specification speaks about: the operations
performed so far and, per node, the operations whose rows it has received (its own
included). A row travels as a snapshot of some node's current row, tagged with the newest
operation that node has received; a snapshot taken right after an operation is that
operation's row. Snapshots stay in the pool, so they may arrive late, out of order and any
number of times. -/

/-- A block (`live`) or a removal, at its time. -/
structure Op where
  time : Stamp
  live : Bool
  deriving DecidableEq, Repr

structure IpNode where
  row : Option BlockedIp := none
  received : List Op := []
  deriving DecidableEq, Repr

def IpNode.live (n : IpNode) : Bool := n.row.any BlockedIp.live

structure Snapshot where
  row : BlockedIp
  op : Op
  deriving DecidableEq, Repr

structure IpCluster where
  nodes : Nat → IpNode := fun _ => {}
  pool : List Snapshot := []
  history : List Op := []

inductive IpAction where
  | add (node : Nat) (reason : Option String) (username : String) (now : Stamp)
  | remove (node : Nat) (now : Stamp)
  | publish (node : Nat)
  | deliver (snapshot : Nat) (node : Nat)
  deriving DecidableEq, Repr

def IpCluster.setNode (c : IpCluster) (i : Nat) (n : IpNode) : IpCluster :=
  { c with nodes := fun j => if j = i then n else c.nodes j }

/-- The node executes an operation that leaves it with `row`. -/
def IpCluster.operate (c : IpCluster) (i : Nat) (row : BlockedIp) (op : Op) : IpCluster :=
  { c.setNode i { row := some row, received := op :: (c.nodes i).received } with
    history := op :: c.history }

def ipStep (c : IpCluster) : IpAction → IpCluster
  | .add i reason username now =>
    c.operate i (addBlockedIp (c.nodes i).row reason username now) ⟨now, true⟩
  | .remove i now =>
    match removeBlockedIp (c.nodes i).row now with
    | some row => c.operate i row ⟨now, false⟩
    | none => c
  | .publish i =>
    match (c.nodes i).row, Newest.newest Op.time (c.nodes i).received with
    | some row, some op => { c with pool := c.pool ++ [⟨row, op⟩] }
    | _, _ => c
  | .deliver k i =>
    match c.pool[k]? with
    | some m => c.setNode i
        { row := some (mergeBlockedIp (c.nodes i).row m.row).1
          received := m.op :: (c.nodes i).received }
    | none => c

/-- The histories the specification speaks about: an operation changes the live status on
the node executing it, and comes after every operation before it. -/
def Admissible (c : IpCluster) : IpAction → Prop
  | .add i _ _ now => (c.nodes i).live = false ∧ ∀ o ∈ c.history, o.time < now
  | .remove i now => (c.nodes i).live = true ∧ ∀ o ∈ c.history, o.time < now
  | .publish _ => True
  | .deliver _ _ => True

instance (c : IpCluster) : (a : IpAction) → Decidable (Admissible c a)
  | .add i _ _ now =>
    inferInstanceAs (Decidable ((c.nodes i).live = false ∧ ∀ o ∈ c.history, o.time < now))
  | .remove i now =>
    inferInstanceAs (Decidable ((c.nodes i).live = true ∧ ∀ o ∈ c.history, o.time < now))
  | .publish _ => inferInstanceAs (Decidable True)
  | .deliver _ _ => inferInstanceAs (Decidable True)

/-- **The specification.** The verdict of a node that has received something is that of the
latest operation received, and nodes that have received the same operations agree. -/
structure Converged (c : IpCluster) : Prop where
  latest : ∀ i, ∀ o ∈ (c.nodes i).received, (∀ o' ∈ (c.nodes i).received, o'.time ≤ o.time) →
    (c.nodes i).live = o.live
  agree : ∀ i j, (∀ o, o ∈ (c.nodes i).received ↔ o ∈ (c.nodes j).received) →
    (c.nodes i).live = (c.nodes j).live

/-- The snapshot's operation is newer than everything the node has received. -/
def NewerThanAll (op : Op) (n : IpNode) : Prop := ∀ o ∈ n.received, o.time < op.time

/-- The merge decides the arrival of `m` at a node with row `e` rightly. Where the two
disagree, a tombstone reaches a live row only if it is newer, and a live row passes the
re-arm test against a tombstoned one exactly if it is newer. -/
def MergeOk (m : Snapshot) (e : BlockedIp) (n : IpNode) : Prop :=
  (e.live = true → m.row.live = false → NewerThanAll m.op n) ∧
  (e.live = false → m.row.live = true → (rearms e m.row = true ↔ NewerThanAll m.op n))

/-- Every delivery is one the merge decides rightly; a first row is always inserted. -/
def DeliveryOk (c : IpCluster) : IpAction → Prop
  | .deliver k i =>
    match c.pool[k]?, (c.nodes i).row with
    | some m, some e => MergeOk m e (c.nodes i)
    | _, _ => True
  | _ => True

instance (op : Op) (n : IpNode) : Decidable (NewerThanAll op n) :=
  inferInstanceAs (Decidable (∀ o ∈ n.received, o.time < op.time))

instance (m : Snapshot) (e : BlockedIp) (n : IpNode) : Decidable (MergeOk m e n) :=
  inferInstanceAs (Decidable (_ ∧ _))

instance (c : IpCluster) : (a : IpAction) → Decidable (DeliveryOk c a)
  | .deliver k i =>
    show Decidable (match c.pool[k]?, (c.nodes i).row with
      | some m, some e => MergeOk m e (c.nodes i)
      | _, _ => True) from
    match c.pool[k]?, (c.nodes i).row with
    | some m, some e => inferInstanceAs (Decidable (MergeOk m e (c.nodes i)))
    | some _, none => inferInstanceAs (Decidable True)
    | none, _ => inferInstanceAs (Decidable True)
  | .add .. => inferInstanceAs (Decidable True)
  | .remove .. => inferInstanceAs (Decidable True)
  | .publish _ => inferInstanceAs (Decidable True)

/-! ### The invariant -/

/-- A node that has received only operations of the history and has the verdict of the
newest one. -/
structure NodeInv (history : List Op) (n : IpNode) : Prop where
  received : ∀ o ∈ n.received, o ∈ history
  empty : n.row = none ↔ n.received = []
  verdict : ∀ o, Newest.newest Op.time n.received = some o → n.live = o.live

/-- What holds of a cluster as long as every delivery was decided rightly. -/
structure IpInv (c : IpCluster) : Prop where
  times : ∀ o ∈ c.history, ∀ o' ∈ c.history, o.time = o'.time → o = o'
  pool : ∀ m ∈ c.pool, m.op ∈ c.history ∧ m.row.live = m.op.live
  node : ∀ i, NodeInv c.history (c.nodes i)

theorem ipInv_init : IpInv {} where
  times := by intro o ho; cases ho
  pool := by intro m hm; cases hm
  node := fun _ => ⟨by rintro o ⟨⟩, ⟨fun _ => rfl, fun _ => rfl⟩, by rintro o ⟨⟩⟩

theorem IpInv.converged {c : IpCluster} (h : IpInv c) : Converged c := by
  have hinj : ∀ i, ∀ o ∈ (c.nodes i).received, ∀ o' ∈ (c.nodes i).received,
      o.time = o'.time → o = o' := fun i o ho o' ho' =>
    h.times o ((h.node i).received o ho) o' ((h.node i).received o' ho')
  refine ⟨fun i o ho hmax => ?_, fun i j hsame => ?_⟩
  · exact (h.node i).verdict o (Newest.newest_eq_some (hinj i) ho hmax)
  · have hnew := Newest.newest_congr (hinj i) hsame
    cases hi : Newest.newest Op.time (c.nodes i).received with
    | some o => rw [(h.node i).verdict o hi, (h.node j).verdict o (hnew ▸ hi)]
    | none =>
      have hri := (h.node i).empty.mpr (Newest.newest_eq_none_iff.mp hi)
      have hrj := (h.node j).empty.mpr (Newest.newest_eq_none_iff.mp (hnew ▸ hi))
      simp [IpNode.live, hri, hrj]

theorem Converged.verdict {c : IpCluster} (h : Converged c) {i : Nat} {o : Op}
    (ho : Newest.newest Op.time (c.nodes i).received = some o) : (c.nodes i).live = o.live :=
  h.latest i o (Newest.newest_mem ho) (Newest.newest_le ho)

@[simp] theorem setNode_same (c : IpCluster) (i : Nat) (n : IpNode) :
    (c.setNode i n).nodes i = n := if_pos rfl

theorem IpInv.setNode {c : IpCluster} (h : IpInv c) (i : Nat) {n : IpNode}
    (hn : NodeInv c.history n) : IpInv (c.setNode i n) := by
  refine ⟨h.times, h.pool, fun j => ?_⟩
  show NodeInv c.history (if j = i then n else c.nodes j)
  split
  · exact hn
  · exact h.node j

theorem NodeInv.mono {history : List Op} {n : IpNode} (h : NodeInv history n) (op : Op) :
    NodeInv (op :: history) n :=
  ⟨fun o ho => List.mem_cons_of_mem op (h.received o ho), h.empty, h.verdict⟩

theorem IpInv.operate {c : IpCluster} (h : IpInv c) (i : Nat) {row : BlockedIp} {op : Op}
    (hnew : ∀ o ∈ c.history, o.time < op.time) (hlive : row.live = op.live) :
    IpInv (c.operate i row op) := by
  have hgrown : IpInv { c with history := op :: c.history } := by
    refine ⟨fun o ho o' ho' heq => ?_, fun m hm => ?_, fun j => (h.node j).mono op⟩
    · rcases List.mem_cons.mp ho with hop | hold
      · rcases List.mem_cons.mp ho' with hop' | hold'
        · rw [hop, hop']
        · exact absurd (hop ▸ heq) (ne_of_gt (hnew o' hold'))
      · rcases List.mem_cons.mp ho' with hop' | hold'
        · exact absurd (hop' ▸ heq) (ne_of_lt (hnew o hold))
        · exact h.times o hold o' hold' heq
    · exact ⟨List.mem_cons_of_mem op (h.pool m hm).1, (h.pool m hm).2⟩
  refine hgrown.setNode i ⟨?_, ?_, ?_⟩
  · intro o ho
    rcases List.mem_cons.mp ho with rfl | ho
    · exact List.mem_cons_self
    · exact List.mem_cons_of_mem op ((h.node i).received o ho)
  · simp
  · intro o ho
    rw [Newest.newest_cons_of_lt fun o' ho' => hnew o' ((h.node i).received o' ho')] at ho
    cases ho
    exact hlive

theorem addBlockedIp_live {existing : Option BlockedIp} (reason : Option String)
    (username : String) (now : Stamp) : (addBlockedIp existing reason username now).live = true := by
  unfold addBlockedIp BlockedIp.live
  cases existing with
  | none => rfl
  | some e =>
    dsimp only
    by_cases hd : e.deletedAt.isSome = true
    · rw [if_pos hd]; rfl
    · rw [if_neg hd]
      have hn : e.deletedAt.isNone = true := by simpa using hd
      split <;> exact hn

theorem removeBlockedIp_some {existing : Option BlockedIp} {now : Stamp} {row : BlockedIp}
    (h : removeBlockedIp existing now = some row) : row.live = false := by
  unfold removeBlockedIp at h
  split at h
  · split at h
    · cases h; rfl
    · cases h
  · cases h

/-! ### One delivery -/

/-- The verdict a delivery leaves is the one of the newest operation exactly when
`DeliveryOk` holds of it. -/
theorem deliver_verdict_iff {c : IpCluster} (h : IpInv c) {k i : Nat} {m : Snapshot}
    (hm : c.pool[k]? = some m) :
    (∀ o, Newest.newest Op.time (m.op :: (c.nodes i).received) = some o →
        (mergeBlockedIp (c.nodes i).row m.row).1.live = o.live) ↔
      DeliveryOk c (.deliver k i) := by
  have hmlive : m.row.live = m.op.live := (h.pool m (List.mem_of_getElem? hm)).2
  simp only [DeliveryOk, hm]
  cases hrow : (c.nodes i).row with
  | none =>
    -- the first row a node receives is inserted as it is
    have hnil := (h.node i).empty.mp hrow
    rw [hnil]
    refine iff_of_true ?_ trivial
    rintro o ⟨⟩
    exact hmlive
  | some e =>
    have hne : (c.nodes i).received ≠ [] := fun hnil => by
      rw [(h.node i).empty.mpr hnil] at hrow
      cases hrow
    obtain ⟨q, hq⟩ : ∃ q, Newest.newest Op.time (c.nodes i).received = some q := by
      cases hq : Newest.newest Op.time (c.nodes i).received with
      | none => exact absurd (Newest.newest_eq_none_iff.mp hq) hne
      | some q => exact ⟨q, rfl⟩
    have hqe : e.live = q.live := by
      rw [← (h.node i).verdict q hq, IpNode.live, hrow]
      rfl
    by_cases hnewer : NewerThanAll m.op (c.nodes i)
    · rw [Newest.newest_cons_of_lt hnewer]
      cases he : e.live with
      | true =>
        refine iff_of_true ?_ ?_
        · rintro o ⟨⟩
          rw [mergeBlockedIp_of_live he, hmlive]
        · refine ⟨fun _ _ => hnewer, fun hf => ?_⟩
          rw [he] at hf
          cases hf
      | false =>
        have hmerge := mergeBlockedIp_of_dead (r := m.row) he
        cases hml : m.row.live with
        | true => simp [MergeOk, hmerge, ← hmlive, hml, he, hnewer]
        | false => simp [MergeOk, hmerge, ← hmlive, hml, he, rearms_of_dead hml]
    · rw [Newest.newest_cons_of_not_lt hnewer, hq]
      cases he : e.live with
      | true =>
        have hmerge := mergeBlockedIp_of_live (r := m.row) he
        cases hml : m.row.live <;> simp [MergeOk, hmerge, hml, he, ← hqe, hnewer]
      | false =>
        have hmerge := mergeBlockedIp_of_dead (r := m.row) he
        cases hml : m.row.live with
        | true => simp [MergeOk, hmerge, hml, he, ← hqe, hnewer]
        | false => simp [MergeOk, hmerge, hml, he, ← hqe, rearms_of_dead hml]

/-- **One step**: in an admissible history the state after an action meets the
specification exactly when the action is decided rightly. -/
theorem ipStep_converged_iff {c : IpCluster} (h : IpInv c) {a : IpAction}
    (hadm : Admissible c a) : (Converged (ipStep c a) ↔ DeliveryOk c a) ∧
      (DeliveryOk c a → IpInv (ipStep c a)) := by
  suffices hsuff : (Converged (ipStep c a) → DeliveryOk c a) ∧
      (DeliveryOk c a → IpInv (ipStep c a)) from
    ⟨⟨hsuff.1, fun hok => (hsuff.2 hok).converged⟩, hsuff.2⟩
  cases a with
  | add i reason username now =>
    exact ⟨fun _ => trivial, fun _ => h.operate i hadm.2 (addBlockedIp_live _ _ _)⟩
  | remove i now =>
    refine ⟨fun _ => trivial, fun _ => ?_⟩
    simp only [ipStep]
    split
    · next row hr => exact h.operate i hadm.2 (removeBlockedIp_some hr)
    · exact h
  | publish i =>
    refine ⟨fun _ => trivial, fun _ => ?_⟩
    simp only [ipStep]
    split
    · next row op hrow hop =>
      refine ⟨h.times, fun m hm => ?_, h.node⟩
      rcases List.mem_append.mp hm with hm | hm
      · exact h.pool m hm
      · rw [List.mem_singleton.mp hm]
        refine ⟨(h.node i).received op (Newest.newest_mem hop), ?_⟩
        rw [← (h.node i).verdict op hop, IpNode.live, hrow]
        rfl
    · exact h
  | deliver k i =>
    simp only [ipStep]
    cases hm : c.pool[k]? with
    | none =>
      refine ⟨fun _ => ?_, fun _ => h⟩
      simp only [DeliveryOk, hm]
    | some m =>
      have hiff := deliver_verdict_iff h (i := i) hm
      dsimp only
      constructor
      · intro hconv
        refine hiff.mp fun o ho => ?_
        have hv := hconv.verdict (i := i) (o := o)
        rw [setNode_same] at hv
        exact hv ho
      · intro hok
        refine h.setNode i ⟨?_, by simp, hiff.mpr hok⟩
        intro o ho
        rcases List.mem_cons.mp ho with rfl | ho
        · exact (h.pool m (List.mem_of_getElem? hm)).1
        · exact (h.node i).received o ho

/-! ## Main theorem -/

/-- **Convergence.** Every state of an admissible history meets the specification exactly
when every delivery of the history is decided rightly. -/
theorem blocked_ip_converges_iff (as : List IpAction)
    (hadm : Trace.Along ipStep Admissible {} as) :
    Trace.Along ipStep (fun c a => Converged (ipStep c a)) {} as ↔
      Trace.Along ipStep DeliveryOk {} as :=
  Trace.along_iff (I := IpInv) (fun _ _ hi hv => (ipStep_converged_iff hi hv).1)
    (fun _ _ hi hv => (ipStep_converged_iff hi hv).2) ipInv_init hadm

/-- Node 0 blocks the IP at 1 s, unblocks it at 2 s and blocks it again at 3 s, and
publishes its row after each operation. -/
def reblock : List IpAction :=
  [.add 0 none "admin" 1000000, .publish 0, .remove 0 2000000, .publish 0,
   .add 0 none "admin" 3000000, .publish 0]

/-- Delivered in the order of the operations, the three rows leave node 1 blocking. -/
theorem blocked_ip_converges_in_order :
    Trace.Along ipStep (fun c a => Converged (ipStep c a)) {}
      (reblock ++ [.deliver 0 1, .deliver 1 1, .deliver 2 1]) :=
  (blocked_ip_converges_iff _ (by decide)).mpr (by decide)

/-- **The undone re-block.** The removal's row overtaken by the second block's: node 1 has
received all three rows, and the IP is not blocked there. -/
theorem reblock_undone_by_old_tombstone :
    Trace.Along ipStep Admissible {} (reblock ++ [.deliver 0 1, .deliver 2 1, .deliver 1 1]) ∧
      ¬ Converged (Trace.run ipStep {} (reblock ++ [.deliver 0 1, .deliver 2 1, .deliver 1 1])) := by
  refine ⟨by decide, fun h => ?_⟩
  have hlive := h.latest 1 ⟨3000000, true⟩ (by decide) (by decide)
  revert hlive
  decide

end LlmProxy.Cluster
