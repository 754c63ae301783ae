import LlmProxy.Lib.Gossip
import LlmProxy.Cluster.Providers
import LlmProxy.Providers.Dedup

/-! # Deduplication on two nodes

Each node deletes the duplicates of its own table, and the tombstones travel with the payloads. A
merge only ever deletes rows of a table that has them all, so of a name stays what is alive on both
nodes, and a dedup leaves of that at most its own first row.

> `dedup_keeps_name_iff`: after a last exchange a name has one live row on both nodes iff some row
> of it was alive on both, and every dedup kept a row that was alive on the other node.

Mirroring notes.
* A payload is the snapshot of a table; it may be delivered late, out of order, again or never.
-/

namespace LlmProxy.Cluster

open LlmProxy.Providers
open Gossip Trace

inductive Side where
  | a
  | b
  deriving DecidableEq, Repr

def Side.other : Side → Side
  | .a => .b
  | .b => .a

/-- The provider tables of the two nodes, and the snapshots in the air. -/
abbrev Nodes := Gossip.Cluster Side (List Provider)

inductive NodeAct where
  | sync (act : Gossip.Act Side) (clk : FlushClock)
  | dedup (side : Side) (now : Stamp) (nowTs : EditStamp) (clk : FlushClock)

def receiveProviders (clk : FlushClock) (_ : Side) (table snapshot : List Provider) :
    List Provider :=
  applyProviders clk table (snapshot.map buildPeerProvider)

def stepNodes (c : Nodes) : NodeAct → Nodes
  | .sync act clk => Gossip.step (receiveProviders clk) c act
  | .dedup side now nowTs clk =>
    c.setTable side (dedupProvidersByName now nowTs clk (c.tables side))

def fullExchange (clk : Side → FlushClock) (c : Nodes) : Nodes :=
  run stepNodes c
    [.sync (.push .a) (clk .a), .sync (.push .b) (clk .b),
      .sync (.deliver c.sent.length .b) (clk .b), .sync (.deliver (c.sent.length + 1) .a) (clk .a)]

/-! ## A merge into a table with all the rows -/

section
variable {clk : FlushClock} {table : List Provider} {rows : List PeerProvider} {p : Provider}
  {name id : String}

def mergeAll (clk : FlushClock) (rows : List PeerProvider) (p : Provider) : Provider :=
  rows.foldl (fun p r => if p.id == r.id then mergeProvider clk r p else p) p

theorem mergeAll_id : (mergeAll clk rows p).id = p.id := by
  unfold mergeAll
  induction rows generalizing p with
  | nil => rfl
  | cons r rows ih =>
    rw [List.foldl_cons, ih]
    split
    · exact mergeProvider_id clk r p
    · rfl

theorem mergeProvider_name {r : PeerProvider} (h : r.name = p.name) :
    (mergeProvider clk r p).name = p.name := by
  unfold mergeProvider mergeProviderRow
  rw [flush_name]
  repeat' split
  all_goals first
    | rfl
    | exact h

theorem mergeAll_name (h : ∀ r ∈ rows, r.id = p.id → r.name = p.name) :
    (mergeAll clk rows p).name = p.name := by
  unfold mergeAll
  induction rows generalizing p with
  | nil => rfl
  | cons r rows ih =>
    obtain ⟨hr, hrows⟩ := List.forall_mem_cons.mp h
    rw [List.foldl_cons]
    split
    · next hid =>
      have hname : (mergeProvider clk r p).name = p.name :=
        mergeProvider_name (hr (beq_iff_eq.mp hid).symm)
      rw [ih ?_, hname]
      intro r' hr' hid'
      rw [mergeProvider_id] at hid'
      rw [hname]
      exact hrows r' hr' hid'
    · exact ih hrows

theorem deleted_eq_false_iff : p.deleted = false ↔ p.deletedAt = none := by
  simp [Provider.deleted]

theorem mergeProvider_live_iff {r : PeerProvider} :
    (mergeProvider clk r p).deleted = false ↔ p.deleted = false ∧ r.deletedAt = none := by
  cases hp : p.deleted with
  | true =>
    have hkept : (mergeProvider clk r p).deletedAt = p.deletedAt := mergeProvider_deleted hp
    unfold Provider.deleted at hp ⊢
    rw [hkept, hp]
    simp
  | false =>
    rw [deleted_eq_false_iff, mergeProvider_not_deleted hp]
    simp

theorem mergeAll_live_iff : (mergeAll clk rows p).deleted = false ↔
    p.deleted = false ∧ ∀ r ∈ rows, r.id = p.id → r.deletedAt = none := by
  unfold mergeAll
  induction rows generalizing p with
  | nil => simp
  | cons r rows ih =>
    rw [List.foldl_cons, List.forall_mem_cons]
    split
    · next hid =>
      rw [ih, mergeProvider_live_iff, mergeProvider_id, and_assoc]
      simp [(beq_iff_eq.mp hid).symm]
    · next hid =>
      have hne : r.id ≠ p.id := fun heq => hid (beq_iff_eq.mpr heq.symm)
      rw [ih]
      simp [hne]

theorem applyProviders_known (hnodup : (table.map (·.id)).Nodup)
    (hknown : ∀ r ∈ rows, ∃ p ∈ table, p.id = r.id) :
    applyProviders clk table rows = table.map (mergeAll clk rows) := by
  unfold applyProviders
  induction rows generalizing table with
  | nil =>
    show table = table.map fun p => p
    rw [List.map_id']
  | cons r rows ih =>
    obtain ⟨hr, hrows⟩ := List.forall_mem_cons.mp hknown
    have hstep : applyProvider clk table r =
        table.map fun p => if p.id == r.id then mergeProvider clk r p else p := by
      obtain ⟨p, hp, hid⟩ := hr
      have hany : (table.any fun p => p.id == r.id) = true :=
        List.any_eq_true.mpr ⟨p, hp, beq_iff_eq.mpr hid⟩
      unfold applyProvider providerKeys
      rw [Table.upsert_of_any hany]
      exact Table.updateFirst_eq_map hnodup
    have hids : (applyProvider clk table r).map (·.id) = table.map (·.id) := by
      rw [hstep, List.map_map]
      refine List.map_congr_left fun p _ => ?_
      simp only [Function.comp_apply]
      split
      · exact mergeProvider_id clk r p
      · rfl
    rw [List.foldl_cons, ih (hids ▸ hnodup), hstep, List.map_map]
    · rfl
    · intro r' hr'
      obtain ⟨p, hp, hid⟩ := hrows r' hr'
      have hmem : p.id ∈ (applyProvider clk table r).map (·.id) :=
        hids ▸ List.mem_map_of_mem hp
      obtain ⟨p', hp', hid'⟩ := List.mem_map.mp hmem
      exact ⟨p', hp', hid'.trans hid⟩

end

/-! ## What both nodes hold -/

/-- The table has the row, whatever its state. -/
def Listed (table : List Provider) (id name : String) : Prop :=
  ∃ p ∈ table, p.id = id ∧ p.name = name

structure HasCatalog (catalog : String → String → Prop) (table : List Provider) : Prop where
  nodup : (table.map (·.id)).Nodup
  listed : ∀ id name, Listed table id name ↔ catalog id name

/-- The row is alive on both nodes. -/
def Common (c : Nodes) (name id : String) : Prop := ∀ side, Alive (c.tables side) name id

/-- A snapshot holds no tombstone of what is alive on both nodes. -/
structure Consistent (catalog : String → String → Prop) (name : String) (c : Nodes) : Prop where
  tables : ∀ side, HasCatalog catalog (c.tables side)
  sent : ∀ s ∈ c.sent, HasCatalog catalog s ∧ ∀ id, Common c name id → Alive s name id

/-- At most one row of the name is alive. -/
def AtMostOne (table : List Provider) (name : String) : Prop :=
  ∀ id id', Alive table name id → Alive table name id' → id = id'

section
variable {catalog : String → String → Prop} {table snapshot : List Provider} {c : Nodes}
  {name id : String} {clk : FlushClock}

theorem listed_iff_mem :
    Listed table id name ↔ (id, name) ∈ table.map fun p => (p.id, p.name) := by
  simp [Listed]

theorem map_ids (table : List Provider) :
    (table.map fun p => (p.id, p.name)).map Prod.fst = table.map (·.id) := by
  rw [List.map_map]
  rfl

theorem HasCatalog.of_map {table' : List Provider} (h : HasCatalog catalog table)
    (heq : (table'.map fun p => (p.id, p.name)) = table.map fun p => (p.id, p.name)) :
    HasCatalog catalog table' where
  nodup := by
    rw [← map_ids, heq, map_ids]
    exact h.nodup
  listed id name := by
    rw [listed_iff_mem, heq, ← listed_iff_mem]
    exact h.listed id name

theorem HasCatalog.receives (h : HasCatalog catalog table) (hs : HasCatalog catalog snapshot)
    (clk : FlushClock) (side : Side) :
    HasCatalog catalog (receiveProviders clk side table snapshot) ∧
      ∀ name id, Alive (receiveProviders clk side table snapshot) name id ↔
        Alive table name id ∧ Alive snapshot name id := by
  have hrow : ∀ q ∈ snapshot, ∃ p ∈ table, p.id = q.id ∧ p.name = q.name := fun q hq =>
    (h.listed q.id q.name).mpr ((hs.listed q.id q.name).mp ⟨q, hq, rfl, rfl⟩)
  have hmerged : receiveProviders clk side table snapshot =
      table.map (mergeAll clk (snapshot.map buildPeerProvider)) := by
    refine applyProviders_known h.nodup fun r hr => ?_
    obtain ⟨q, hq, rfl⟩ := List.mem_map.mp hr
    obtain ⟨p, hp, hid, -⟩ := hrow q hq
    exact ⟨p, hp, hid⟩
  have hname : ∀ p ∈ table, (mergeAll clk (snapshot.map buildPeerProvider) p).name = p.name := by
    intro p hp
    refine mergeAll_name fun r hr hid => ?_
    obtain ⟨q, hq, rfl⟩ := List.mem_map.mp hr
    obtain ⟨p', hp', hid', hname'⟩ := hrow q hq
    have hsame : p' = p := eq_of_id h.nodup hp' hp (hid'.trans hid)
    rw [← hsame, hname']
    rfl
  rw [hmerged]
  refine ⟨h.of_map ?_, fun name id => ?_⟩
  · rw [List.map_map]
    refine List.map_congr_left fun p hp => ?_
    simp only [Function.comp_apply]
    rw [mergeAll_id, hname p hp]
  constructor
  · rintro ⟨p', hp', hid, hnm, hlive⟩
    obtain ⟨p, hp, rfl⟩ := List.mem_map.mp hp'
    rw [mergeAll_id] at hid
    rw [hname p hp] at hnm
    obtain ⟨hplive, hrows⟩ := mergeAll_live_iff.mp hlive
    obtain ⟨q, hq, hqid, hqname⟩ := (hs.listed id name).mpr
      ((h.listed id name).mp ⟨p, hp, hid, hnm⟩)
    refine ⟨⟨p, hp, hid, hnm, hplive⟩, q, hq, hqid, hqname, ?_⟩
    exact deleted_eq_false_iff.mpr
      (hrows (buildPeerProvider q) (List.mem_map_of_mem hq) (hqid.trans hid.symm))
  · rintro ⟨⟨p, hp, hid, hnm, hplive⟩, q, hq, hqid, -, hqlive⟩
    refine ⟨_, List.mem_map_of_mem hp, mergeAll_id.trans hid, (hname p hp).trans hnm,
      mergeAll_live_iff.mpr ⟨hplive, fun r hr hrid => ?_⟩⟩
    obtain ⟨q', hq', rfl⟩ := List.mem_map.mp hr
    have hsame : q' = q := eq_of_id hs.nodup hq' hq (hrid.trans (hid.trans hqid.symm))
    rw [hsame]
    exact deleted_eq_false_iff.mp hqlive

end

/-! ## One step -/

section
variable {catalog : String → String → Prop} {c : Nodes} {name id : String} {clk : FlushClock}

theorem stepNodes_deliver {k : Nat} {s : List Provider} (hk : c.sent[k]? = some s) (side : Side) :
    stepNodes c (.sync (.deliver k side) clk) =
      c.setTable side (receiveProviders clk side (c.tables side) s) := Gossip.step_deliver hk

theorem stepNodes_deliver_none {k : Nat} (hk : c.sent[k]? = none) (side : Side) :
    stepNodes c (.sync (.deliver k side) clk) = c := Gossip.step_deliver_none hk

theorem common_setTable_iff {side : Side} {table : List Provider} :
    Common (c.setTable side table) name id ↔
      Alive table name id ∧ Alive (c.tables side.other) name id := by
  have hother : side.other ≠ side := by cases side <;> exact nofun
  constructor
  · intro h
    have hself := h side
    have hrest := h side.other
    rw [Cluster.setTable_self] at hself
    rw [Cluster.setTable_other c table hother] at hrest
    exact ⟨hself, hrest⟩
  · rintro ⟨hself, hrest⟩ side'
    by_cases hs : side' = side
    · rw [hs, Cluster.setTable_self]
      exact hself
    · have hs' : side' = side.other := by
        cases side' <;> cases side <;> first | rfl | exact absurd rfl hs
      rw [hs', Cluster.setTable_other c table hother]
      exact hrest

theorem common_iff_pair (side : Side) : Common c name id ↔
    Alive (c.tables side) name id ∧ Alive (c.tables side.other) name id := by
  constructor
  · intro h
    exact ⟨h side, h side.other⟩
  · rintro ⟨hself, hrest⟩ side'
    cases side' <;> cases side <;> assumption

/-- What an act leaves of the common rows. -/
def Leaves (c : Nodes) (name : String) (act : NodeAct) (id : String) : Prop :=
  match act with
  | .sync _ _ => True
  | .dedup side _ _ _ => ∃ p, IsFirst (c.tables side) name p ∧ p.id = id

/-- **One act**: a sync leaves the common rows as they are, a dedup leaves the node's first row. -/
theorem common_step_iff (h : Consistent catalog name c) (act : NodeAct) :
    Common (stepNodes c act) name id ↔ Common c name id ∧ Leaves c name act id := by
  cases act with
  | sync act clk =>
    rw [show Leaves c name (.sync act clk) id ↔ True from Iff.rfl, and_true]
    cases act with
    | push side => exact Iff.rfl
    | deliver k side =>
      cases hk : c.sent[k]? with
      | none => rw [stepNodes_deliver_none hk]
      | some s =>
        obtain ⟨hcatalog, hcommon⟩ := h.sent s (List.mem_of_getElem? hk)
        rw [stepNodes_deliver hk, common_setTable_iff,
          ((h.tables side).receives hcatalog clk side).2, common_iff_pair side]
        constructor
        · rintro ⟨⟨hself, -⟩, hrest⟩
          exact ⟨hself, hrest⟩
        · rintro ⟨hself, hrest⟩
          exact ⟨⟨hself, hcommon id ((common_iff_pair side).mpr ⟨hself, hrest⟩)⟩, hrest⟩
  | dedup side now nowTs clk =>
    show Common (c.setTable side _) name id ↔ _
    rw [common_setTable_iff, alive_dedup_iff now nowTs clk (h.tables side).nodup,
      common_iff_pair side]
    constructor
    · rintro ⟨⟨p, hfirst, hid⟩, hrest⟩
      exact ⟨⟨hid ▸ hfirst.alive, hrest⟩, p, hfirst, hid⟩
    · rintro ⟨⟨-, hrest⟩, hfirst⟩
      exact ⟨hfirst, hrest⟩

theorem Consistent.setTable (h : Consistent catalog name c) {side : Side} {table : List Provider}
    (htable : HasCatalog catalog table)
    (hless : ∀ id, Common (c.setTable side table) name id → Common c name id) :
    Consistent catalog name (c.setTable side table) where
  tables side' := by
    by_cases hs : side' = side
    · rw [hs, Cluster.setTable_self]
      exact htable
    · rw [Cluster.setTable_other c table hs]
      exact h.tables side'
  sent s hs := ⟨(h.sent s hs).1, fun id hid => (h.sent s hs).2 id (hless id hid)⟩

theorem consistent_step (h : Consistent catalog name c) (act : NodeAct) :
    Consistent catalog name (stepNodes c act) := by
  have hless : ∀ id, Common (stepNodes c act) name id → Common c name id := fun id hid =>
    ((common_step_iff h act).mp hid).1
  cases act with
  | sync act clk =>
    cases act with
    | push side =>
      refine ⟨h.tables, fun s hs => ?_⟩
      rcases List.mem_append.mp hs with hs | hs
      · exact h.sent s hs
      · rw [List.mem_singleton.mp hs]
        exact ⟨h.tables side, fun id hid => hid side⟩
    | deliver k side =>
      cases hk : c.sent[k]? with
      | none =>
        rw [stepNodes_deliver_none hk]
        exact h
      | some s =>
        rw [stepNodes_deliver hk] at hless ⊢
        obtain ⟨hcatalog, -⟩ := h.sent s (List.mem_of_getElem? hk)
        exact h.setTable ((h.tables side).receives hcatalog clk side).1 hless
  | dedup side now nowTs clk =>
    exact h.setTable ((h.tables side).of_map (catalog_dedup now nowTs clk Prod.mk)) hless

theorem alive_step (h : Consistent catalog name c) (act : NodeAct) {side : Side}
    (hid : Alive ((stepNodes c act).tables side) name id) : Alive (c.tables side) name id := by
  cases act with
  | sync act clk =>
    cases act with
    | push _ => exact hid
    | deliver k target =>
      cases hk : c.sent[k]? with
      | none =>
        rw [stepNodes_deliver_none hk] at hid
        exact hid
      | some s =>
        rw [stepNodes_deliver hk] at hid
        obtain ⟨hcatalog, -⟩ := h.sent s (List.mem_of_getElem? hk)
        by_cases hs : side = target
        · rw [hs, Cluster.setTable_self] at hid
          rw [hs]
          exact ((((h.tables target).receives hcatalog clk target).2 name id).mp hid).1
        · rw [Cluster.setTable_other c _ hs] at hid
          exact hid
  | dedup target now nowTs clk =>
    have htable : (stepNodes c (.dedup target now nowTs clk)).tables side =
        (c.setTable target (dedupProvidersByName now nowTs clk (c.tables target))).tables side := rfl
    rw [htable] at hid
    by_cases hs : side = target
    · rw [hs, Cluster.setTable_self, alive_dedup_iff now nowTs clk (h.tables target).nodup] at hid
      obtain ⟨p, hfirst, hpid⟩ := hid
      rw [hs, ← hpid]
      exact hfirst.alive
    · rw [Cluster.setTable_other c _ hs] at hid
      exact hid

end

/-! ## Runs -/

/-- The row a dedup keeps is alive on the other node. -/
def KeepsCommon (name : String) (c : Nodes) : NodeAct → Prop
  | .sync _ _ => True
  | .dedup side _ _ _ =>
    ∃ p, IsFirst (c.tables side) name p ∧ Alive (c.tables side.other) name p.id

/-- Two nodes with the same ids and names, and nothing in the air. -/
structure SameCatalog (c : Nodes) : Prop where
  nodup : ∀ side, (c.tables side).map (·.id) |>.Nodup
  same : ∀ id name, Listed (c.tables .a) id name ↔ Listed (c.tables .b) id name
  quiet : c.sent = []

section
variable {catalog : String → String → Prop} {c : Nodes} {name id : String} {acts : List NodeAct}

theorem SameCatalog.consistent (h : SameCatalog c) (name : String) :
    Consistent (Listed (c.tables .a)) name c where
  tables side := by
    refine ⟨h.nodup side, fun id name => ?_⟩
    cases side with
    | a => exact Iff.rfl
    | b => exact (h.same id name).symm
  sent s hs := by
    rw [h.quiet] at hs
    cases hs

theorem consistent_run (h : Consistent catalog name c) (acts : List NodeAct) :
    Consistent catalog name (run stepNodes c acts) :=
  run_inv (I := Consistent catalog name) (fun _ act hc => consistent_step hc act) h acts

/-- **The common rows of a name** last as long as every dedup keeps one. -/
theorem exists_common_run_iff (h : Consistent catalog name c) :
    (∃ id, Common (run stepNodes c acts) name id) ↔
      (∃ id, Common c name id) ∧ Along stepNodes (KeepsCommon name) c acts := by
  induction acts generalizing c with
  | nil => simp
  | cons act acts ih =>
    rw [run_cons, along_cons, ih (consistent_step h act), ← and_assoc]
    refine and_congr_left fun _ => ?_
    cases act with
    | sync act clk => simp [common_step_iff h, Leaves, KeepsCommon]
    | dedup side now nowTs clk =>
      constructor
      · rintro ⟨id, hid⟩
        obtain ⟨hcommon, p, hfirst, hpid⟩ := (common_step_iff h _).mp hid
        exact ⟨⟨id, hcommon⟩, p, hfirst, hpid ▸ hcommon side.other⟩
      · rintro ⟨-, p, hfirst, halive⟩
        refine ⟨p.id, (common_step_iff h _).mpr ⟨?_, p, hfirst, rfl⟩⟩
        exact (common_iff_pair side).mpr ⟨hfirst.alive, halive⟩

theorem atMostOne_run {side : Side} (h : Consistent catalog name c)
    (hdone : AtMostOne (c.tables side) name ∨
      ∃ now nowTs clk, NodeAct.dedup side now nowTs clk ∈ acts) :
    AtMostOne ((run stepNodes c acts).tables side) name := by
  induction acts generalizing c with
  | nil =>
    rcases hdone with hone | ⟨now, nowTs, clk, hmem⟩
    · exact hone
    · cases hmem
  | cons act acts ih =>
    refine ih (consistent_step h act) ?_
    have hkept : AtMostOne (c.tables side) name →
        AtMostOne ((stepNodes c act).tables side) name := fun hone id id' hid hid' =>
      hone id id' (alive_step h act hid) (alive_step h act hid')
    rcases hdone with hone | ⟨now, nowTs, clk, hmem⟩
    · exact Or.inl (hkept hone)
    · rcases List.mem_cons.mp hmem with rfl | hmem
      · left
        intro id id' hid hid'
        have htable : (stepNodes c (.dedup side now nowTs clk)).tables side =
            dedupProvidersByName now nowTs clk (c.tables side) := Cluster.setTable_self c side _
        rw [htable, alive_dedup_iff now nowTs clk (h.tables side).nodup] at hid hid'
        obtain ⟨p, hp, rfl⟩ := hid
        obtain ⟨q, hq, rfl⟩ := hid'
        rw [hp.unique (h.tables side).nodup hq]
      · exact Or.inr ⟨now, nowTs, clk, hmem⟩

theorem alive_fullExchange_iff (h : Consistent catalog name c) (clk : Side → FlushClock)
    (side : Side) : Alive ((fullExchange clk c).tables side) name id ↔ Common c name id := by
  have hpushed : fullExchange clk c = run stepNodes
      ({ c with sent := c.sent ++ [c.tables .a] ++ [c.tables .b] } : Nodes)
      [.sync (.deliver c.sent.length .b) (clk .b),
        .sync (.deliver (c.sent.length + 1) .a) (clk .a)] := rfl
  have ha : (c.sent ++ [c.tables .a] ++ [c.tables .b])[c.sent.length]? = some (c.tables .a) := by
    simp
  have hb : (c.sent ++ [c.tables .a] ++ [c.tables .b])[c.sent.length + 1]? =
      some (c.tables .b) := by
    simp
  rw [hpushed, run_cons, stepNodes_deliver ha, run_cons, stepNodes_deliver hb, run_nil]
  cases side with
  | a =>
    rw [Cluster.setTable_self, Cluster.setTable_other _ _ (by exact nofun),
      ((h.tables .a).receives (h.tables .b) (clk .a) .a).2]
    exact (common_iff_pair .a).symm
  | b =>
    rw [Cluster.setTable_other _ _ (by exact nofun), Cluster.setTable_self,
      ((h.tables .b).receives (h.tables .a) (clk .b) .b).2]
    exact (common_iff_pair .b).symm

theorem length_liveRows_iff {table : List Provider} (hnodup : (table.map (·.id)).Nodup) :
    (liveRows table name).length = 1 ↔
      (∃ id, Alive table name id) ∧ AtMostOne table name := by
  have hids : ((liveRows table name).map (·.id)).Nodup :=
    hnodup.sublist (List.filter_sublist.map _)
  simp only [AtMostOne, alive_iff_liveRows]
  rw [List.length_eq_one_iff]
  constructor
  · rintro ⟨p, hp⟩
    rw [hp]
    refine ⟨⟨p.id, p, List.mem_singleton_self p, rfl⟩, ?_⟩
    rintro id id' ⟨q, hq, rfl⟩ ⟨q', hq', rfl⟩
    rw [List.mem_singleton.mp hq, List.mem_singleton.mp hq']
  · rintro ⟨⟨id, p, hp, -⟩, hone⟩
    cases hlist : liveRows table name with
    | nil =>
      rw [hlist] at hp
      cases hp
    | cons q rest =>
      cases rest with
      | nil => exact ⟨q, rfl⟩
      | cons q' rest =>
        rw [hlist] at hone hids
        have hsame := hone q.id q'.id ⟨q, List.mem_cons_self, rfl⟩
          ⟨q', List.mem_cons_of_mem q List.mem_cons_self, rfl⟩
        rw [List.map_cons, List.map_cons, hsame] at hids
        exact absurd List.mem_cons_self (List.nodup_cons.mp hids).1

end

/-- **What a name keeps.** In every run of dedups and exchanges with a dedup on each node, and after
a full exchange, the name has exactly one live row on both nodes iff a row of it was alive on both,
and at each dedup the first of the node's live rows was alive on the other node. -/
theorem dedup_keeps_name_iff (c : Nodes) (hstart : SameCatalog c) (acts : List NodeAct)
    (hboth : ∀ side, ∃ now nowTs clk, NodeAct.dedup side now nowTs clk ∈ acts)
    (clk : Side → FlushClock) (name : String) :
    (∀ side, (liveRows ((fullExchange clk (run stepNodes c acts)).tables side) name).length = 1) ↔
      (∃ id, Common c name id) ∧ Along stepNodes (KeepsCommon name) c acts := by
  have hconsistent := hstart.consistent name
  have hend := consistent_run hconsistent acts
  have hlast : Consistent (Listed (c.tables .a)) name
      (fullExchange clk (run stepNodes c acts)) := consistent_run hend _
  rw [← exists_common_run_iff hconsistent]
  have hone : ∀ side, AtMostOne ((fullExchange clk (run stepNodes c acts)).tables side) name := by
    intro side id id' hid hid'
    rw [alive_fullExchange_iff hend] at hid hid'
    exact atMostOne_run hconsistent (Or.inr (hboth .a)) id id' (hid .a) (hid' .a)
  constructor
  · intro h
    obtain ⟨⟨id, hid⟩, -⟩ := (length_liveRows_iff (hlast.tables .a).nodup).mp (h .a)
    exact ⟨id, (alive_fullExchange_iff hend clk .a).mp hid⟩
  · rintro ⟨id, hid⟩ side
    exact (length_liveRows_iff (hlast.tables side).nodup).mpr
      ⟨⟨id, (alive_fullExchange_iff hend clk side).mpr hid⟩, hone side⟩

/-! ### Two rows of one name -/

def gptRow (id : String) (created : Stamp) : Provider :=
  { id := id, name := "gpt", providerType := "openai", createdAt := created }

/-- Each row is older on the node it was created on than on the other. -/
def crossedNodes : Nodes where
  tables
    | .a => [gptRow "p1" 1, gptRow "p2" 3]
    | .b => [gptRow "p2" 2, gptRow "p1" 4]

/-- The second row came to both nodes after the first. -/
def alignedNodes : Nodes where
  tables
    | .a => [gptRow "p1" 1, gptRow "p2" 3]
    | .b => [gptRow "p2" 4, gptRow "p1" 2]

def bootClock : FlushClock := ⟨10, 10⟩

def bothDedup : List NodeAct := [.dedup .a 10 10 bootClock, .dedup .b 11 11 bootClock]

theorem bothDedup_both : ∀ side, ∃ now nowTs clk, NodeAct.dedup side now nowTs clk ∈ bothDedup
  | .a => ⟨10, 10, bootClock, List.mem_cons_self⟩
  | .b => ⟨11, 11, bootClock, List.mem_cons_of_mem _ List.mem_cons_self⟩

theorem gptRows_same {t t' : List Provider}
    (h : (t.map fun p => (p.id, p.name)).Perm (t'.map fun p => (p.id, p.name))) (id name : String) :
    Listed t id name ↔ Listed t' id name := by
  rw [listed_iff_mem, listed_iff_mem]
  exact h.mem_iff

theorem alignedNodes_same : SameCatalog alignedNodes where
  nodup side := by cases side <;> decide
  same := gptRows_same (by decide)
  quiet := rfl

theorem dedup_keeps_name_aligned :
    (liveRows ((fullExchange (fun _ => bootClock)
      (run stepNodes alignedNodes bothDedup)).tables .b) "gpt").length = 1 := by
  refine (dedup_keeps_name_iff alignedNodes alignedNodes_same bothDedup bothDedup_both
    (fun _ => bootClock) "gpt").mpr ⟨⟨"p1", fun side => ?_⟩, ?_, ?_, trivial⟩ .b
  · cases side
    · exact ⟨gptRow "p1" 1, List.mem_cons_self, rfl, rfl, rfl⟩
    · exact ⟨gptRow "p1" 2, List.mem_cons_of_mem _ List.mem_cons_self, rfl, rfl, rfl⟩
  · exact ⟨gptRow "p1" 1, ⟨by decide +kernel, by decide +kernel⟩, gptRow "p1" 2,
      List.mem_cons_of_mem _ List.mem_cons_self, rfl, rfl, rfl⟩
  · exact ⟨gptRow "p1" 2, ⟨by decide +kernel, by decide +kernel⟩, gptRow "p1" 1,
      by decide +kernel, rfl, rfl, rfl⟩

/-- **A name is lost**: each node keeps its own older row and deletes the other's. -/
theorem dedup_loses_name : SameCatalog crossedNodes ∧
    (∀ side, liveRows (crossedNodes.tables side) "gpt" ≠ []) ∧
    ∀ side, liveRows ((fullExchange (fun _ => bootClock)
      (run stepNodes crossedNodes bothDedup)).tables side) "gpt" = [] := by
  refine ⟨⟨fun side => ?_, gptRows_same (by decide), rfl⟩, fun side => ?_, fun side => ?_⟩
  · cases side <;> decide
  · cases side <;> decide +kernel
  · cases side <;> decide +kernel

end LlmProxy.Cluster
