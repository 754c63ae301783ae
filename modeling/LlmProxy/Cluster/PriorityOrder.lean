import LlmProxy.Lib.Gossip
import LlmProxy.Lib.Ranking
import LlmProxy.Providers.Background

/-! # The tie-break on two nodes

`apply_sync` ends its settings section with `normalize_priority_ties`, so that all nodes come to one
order of the providers. Ties are broken by age, and `created_at` is in no payload: each node stamps
the row when it inserts it.

> `priorities_agree_iff`: two nodes that agree on every replicated column come to the same
> priorities, and keep them through all further exchanges, exactly if each two routable rows of one
> priority are of the same order by age on both.
-/

namespace LlmProxy.Cluster

open LlmProxy.Providers Gossip Ranking Trace

/-! ## The slots -/

/-- The priorities `breakTies` ends with, by the priorities it starts from. -/
def slots (seen : List Int) : List Int → List Int
  | [] => []
  | p :: ps =>
    let slot := if p ∈ seen then nextFree seen seen.length p else p
    slot :: slots (slot :: seen) ps

theorem length_slots (seen ps : List Int) : (slots seen ps).length = ps.length := by
  induction ps generalizing seen with
  | nil => rfl
  | cons p ps ih =>
    unfold slots
    rw [List.length_cons, List.length_cons, ih]

theorem slots_free (seen ps : List Int) :
    (slots seen ps).Nodup ∧ ∀ s ∈ slots seen ps, s ∉ seen := by
  induction ps generalizing seen with
  | nil => exact ⟨List.nodup_nil, fun _ h => nomatch h⟩
  | cons p ps ih =>
    have hslot : (if p ∈ seen then nextFree seen seen.length p else p) ∉ seen := by
      split
      · exact nextFree_not_mem seen p
      · next hp => exact hp
    obtain ⟨hnodup, hfree⟩ := ih ((if p ∈ seen then nextFree seen seen.length p else p) :: seen)
    unfold slots
    refine ⟨List.nodup_cons.mpr ⟨fun hmem => hfree _ hmem List.mem_cons_self, hnodup⟩, ?_⟩
    intro s hs
    rcases List.mem_cons.mp hs with rfl | hs
    · exact hslot
    · exact fun hseen => hfree s hs (List.mem_cons_of_mem _ hseen)

theorem breakTies_eq (seen : List Int) (rows : List Provider) :
    breakTies seen rows =
      (rows.zip (slots seen (rows.map Provider.priority))).filter fun m => m.1.priority ≠ m.2 := by
  induction rows generalizing seen with
  | nil => rfl
  | cons row rows ih =>
    unfold breakTies
    rw [List.map_cons, slots]
    by_cases hp : row.priority ∈ seen
    · have hmoved : row.priority ≠ nextFree seen seen.length row.priority := by
        intro heq
        exact nextFree_not_mem seen row.priority (heq ▸ hp)
      simp only [if_pos hp, List.zip_cons_cons]
      rw [List.filter_cons_of_pos (by simpa using hmoved), ih]
    · simp only [if_neg hp, List.zip_cons_cons]
      rw [List.filter_cons_of_neg (by simp), ih]

/-! ## One node -/

def rowOf (id : String) (table : List Provider) : Option Provider :=
  table.find? fun p => p.id == id

/-- The routable rows, in the order they are gone through. -/
def ranked (table : List Provider) : List Provider :=
  PyList.sortBy tieOrder (table.filter Provider.routable)

def rankedSlots (table : List Provider) : List Int :=
  slots [] ((ranked table).map Provider.priority)

theorem flush_priority (clk : FlushClock) (old new : Provider) :
    (flush clk old new).priority = new.priority := by
  obtain ⟨u, e, h⟩ := flush_cases clk old new
  rw [h]

variable {clk : FlushClock} {table : List Provider}

theorem mem_ranked {p : Provider} : p ∈ ranked table ↔ p ∈ table ∧ p.routable = true := by
  unfold ranked
  rw [PyList.mem_sortBy, List.mem_filter]

theorem ranked_perm (table : List Provider) : (ranked table).Perm (table.filter Provider.routable) :=
  List.perm_insertionSort _ _

theorem length_rankedSlots (table : List Provider) :
    (rankedSlots table).length = (ranked table).length := by
  unfold rankedSlots
  rw [length_slots, List.length_map]

theorem eq_of_id (hids : (table.map Provider.id).Nodup) {p q : Provider} (hp : p ∈ table)
    (hq : q ∈ table) (h : p.id = q.id) : p = q :=
  List.inj_on_of_nodup_map hids hp hq h

theorem rowOf_eq_some (hids : (table.map Provider.id).Nodup) {p : Provider} {id : String} :
    rowOf id table = some p ↔ p ∈ table ∧ p.id = id := by
  constructor
  · intro h
    have hfound := List.find?_some h
    exact ⟨List.mem_of_find?_eq_some h, eq_of_beq hfound⟩
  · rintro ⟨hp, rfl⟩
    cases hrow : rowOf p.id table with
    | none => exact absurd (beq_self_eq_true p.id) (List.find?_eq_none.mp hrow p hp)
    | some q =>
      have hfound := List.find?_some hrow
      rw [eq_of_id hids (List.mem_of_find?_eq_some hrow) hp (eq_of_beq hfound)]

theorem tieMoves_eq (table : List Provider) :
    tieMoves table =
      ((ranked table).zip (rankedSlots table)).filter fun m => m.1.priority ≠ m.2 :=
  breakTies_eq [] (ranked table)

theorem ranked_nodup (hids : (table.map Provider.id).Nodup) : (ranked table).Nodup :=
  (ranked_perm table).nodup_iff.mpr ((List.Nodup.of_map _ hids).filter _)

theorem slot_unique (hids : (table.map Provider.id).Nodup) {m m' : Provider × Int}
    (h : m ∈ (ranked table).zip (rankedSlots table))
    (h' : m' ∈ (ranked table).zip (rankedSlots table)) (heq : m.1 = m'.1) : m = m' := by
  have hfst : (((ranked table).zip (rankedSlots table)).map Prod.fst).Nodup := by
    rw [List.map_fst_zip (le_of_eq (length_rankedSlots table).symm)]
    exact ranked_nodup hids
  exact List.inj_on_of_nodup_map hfst h h' heq

theorem moveRow_some {p : Provider} {m : Provider × Int} {moves : List (Provider × Int)}
    (h : moves.find? (fun m => m.1 == p) = some m) :
    moveRow clk moves p = flush clk p { p with priority := m.2 } := by
  unfold moveRow
  rw [h]

theorem moveRow_none {p : Provider} {moves : List (Provider × Int)}
    (h : moves.find? (fun m => m.1 == p) = none) : moveRow clk moves p = p := by
  unfold moveRow
  rw [h]

@[simp] theorem moveRow_id (moves : List (Provider × Int)) (p : Provider) :
    (moveRow clk moves p).id = p.id := by
  cases h : moves.find? fun m => m.1 == p with
  | none => rw [moveRow_none h]
  | some m => rw [moveRow_some h, flush_id]

theorem mem_tieMoves {m : Provider × Int} :
    m ∈ tieMoves table ↔
      m ∈ (ranked table).zip (rankedSlots table) ∧ m.1.priority ≠ m.2 := by
  rw [tieMoves_eq, List.mem_filter]
  simp

theorem find?_moves {p : Provider} {m : Provider × Int}
    (h : (tieMoves table).find? (fun m => m.1 == p) = some m) : m ∈ tieMoves table ∧ m.1 = p := by
  have hfound := List.find?_some h
  exact ⟨List.mem_of_find?_eq_some h, eq_of_beq hfound⟩

/-- **A ranked row** ends on its slot. -/
theorem moveRow_slot (hids : (table.map Provider.id).Nodup) {p : Provider} {slot : Int}
    (h : (p, slot) ∈ (ranked table).zip (rankedSlots table)) :
    (moveRow clk (tieMoves table) p).priority = slot := by
  cases hfind : (tieMoves table).find? fun m => m.1 == p with
  | some m =>
    obtain ⟨hm, hp⟩ := find?_moves hfind
    rw [moveRow_some hfind, flush_priority]
    rw [slot_unique hids (mem_tieMoves.mp hm).1 h hp]
  | none =>
    rw [moveRow_none hfind]
    by_contra hne
    have hmove : (p, slot) ∈ tieMoves table := mem_tieMoves.mpr ⟨h, hne⟩
    exact absurd (beq_self_eq_true p) (List.find?_eq_none.mp hfind (p, slot) hmove)

theorem moveRow_unranked {p : Provider} (h : p.routable = false) :
    moveRow clk (tieMoves table) p = p := by
  cases hfind : (tieMoves table).find? fun m => m.1 == p with
  | none => exact moveRow_none hfind
  | some m =>
    obtain ⟨hm, hp⟩ := find?_moves hfind
    have hranked := (List.of_mem_zip (mem_tieMoves.mp hm).1).1
    rw [hp] at hranked
    rw [(mem_ranked.mp hranked).2] at h
    cases h

theorem rowOf_normalize (id : String) (table : List Provider) :
    rowOf id (normalizePriorityTies clk table).1 =
      (rowOf id table).map (moveRow clk (tieMoves table)) := by
  unfold rowOf normalizePriorityTies
  rw [List.find?_map]
  congr 2
  funext p
  simp

/-! ## The order -/

/-- The order of the rows of one priority: `created_at`, then `id`. -/
def ageOrder (a b : Provider) : Bool :=
  if a.createdAt ≠ b.createdAt then a.createdAt ≤ b.createdAt else a.id ≤ b.id

theorem tieOrder_of_ne {a b : Provider} (h : a.priority ≠ b.priority) :
    tieOrder a b = decide (a.priority ≤ b.priority) := by
  unfold tieOrder
  rw [if_pos h]

theorem tieOrder_of_eq {a b : Provider} (h : a.priority = b.priority) :
    tieOrder a b = ageOrder a b := by
  unfold tieOrder ageOrder
  rw [if_neg (not_not.mpr h)]

theorem tieOrder_iff {a b : Provider} :
    tieOrder a b = true ↔
      a.priority < b.priority ∨ a.priority = b.priority ∧
        (a.createdAt < b.createdAt ∨ a.createdAt = b.createdAt ∧ a.id ≤ b.id) := by
  unfold tieOrder
  by_cases hp : a.priority = b.priority
  · rw [if_neg (not_not.mpr hp)]
    by_cases hc : a.createdAt = b.createdAt
    · rw [if_neg (not_not.mpr hc)]
      simp [hp, hc]
    · rw [if_pos hc]
      simp [hp, hc, le_iff_lt_or_eq]
  · rw [if_pos hp]
    simp [hp, le_iff_lt_or_eq]

theorem tieOrder_total (a b : Provider) : tieOrder a b = true ∨ tieOrder b a = true := by
  rw [tieOrder_iff, tieOrder_iff]
  rcases lt_trichotomy a.priority b.priority with hp | hp | hp
  · exact Or.inl (Or.inl hp)
  · rcases lt_trichotomy a.createdAt b.createdAt with hc | hc | hc
    · exact Or.inl (Or.inr ⟨hp, Or.inl hc⟩)
    · rcases le_total a.id b.id with hid | hid
      · exact Or.inl (Or.inr ⟨hp, Or.inr ⟨hc, hid⟩⟩)
      · exact Or.inr (Or.inr ⟨hp.symm, Or.inr ⟨hc.symm, hid⟩⟩)
    · exact Or.inr (Or.inr ⟨hp.symm, Or.inl hc⟩)
  · exact Or.inr (Or.inl hp)

theorem tieOrder_trans {a b c : Provider} (hab : tieOrder a b = true) (hbc : tieOrder b c = true) :
    tieOrder a c = true := by
  rw [tieOrder_iff] at hab hbc ⊢
  rcases hab with hab | ⟨hab, hab' | ⟨hab', hid⟩⟩ <;>
    rcases hbc with hbc | ⟨hbc, hbc' | ⟨hbc', hid'⟩⟩
  · exact Or.inl (hab.trans hbc)
  · exact Or.inl (hbc ▸ hab)
  · exact Or.inl (hbc ▸ hab)
  · exact Or.inl (hab ▸ hbc)
  · exact Or.inr ⟨hab.trans hbc, Or.inl (hab'.trans hbc')⟩
  · exact Or.inr ⟨hab.trans hbc, Or.inl (hbc' ▸ hab')⟩
  · exact Or.inl (hab ▸ hbc)
  · exact Or.inr ⟨hab.trans hbc, Or.inl (hab' ▸ hbc')⟩
  · exact Or.inr ⟨hab.trans hbc, Or.inr ⟨hab'.trans hbc', hid.trans hid'⟩⟩

theorem tieOrder_level {a b : Provider} (hab : tieOrder a b = true) (hba : tieOrder b a = true) :
    a.id = b.id := by
  rw [tieOrder_iff] at hab hba
  rcases hab with hp | ⟨hp, hab⟩
  · rcases hba with hp' | ⟨hp', -⟩
    · exact absurd hp' hp.asymm
    · exact absurd hp'.symm hp.ne
  rcases hba with hp' | ⟨-, hba⟩
  · exact absurd hp hp'.ne'
  rcases hab with hc | ⟨hc, hid⟩
  · rcases hba with hc' | ⟨hc', -⟩
    · exact absurd hc' hc.asymm
    · exact absurd hc'.symm hc.ne
  rcases hba with hc' | ⟨-, hid'⟩
  · exact absurd hc hc'.ne'
  · exact le_antisymm hid hid'

theorem ranked_sorted (table : List Provider) :
    (ranked table).Pairwise fun a b => tieOrder a b = true :=
  @List.pairwise_insertionSort Provider (fun a b => tieOrder a b = true) _ ⟨tieOrder_total⟩
    ⟨fun _ _ _ => tieOrder_trans⟩ _

theorem tieOrder_priority {a b : Provider} (h : tieOrder a b = true) : a.priority ≤ b.priority := by
  rcases tieOrder_iff.mp h with hlt | ⟨heq, -⟩
  · exact le_of_lt hlt
  · exact le_of_eq heq

/-! ## Two nodes -/

/-- Two tables that agree on every replicated column. -/
structure Replicas (t t' : List Provider) : Prop where
  ids : (t.map Provider.id).Nodup
  ids' : (t'.map Provider.id).Nodup
  agree : ∀ id, (rowOf id t).map buildPeerProvider = (rowOf id t').map buildPeerProvider

def SamePriorities (t t' : List Provider) : Prop :=
  ∀ id, (rowOf id t).map Provider.priority = (rowOf id t').map Provider.priority

/-- Every two routable rows of one priority are of the same order by age in both tables. -/
def TiesAlike (t t' : List Provider) : Prop :=
  ∀ a ∈ t, ∀ b ∈ t, a.routable = true → b.routable = true → a.priority = b.priority →
    ∀ a' ∈ t', ∀ b' ∈ t', a'.id = a.id → b'.id = b.id → ageOrder a b = ageOrder a' b'

instance (t t' : List Provider) : Decidable (TiesAlike t t') :=
  inferInstanceAs (Decidable (∀ a ∈ t, ∀ b ∈ t, _))

variable {t t' : List Provider} {clk clk' : FlushClock}

theorem Replicas.symm (h : Replicas t t') : Replicas t' t :=
  ⟨h.ids', h.ids, fun id => (h.agree id).symm⟩

theorem Replicas.row (h : Replicas t t') {p : Provider} (hp : p ∈ t) :
    ∃ p' ∈ t', p'.id = p.id ∧ buildPeerProvider p = buildPeerProvider p' := by
  have hrow := h.agree p.id
  rw [(rowOf_eq_some h.ids).mpr ⟨hp, rfl⟩] at hrow
  obtain ⟨p', hp', hsame⟩ := Option.map_eq_some_iff.mp hrow.symm
  obtain ⟨hmem, hid⟩ := (rowOf_eq_some h.ids').mp hp'
  exact ⟨p', hmem, hid, hsame.symm⟩

theorem priority_of_payload {p p' : Provider} (h : buildPeerProvider p = buildPeerProvider p') :
    p.priority = p'.priority :=
  Option.some.inj (congrArg PeerProvider.priority h)

theorem routable_of_payload {p p' : Provider} (h : buildPeerProvider p = buildPeerProvider p') :
    p.routable = p'.routable := by
  have henabled : p.enabled = p'.enabled := Option.some.inj (congrArg PeerProvider.enabled h)
  have hdeleted : p.deletedAt = p'.deletedAt := congrArg PeerProvider.deletedAt h
  unfold Provider.routable
  rw [henabled, hdeleted]

def rankKey (p : Provider) : String × Int := (p.id, p.priority)

theorem Replicas.rankKey_mem (h : Replicas t t') {p : Provider} (hp : p ∈ ranked t) :
    rankKey p ∈ (ranked t').map rankKey := by
  obtain ⟨hmem, hroutable⟩ := mem_ranked.mp hp
  obtain ⟨p', hp', hid, hpayload⟩ := h.row hmem
  refine List.mem_map.mpr ⟨p', mem_ranked.mpr ⟨hp', ?_⟩, ?_⟩
  · rw [← routable_of_payload hpayload]
    exact hroutable
  · unfold rankKey
    rw [hid, priority_of_payload hpayload]

theorem rankKey_nodup (hids : (table.map Provider.id).Nodup) :
    ((ranked table).map rankKey).Nodup := by
  refine List.Nodup.of_map Prod.fst ?_
  rw [List.map_map]
  have hperm := (ranked_perm table).map Provider.id
  exact hperm.nodup_iff.mpr ((List.filter_sublist.map Provider.id).nodup hids)

theorem Replicas.rankKey_perm (h : Replicas t t') :
    ((ranked t).map rankKey).Perm ((ranked t').map rankKey) := by
  refine (List.perm_ext_iff_of_nodup (rankKey_nodup h.ids) (rankKey_nodup h.ids')).mpr fun k => ?_
  constructor
  · intro hk
    obtain ⟨p, hp, rfl⟩ := List.mem_map.mp hk
    exact h.rankKey_mem hp
  · intro hk
    obtain ⟨p, hp, rfl⟩ := List.mem_map.mp hk
    exact h.symm.rankKey_mem hp

theorem Replicas.ids_perm (h : Replicas t t') :
    ((ranked t).map Provider.id).Perm ((ranked t').map Provider.id) := by
  have hperm := h.rankKey_perm.map Prod.fst
  rwa [List.map_map, List.map_map] at hperm

/-- **The slots** are the same on both nodes. -/
theorem Replicas.slots_eq (h : Replicas t t') : rankedSlots t = rankedSlots t' := by
  have hperm := h.rankKey_perm.map Prod.snd
  rw [List.map_map, List.map_map] at hperm
  have hsorted : ∀ table : List Provider,
      ((ranked table).map Provider.priority).Pairwise fun x y => x ≤ y := by
    intro table
    exact List.pairwise_map.mpr ((ranked_sorted table).imp tieOrder_priority)
  unfold rankedSlots
  congr 1
  exact hperm.eq_of_pairwise (fun _ _ _ _ hab hba => le_antisymm hab hba) (hsorted t) (hsorted t')

theorem exists_slot {p : Provider} (hp : p ∈ ranked table) :
    ∃ slot, (p, slot) ∈ (ranked table).zip (rankedSlots table) := by
  rw [← List.map_fst_zip (le_of_eq (length_rankedSlots table).symm)] at hp
  obtain ⟨⟨q, slot⟩, hmem, rfl⟩ := List.mem_map.mp hp
  exact ⟨slot, hmem⟩

theorem mem_idSlots {id : String} {slot : Int} {l : List Int} :
    (id, slot) ∈ ((ranked table).map Provider.id).zip l ↔
      ∃ p, (p, slot) ∈ (ranked table).zip l ∧ p.id = id := by
  rw [List.zip_map_left, List.mem_map]
  constructor
  · rintro ⟨⟨p, s⟩, hmem, heq⟩
    obtain ⟨hid, rfl⟩ := Prod.mk.inj heq
    exact ⟨p, hmem, hid⟩
  · rintro ⟨p, hmem, rfl⟩
    exact ⟨(p, slot), hmem, rfl⟩

theorem priority_normalize (hids : (table.map Provider.id).Nodup) {p : Provider} (hp : p ∈ table) :
    (rowOf p.id (normalizePriorityTies clk table).1).map Provider.priority =
      some (moveRow clk (tieMoves table) p).priority := by
  rw [rowOf_normalize, (rowOf_eq_some hids).mpr ⟨hp, rfl⟩]
  rfl

theorem Replicas.slot_row (h : Replicas t t') {p : Provider} (hp : p ∈ ranked t) :
    ∃ p' ∈ t', p'.id = p.id ∧ ∃ slot, (p', slot) ∈ (ranked t').zip (rankedSlots t') := by
  obtain ⟨hmem, hroutable⟩ := mem_ranked.mp hp
  obtain ⟨p', hp', hid, hpayload⟩ := h.row hmem
  have hranked : p' ∈ ranked t' := by
    refine mem_ranked.mpr ⟨hp', ?_⟩
    rw [← routable_of_payload hpayload]
    exact hroutable
  exact ⟨p', hp', hid, exists_slot hranked⟩

/-- **Two nodes come to the same priorities** exactly if they rank the rows alike. -/
theorem samePriorities_iff (h : Replicas t t') :
    SamePriorities (normalizePriorityTies clk t).1 (normalizePriorityTies clk' t').1 ↔
      (ranked t).map Provider.id = (ranked t').map Provider.id := by
  have hslots := h.slots_eq
  constructor
  · intro hsame
    have hnodup : (rankedSlots t).Nodup := (slots_free [] _).1
    refine eq_of_zip_subset hnodup ?_ ?_ fun e he => ?_
    · rw [List.length_map, length_rankedSlots]
    · rw [List.length_map, hslots, length_rankedSlots]
    · obtain ⟨id, slot⟩ := e
      obtain ⟨p, hp, rfl⟩ := mem_idSlots.mp he
      have hranked := (List.of_mem_zip hp).1
      obtain ⟨p', hp', hid, slot', hslot'⟩ := h.slot_row hranked
      -- the slot is the row's priority on both nodes
      have hprio := hsame p.id
      rw [priority_normalize h.ids (mem_ranked.mp hranked).1, ← hid,
        priority_normalize h.ids' hp', moveRow_slot h.ids hp, moveRow_slot h.ids' hslot'] at hprio
      rw [hslots]
      exact mem_idSlots.mpr ⟨p', Option.some.inj hprio ▸ hslot', hid⟩
  · intro hids id
    cases hrow : rowOf id t with
    | none =>
      have hnone : rowOf id t' = none := by
        have hagree := h.agree id
        rw [hrow] at hagree
        exact Option.map_eq_none_iff.mp hagree.symm
      rw [rowOf_normalize, rowOf_normalize, hrow, hnone]
      rfl
    | some p =>
      obtain ⟨hp, rfl⟩ := (rowOf_eq_some h.ids).mp hrow
      obtain ⟨p', hp', hid, hpayload⟩ := h.row hp
      have hprio' := @priority_normalize _ clk' h.ids' _ hp'
      rw [hid] at hprio'
      rw [priority_normalize h.ids hp, hprio']
      cases hroutable : p.routable with
      | false =>
        rw [moveRow_unranked hroutable,
          moveRow_unranked ((routable_of_payload hpayload).symm.trans hroutable),
          priority_of_payload hpayload]
      | true =>
        obtain ⟨slot, hslot⟩ := exists_slot (mem_ranked.mpr ⟨hp, hroutable⟩)
        have hplace : (p.id, slot) ∈ ((ranked t').map Provider.id).zip (rankedSlots t') := by
          rw [← hids, ← hslots]
          exact mem_idSlots.mpr ⟨p, hslot, rfl⟩
        obtain ⟨q, hq, hqid⟩ := mem_idSlots.mp hplace
        have hsame : q = p' :=
          eq_of_id h.ids' (mem_ranked.mp (List.of_mem_zip hq).1).1 hp' (hqid.trans hid.symm)
        rw [hsame] at hq
        rw [moveRow_slot h.ids hslot, moveRow_slot h.ids' hq]

theorem Replicas.payload (h : Replicas t t') {p p' : Provider} (hp : p ∈ t) (hp' : p' ∈ t')
    (hid : p'.id = p.id) : buildPeerProvider p = buildPeerProvider p' := by
  obtain ⟨q, hq, hqid, hpayload⟩ := h.row hp
  rw [hpayload, eq_of_id h.ids' hq hp' (hqid.trans hid.symm)]

theorem TiesAlike.tieOrder_eq (h : Replicas t t') (halike : TiesAlike t t') {a b a' b' : Provider}
    (ha : a ∈ t) (hb : b ∈ t) (hra : a.routable = true) (hrb : b.routable = true) (ha' : a' ∈ t')
    (hb' : b' ∈ t') (haid : a'.id = a.id) (hbid : b'.id = b.id) :
    tieOrder a b = tieOrder a' b' := by
  have hpa := priority_of_payload (h.payload ha ha' haid)
  have hpb := priority_of_payload (h.payload hb hb' hbid)
  by_cases hprio : a.priority = b.priority
  · rw [tieOrder_of_eq hprio, tieOrder_of_eq (hpa ▸ hpb ▸ hprio)]
    exact halike a ha b hb hra hrb hprio a' ha' b' hb' haid hbid
  · rw [tieOrder_of_ne hprio, tieOrder_of_ne (hpa ▸ hpb ▸ hprio), hpa, hpb]

theorem ageOrder_self (a : Provider) : ageOrder a a = true := by
  simp [ageOrder]

/-- The order of the ids of a table. -/
def idOrder (t : List Provider) (x y : String) : Prop :=
  ∀ a ∈ t, ∀ b ∈ t, a.id = x → b.id = y → tieOrder a b = true

/-- **The rows are ranked alike** exactly if ties are of the same order by age. -/
theorem ranked_ids_iff (h : Replicas t t') :
    (ranked t).map Provider.id = (ranked t').map Provider.id ↔ TiesAlike t t' := by
  constructor
  · intro hids a ha b hb hra hrb hprio a' ha' b' hb' haid hbid
    have hpayloadA := h.payload ha ha' haid
    have hpayloadB := h.payload hb hb' hbid
    by_cases hid : a.id = b.id
    · have hab : a = b := eq_of_id h.ids ha hb hid
      have hab' : a' = b' := eq_of_id h.ids' ha' hb' (by rw [haid, hbid, hid])
      rw [hab, hab', ageOrder_self, ageOrder_self]
    · have hprio' : a'.priority = b'.priority := by
        rw [← priority_of_payload hpayloadA, ← priority_of_payload hpayloadB, hprio]
      have hiff := related_iff hids (ranked_sorted t) (ranked_sorted t')
        (fun _ _ _ _ => tieOrder_level) (fun _ _ _ _ => tieOrder_level)
        (fun c hc d hd => eq_of_id h.ids' (mem_ranked.mp hc).1 (mem_ranked.mp hd).1)
        (mem_ranked.mpr ⟨ha, hra⟩) (mem_ranked.mpr ⟨hb, hrb⟩)
        (mem_ranked.mpr ⟨ha', (routable_of_payload hpayloadA).symm.trans hra⟩)
        (mem_ranked.mpr ⟨hb', (routable_of_payload hpayloadB).symm.trans hrb⟩)
        haid.symm hbid.symm hid
      rw [tieOrder_of_eq hprio, tieOrder_of_eq hprio'] at hiff
      exact Bool.eq_iff_iff.mpr hiff
  · intro halike
    -- both rankings are sorted by the order of the first node's rows
    refine @List.Perm.eq_of_pairwise String (idOrder t) _ _ (fun x y hx hy hxy hyx => ?_) ?_ ?_
      h.ids_perm
    · obtain ⟨a, ha, rfl⟩ := List.mem_map.mp hx
      obtain ⟨b', hb', rfl⟩ := List.mem_map.mp hy
      have hat := (mem_ranked.mp ha).1
      obtain ⟨b, hb, hbid, -⟩ := h.symm.row (mem_ranked.mp hb').1
      exact (tieOrder_level (hxy a hat b hb rfl hbid) (hyx b hb a hat hbid rfl)).trans hbid
    · refine List.pairwise_map.mpr ((ranked_sorted t).imp_of_mem ?_)
      intro c d hc hd hcd a ha b hb hac hbd
      rw [eq_of_id h.ids ha (mem_ranked.mp hc).1 hac, eq_of_id h.ids hb (mem_ranked.mp hd).1 hbd]
      exact hcd
    · refine List.pairwise_map.mpr ((ranked_sorted t').imp_of_mem ?_)
      intro c d hc hd hcd a ha b hb hac hbd
      obtain ⟨hct, hcr⟩ := mem_ranked.mp hc
      obtain ⟨hdt, hdr⟩ := mem_ranked.mp hd
      have hra := (routable_of_payload (h.payload ha hct hac.symm)).trans hcr
      have hrb := (routable_of_payload (h.payload hb hdt hbd.symm)).trans hdr
      rw [halike.tieOrder_eq h ha hb hra hrb hct hdt hac.symm hbd.symm]
      exact hcd

/-! ## Further exchanges -/

/-- A node and the number of syncs it has taken. -/
structure TiedNode where
  table : List Provider
  syncs : Nat := 0

/-- The providers section of `apply_sync` and its tie-break, each with the clock of its flush. -/
def syncProviders (clk clk' : FlushClock) (table : List Provider) (rows : List PeerProvider) :
    List Provider :=
  (normalizePriorityTies clk' (applyProviders clk table rows)).1

/-- A push of the sender's table, delivered to node `i`. -/
def receiveSync (clock : Bool → Nat → FlushClock × FlushClock) (i : Bool) (node sender : TiedNode) :
    TiedNode where
  table := syncProviders (clock i node.syncs).1 (clock i node.syncs).2 node.table
    (sender.table.map buildPeerProvider)
  syncs := node.syncs + 1

def twoNodes (t t' : List Provider) : Gossip.Cluster Bool TiedNode where
  tables i := ⟨if i then t' else t, 0⟩

/-- No exchange changes a priority on either node. -/
def KeepsPriorities (t t' : List Provider) : Prop :=
  ∀ clock as, SamePriorities ((run (step (receiveSync clock)) (twoNodes t t') as).tables false).table t ∧
    SamePriorities ((run (step (receiveSync clock)) (twoNodes t t') as).tables true).table t'

/-- What the tie-break and the gates of the merge go by. -/
def coreKey (p : Provider) : String × Int × Bool × Option Stamp :=
  (p.id, p.priority, p.enabled, p.deletedAt)

def activePriorities (table : List Provider) : List Int :=
  (table.filter Provider.routable).map Provider.priority

theorem activePriorities_of_coreKey (h : t.map coreKey = t'.map coreKey) :
    activePriorities t = activePriorities t' := by
  have hkeys : ∀ table : List Provider, activePriorities table =
      ((table.map coreKey).filter fun k => k.2.2.2.isNone && k.2.2.1).map fun k => k.2.1 := by
    intro table
    rw [List.filter_map, List.map_map]
    rfl
  rw [hkeys, hkeys, h]

theorem normalize_of_nodup (h : (activePriorities table).Nodup) :
    (normalizePriorityTies clk table).1 = table := by
  have hnone : tieMoves table = [] := tieMoves_eq_nil_iff.mpr (List.pairwise_map.mp h)
  have hrow : ∀ p ∈ table, moveRow clk [] p = id p := fun p _ => rfl
  unfold normalizePriorityTies
  rw [hnone]
  exact (List.map_congr_left hrow).trans (List.map_id table)

theorem moveRow_coreKey (moves : List (Provider × Int)) (p : Provider) :
    (moveRow clk moves p).enabled = p.enabled ∧ (moveRow clk moves p).deletedAt = p.deletedAt := by
  cases h : moves.find? fun m => m.1 == p with
  | none =>
    rw [moveRow_none h]
    exact ⟨rfl, rfl⟩
  | some m =>
    rw [moveRow_some h, flush_enabled, flush_deletedAt]
    exact ⟨rfl, rfl⟩

/-- **After the tie-break** no two routable rows are of one priority. -/
theorem activePriorities_normalize (hids : (table.map Provider.id).Nodup) :
    (activePriorities (normalizePriorityTies clk table).1).Nodup := by
  have hslots : (ranked table).map (fun p => (moveRow clk (tieMoves table) p).priority) =
      rankedSlots table :=
    map_eq_slots (length_rankedSlots table).symm fun e he => moveRow_slot hids he
  have hperm := (ranked_perm table).map fun p => (moveRow clk (tieMoves table) p).priority
  have hroutable : (fun p => (moveRow clk (tieMoves table) p).routable) = Provider.routable := by
    funext p
    obtain ⟨henabled, hdeleted⟩ := @moveRow_coreKey clk (tieMoves table) p
    unfold Provider.routable
    rw [henabled, hdeleted]
  have hactive : activePriorities (normalizePriorityTies clk table).1 =
      (table.filter Provider.routable).map fun p => (moveRow clk (tieMoves table) p).priority := by
    unfold activePriorities normalizePriorityTies
    rw [List.filter_map, List.map_map]
    show ((table.filter fun p => (moveRow clk (tieMoves table) p).routable).map _) = _
    rw [hroutable]
    rfl
  rw [hactive]
  exact hperm.nodup_iff.mp (hslots ▸ (slots_free [] _).1)

/-! ### One sync -/

theorem mergeProvider_coreKey {e p : Provider} (h : coreKey e = coreKey p) :
    coreKey (mergeProvider clk (buildPeerProvider p) e) = coreKey e := by
  obtain ⟨hid, hprio, henabled, hdeleted⟩ :
      e.id = p.id ∧ e.priority = p.priority ∧ e.enabled = p.enabled ∧ e.deletedAt = p.deletedAt := by
    simpa [coreKey] using h
  have hrow : coreKey (mergeProviderRow (buildPeerProvider p) e) = coreKey e := by
    have hlive : ((buildPeerProvider p).deletedAt.isSome && e.deletedAt.isNone) = false := by
      show (p.deletedAt.isSome && e.deletedAt.isNone) = false
      rw [hdeleted]
      cases p.deletedAt <;> rfl
    unfold mergeProviderRow
    rw [hlive, if_neg Bool.false_ne_true]
    split
    · rfl
    split
    · show (e.id, p.priority, p.enabled, e.deletedAt) = coreKey e
      rw [← hprio, ← henabled]
      rfl
    · rfl
  unfold mergeProvider coreKey at *
  rw [flush_id, flush_priority, flush_enabled, flush_deletedAt]
  exact hrow

theorem applyProvider_coreKey {p e : Provider} (he : rowOf p.id table = some e)
    (h : coreKey e = coreKey p) :
    (applyProvider clk table (buildPeerProvider p)).map coreKey = table.map coreKey := by
  have hfound := List.find?_some he
  have hany : table.any (fun q => q.id == (buildPeerProvider p).id) = true :=
    List.any_eq_true.mpr ⟨e, List.mem_of_find?_eq_some he, hfound⟩
  unfold applyProvider providerKeys
  rw [Table.upsert_of_any hany]
  refine Table.map_updateFirst_eq_iff.mpr fun q hq => ?_
  rw [Option.some.inj (hq.symm.trans he)]
  exact mergeProvider_coreKey h

theorem ids_of_coreKey (h : t.map coreKey = t'.map coreKey) :
    t.map Provider.id = t'.map Provider.id := by
  have hids := congrArg (List.map Prod.fst) h
  rwa [List.map_map, List.map_map] at hids

theorem rowOf_coreKey (hids : (table.map Provider.id).Nodup) {p : Provider}
    (hp : coreKey p ∈ table.map coreKey) :
    ∃ e, rowOf p.id table = some e ∧ coreKey e = coreKey p := by
  obtain ⟨e, he, hsame⟩ := List.mem_map.mp hp
  have hid : e.id = p.id := congrArg Prod.fst hsame
  exact ⟨e, (rowOf_eq_some hids).mpr ⟨he, hid⟩, hsame⟩

theorem applyProviders_coreKey {rows : List Provider} (hids : (table.map Provider.id).Nodup)
    (h : ∀ p ∈ rows, coreKey p ∈ table.map coreKey) :
    (applyProviders clk table (rows.map buildPeerProvider)).map coreKey = table.map coreKey := by
  induction rows generalizing table with
  | nil => rfl
  | cons p rows ih =>
    obtain ⟨hp, hrest⟩ := List.forall_mem_cons.mp h
    obtain ⟨e, he, hsame⟩ := rowOf_coreKey hids hp
    have hone := @applyProvider_coreKey _ clk _ _ he hsame
    show (applyProviders clk (applyProvider clk table (buildPeerProvider p))
      (rows.map buildPeerProvider)).map coreKey = table.map coreKey
    rw [ih (by rw [ids_of_coreKey hone]; exact hids) fun q hq => by rw [hone]; exact hrest q hq, hone]

/-- **A sync** of rows that agree on the core, into a table without ties. -/
theorem syncProviders_coreKey {rows : List Provider} (hids : (table.map Provider.id).Nodup)
    (hties : (activePriorities table).Nodup) (h : ∀ p ∈ rows, coreKey p ∈ table.map coreKey) :
    (syncProviders clk clk' table (rows.map buildPeerProvider)).map coreKey = table.map coreKey := by
  have hmerged := @applyProviders_coreKey _ clk _ hids h
  unfold syncProviders
  rw [normalize_of_nodup (by rw [activePriorities_of_coreKey hmerged]; exact hties), hmerged]

theorem samePriorities_of_coreKey (h : t.map coreKey = t'.map coreKey) : SamePriorities t t' := by
  have hrow : ∀ (id : String) (table : List Provider), (rowOf id table).map Provider.priority =
      ((table.map coreKey).find? fun k => k.1 == id).map fun k => k.2.1 := by
    intro id table
    rw [List.find?_map, Option.map_map]
    rfl
  intro id
  rw [hrow, hrow, h]

/-! ### Runs -/

/-- Each node has the core it started with, and every push in the air is of rows both nodes have. -/
def CoreKept (t t' : List Provider) (c : Gossip.Cluster Bool TiedNode) : Prop :=
  (∀ i, (c.tables i).table.map coreKey = (if i then t' else t).map coreKey) ∧
    ∀ s ∈ c.sent, ∀ p ∈ s.table, coreKey p ∈ t.map coreKey

/-- Two tables without ties, of the same rows. -/
structure Settled (t t' : List Provider) : Prop where
  ids : (t.map Provider.id).Nodup
  ids' : (t'.map Provider.id).Nodup
  ties : (activePriorities t).Nodup
  ties' : (activePriorities t').Nodup
  same : ∀ k, k ∈ t.map coreKey ↔ k ∈ t'.map coreKey

theorem step_coreKept (h : Settled t t') (clock : Bool → Nat → FlushClock × FlushClock)
    (c : Gossip.Cluster Bool TiedNode) (a : Gossip.Act Bool) (hc : CoreKept t t' c) :
    CoreKept t t' (step (receiveSync clock) c a) := by
  obtain ⟨htables, hsent⟩ := hc
  cases a with
  | push i =>
    refine ⟨htables, fun s hs p hp => ?_⟩
    rcases List.mem_append.mp hs with hs | hs
    · exact hsent s hs p hp
    · rw [List.mem_singleton.mp hs] at hp
      have hkey := List.mem_map_of_mem (f := coreKey) hp
      rw [htables i] at hkey
      cases i with
      | false => exact hkey
      | true => exact (h.same _).mpr hkey
  | deliver k i =>
    cases hk : c.sent[k]? with
    | none =>
      rw [step_deliver_none hk]
      exact ⟨htables, hsent⟩
    | some s =>
      rw [step_deliver hk]
      refine ⟨fun j => ?_, hsent⟩
      by_cases hj : j = i
      · subst hj
        rw [Gossip.Cluster.setTable_self]
        have hrows : ∀ p ∈ s.table, coreKey p ∈ (c.tables j).table.map coreKey := by
          intro p hp
          have hkey := hsent s (List.mem_of_getElem? hk) p hp
          rw [htables j]
          cases j with
          | false => exact hkey
          | true => exact (h.same _).mp hkey
        have hties : (activePriorities (c.tables j).table).Nodup := by
          rw [activePriorities_of_coreKey (htables j)]
          cases j with
          | false => exact h.ties
          | true => exact h.ties'
        have hids : ((c.tables j).table.map Provider.id).Nodup := by
          rw [ids_of_coreKey (htables j)]
          cases j with
          | false => exact h.ids
          | true => exact h.ids'
        show (syncProviders _ _ (c.tables j).table (s.table.map buildPeerProvider)).map coreKey = _
        rw [syncProviders_coreKey hids hties hrows]
        exact htables j
      · rw [Gossip.Cluster.setTable_other c _ hj]
        exact htables j

/-- **Settled nodes** change no priority any more. -/
theorem Settled.keepsPriorities (h : Settled t t') : KeepsPriorities t t' := by
  intro clock as
  have hstart : CoreKept t t' (twoNodes t t') :=
    ⟨fun i => by cases i <;> rfl, fun s hs => nomatch hs⟩
  have hkept := run_inv (step_coreKept h clock) hstart as
  exact ⟨samePriorities_of_coreKey (hkept.1 false), samePriorities_of_coreKey (hkept.1 true)⟩

/-! ## Main theorem -/

theorem normalize_ids (clk : FlushClock) (table : List Provider) :
    (normalizePriorityTies clk table).1.map Provider.id = table.map Provider.id := by
  unfold normalizePriorityTies
  rw [List.map_map]
  exact List.map_congr_left fun p _ => moveRow_id _ p

theorem normalize_coreKey_mem (h : Replicas t t')
    (hsame : SamePriorities (normalizePriorityTies clk t).1 (normalizePriorityTies clk' t').1)
    {k : String × Int × Bool × Option Stamp}
    (hk : k ∈ (normalizePriorityTies clk t).1.map coreKey) :
    k ∈ (normalizePriorityTies clk' t').1.map coreKey := by
  obtain ⟨q, hq, rfl⟩ := List.mem_map.mp hk
  obtain ⟨p, hp, rfl⟩ := List.mem_map.mp hq
  obtain ⟨p', hp', hid, hpayload⟩ := h.row hp
  have hprio := hsame p.id
  rw [priority_normalize h.ids hp, ← hid, priority_normalize h.ids' hp'] at hprio
  refine List.mem_map.mpr ⟨_, List.mem_map_of_mem hp', ?_⟩
  obtain ⟨henabled, hdeleted⟩ := @moveRow_coreKey clk (tieMoves t) p
  obtain ⟨henabled', hdeleted'⟩ := @moveRow_coreKey clk' (tieMoves t') p'
  have hsent : p.enabled = p'.enabled := Option.some.inj (congrArg PeerProvider.enabled hpayload)
  have hgone : p.deletedAt = p'.deletedAt := congrArg PeerProvider.deletedAt hpayload
  unfold coreKey
  rw [moveRow_id, moveRow_id, Option.some.inj hprio, henabled, henabled', hdeleted, hdeleted', hid,
    hsent, hgone]

theorem settled_of_same (h : Replicas t t')
    (hsame : SamePriorities (normalizePriorityTies clk t).1 (normalizePriorityTies clk' t').1) :
    Settled (normalizePriorityTies clk t).1 (normalizePriorityTies clk' t').1 where
  ids := by rw [normalize_ids]; exact h.ids
  ids' := by rw [normalize_ids]; exact h.ids'
  ties := activePriorities_normalize h.ids
  ties' := activePriorities_normalize h.ids'
  same _ := ⟨normalize_coreKey_mem h hsame,
    normalize_coreKey_mem h.symm fun id => (hsame id).symm⟩

/-- **The order agrees across nodes** exactly if ties are of the same order by age on both: after
the tie-break the two nodes have the same priorities, and no further exchange of payloads, in any
order, changes one. -/
theorem priorities_agree_iff (h : Replicas t t') (clk clk' : FlushClock) :
    (SamePriorities (normalizePriorityTies clk t).1 (normalizePriorityTies clk' t').1 ∧
      (SamePriorities (normalizePriorityTies clk t).1 (normalizePriorityTies clk' t').1 →
        KeepsPriorities (normalizePriorityTies clk t).1 (normalizePriorityTies clk' t').1)) ↔
      TiesAlike t t' := by
  constructor
  · rintro ⟨hsame, -⟩
    exact (ranked_ids_iff h).mp ((samePriorities_iff h).mp hsame)
  · intro halike
    exact ⟨(samePriorities_iff h).mpr ((ranked_ids_iff h).mpr halike),
      fun hsame => (settled_of_same h hsame).keepsPriorities⟩

/-! ### Two providers of one priority -/

/-- A provider of priority 2, with the creation stamp a node gives it. -/
def tied (id : String) (createdAt : Stamp) : Provider :=
  { id, name := id, providerType := "openai", priority := 2, createdAt }

theorem replicas_of_payload (hids : (t.map Provider.id).Nodup) (hids' : (t'.map Provider.id).Nodup)
    (h : t.map buildPeerProvider = t'.map buildPeerProvider) : Replicas t t' := by
  have hrow : ∀ (id : String) (table : List Provider), (rowOf id table).map buildPeerProvider =
      (table.map buildPeerProvider).find? fun r => r.id == id := by
    intro id table
    rw [List.find?_map]
    rfl
  exact ⟨hids, hids', fun id => by rw [hrow, hrow, h]⟩

/-- The node where both were made. -/
def firstNode : List Provider := [tied "a" 1, tied "b" 2]

/-- A node that was synced with them in turn. -/
def sameAgeNode : List Provider := [tied "a" 5, tied "b" 6]

/-- A node that heard of the second one first. -/
def otherAgeNode : List Provider := [tied "a" 6, tied "b" 5]

theorem priorities_agree_synced :
    SamePriorities (normalizePriorityTies ⟨9, 9⟩ firstNode).1
        (normalizePriorityTies ⟨9, 9⟩ sameAgeNode).1 ∧
      KeepsPriorities (normalizePriorityTies ⟨9, 9⟩ firstNode).1
        (normalizePriorityTies ⟨9, 9⟩ sameAgeNode).1 := by
  have h := (priorities_agree_iff (@replicas_of_payload firstNode sameAgeNode
    (by decide) (by decide) rfl) ⟨9, 9⟩ ⟨9, 9⟩).mpr (by decide)
  exact ⟨h.1, h.2 h.1⟩

/-- **Two nodes that disagree**: each moves the row that is younger there. -/
theorem priorities_disagree :
    Replicas firstNode otherAgeNode ∧
      (rowOf "a" (normalizePriorityTies ⟨9, 9⟩ firstNode).1).map Provider.priority = some 2 ∧
      (rowOf "a" (normalizePriorityTies ⟨9, 9⟩ otherAgeNode).1).map Provider.priority = some 3 ∧
      ¬ SamePriorities (normalizePriorityTies ⟨9, 9⟩ firstNode).1
        (normalizePriorityTies ⟨9, 9⟩ otherAgeNode).1 := by
  refine ⟨replicas_of_payload (by decide) (by decide) rfl, by decide, by decide, fun hsame => ?_⟩
  exact absurd (hsame "a") (by decide)

end LlmProxy.Cluster
