import LlmProxy.Lib.PyList
import LlmProxy.Providers.Row
import Mathlib.Data.List.Nodup
import Mathlib.Data.Prod.Lex
import Mathlib.Data.String.Basic

/-! # Duplicate names

`app/providers/dedup.py`: of the live rows of one name all but the first are deleted, by priority,
then creation time, then id.

> `alive_dedup_iff`: after it a row of a name is alive iff it was the first.

Mirroring notes.
* `priority` and `created_at` are not null, so the substitutes in the sort key are never used.
-/

namespace LlmProxy.Providers

open LlmProxy.Cluster (Stamp EditStamp)

def dedupKey (p : Provider) : Int ×ₗ Stamp ×ₗ String := toLex (p.priority, toLex (p.createdAt, p.id))

/-- `p` stands before `q`, or is `q`. -/
def ranked (p q : Provider) : Bool := dedupKey p ≤ dedupKey q

def liveRows (table : List Provider) (name : String) : List Provider :=
  table.filter fun p => !p.deleted && p.name = name

structure DedupAction where
  name : String
  kept : String
  dropped : List String
  deriving DecidableEq, Repr

/-- The outcome for one name with its group; none for a group of one. -/
def dedupGroup (name : String) (group : List Provider) : Option DedupAction :=
  match PyList.sortBy ranked group with
  | keep :: drop :: drops => some ⟨name, keep.id, (drop :: drops).map (·.id)⟩
  | _ => none

/-- What `dedup_providers_by_name` returns, name by name in the order of the table. -/
def dedupActions (table : List Provider) : List DedupAction :=
  let rows := table.filter fun p => !p.deleted
  (rows.map (·.name)).eraseDups.filterMap fun name => dedupGroup name (liveRows table name)

/-- The tombstone of a dropped row, an authoritative edit. -/
def dropRow (now : Stamp) (nowTs : EditStamp) (p : Provider) : Provider :=
  { p with
    deletedAt := some now
    enabled := false
    updatedAt := some now
    lastUserEditAt := some nowTs }

/-- `dedup_providers_by_name`. -/
def dedupProvidersByName (now : Stamp) (nowTs : EditStamp) (clk : FlushClock)
    (table : List Provider) : List Provider :=
  let dropped := (dedupActions table).flatMap (·.dropped)
  table.map fun p => if p.id ∈ dropped then flush clk p (dropRow now nowTs p) else p

/-! ## What is left of a name -/

/-- The row `id` is live, under the name. -/
def Alive (table : List Provider) (name id : String) : Prop :=
  ∃ p ∈ table, p.id = id ∧ p.name = name ∧ p.deleted = false

/-- The first of the live rows of a name. -/
def IsFirst (table : List Provider) (name : String) (p : Provider) : Prop :=
  p ∈ liveRows table name ∧ ∀ q ∈ liveRows table name, dedupKey p ≤ dedupKey q

variable {table : List Provider} {name id : String} {p q : Provider}

theorem mem_liveRows : p ∈ liveRows table name ↔ p ∈ table ∧ p.name = name ∧ p.deleted = false := by
  simp [liveRows, and_comm]

theorem alive_iff_liveRows : Alive table name id ↔ ∃ p ∈ liveRows table name, p.id = id := by
  constructor
  · rintro ⟨p, hp, hid, hname, hlive⟩
    exact ⟨p, mem_liveRows.mpr ⟨hp, hname, hlive⟩, hid⟩
  · rintro ⟨p, hp, hid⟩
    obtain ⟨hmem, hname, hlive⟩ := mem_liveRows.mp hp
    exact ⟨p, hmem, hid, hname, hlive⟩

theorem dedupKey_id (h : dedupKey p = dedupKey q) : p.id = q.id := by
  have hpair := Prod.mk.inj (toLex.injective h)
  exact (Prod.mk.inj (toLex.injective hpair.2)).2

theorem eq_of_id (hnodup : (table.map (·.id)).Nodup) (hp : p ∈ table) (hq : q ∈ table)
    (h : p.id = q.id) : p = q := List.inj_on_of_nodup_map hnodup hp hq h

theorem mem_table_of_live (h : p ∈ liveRows table name) : p ∈ table := (mem_liveRows.mp h).1

theorem isFirst_iff (hnodup : (table.map (·.id)).Nodup) :
    IsFirst table name p ↔ (PyList.sortBy ranked (liveRows table name)).head? = some p := by
  refine (PyList.head?_sortBy_iff fun a ha b hb hkey => ?_).symm
  exact eq_of_id hnodup (mem_table_of_live ha) (mem_table_of_live hb) (dedupKey_id hkey)

theorem nodup_liveRows (hnodup : (table.map (·.id)).Nodup) : (liveRows table name).Nodup :=
  (List.Nodup.of_map _ hnodup).filter _

theorem mem_dropped_iff (hnodup : (table.map (·.id)).Nodup) (hp : p ∈ liveRows table name) :
    p.id ∈ (dedupActions table).flatMap (·.dropped) ↔ ¬ IsFirst table name p := by
  have hsorted : (PyList.sortBy ranked (liveRows table name)).Nodup :=
    (List.perm_insertionSort _ _).nodup_iff.mpr (nodup_liveRows hnodup)
  have hin : p ∈ PyList.sortBy ranked (liveRows table name) := PyList.mem_sortBy.mpr hp
  rw [isFirst_iff hnodup]
  constructor
  · intro hdropped hfirst
    obtain ⟨action, haction, hid⟩ := List.mem_flatMap.mp hdropped
    obtain ⟨other, -, hgroup⟩ := List.mem_filterMap.mp haction
    unfold dedupGroup at hgroup
    split at hgroup
    · next keep drop drops hsort =>
      obtain rfl := Option.some.inj hgroup
      obtain ⟨q, hq, hqid⟩ := List.mem_map.mp hid
      have hqsort : q ∈ PyList.sortBy ranked (liveRows table other) := by
        rw [hsort]
        exact List.mem_cons_of_mem keep hq
      have hqin : q ∈ liveRows table other := PyList.mem_sortBy.mp hqsort
      -- the dropped row is `p` itself, so it is of its name and not in front
      obtain rfl := eq_of_id hnodup (mem_table_of_live hqin) (mem_table_of_live hp) hqid
      have hname : other = name := (mem_liveRows.mp hqin).2.1.symm.trans (mem_liveRows.mp hp).2.1
      rw [hname] at hsort
      rw [hsort] at hfirst hsorted
      obtain rfl := Option.some.inj hfirst
      exact (List.nodup_cons.mp hsorted).1 hq
    · cases hgroup
  · intro hnot
    obtain ⟨hmem, hname, hlive⟩ := mem_liveRows.mp hp
    cases hsort : PyList.sortBy ranked (liveRows table name) with
    | nil =>
      rw [hsort] at hin
      cases hin
    | cons keep rest =>
      rw [hsort] at hin hnot
      rcases List.mem_cons.mp hin with rfl | hrest
      · exact absurd rfl hnot
      · obtain ⟨drop, drops, rfl⟩ := List.exists_cons_of_ne_nil (List.ne_nil_of_mem hrest)
        refine List.mem_flatMap.mpr ⟨⟨name, keep.id, (drop :: drops).map (·.id)⟩, ?_,
          List.mem_map_of_mem hrest⟩
        refine List.mem_filterMap.mpr ⟨name, ?_, ?_⟩
        · refine List.mem_eraseDups.mpr (List.mem_map.mpr ⟨p, ?_, hname⟩)
          exact List.mem_filter.mpr ⟨hmem, by simp [hlive]⟩
        · unfold dedupGroup
          rw [hsort]

section
variable (now : Stamp) (nowTs : EditStamp) (clk : FlushClock)

theorem flush_name (old new : Provider) : (flush clk old new).name = new.name := by
  obtain ⟨u, e, h⟩ := flush_cases clk old new
  rw [h]

theorem catalog_dedup {β : Type} (f : String → String → β) :
    (dedupProvidersByName now nowTs clk table).map (fun p => f p.id p.name) =
      table.map fun p => f p.id p.name := by
  unfold dedupProvidersByName
  rw [List.map_map]
  refine List.map_congr_left fun p _ => ?_
  simp only [Function.comp_apply]
  split
  · rw [flush_id, flush_name]
    rfl
  · rfl

/-- **After a dedup** the first row of a name is alive, and no other. -/
theorem alive_dedup_iff (hnodup : (table.map (·.id)).Nodup) :
    Alive (dedupProvidersByName now nowTs clk table) name id ↔
      ∃ p, IsFirst table name p ∧ p.id = id := by
  have hdropped : ∀ p, (flush clk p (dropRow now nowTs p)).deleted = true := by
    intro p
    unfold Provider.deleted
    rw [flush_deletedAt]
    rfl
  constructor
  · rintro ⟨q, hq, hid, hname, hlive⟩
    obtain ⟨p, hp, rfl⟩ := List.mem_map.mp hq
    split at hlive
    · rw [hdropped p] at hlive
      cases hlive
    · next hkept =>
      rw [if_neg hkept] at hid hname
      have hrow : p ∈ liveRows table name := mem_liveRows.mpr ⟨hp, hname, hlive⟩
      exact ⟨p, not_not.mp ((not_congr (mem_dropped_iff hnodup hrow)).mp hkept), hid⟩
  · rintro ⟨p, hfirst, hid⟩
    obtain ⟨hp, hname, hlive⟩ := mem_liveRows.mp hfirst.1
    refine ⟨p, List.mem_map.mpr ⟨p, hp, ?_⟩, hid, hname, hlive⟩
    exact if_neg fun hdrop => (mem_dropped_iff hnodup hfirst.1).mp hdrop hfirst

end

theorem IsFirst.alive (h : IsFirst table name p) : Alive table name p.id :=
  alive_iff_liveRows.mpr ⟨p, h.1, rfl⟩

theorem IsFirst.unique (hnodup : (table.map (·.id)).Nodup) (hp : IsFirst table name p)
    (hq : IsFirst table name q) : p = q :=
  eq_of_id hnodup (mem_table_of_live hp.1) (mem_table_of_live hq.1)
    (dedupKey_id (le_antisymm (hp.2 q hq.1) (hq.2 p hp.1)))

end LlmProxy.Providers
