import Mathlib.Data.Fin.Basic
import Mathlib.Data.List.Pairwise
import Mathlib.Order.Fin.Basic

/-! # Copied fields and versions

A payload carries a field or leaves it out, and a merge copies the field if it is there and passes
a guard (`copyIf`).

A row has versions, in the order in which its owner wrote them, and what is sent of a version is
merged into copies of the row. A copy that shows some version never goes back if it shows the latest
of the versions it has been sent and that one.

> `neverBack_iff`: exactly if each version leaves the rows of the same and of later ones alone, and
> turns the rows of earlier ones into its own.
-/

namespace Copied

/-! ## Fields -/

section

variable {α : Type _} {guard : α → Bool} {existing x : α}

def copyIf (guard : α → Bool) (sent : Option α) (existing : α) : α :=
  match sent with
  | some x => if guard x then x else existing
  | none => existing

theorem copyIf_pass (h : guard x = true) : copyIf guard (some x) existing = x := if_pos h

end

/-! ## Versions -/

section

variable {ν ε ρ : Type _} (row : ν → ρ) (applies : ν → ε → Prop) (merge : ν → ε → ρ → ρ)

/-- **Never backwards**: from the row of a version, whatever versions are delivered and applied, in
any order and any number of times, lead to the row of the latest of these and that one. -/
def NeverBack (versions : List ν) : Prop :=
  ∀ (i : Fin versions.length) (ds : List (Fin versions.length × ε)),
    (∀ d ∈ ds, applies (versions.get d.1) d.2) →
    ds.foldl (fun a d => merge (versions.get d.1) d.2 a) (row (versions.get i)) =
      row (versions.get (ds.foldl (fun k d => max k d.1) i))

/-- What is sent of a version leaves the row of a later one alone, and the other way round it is
taken over. -/
structure InOrder (v w : ν) : Prop where
  kept : ∀ e, applies v e → merge v e (row w) = row w
  taken : ∀ e, applies w e → merge w e (row v) = row w

variable {row applies merge} {versions : List ν}

theorem NeverBack.one (h : NeverBack row applies merge versions) (i j : Fin versions.length) (e : ε)
    (hj : applies (versions.get j) e) :
    merge (versions.get j) e (row (versions.get i)) = row (versions.get (max i j)) := by
  have hsingle := h i [(j, e)] fun d hd => by
    rw [List.mem_singleton.mp hd]
    exact hj
  exact hsingle

/-- **A run goes back nowhere** exactly if none of its deliveries does, by induction on these. -/
theorem neverBack_iff : NeverBack row applies merge versions ↔
    (∀ v ∈ versions, InOrder row applies merge v v) ∧
      versions.Pairwise (InOrder row applies merge) := by
  rw [List.pairwise_iff_get]
  constructor
  · intro h
    refine ⟨fun v hv => ?_, fun i j hij => ⟨fun e he => ?_, fun e he => ?_⟩⟩
    · obtain ⟨i, rfl⟩ := List.mem_iff_get.mp hv
      have hsame : ∀ e, applies (versions.get i) e →
          merge (versions.get i) e (row (versions.get i)) = row (versions.get i) := fun e he => by
        have hone := h.one i i e he
        rwa [max_self] at hone
      exact ⟨hsame, hsame⟩
    · have hone := h.one j i e he
      rwa [max_eq_left hij.le] at hone
    · have hone := h.one i j e he
      rwa [max_eq_right hij.le] at hone
  · rintro ⟨hself, hpairs⟩ i ds
    induction ds generalizing i with
    | nil => exact fun _ => rfl
    | cons d ds ih =>
      intro hds
      obtain ⟨hd, hds⟩ := List.forall_mem_cons.mp hds
      have hstep : merge (versions.get d.1) d.2 (row (versions.get i)) =
          row (versions.get (max i d.1)) := by
        rcases lt_trichotomy i d.1 with hlt | heq | hgt
        · rw [max_eq_right hlt.le]
          exact (hpairs i d.1 hlt).taken d.2 hd
        · rw [heq, max_self]
          exact (hself _ (List.get_mem versions d.1)).kept d.2 hd
        · rw [max_eq_left hgt.le]
          exact (hpairs d.1 i hgt).kept d.2 hd
      rw [List.foldl_cons, List.foldl_cons, hstep]
      exact ih (max i d.1) hds

end

end Copied
