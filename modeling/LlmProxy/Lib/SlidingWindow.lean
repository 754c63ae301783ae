import Mathlib.Algebra.Order.Group.Defs
import Mathlib.Data.List.TakeWhile
import Mathlib.Order.Lattice

/-! # Sliding windows

A queue of the times of past events, oldest first, of which the ones before a cutoff are popped from
the front. What it is for is the events since the cutoff; what it holds is what is left of all
events after some pops, so the two agree as long as events come in order and cutoffs do not fall.

> `Trails all window cutoff`: the window is all events but a first part that lies before the cutoff;
> `Trails.expire_eq_filter`: popping up to a later cutoff leaves the events since it;
> `Sparse.admitted`: who admits an event only while fewer than so many lie in the span before it has
> no more than so many in any closed span.
-/

namespace SlidingWindow

variable {α : Type _} [LinearOrder α] {all window : List α} {cutoff cutoff' t : α}

def expire (cutoff : α) (window : List α) : List α := window.dropWhile (· < cutoff)

def Trails (all window : List α) (cutoff : α) : Prop :=
  ∃ popped, all = popped ++ window ∧ ∀ t ∈ popped, t < cutoff

theorem trails_refl (all : List α) (cutoff : α) : Trails all all cutoff :=
  ⟨[], rfl, fun _ ht => absurd ht List.not_mem_nil⟩

theorem Trails.later (h : Trails all window cutoff) (hle : cutoff ≤ cutoff') :
    Trails all window cutoff' := by
  obtain ⟨popped, hall, hpopped⟩ := h
  exact ⟨popped, hall, fun t ht => lt_of_lt_of_le (hpopped t ht) hle⟩

theorem Trails.append (h : Trails all window cutoff) (new : List α) :
    Trails (all ++ new) (window ++ new) cutoff := by
  obtain ⟨popped, hall, hpopped⟩ := h
  exact ⟨popped, by rw [hall, List.append_assoc], hpopped⟩

theorem Trails.expire (h : Trails all window cutoff) :
    Trails all (expire cutoff window) cutoff := by
  obtain ⟨popped, hall, hpopped⟩ := h
  refine ⟨popped ++ window.takeWhile (· < cutoff), ?_, fun t ht => ?_⟩
  · unfold SlidingWindow.expire
    rw [hall, List.append_assoc, List.takeWhile_append_dropWhile]
  · rcases List.mem_append.mp ht with ht | ht
    · exact hpopped t ht
    · have hpopped := List.mem_takeWhile_imp ht
      exact of_decide_eq_true hpopped

theorem expire_eq_filter (hsorted : window.Pairwise (· ≤ ·)) :
    expire cutoff window = window.filter (cutoff ≤ ·) := by
  induction window with
  | nil => rfl
  | cons t window ih =>
    obtain ⟨ht, hrest⟩ := List.pairwise_cons.mp hsorted
    unfold expire at ih ⊢
    by_cases hlt : t < cutoff
    · rw [List.dropWhile_cons_of_pos (by exact decide_eq_true hlt), ih hrest,
        List.filter_cons_of_neg (by simpa using hlt)]
    · rw [List.dropWhile_cons_of_neg (by simpa using hlt)]
      refine (List.filter_eq_self.mpr fun u hu => ?_).symm
      rw [decide_eq_true_eq]
      rcases List.mem_cons.mp hu with rfl | hu
      · exact not_lt.mp hlt
      · exact le_trans (not_lt.mp hlt) (ht u hu)

/-- **What a window holds** once it is popped up to the cutoff: all events since then. -/
theorem Trails.expire_eq_filter (h : Trails all window cutoff) (hsorted : all.Pairwise (· ≤ ·)) :
    SlidingWindow.expire cutoff window = all.filter (cutoff ≤ ·) := by
  obtain ⟨popped, hall, hpopped⟩ := h
  rw [hall, List.pairwise_append] at hsorted
  rw [SlidingWindow.expire_eq_filter hsorted.2.1, hall, List.filter_append]
  have hnone : popped.filter (cutoff ≤ ·) = [] := by
    refine List.filter_eq_nil_iff.mpr fun t ht => ?_
    rw [decide_eq_true_eq]
    exact not_le.mpr (hpopped t ht)
  rw [hnone, List.nil_append]

theorem expire_append_expire (hle : ∀ t ∈ all, cutoff ≤ t) :
    expire cutoff (expire cutoff window ++ all) = expire cutoff window ++ all := by
  unfold expire
  cases hrest : window.dropWhile (· < cutoff) with
  | nil =>
    cases all with
    | nil => rfl
    | cons t all =>
      have ht := hle t List.mem_cons_self
      rw [List.nil_append, List.dropWhile_cons_of_neg (by simpa using ht)]
  | cons t rest =>
    have ht := List.head_dropWhile_not (fun u => decide (u < cutoff)) (l := window)
      (by rw [hrest]; exact List.cons_ne_nil t rest)
    rw [List.cons_append, List.dropWhile_cons_of_neg]
    simpa [hrest] using ht

/-! ## Spans -/

/-- An event that is admitted leaves a window within the limit, if what the window holds of the others
is recent and fewer than the limit are. -/
theorem length_filter_concat_le {β : Type _} {all : List β} {now : β} {limit : Nat}
    {w recent : β → Bool} (h : (all.filter w).length ≤ limit)
    (hin : w now = true → ∀ u ∈ all, w u = true → recent u = true)
    (hroom : (all.filter recent).length < limit) : ((all ++ [now]).filter w).length ≤ limit := by
  rw [List.filter_append, List.length_append]
  cases hw : w now with
  | false =>
    rw [List.filter_cons_of_neg (by rw [hw]; exact Bool.false_ne_true)]
    exact h
  | true =>
    rw [List.filter_cons_of_pos hw, List.filter_nil]
    have hsub : (all.filter w).length ≤ (all.filter recent).length := by
      rw [← List.countP_eq_length_filter, ← List.countP_eq_length_filter]
      exact List.countP_mono_left (hin hw)
    exact Nat.succ_le_of_lt (hsub.trans_lt hroom)

section

variable [AddCommGroup α] [IsOrderedAddMonoid α] {span : α} {limit : Nat}

def inSpan (all : List α) (span t : α) : List α := all.filter fun u => t ≤ u ∧ u ≤ t + span

/-- No closed span holds more events than the limit. -/
def Sparse (all : List α) (span : α) (limit : Nat) : Prop :=
  ∀ t, (inSpan all span t).length ≤ limit

omit [IsOrderedAddMonoid α] in
theorem sparse_nil (span : α) (limit : Nat) : Sparse [] span limit := fun _ => Nat.zero_le _

/-- **An event that is admitted** with room in the span before it. -/
theorem Sparse.admitted {now : α} (h : Sparse all span limit)
    (hroom : (all.filter (now - span ≤ ·)).length < limit) : Sparse (all ++ [now]) span limit := by
  intro t
  refine length_filter_concat_le (h t) (fun hnow u _ hu => ?_) hroom
  rw [decide_eq_true_eq] at hnow hu ⊢
  exact (sub_le_iff_le_add.mpr hnow.2).trans hu.1

end

end SlidingWindow
