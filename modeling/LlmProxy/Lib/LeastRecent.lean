import Mathlib.Data.Finset.Card

/-! # Turns of the least recent

Of some members one with the least stamp has its turn, and its stamp is then above all others. The
members that had a turn since some point are a top segment of the stamps; while it is not all of
them, the next turn is that of another member.

> `Turns.nodup`: as many turns in a row as there are members are of different members;
> `Turns.period`: and then each comes again, in the same order.
-/

namespace LeastRecent

variable {ι κ : Type _} [LinearOrder κ] {members : Finset ι}

structure Turn (members : Finset ι) (stamp stamp' : ι → κ) (p : ι) : Prop where
  member : p ∈ members
  least : ∀ x ∈ members, stamp p ≤ stamp x
  last : ∀ x ∈ members, stamp x < stamp' p
  others : ∀ x ∈ members, x ≠ p → stamp' x = stamp x

inductive Turns (members : Finset ι) : (ι → κ) → List ι → Prop
  | nil (stamp) : Turns members stamp []
  | cons {stamp stamp' p ps} : Turn members stamp stamp' p → Turns members stamp' ps →
      Turns members stamp (p :: ps)

/-- The stamps of some members are above those of the others. -/
def TopSegment (members : Finset ι) (stamp : ι → κ) (front : Finset ι) : Prop :=
  ∀ x ∈ members, x ∉ front → ∀ y ∈ front, stamp x < stamp y

variable {stamp stamp' : ι → κ} {p : ι} {ps : List ι} {front : Finset ι}

theorem Turns.mem (h : Turns members stamp ps) : ∀ p ∈ ps, p ∈ members := by
  induction h with
  | nil => exact fun _ hp => absurd hp List.not_mem_nil
  | cons hturn _ ih => exact List.forall_mem_cons.mpr ⟨hturn.member, ih⟩

theorem Turns.drop (h : Turns members stamp ps) (n : Nat) :
    ∃ stamp' : ι → κ, Turns members stamp' (ps.drop n) := by
  induction h generalizing n with
  | nil stamp => exact ⟨stamp, by rw [List.drop_nil]; exact .nil stamp⟩
  | @cons stamp stamp' p ps hturn hturns ih =>
    cases n with
    | zero => exact ⟨stamp, .cons hturn hturns⟩
    | succ n => exact ih n

theorem Turns.take (h : Turns members stamp ps) (n : Nat) : Turns members stamp (ps.take n) := by
  induction h generalizing n with
  | nil stamp =>
    rw [List.take_nil]
    exact .nil stamp
  | @cons stamp stamp' p ps hturn _ ih =>
    cases n with
    | zero => exact .nil stamp
    | succ n => exact .cons hturn (ih n)

variable [DecidableEq ι]

/-- **A turn** is of a member outside, which joins. -/
theorem Turn.topSegment (h : Turn members stamp stamp' p) (hfront : front ⊆ members)
    (hcard : front.card < members.card) (htop : TopSegment members stamp front) :
    p ∉ front ∧ TopSegment members stamp' (insert p front) := by
  obtain ⟨x, hx, hout⟩ := Finset.exists_mem_notMem_of_card_lt_card hcard
  have hp : p ∉ front := fun hp => absurd (h.least x hx) (not_le.mpr (htop x hx hout p hp))
  refine ⟨hp, fun y hy hyout z hz => ?_⟩
  obtain ⟨hne, hyfront⟩ := not_or.mp (mt Finset.mem_insert.mpr hyout)
  rw [h.others y hy hne]
  rcases Finset.mem_insert.mp hz with rfl | hz
  · exact h.last y hy
  · rw [h.others z (hfront hz) fun heq => hp (heq ▸ hz)]
    exact htop y hy hyfront z hz

theorem Turns.nodup_of_topSegment (h : Turns members stamp ps) (hfront : front ⊆ members)
    (hcard : front.card + ps.length ≤ members.card) (htop : TopSegment members stamp front) :
    ps.Nodup ∧ ∀ p ∈ ps, p ∉ front := by
  induction h generalizing front with
  | nil => exact ⟨List.nodup_nil, fun _ hp => absurd hp List.not_mem_nil⟩
  | @cons stamp stamp' p ps hturn _ ih =>
    rw [List.length_cons] at hcard
    obtain ⟨hp, hnext⟩ := hturn.topSegment hfront (by omega) htop
    obtain ⟨hnodup, hout⟩ := ih (Finset.insert_subset hturn.member hfront)
      (by rw [Finset.card_insert_of_notMem hp]; omega) hnext
    refine ⟨List.nodup_cons.mpr ⟨fun hmem => hout p hmem (Finset.mem_insert_self _ _), hnodup⟩, ?_⟩
    refine List.forall_mem_cons.mpr ⟨hp, fun q hq hfrontq => ?_⟩
    exact hout q hq (Finset.mem_insert_of_mem hfrontq)

/-- **As many turns as members** are of different members. -/
theorem Turns.nodup (h : Turns members stamp ps) (i : Nat) :
    ((ps.drop i).take members.card).Nodup := by
  obtain ⟨stamp', hdrop⟩ := h.drop i
  refine ((hdrop.take members.card).nodup_of_topSegment (Finset.empty_subset _) ?_ ?_).1
  · rw [Finset.card_empty, Nat.zero_add]
    exact List.length_take_le _ _
  · exact fun _ _ _ y hy => absurd hy (Finset.notMem_empty y)

/-- **After a round** the member that was first is first again. -/
theorem Turns.period (h : Turns members stamp ps) {i : Nat} (hi : i + members.card < ps.length) :
    ps[i + members.card]? = ps[i]? := by
  obtain ⟨k, hk⟩ : ∃ k, members.card = k + 1 := by
    have hmem := h.mem _ (List.getElem_mem hi)
    exact Nat.exists_eq_succ_of_ne_zero (Finset.card_ne_zero_of_mem hmem)
  -- the round from `i` is all members, and so is that from `i + 1`
  have hround := h.nodup i
  have hnext := h.nodup (i + 1)
  have hfirst : ps.drop i = ps[i] :: ps.drop (i + 1) := List.drop_eq_getElem_cons (by omega)
  have hlen : k < (ps.drop (i + 1)).length := by
    rw [List.length_drop]
    omega
  rw [hfirst, hk, List.take_succ_cons] at hround
  rw [hk, List.take_succ_eq_append_getElem hlen] at hnext
  have hlast : (ps.drop (i + 1))[k] = ps[i + members.card] := by
    rw [List.getElem_drop]
    congr 1
    omega
  have hall : (ps[i] :: (ps.drop (i + 1)).take k).toFinset = members := by
    refine Finset.eq_of_subset_of_card_le (fun p hp => ?_) ?_
    · rw [List.mem_toFinset] at hp
      rcases List.mem_cons.mp hp with rfl | hp
      · exact h.mem _ (List.getElem_mem _)
      · exact h.mem p (List.mem_of_mem_drop (List.mem_of_mem_take hp))
    · rw [List.toFinset_card_of_nodup hround, List.length_cons, List.length_take, hk]
      omega
  have hmem : ps[i + members.card] ∈ ps[i] :: (ps.drop (i + 1)).take k := by
    rw [← List.mem_toFinset, hall]
    exact h.mem _ (List.getElem_mem hi)
  rw [List.getElem?_eq_getElem hi, List.getElem?_eq_getElem (by omega)]
  rcases List.mem_cons.mp hmem with heq | hin
  · rw [heq]
  · have hdisjoint := (List.nodup_append.mp hnext).2.2 _ hin _ (List.mem_singleton_self _)
    exact absurd hlast.symm hdisjoint

end LeastRecent
