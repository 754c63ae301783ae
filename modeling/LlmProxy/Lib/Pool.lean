import Mathlib.Data.List.Perm.Basic

/-! # Pools of a list

The members of a pool stand at some places of a list, and are put back at these places in another
order: a walk along the list, `refill`. The members are the new ones, everything else stays where it
is, and two pools without a common element do not see each other (`refill_comm`).
-/

namespace Pool

variable {α : Type _} (p q : α → Bool)

/-- The list with its members taken from another list, one after the other. -/
def refill : List α → List α → List α
  | [], _ => []
  | x :: l, [] => x :: refill l []
  | x :: l, y :: ys => if p x then y :: refill l ys else x :: refill l (y :: ys)

variable {p q}

theorem refill_nil (l : List α) : refill p l [] = l := by
  induction l with
  | nil => rfl
  | cons x l ih => rw [refill, ih]

theorem getElem?_refill {l : List α} {i : Nat} {x : α} (ys : List α) (hget : l[i]? = some x)
    (hx : p x = false) : (refill p l ys)[i]? = some x := by
  induction l generalizing i ys with
  | nil => exact absurd hget (by simp)
  | cons z l ih =>
    cases ys with
    | nil => rwa [refill_nil]
    | cons y ys =>
      rw [refill]
      cases i with
      | zero =>
        obtain rfl : z = x := by simpa using hget
        rw [if_neg (by rw [hx]; exact Bool.false_ne_true)]
        rfl
      | succ i =>
        have hrest : l[i]? = some x := by simpa using hget
        split
        · rw [List.getElem?_cons_succ, ih ys hrest]
        · rw [List.getElem?_cons_succ, ih (y :: ys) hrest]

theorem filter_refill {l ys : List α} (hys : ∀ y ∈ ys, p y = true)
    (hlength : ys.length = (l.filter p).length) : (refill p l ys).filter p = ys := by
  induction l generalizing ys with
  | nil =>
    rw [List.length_eq_zero_iff.mp hlength]
    rfl
  | cons x l ih =>
    cases ys with
    | nil =>
      rw [refill_nil]
      exact List.length_eq_zero_iff.mp hlength.symm
    | cons y ys =>
      obtain ⟨hy, hrest⟩ := List.forall_mem_cons.mp hys
      rw [refill]
      cases hx : p x with
      | true =>
        rw [List.filter_cons_of_pos hx] at hlength
        rw [if_pos rfl, List.filter_cons_of_pos hy, ih hrest (Nat.succ.inj hlength)]
      | false =>
        have hnot : ¬ p x = true := by rw [hx]; exact Bool.false_ne_true
        rw [List.filter_cons_of_neg hnot] at hlength
        rw [if_neg Bool.false_ne_true, List.filter_cons_of_neg hnot, ih hys hlength]

theorem filter_refill_not {l ys : List α} (hys : ∀ y ∈ ys, q y = false)
    (hdisjoint : ∀ x, p x = true → q x = false) : (refill p l ys).filter q = l.filter q := by
  induction l generalizing ys with
  | nil => rfl
  | cons x l ih =>
    cases ys with
    | nil => rw [refill_nil]
    | cons y ys =>
      obtain ⟨hy, hrest⟩ := List.forall_mem_cons.mp hys
      rw [refill]
      cases hx : p x with
      | true =>
        rw [if_pos rfl, List.filter_cons_of_neg (by rw [hy]; exact Bool.false_ne_true),
          List.filter_cons_of_neg (by rw [hdisjoint x hx]; exact Bool.false_ne_true), ih hrest]
      | false =>
        rw [if_neg Bool.false_ne_true, List.filter_cons, List.filter_cons, ih hys]

theorem refill_perm {l ys : List α} (hperm : ys.Perm (l.filter p)) : (refill p l ys).Perm l := by
  have hys : ∀ y ∈ ys, p y = true := fun y hy => (List.mem_filter.mp (hperm.subset hy)).2
  have hin : ((refill p l ys).filter p).Perm (l.filter p) := by
    rw [filter_refill hys hperm.length_eq]
    exact hperm
  have hout : (refill p l ys).filter (fun x => !p x) = l.filter fun x => !p x :=
    filter_refill_not (fun y hy => by rw [hys y hy]; rfl) fun x hx => by rw [hx]; rfl
  refine (List.filter_append_perm p _).symm.trans (List.Perm.trans ?_ (List.filter_append_perm p l))
  rw [hout]
  exact hin.append_right _

theorem refill_self (l : List α) : refill p l (l.filter p) = l := by
  induction l with
  | nil => rfl
  | cons x l ih =>
    cases hx : p x with
    | true => rw [List.filter_cons_of_pos hx, refill, hx, if_pos rfl, ih]
    | false =>
      rw [List.filter_cons_of_neg (by rw [hx]; exact Bool.false_ne_true)]
      cases hfilter : l.filter p with
      | nil => rw [refill_nil]
      | cons y ys => rw [refill, hx, if_neg Bool.false_ne_true, ← hfilter, ih]

theorem refill_comm {l ys zs : List α} (hdisjoint : ∀ x, p x = true → q x = false)
    (hys : ∀ y ∈ ys, p y = true) (hzs : ∀ z ∈ zs, q z = true) :
    refill q (refill p l ys) zs = refill p (refill q l zs) ys := by
  have hback : ∀ x, q x = true → p x = false := by
    intro x hq
    cases hp : p x with
    | false => rfl
    | true =>
      rw [hdisjoint x hp] at hq
      cases hq
  induction l generalizing ys zs with
  | nil => rfl
  | cons x l ih =>
    cases ys with
    | nil => rw [refill_nil, refill_nil]
    | cons y ys =>
      obtain ⟨hy, hys'⟩ := List.forall_mem_cons.mp hys
      cases zs with
      | nil => rw [refill_nil, refill_nil]
      | cons z zs =>
        obtain ⟨hz, hzs'⟩ := List.forall_mem_cons.mp hzs
        cases hp : p x with
        | true =>
          simp only [refill, hp, hdisjoint x hp, hdisjoint y hy, if_true, Bool.false_eq_true,
            if_false]
          rw [ih hys' hzs]
        | false =>
          cases hq : q x with
          | true =>
            simp only [refill, hp, hq, hback z hz, if_true, Bool.false_eq_true, if_false]
            rw [ih hys hzs']
          | false =>
            simp only [refill, hp, hq, Bool.false_eq_true, if_false]
            rw [ih hys hzs]

end Pool
