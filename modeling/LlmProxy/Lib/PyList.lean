import Mathlib.Data.List.Sort

/-! # Sorting and minima, as Python computes them

`sorted(xs, key=k)` is stable, and `min(xs, key=k)` returns the first of the minimal elements.
Both are given by the comparison the key induces.
-/

namespace PyList

variable {α : Type _}

/-- `sorted`: stable, by a comparison `le`. -/
def sortBy (le : α → α → Bool) (l : List α) : List α := l.insertionSort (fun a b => le a b = true)

@[simp] theorem mem_sortBy {le : α → α → Bool} {l : List α} {a : α} :
    a ∈ sortBy le l ↔ a ∈ l :=
  (List.perm_insertionSort (fun a b => le a b = true) l).mem_iff

theorem sortBy_perm {le : α → α → Bool} {l : List α} : (sortBy le l).Perm l :=
  List.perm_insertionSort (fun a b => le a b = true) l

theorem sortBy_of_pairwise {le : α → α → Bool} {l : List α} (h : l.Pairwise fun a b => le a b = true) :
    sortBy le l = l := h.insertionSort_eq

theorem pairwise_sortBy {le : α → α → Bool} (htotal : ∀ a b, le a b = true ∨ le b a = true)
    (htrans : ∀ a b c, le a b = true → le b c = true → le a c = true) (l : List α) :
    (sortBy le l).Pairwise fun a b => le a b = true := by
  have : Std.Total (fun a b => le a b = true) := ⟨htotal⟩
  have : IsTrans α (fun a b => le a b = true) := ⟨htrans⟩
  exact List.pairwise_insertionSort _ l

theorem sortBy_map {β : Type _} {le : β → β → Bool} {le' : α → α → Bool} {f : α → β}
    (h : ∀ a b, le (f a) (f b) = le' a b) (l : List α) :
    sortBy le (l.map f) = (sortBy le' l).map f :=
  (List.map_insertionSort _ _ f l fun a _ b _ => by rw [h]).symm

@[simp] theorem sortBy_nil (le : α → α → Bool) : sortBy le [] = [] := rfl

@[simp] theorem sortBy_singleton (le : α → α → Bool) (a : α) : sortBy le [a] = [a] := rfl

private theorem orderedInsert_front {le : α → α → Bool} {a : α} {l : List α}
    (h : ∀ b ∈ l, le a b = true) : l.orderedInsert (fun a b => le a b = true) a = a :: l := by
  cases l with
  | nil => rfl
  | cons b l => exact List.orderedInsert_cons_of_le _ l (h b List.mem_cons_self)

private theorem filter_orderedInsert {le : α → α → Bool}
    (htrans : ∀ a b c, le a b = true → le b c = true → le a c = true) (p : α → Bool) (a : α)
    {l : List α} (hsorted : l.Pairwise fun a b => le a b = true) :
    (l.orderedInsert (fun a b => le a b = true) a).filter p =
      if p a then (l.filter p).orderedInsert (fun a b => le a b = true) a else l.filter p := by
  induction l with
  | nil => cases hp : p a <;> simp [hp]
  | cons b l ih =>
    obtain ⟨hhead, htail⟩ := List.pairwise_cons.mp hsorted
    rw [List.orderedInsert_cons]
    split
    · next hab =>
      have hfront : ∀ c ∈ (b :: l).filter p, le a c = true := by
        intro c hc
        rcases List.mem_cons.mp (List.mem_of_mem_filter hc) with rfl | hc
        · exact hab
        · exact htrans a b c hab (hhead c hc)
      rw [List.filter_cons, orderedInsert_front hfront]
    · next hab =>
      rw [List.filter_cons, ih htail, List.filter_cons]
      cases hpb : p b with
      | false => simp
      | true =>
        cases hpa : p a with
        | false => simp
        | true => simp [List.orderedInsert_cons, hab]

/-- **A stable sort sorts a part of the list as it sorts the whole.** -/
theorem filter_sortBy {le : α → α → Bool}
    (htotal : ∀ a b, le a b = true ∨ le b a = true)
    (htrans : ∀ a b c, le a b = true → le b c = true → le a c = true) (p : α → Bool)
    (l : List α) : (sortBy le l).filter p = sortBy le (l.filter p) := by
  have : Std.Total (fun a b => le a b = true) := ⟨htotal⟩
  have : IsTrans α (fun a b => le a b = true) := ⟨htrans⟩
  induction l with
  | nil => rfl
  | cons a l ih =>
    have hsorted : (sortBy le l).Pairwise fun a b => le a b = true :=
      List.pairwise_insertionSort _ l
    have hinsert : sortBy le (a :: l) =
        (sortBy le l).orderedInsert (fun a b => le a b = true) a := rfl
    rw [hinsert, filter_orderedInsert htrans p a hsorted, ih, List.filter_cons]
    split <;> rfl

/-- **A stable sort keeps the order of what is level.** -/
theorem sublist_of_level {le : α → α → Bool} (htotal : ∀ a b, le a b = true ∨ le b a = true)
    (htrans : ∀ a b c, le a b = true → le b c = true → le a c = true) {l : List α} {a b : α}
    (h : [a, b].Sublist (sortBy le l)) (hab : le a b = true) (hba : le b a = true) :
    [a, b].Sublist l := by
  have hrefl : ∀ c, le c c = true := fun c => (htotal c c).elim id id
  have hfilter : [a, b].filter (fun c => le a c && le c a) = [a, b] :=
    List.filter_eq_self.mpr fun c hc => by
      rcases List.mem_cons.mp hc with rfl | hc
      · rw [hrefl, Bool.and_self]
      · rw [List.mem_singleton.mp hc, hab, hba, Bool.and_self]
  have hlevel : sortBy le (l.filter fun c => le a c && le c a) =
      l.filter fun c => le a c && le c a := by
    refine sortBy_of_pairwise (List.pairwise_of_forall_mem_list fun c hc d hd => ?_)
    have hca := (List.mem_filter.mp hc).2
    have had := (List.mem_filter.mp hd).2
    rw [Bool.and_eq_true] at hca had
    exact htrans c a d hca.2 had.1
  have hsub := h.filter fun c => le a c && le c a
  rw [hfilter, filter_sortBy htotal htrans, hlevel] at hsub
  exact hsub.trans List.filter_sublist

/-- **The front of a sorted list** is the least element, where no two elements share a key. -/
theorem head?_sortBy_iff {β : Type _} [LinearOrder β] {key : α → β} {l : List α} {a : α}
    (hinj : ∀ a ∈ l, ∀ b ∈ l, key a = key b → a = b) :
    (sortBy (fun a b => decide (key a ≤ key b)) l).head? = some a ↔
      a ∈ l ∧ ∀ b ∈ l, key a ≤ key b := by
  have : Std.Total (fun a b : α => decide (key a ≤ key b) = true) :=
    ⟨fun a b => by simpa using le_total (key a) (key b)⟩
  have : IsTrans α (fun a b => decide (key a ≤ key b) = true) :=
    ⟨fun a b c hab hbc => by simpa using le_trans (of_decide_eq_true hab) (of_decide_eq_true hbc)⟩
  have hsorted : (sortBy (fun a b => decide (key a ≤ key b)) l).Pairwise
      fun a b => decide (key a ≤ key b) = true := List.pairwise_insertionSort _ l
  have hmem : ∀ b, b ∈ sortBy (fun a b => decide (key a ≤ key b)) l ↔ b ∈ l := fun b => mem_sortBy
  cases hsort : sortBy (fun a b => decide (key a ≤ key b)) l with
  | nil =>
    rw [hsort] at hmem
    refine iff_of_false nofun ?_
    rintro ⟨ha, -⟩
    exact absurd ((hmem a).mpr ha) List.not_mem_nil
  | cons c rest =>
    rw [hsort] at hmem hsorted
    have hleast : ∀ b ∈ l, key c ≤ key b := by
      intro b hb
      rcases List.mem_cons.mp ((hmem b).mpr hb) with rfl | hrest
      · exact le_refl _
      · exact of_decide_eq_true ((List.pairwise_cons.mp hsorted).1 b hrest)
    have hc : c ∈ l := (hmem c).mp List.mem_cons_self
    constructor
    · intro h
      rw [← Option.some.inj h]
      exact ⟨hc, hleast⟩
    · rintro ⟨ha, hle⟩
      rw [hinj a ha c hc (le_antisymm (hle c hc) (hleast a ha))]
      rfl

/-- `min` of a non-empty list: the first element that no later one undercuts. -/
def minBy (lt : α → α → Bool) : α → List α → α
  | best, [] => best
  | best, a :: l => minBy lt (if lt a best then a else best) l

theorem minBy_mem (lt : α → α → Bool) (best : α) (l : List α) : minBy lt best l ∈ best :: l := by
  induction l generalizing best with
  | nil => exact List.mem_cons_self
  | cons a l ih =>
    unfold minBy
    rcases List.mem_cons.mp (ih (if lt a best then a else best)) with heq | hl
    · rw [heq]
      split
      · exact List.mem_cons_of_mem best List.mem_cons_self
      · exact List.mem_cons_self
    · exact List.mem_cons_of_mem best (List.mem_cons_of_mem a hl)

end PyList
