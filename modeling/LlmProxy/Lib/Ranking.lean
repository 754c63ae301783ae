import Mathlib.Data.List.Nodup

/-! # Places in two rankings

A ranking is a list without repetitions, and each place of it is worth a slot of its own. Two
rankings of the same length that give everything the same slot are the same; and in the same
rankings two things stand in the same order.

> `eq_of_zip_subset`;
> `related_iff`.

Where the ranking is by a relation, the place of something is the number of things that stand above
it: `place_eq_countP`.
-/

namespace Ranking

variable {α β γ κ : Type _}

/-- **Slots tell the ranking**, if no two are alike. -/
theorem eq_of_zip_subset {xs ys : List α} {slots : List β} (hslots : slots.Nodup)
    (hxs : xs.length = slots.length) (hys : ys.length = slots.length)
    (h : ∀ e ∈ xs.zip slots, e ∈ ys.zip slots) : xs = ys := by
  induction slots generalizing xs ys with
  | nil => rw [List.length_eq_zero_iff.mp hxs, List.length_eq_zero_iff.mp hys]
  | cons s slots ih =>
    cases xs with
    | nil => cases hxs
    | cons x xs =>
      cases ys with
      | nil => cases hys
      | cons y ys =>
        obtain ⟨hnot, hnodup⟩ := List.nodup_cons.mp hslots
        have hhead : x = y := by
          rcases List.mem_cons.mp (h (x, s) List.mem_cons_self) with heq | hmem
          · exact (Prod.mk.inj heq).1
          · exact absurd (List.of_mem_zip hmem).2 hnot
        have htail := ih hnodup (Nat.succ.inj hxs) (Nat.succ.inj hys) fun e he => by
          rcases List.mem_cons.mp (h e (List.mem_cons_of_mem _ he)) with rfl | hmem
          · exact absurd (List.of_mem_zip he).2 hnot
          · exact hmem
        rw [hhead, htail]

theorem map_eq_slots {xs : List α} {slots : List β} {f : α → β} (hlength : xs.length = slots.length)
    (h : ∀ e ∈ xs.zip slots, f e.1 = e.2) : xs.map f = slots := by
  induction slots generalizing xs with
  | nil => rw [List.length_eq_zero_iff.mp hlength, List.map_nil]
  | cons s slots ih =>
    cases xs with
    | nil => cases hlength
    | cons x xs =>
      have hhead : f x = s := h (x, s) List.mem_cons_self
      rw [List.map_cons, hhead,
        ih (Nat.succ.inj hlength) fun e he => h e (List.mem_cons_of_mem _ he)]

/-- **Two things in the same rankings**, each sorted by a relation under which no two different
members are on a level. -/
theorem related_iff {xs : List α} {ys : List γ} {r : α → α → Prop} {r' : γ → γ → Prop} {key : α → κ}
    {key' : γ → κ} (hsame : xs.map key = ys.map key') (hxs : xs.Pairwise r) (hys : ys.Pairwise r')
    (hlevel : ∀ a ∈ xs, ∀ b ∈ xs, r a b → r b a → key a = key b)
    (hlevel' : ∀ a ∈ ys, ∀ b ∈ ys, r' a b → r' b a → key' a = key' b)
    (hunique : ∀ a ∈ ys, ∀ b ∈ ys, key' a = key' b → a = b)
    {a b : α} {a' b' : γ} (ha : a ∈ xs) (hb : b ∈ xs) (ha' : a' ∈ ys) (hb' : b' ∈ ys)
    (haa : key a = key' a') (hbb : key b = key' b') (hne : key a ≠ key b) :
    r a b ↔ r' a' b' := by
  have hlength : xs.length = ys.length := by
    simpa using congrArg List.length hsame
  -- what stands at the place of `a` in the second ranking is `a'`
  have hplace : ∀ {i : Nat} (hi : i < xs.length) (hi' : i < ys.length) {c' : γ}, c' ∈ ys →
      key xs[i] = key' c' → ys[i] = c' := by
    intro i hi hi' c' hc' hkey
    have hsamePlace : key xs[i] = key' ys[i] := by
      have hmap := List.getElem_of_eq hsame (i := i) (by simpa using hi)
      simpa using hmap
    exact hunique _ (List.getElem_mem hi') _ hc' (hsamePlace.symm.trans hkey)
  obtain ⟨i, hi, rfl⟩ := List.mem_iff_getElem.mp ha
  obtain ⟨j, hj, rfl⟩ := List.mem_iff_getElem.mp hb
  have hia := hplace hi (hlength ▸ hi) ha' haa
  have hjb := hplace hj (hlength ▸ hj) hb' hbb
  subst hia hjb
  rcases Nat.lt_trichotomy i j with hlt | rfl | hlt
  · exact iff_of_true (List.pairwise_iff_getElem.mp hxs i j hi hj hlt)
      (List.pairwise_iff_getElem.mp hys i j _ _ hlt)
  · exact absurd rfl hne
  · have hback := List.pairwise_iff_getElem.mp hxs j i hj hi hlt
    have hback' := List.pairwise_iff_getElem.mp hys j i (hlength ▸ hj) (hlength ▸ hi) hlt
    constructor
    · intro h
      exact absurd (hlevel _ ha _ hb h hback) hne
    · intro h
      exact absurd (hlevel' _ ha' _ hb' h hback') (haa ▸ hbb ▸ hne)

/-! ## Places -/

section
variable [DecidableEq κ] {key : α → κ} {r : α → α → Bool} {l : List α} {a b c : α}

def place (key : α → κ) (k : κ) (l : List α) : Nat := (l.map key).idxOf k

theorem place_head (key : α → κ) (a : α) (l : List α) : place key (key a) (a :: l) = 0 := by
  unfold place
  rw [List.map_cons, List.idxOf_cons_self]

theorem place_tail (hne : key a ≠ key c) : place key (key c) (a :: l) = place key (key c) l + 1 := by
  unfold place
  rw [List.map_cons, List.idxOf_cons_ne _ hne]

omit [DecidableEq κ] in
theorem head_key_ne (hnodup : ((a :: l).map key).Nodup) (hc : c ∈ l) : key a ≠ key c := fun heq =>
  (List.nodup_cons.mp hnodup).1 (heq ▸ List.mem_map_of_mem hc)

/-- **The place of something** is the number of things above it. -/
theorem place_eq_countP (hpair : l.Pairwise fun a b => r a b = true)
    (hasymm : ∀ a b, r a b = true → r b a = false) (hnodup : (l.map key).Nodup) (hc : c ∈ l) :
    place key (key c) l = l.countP (r · c) := by
  induction l with
  | nil => cases hc
  | cons x l ih =>
    obtain ⟨hx, hpair⟩ := List.pairwise_cons.mp hpair
    rcases List.mem_cons.mp hc with rfl | hc'
    · have hself : r c c = false := by
        by_contra hcc
        have hcc := Bool.not_eq_false _ ▸ hcc
        exact absurd (hcc.symm.trans (hasymm c c hcc)) (by decide)
      have hnone : l.countP (r · c) = 0 :=
        List.countP_eq_zero.mpr fun d hd => by simp [hasymm c d (hx d hd)]
      rw [place_head, List.countP_cons, hnone, hself]
      rfl
    · rw [place_tail (head_key_ne hnodup hc'), ih hpair (List.nodup_cons.mp hnodup).2 hc',
        List.countP_cons, hx c hc', if_pos rfl]

theorem place_lt_iff (hpair : l.Pairwise fun a b => r a b = true)
    (hasymm : ∀ a b, r a b = true → r b a = false) (hnodup : (l.map key).Nodup) (ha : a ∈ l)
    (hb : b ∈ l) (hne : key a ≠ key b) : place key (key a) l < place key (key b) l ↔ r a b = true := by
  induction l with
  | nil => cases ha
  | cons x l ih =>
    obtain ⟨hx, hpair⟩ := List.pairwise_cons.mp hpair
    rcases List.mem_cons.mp ha with rfl | ha'
    · rcases List.mem_cons.mp hb with rfl | hb'
      · exact absurd rfl hne
      · rw [place_head, place_tail (head_key_ne hnodup hb')]
        exact iff_of_true (Nat.succ_pos _) (hx b hb')
    · rcases List.mem_cons.mp hb with rfl | hb'
      · rw [place_head]
        refine iff_of_false (Nat.not_lt_zero _) ?_
        simp [hasymm b a (hx a ha')]
      · rw [place_tail (head_key_ne hnodup ha'), place_tail (head_key_ne hnodup hb'),
          Nat.succ_lt_succ_iff]
        exact ih hpair (List.nodup_cons.mp hnodup).2 ha' hb'

theorem related_of_place_lt {r : α → α → Prop} (hpair : l.Pairwise r) (hnodup : (l.map key).Nodup)
    (ha : a ∈ l) (hb : b ∈ l) (h : place key (key a) l < place key (key b) l) : r a b := by
  induction l with
  | nil => cases ha
  | cons x l ih =>
    obtain ⟨hx, hpair⟩ := List.pairwise_cons.mp hpair
    rcases List.mem_cons.mp hb with rfl | hb'
    · rw [place_head] at h
      exact absurd h (Nat.not_lt_zero _)
    · rcases List.mem_cons.mp ha with rfl | ha'
      · exact hx b hb'
      · rw [place_tail (head_key_ne hnodup ha'), place_tail (head_key_ne hnodup hb'),
          Nat.succ_lt_succ_iff] at h
        exact ih hpair (List.nodup_cons.mp hnodup).2 ha' hb' h

theorem place_lt_of_sublist (hnodup : (l.map key).Nodup) (h : [a, b].Sublist l) :
    place key (key a) l < place key (key b) l := by
  induction l with
  | nil => cases h
  | cons x l ih =>
    have htail := (List.nodup_cons.mp hnodup).2
    cases h with
    | cons _ h =>
      have hmem : ∀ c ∈ [a, b], c ∈ l := fun c hc => h.subset hc
      rw [place_tail (head_key_ne hnodup (hmem a List.mem_cons_self)),
        place_tail (head_key_ne hnodup (hmem b (by simp))), Nat.succ_lt_succ_iff]
      exact ih htail h
    | cons_cons _ h =>
      rw [place_head, place_tail (head_key_ne hnodup (h.subset List.mem_cons_self))]
      exact Nat.succ_pos _

end

end Ranking
