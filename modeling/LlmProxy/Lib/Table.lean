/-! # Tables as lists

A database table is the list of its rows in storage order. A `SELECT … LIMIT 1` is
`List.find?`; an ORM update of the row it returns is `updateFirst`; and the merge pattern
"look the row up under each of these keys in turn, update it if one matches, otherwise
insert" is `upsert`.
-/

namespace Table

variable {α : Type _} {p q : α → Bool} {f : α → α}

/-- Update the first row that satisfies `p`. -/
def updateFirst (p : α → Bool) (f : α → α) : List α → List α
  | [] => []
  | a :: t => if p a then f a :: t else a :: updateFirst p f t

theorem find?_updateFirst_self (hp : ∀ a, p (f a) = p a) (t : List α) :
    (updateFirst p f t).find? p = (t.find? p).map f := by
  induction t with
  | nil => rfl
  | cons a t ih =>
    by_cases ha : p a = true
    · simp [updateFirst, ha, hp]
    · simpa [updateFirst, ha] using ih

theorem mem_updateFirst {t : List α} {b : α} (h : b ∈ updateFirst p f t) :
    b ∈ t ∨ ∃ a, t.find? p = some a ∧ b = f a := by
  induction t with
  | nil => cases h
  | cons a t ih =>
    by_cases ha : p a = true
    · simp only [updateFirst, ha, if_true, List.mem_cons] at h
      rcases h with rfl | h
      · exact Or.inr ⟨a, by simp [ha], rfl⟩
      · exact Or.inl (List.mem_cons_of_mem a h)
    · simp only [updateFirst, ha, Bool.false_eq_true, if_false, List.mem_cons] at h
      rcases h with rfl | h
      · exact Or.inl List.mem_cons_self
      · rcases ih h with h | ⟨b', hb, rfl⟩
        · exact Or.inl (List.mem_cons_of_mem a h)
        · exact Or.inr ⟨b', by simp [ha, hb], rfl⟩

theorem updateFirst_mem {t : List α} {a : α} (h : t.find? p = some a) :
    f a ∈ updateFirst p f t := by
  induction t with
  | nil => cases h
  | cons b t ih =>
    rw [List.find?_cons] at h
    by_cases hb : p b = true
    · rw [hb] at h
      cases h
      simp [updateFirst, hb]
    · simp only [Bool.not_eq_true] at hb
      rw [hb] at h
      simp only [updateFirst, hb, Bool.false_eq_true, if_false, List.mem_cons]
      exact Or.inr (ih h)

/-- An update leaves a column of the table as it was exactly when it does so on the row it
updates. -/
theorem map_updateFirst_eq_iff {β : Type _} {g : α → β} {t : List α} :
    (updateFirst p f t).map g = t.map g ↔ ∀ a, t.find? p = some a → g (f a) = g a := by
  induction t with
  | nil => simp [updateFirst]
  | cons b t ih =>
    by_cases hb : p b = true
    · simp [updateFirst, hb]
    · simp [updateFirst, hb, ih]

theorem updateFirst_eq_map {κ : Type _} [BEq κ] [LawfulBEq κ] {g : α → κ} {k : κ} {t : List α}
    (hnodup : (t.map g).Nodup) :
    updateFirst (fun a => g a == k) f t = t.map fun a => if g a == k then f a else a := by
  induction t with
  | nil => rfl
  | cons a t ih =>
    rw [List.map_cons, List.nodup_cons] at hnodup
    by_cases ha : (g a == k) = true
    · have hrest : (t.map fun b => if g b == k then f b else b) = t := by
        have hid : ∀ b ∈ t, (if g b == k then f b else b) = b := by
          intro b hb
          refine if_neg fun hbk => hnodup.1 ?_
          rw [beq_iff_eq.mp ha, ← beq_iff_eq.mp hbk]
          exact List.mem_map_of_mem hb
        rw [List.map_congr_left hid, List.map_id']
      rw [List.map_cons, if_pos ha, hrest, updateFirst, if_pos ha]
    · rw [List.map_cons, if_neg ha, updateFirst, if_neg ha, ih hnodup.2]

/-- Look the row up under each key in turn; update the match, or insert. -/
def upsert (keys : List (α → Bool)) (update : α → α) (insert : Option α) (t : List α) : List α :=
  match keys.find? (fun p => t.any p) with
  | some p => updateFirst p update t
  | none => t ++ insert.toList

/-- The row `upsert` updates, if it updates one. -/
def target (keys : List (α → Bool)) (t : List α) : Option α :=
  match keys.find? (fun p => t.any p) with
  | some p => t.find? p
  | none => none

theorem upsert_of_target_none {keys : List (α → Bool)} {update : α → α} {insert : Option α}
    {t : List α} (h : target keys t = none) : upsert keys update insert t = t ++ insert.toList := by
  unfold target at h
  unfold upsert
  split at h
  · next p hp =>
    -- a key that some row matches finds a row
    have hany := List.find?_some hp
    rw [List.any_eq_true] at hany
    obtain ⟨a, ha, hpa⟩ := hany
    rw [List.find?_eq_none] at h
    exact absurd hpa (h a ha)
  · rfl

theorem target_eq_none_iff {keys : List (α → Bool)} {t : List α} :
    target keys t = none ↔ ∀ p ∈ keys, ∀ a ∈ t, p a = false := by
  unfold target
  constructor
  · intro h p hp a ha
    split at h
    · next p' hp' =>
      have hany := List.find?_some hp'
      rw [List.any_eq_true] at hany
      obtain ⟨b, hb, hpb⟩ := hany
      rw [List.find?_eq_none] at h
      exact absurd hpb (h b hb)
    · next hnone =>
      rw [List.find?_eq_none] at hnone
      have := hnone p hp
      simp only [Bool.not_eq_true, List.any_eq_false] at this
      simpa using this a ha
  · intro h
    have hnone : keys.find? (fun p => t.any p) = none := by
      rw [List.find?_eq_none]
      intro p hp
      simp only [Bool.not_eq_true, List.any_eq_false]
      intro a ha
      simpa using h p hp a ha
    rw [hnone]

theorem target_mem {keys : List (α → Bool)} {t : List α} {a : α} (h : target keys t = some a) :
    a ∈ t := by
  unfold target at h
  split at h
  · exact List.mem_of_find?_eq_some h
  · cases h

theorem mem_upsert {keys : List (α → Bool)} {update : α → α} {insert : Option α} {t : List α}
    {b : α} (h : b ∈ upsert keys update insert t) :
    b ∈ t ∨ (∃ a, target keys t = some a ∧ b = update a) ∨
      (target keys t = none ∧ insert = some b) := by
  cases htar : target keys t with
  | none =>
    rw [upsert_of_target_none htar] at h
    rcases List.mem_append.mp h with h | h
    · exact Or.inl h
    · exact Or.inr (Or.inr ⟨rfl, Option.mem_toList.mp h⟩)
  | some a =>
    unfold target at htar
    unfold upsert at h
    split at htar
    · next p hp =>
      rw [hp] at h
      rcases mem_updateFirst h with h | ⟨a', ha', rfl⟩
      · exact Or.inl h
      · rw [ha'] at htar
        cases htar
        exact Or.inr (Or.inl ⟨_, rfl, rfl⟩)
    · cases htar

theorem upsert_mem {keys : List (α → Bool)} {update : α → α} {insert : Option α} {t : List α}
    {a : α} (h : target keys t = some a) : update a ∈ upsert keys update insert t := by
  unfold target at h
  unfold upsert
  split at h
  · exact updateFirst_mem h
  · cases h

theorem find?_upsert_of_find? {keys : List (α → Bool)} {insert : Option α} {t : List α} {a : α}
    (hp : ∀ a, p (f a) = p a) (h : t.find? p = some a) :
    (upsert (p :: keys) f insert t).find? p = some (f a) := by
  have hany : t.any p = true :=
    List.any_eq_true.mpr ⟨a, List.mem_of_find?_eq_some h, List.find?_some h⟩
  unfold upsert
  rw [List.find?_cons_of_pos (by exact hany)]
  show (updateFirst p f t).find? p = some (f a)
  rw [find?_updateFirst_self hp, h]
  rfl

theorem find?_updateFirst_other {q : α → Bool} {t : List α} (hkeep : ∀ a, q (f a) = q a)
    (hother : ∀ a ∈ t, p a = true → q a = false) : (updateFirst p f t).find? q = t.find? q := by
  induction t with
  | nil => rfl
  | cons a t ih =>
    by_cases ha : p a = true
    · simp [updateFirst, ha, hkeep, hother a List.mem_cons_self ha]
    · simp only [updateFirst, ha, Bool.false_eq_true, if_false]
      rw [List.find?_cons, List.find?_cons, ih fun b hb => hother b (List.mem_cons_of_mem a hb)]

theorem find?_updateFirst_unique {κ : Type _} [BEq κ] [LawfulBEq κ] {g : α → κ} {t : List α} {a : α}
    (hf : ∀ a, g (f a) = g a) (hnodup : (t.map g).Nodup) (h : t.find? p = some a) :
    (updateFirst p f t).find? (fun b => g b == g a) = some (f a) := by
  induction t with
  | nil => cases h
  | cons b t ih =>
    rw [List.map_cons, List.nodup_cons] at hnodup
    by_cases hb : p b = true
    · rw [List.find?_cons_of_pos hb] at h
      rw [← Option.some.inj h]
      simp [updateFirst, hb, hf]
    · rw [List.find?_cons_of_neg hb] at h
      have hne : g b ≠ g a := fun hsame =>
        hnodup.1 (hsame ▸ List.mem_map_of_mem (List.mem_of_find?_eq_some h))
      simp only [updateFirst, hb, Bool.false_eq_true, if_false]
      rw [List.find?_cons_of_neg (by simpa using hne)]
      exact ih hnodup.2 h

theorem upsert_of_any {keys : List (α → Bool)} {insert : Option α} {t : List α}
    (h : t.any p = true) : upsert (p :: keys) f insert t = updateFirst p f t := by
  unfold upsert
  rw [List.find?_cons_of_pos (by exact h)]

theorem find?_append_other {q : α → Bool} {insert : Option α} {t : List α}
    (hinsert : ∀ a, insert = some a → q a = false) :
    (t ++ insert.toList).find? q = t.find? q := by
  rw [List.find?_append]
  cases insert with
  | none => exact Option.or_none
  | some a =>
    rw [Option.toList_some, List.find?_cons, hinsert a rfl]
    exact Option.or_none

theorem find?_upsert_other {keys : List (α → Bool)} {q : α → Bool} {insert : Option α} {t : List α}
    (hkeep : ∀ a, q (f a) = q a)
    (hother : ∀ k, keys.find? (fun k => t.any k) = some k → ∀ a ∈ t, k a = true → q a = false)
    (hinsert : ∀ a, insert = some a → q a = false) :
    (upsert keys f insert t).find? q = t.find? q := by
  unfold upsert
  split
  · next k hk => exact find?_updateFirst_other hkeep (hother k hk)
  · exact find?_append_other hinsert

theorem map_updateFirst {β : Type _} {g : α → β} {p' : β → Bool} {f' : β → β} {t : List α}
    (hp : ∀ a, p' (g a) = p a) (hf : ∀ a, g (f a) = f' (g a)) :
    (updateFirst p f t).map g = updateFirst p' f' (t.map g) := by
  induction t with
  | nil => rfl
  | cons a t ih =>
    by_cases ha : p a = true
    · simp [updateFirst, ha, hp, hf]
    · simp [updateFirst, ha, hp, ih]

theorem map_upsert {β : Type _} {g : α → β} {p' : β → Bool} {f' : β → β} {insert : Option α}
    {t : List α} (hp : ∀ a, p' (g a) = p a) (hf : ∀ a, g (f a) = f' (g a)) :
    (upsert [p] f insert t).map g = upsert [p'] f' (insert.map g) (t.map g) := by
  have hany : (t.map g).any p' = t.any p := by
    rw [List.any_map]
    exact congrArg t.any (funext hp)
  unfold upsert
  by_cases h : t.any p = true
  · rw [List.find?_cons_of_pos (by exact h), List.find?_cons_of_pos (by rw [hany]; exact h)]
    exact map_updateFirst hp hf
  · rw [List.find?_cons_of_neg (by exact h), List.find?_cons_of_neg (by rw [hany]; exact h)]
    rw [List.find?_nil, List.find?_nil]
    dsimp only
    rw [List.map_append]
    cases insert <;> rfl

theorem upsert_of_no_match {keys : List (α → Bool)} {update : α → α} {insert : Option α}
    {t : List α} (h : ∀ p ∈ keys, ∀ a ∈ t, p a = false) :
    upsert keys update insert t = t ++ insert.toList :=
  upsert_of_target_none (target_eq_none_iff.mpr h)

/-! ## A payload of rows

A payload whose rows have different keys, merged row by row into a table: each row of the table
meets at most its own peer row. -/

section
variable {β κ : Type _} [BEq κ] [LawfulBEq κ] {g : α → κ} {key : β → κ} {merge : β → α → α}
  {insert : β → Option α} {t : List α} {x : κ}

/-- Merge each peer row into the row of its key, or insert it. -/
def mergeRows (g : α → κ) (key : β → κ) (merge : β → α → α) (insert : β → Option α) (t : List α)
    (rows : List β) : List α :=
  rows.foldl (fun t b => upsert [fun a => g a == key b] (merge b) (insert b) t) t

def mergeRow (merge : β → α → α) (insert : β → Option α) : Option β → Option α → Option α
  | none, row => row
  | some b, none => insert b
  | some b, some a => some (merge b a)

variable (hmerge : ∀ b a, g (merge b a) = g a) (hinsert : ∀ b a, insert b = some a → g a = key b)

include hmerge hinsert in
theorem find?_upsert_key (b : β) :
    (upsert [fun a => g a == key b] (merge b) (insert b) t).find? (fun a => g a == x) =
      mergeRow merge insert (if key b == x then some b else none)
        (t.find? fun a => g a == x) := by
  by_cases hx : key b = x
  · rw [if_pos (beq_iff_eq.mpr hx), ← hx]
    cases hfind : t.find? fun a => g a == key b with
    | some a => exact find?_upsert_of_find? (fun a => by rw [hmerge]) hfind
    | none =>
      rw [upsert_of_no_match, List.find?_append, hfind, Option.none_or]
      · cases hins : insert b with
        | none => simp [mergeRow, hins]
        | some a => simp [mergeRow, hins, hinsert b a hins]
      · intro p hp a ha
        rw [List.mem_singleton.mp hp]
        simpa using List.find?_eq_none.mp hfind a ha
  · rw [if_neg (by simpa using hx)]
    refine find?_upsert_other (fun a => by rw [hmerge]) ?_ fun a ha => ?_
    · intro p hp a _ ha
      rw [List.mem_singleton.mp (List.mem_of_find?_eq_some hp)] at ha
      rw [eq_of_beq ha]
      exact beq_eq_false_iff_ne.mpr hx
    · rw [hinsert b a ha]
      exact beq_eq_false_iff_ne.mpr hx

include hmerge hinsert in
/-- **The row after a payload** is the row merged with the payload's row for it. -/
theorem find?_mergeRows {rows : List β} (hnodup : (rows.map key).Nodup) :
    (mergeRows g key merge insert t rows).find? (fun a => g a == x) =
      mergeRow merge insert (rows.find? fun b => key b == x) (t.find? fun a => g a == x) := by
  induction rows generalizing t with
  | nil => rfl
  | cons b rows ih =>
    rw [List.map_cons, List.nodup_cons] at hnodup
    have hone := find?_upsert_key (t := t) (x := x) hmerge hinsert b
    show (mergeRows g key merge insert
      (upsert [fun a => g a == key b] (merge b) (insert b) t) rows).find? _ = _
    rw [ih hnodup.2, hone, List.find?_cons]
    by_cases hx : key b = x
    · -- no later row of the payload has the key
      have hrest : rows.find? (fun b' => key b' == x) = none := by
        refine List.find?_eq_none.mpr fun b' hb' hsame => hnodup.1 ?_
        rw [hx, ← eq_of_beq hsame]
        exact List.mem_map_of_mem hb'
      rw [hrest, hx, beq_self_eq_true, if_pos rfl]
      rfl
    · rw [if_neg (by simpa using hx), beq_eq_false_iff_ne.mpr hx]
      rfl

include hmerge hinsert in
theorem nodup_upsert_key (hnodup : (t.map g).Nodup) (b : β) :
    ((upsert [fun a => g a == key b] (merge b) (insert b) t).map g).Nodup := by
  by_cases hany : t.any (fun a => g a == key b) = true
  · rw [upsert_of_any hany, map_updateFirst_eq_iff.mpr fun a _ => hmerge b a]
    exact hnodup
  · have hno : ∀ a ∈ t, (g a == key b) = false := by simpa using hany
    rw [upsert_of_no_match fun p hp a ha => by rw [List.mem_singleton.mp hp]; exact hno a ha]
    cases hins : insert b with
    | none => simpa using hnodup
    | some a =>
      rw [Option.toList_some, List.map_append, List.nodup_append]
      refine ⟨hnodup, by simp, ?_⟩
      intro y hy z hz heq
      obtain ⟨a', ha', rfl⟩ := List.mem_map.mp hy
      simp only [List.map_cons, List.map_nil, List.mem_singleton] at hz
      have hfound := hno a' ha'
      rw [heq, hz, hinsert b a hins, beq_self_eq_true] at hfound
      cases hfound

include hmerge hinsert in
theorem nodup_mergeRows (hnodup : (t.map g).Nodup) (rows : List β) :
    ((mergeRows g key merge insert t rows).map g).Nodup := by
  induction rows generalizing t with
  | nil => exact hnodup
  | cons b rows ih => exact ih (nodup_upsert_key hmerge hinsert hnodup b)

end

end Table
