import Mathlib.Data.List.Basic
import Mathlib.Data.List.Infix

/-! # Texts that end where they say

A text is read back from what follows it if a separator that it does not contain comes next, or if
its length is known. A record that is read back from whatever follows it makes a list of records
that is read back as a whole:

> `terminated_inj`: a number of fields, each with the separator behind it;
> `flatMap_inj`: a list of records.
-/

namespace Separated

variable {α β γ : Type _} {sep : α} {a b x y : List α}

theorem append_sep_inj (ha : sep ∉ a) (hb : sep ∉ b) (h : a ++ sep :: x = b ++ sep :: y) :
    a = b ∧ x = y := by
  induction a generalizing b with
  | nil =>
    cases b with
    | nil => exact ⟨rfl, (List.cons.inj h).2⟩
    | cons c b =>
      obtain ⟨hc, -⟩ := List.cons.inj h
      exact absurd (hc ▸ List.mem_cons_self) hb
  | cons c a ih =>
    cases b with
    | nil =>
      obtain ⟨hc, -⟩ := List.cons.inj h
      exact absurd (hc ▸ List.mem_cons_self) ha
    | cons d b =>
      obtain ⟨hc, hrest⟩ := List.cons.inj h
      obtain ⟨hab, hxy⟩ := ih (fun hmem => ha (List.mem_cons_of_mem c hmem))
        (fun hmem => hb (List.mem_cons_of_mem d hmem)) hrest
      exact ⟨by rw [hc, hab], hxy⟩

theorem sep_append_inj (ha : sep ∉ a) (hb : sep ∉ b) (h : x ++ sep :: a = y ++ sep :: b) :
    x = y ∧ a = b := by
  have hreverse : a.reverse ++ sep :: x.reverse = b.reverse ++ sep :: y.reverse := by
    simpa using congrArg List.reverse h
  obtain ⟨hab, hxy⟩ := append_sep_inj (by simpa using ha) (by simpa using hb) hreverse
  exact ⟨List.reverse_inj.mp hxy, List.reverse_inj.mp hab⟩

theorem sep_cases (ha : sep ∉ a) (h : x ++ sep :: y = a ++ sep :: b) :
    (x = a ∧ y = b) ∨ ∃ x', x = a ++ sep :: x' ∧ x' ++ sep :: y = b := by
  induction a generalizing x with
  | nil =>
    cases x with
    | nil => exact Or.inl ⟨rfl, (List.cons.inj h).2⟩
    | cons c x =>
      obtain ⟨rfl, hrest⟩ := List.cons.inj h
      exact Or.inr ⟨x, rfl, hrest⟩
  | cons c a ih =>
    cases x with
    | nil =>
      obtain ⟨hc, -⟩ := List.cons.inj h
      exact absurd (hc ▸ List.mem_cons_self) ha
    | cons d x =>
      obtain ⟨rfl, hrest⟩ := List.cons.inj h
      rcases ih (fun hmem => ha (List.mem_cons_of_mem d hmem)) hrest with
        ⟨rfl, rfl⟩ | ⟨x', rfl, hx'⟩
      · exact Or.inl ⟨rfl, rfl⟩
      · exact Or.inr ⟨x', rfl, hx'⟩

theorem infix_or_behind {front tail before word value : List α} (hsep : sep ∉ word)
    (heq : front ++ sep :: tail = before ++ word ++ value) :
    word <:+: front ∨ ∃ before', before = front ++ sep :: before' ∧ tail = before' ++ word ++ value := by
  rw [List.append_assoc] at heq
  rcases List.append_eq_append_iff.mp heq with ⟨a, hbefore, htail⟩ | ⟨a, hfront, hword⟩
  · cases a with
    | nil =>
      cases word with
      | nil => exact Or.inl (List.nil_infix)
      | cons w word =>
        obtain ⟨rfl, -⟩ := List.cons.inj htail
        exact absurd List.mem_cons_self hsep
    | cons s a =>
      obtain ⟨rfl, hrest⟩ := List.cons.inj htail
      exact Or.inr ⟨a, hbefore, hrest.trans (List.append_assoc a word value).symm⟩
  · rcases List.append_eq_append_iff.mp hword with ⟨b, ha, -⟩ | ⟨b, hw, hvalue⟩
    · exact Or.inl ⟨before, b, by rw [hfront, ha, List.append_assoc]⟩
    · cases b with
      | nil => exact Or.inl ⟨before, [], by rw [hfront, hw]; simp⟩
      | cons s b =>
        obtain ⟨rfl, -⟩ := List.cons.inj hvalue
        exact absurd (by rw [hw]; simp) hsep

def terminated (sep : α) (fields : List (List α)) : List α := fields.flatMap (· ++ [sep])

/-- **Fields without a separator** are read back, if their number is known. -/
theorem terminated_inj {fields fields' : List (List α)} (hlength : fields.length = fields'.length)
    (h : ∀ f ∈ fields, sep ∉ f) (h' : ∀ f ∈ fields', sep ∉ f)
    (heq : terminated sep fields ++ x = terminated sep fields' ++ y) :
    fields = fields' ∧ x = y := by
  induction fields generalizing fields' with
  | nil =>
    have hnil : fields' = [] := List.length_eq_zero_iff.mp hlength.symm
    rw [hnil] at heq
    exact ⟨hnil.symm, heq⟩
  | cons f fields ih =>
    cases fields' with
    | nil => cases hlength
    | cons f' fields' =>
      obtain ⟨hf, hfields⟩ := List.forall_mem_cons.mp h
      obtain ⟨hf', hfields'⟩ := List.forall_mem_cons.mp h'
      have hsplit : ∀ (g : List α) (gs : List (List α)) (z : List α),
          terminated sep (g :: gs) ++ z = g ++ sep :: (terminated sep gs ++ z) := by
        intro g gs z
        simp [terminated]
      rw [hsplit, hsplit] at heq
      obtain ⟨hone, hrest⟩ := append_sep_inj hf hf' heq
      obtain ⟨hall, hxy⟩ := ih (Nat.succ.inj hlength) hfields hfields' hrest
      exact ⟨by rw [hone, hall], hxy⟩

/-- **Records** that are read back from what follows them. -/
theorem flatMap_inj {render : β → List α} {key : β → γ} {rows rows' : List β}
    (hne : ∀ r ∈ rows ++ rows', render r ≠ [])
    (hread : ∀ r ∈ rows, ∀ r' ∈ rows', ∀ x y,
      render r ++ x = render r' ++ y → key r = key r' ∧ x = y)
    (h : rows.flatMap render = rows'.flatMap render) : rows.map key = rows'.map key := by
  induction rows generalizing rows' with
  | nil =>
    cases rows' with
    | nil => rfl
    | cons r' rows' =>
      have hempty := (List.append_eq_nil_iff.mp h.symm).1
      exact absurd hempty (hne r' (by simp))
  | cons r rows ih =>
    cases rows' with
    | nil => exact absurd (List.append_eq_nil_iff.mp h).1 (hne r (by simp))
    | cons r' rows' =>
      obtain ⟨hkey, hrest⟩ := hread r (by simp) r' (by simp) _ _ h
      have htail := ih (fun s hs => hne s (by
          rcases List.mem_append.mp hs with hs | hs
          · exact List.mem_append_left _ (List.mem_cons_of_mem r hs)
          · exact List.mem_append_right _ (List.mem_cons_of_mem r' hs)))
        (fun s hs s' hs' => hread s (List.mem_cons_of_mem r hs) s' (List.mem_cons_of_mem r' hs'))
        hrest
      rw [List.map_cons, List.map_cons, hkey, htail]

end Separated
