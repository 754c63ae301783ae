import Mathlib

/-! # The newest of a list of stamped values

The specification side of every last-writer-wins register: out of the values a replica has
received, the one with the greatest key. `newest` computes it; the lemmas say that it is a
member, that nothing is newer, and that, as long as keys identify values, it depends only
on the *set* of values received and not on their order or repetition.

`receive` is a register that takes only what is newer than what it holds, and `receiveAll` the
register after a list of messages: it never goes back, it ends with the newest value if one is
newer than all others, and what comes too late for it is as if never sent.
-/

namespace Newest

variable {β κ : Type _} [LinearOrder κ] {key : β → κ}

/-- The element with the greatest key; the later entry of the list wins a tie. -/
def newest (key : β → κ) : List β → Option β
  | [] => none
  | b :: l =>
    match newest key l with
    | none => some b
    | some c => if key c < key b then some b else some c

theorem newest_eq_none_iff {l : List β} : newest key l = none ↔ l = [] := by
  constructor
  · intro h
    cases l with
    | nil => rfl
    | cons b l =>
      unfold newest at h
      cases hl : newest key l with
      | none => rw [hl] at h; cases h
      | some c =>
        rw [hl] at h
        dsimp only at h
        split at h <;> cases h
  · rintro rfl
    rfl

theorem newest_mem {l : List β} {b : β} (h : newest key l = some b) : b ∈ l := by
  induction l generalizing b with
  | nil => cases h
  | cons a l ih =>
    unfold newest at h
    cases hl : newest key l with
    | none =>
      rw [hl] at h
      cases h
      exact List.mem_cons_self
    | some c =>
      rw [hl] at h
      dsimp only at h
      split at h
      · cases h
        exact List.mem_cons_self
      · cases h
        exact List.mem_cons_of_mem a (ih hl)

theorem newest_le {l : List β} {b : β} (h : newest key l = some b) :
    ∀ c ∈ l, key c ≤ key b := by
  induction l generalizing b with
  | nil => cases h
  | cons a l ih =>
    unfold newest at h
    intro c hc
    cases hl : newest key l with
    | none =>
      -- an empty rest: the list is `[a]`
      rw [hl] at h
      cases h
      rw [newest_eq_none_iff.mp hl] at hc
      rw [List.mem_singleton.mp hc]
    | some d =>
      rw [hl] at h
      dsimp only at h
      split at h
      · next hlt =>
        cases h
        rcases List.mem_cons.mp hc with rfl | hc
        · exact le_refl _
        · exact le_trans (ih hl c hc) (le_of_lt hlt)
      · next hnlt =>
        cases h
        rcases List.mem_cons.mp hc with rfl | hc
        · exact le_of_not_gt hnlt
        · exact ih hl c hc

theorem newest_cons_of_lt {l : List β} {b : β} (h : ∀ c ∈ l, key c < key b) :
    newest key (b :: l) = some b := by
  unfold newest
  cases hl : newest key l with
  | none => rfl
  | some c => exact if_pos (h c (newest_mem hl))

theorem newest_cons_of_not_lt {l : List β} {b : β} (h : ¬ ∀ c ∈ l, key c < key b) :
    newest key (b :: l) = newest key l := by
  cases hl : newest key l with
  | none =>
    rw [newest_eq_none_iff.mp hl] at h
    exact absurd (by simp) h
  | some c =>
    unfold newest
    rw [hl]
    refine if_neg fun hlt => h fun d hd => ?_
    exact lt_of_le_of_lt (newest_le hl d hd) hlt

theorem newest_eq_some {l : List β} (hinj : ∀ c ∈ l, ∀ d ∈ l, key c = key d → c = d) {b : β}
    (hb : b ∈ l) (hmax : ∀ c ∈ l, key c ≤ key b) : newest key l = some b := by
  cases hl : newest key l with
  | none =>
    rw [newest_eq_none_iff.mp hl] at hb
    cases hb
  | some c =>
    have hc := newest_mem hl
    have heq : key c = key b := le_antisymm (hmax c hc) (newest_le hl b hb)
    rw [hinj c hc b hb heq]

theorem newest_congr {l l' : List β} (hinj : ∀ c ∈ l, ∀ d ∈ l, key c = key d → c = d)
    (h : ∀ b, b ∈ l ↔ b ∈ l') : newest key l = newest key l' := by
  cases hl : newest key l' with
  | none =>
    have hl' := newest_eq_none_iff.mp hl
    rw [newest_eq_none_iff, List.eq_nil_iff_forall_not_mem]
    intro b hb
    rw [h b, hl'] at hb
    cases hb
  | some b =>
    refine newest_eq_some hinj ((h b).mpr (newest_mem hl)) fun c hc => ?_
    exact newest_le hl c ((h c).mp hc)

/-! ## A register -/

def receive (key : β → κ) (held : Option β) (b : β) : Option β :=
  match held with
  | none => some b
  | some c => if key b ≤ key c then some c else some b

def receiveAll (key : β → κ) (held : Option β) (l : List β) : Option β :=
  l.foldl (receive key) held

@[simp] theorem receiveAll_nil (held : Option β) : receiveAll key held [] = held := rfl

@[simp] theorem receiveAll_cons (held : Option β) (b : β) (l : List β) :
    receiveAll key held (b :: l) = receiveAll key (receive key held b) l := rfl

theorem receive_cases (key : β → κ) (held : Option β) (b : β) :
    receive key held b = some b ∨ ∃ c, held = some c ∧ receive key held b = some c ∧
      key b ≤ key c := by
  cases held with
  | none => exact Or.inl rfl
  | some c =>
    unfold receive
    by_cases h : key b ≤ key c
    · exact Or.inr ⟨c, rfl, if_pos h, h⟩
    · exact Or.inl (if_neg h)

theorem receive_forward (key : β → κ) {held : Option β} {c : β} (h : held = some c) (b : β) :
    ∃ d, receive key held b = some d ∧ key c ≤ key d := by
  rw [h]
  unfold receive
  by_cases hle : key b ≤ key c
  · exact ⟨c, if_pos hle, le_refl _⟩
  · exact ⟨b, if_neg hle, le_of_not_ge hle⟩

theorem receiveAll_mem {held : Option β} {l : List β} {b : β}
    (h : receiveAll key held l = some b) : held = some b ∨ b ∈ l := by
  induction l generalizing held with
  | nil => exact Or.inl h
  | cons a l ih =>
    rcases ih h with hheld | hmem
    · rcases receive_cases key held a with ha | ⟨c, hc, hkeep, -⟩
      · rw [ha] at hheld
        cases hheld
        exact Or.inr List.mem_cons_self
      · rw [hkeep] at hheld
        rw [hc, hheld]
        exact Or.inl rfl
    · exact Or.inr (List.mem_cons_of_mem a hmem)

theorem receiveAll_isSome {held : Option β} {l : List β} (h : held.isSome = true ∨ l ≠ []) :
    (receiveAll key held l).isSome = true := by
  induction l generalizing held with
  | nil =>
    rcases h with h | h
    · exact h
    · exact absurd rfl h
  | cons a l ih =>
    refine ih (Or.inl ?_)
    rcases receive_cases key held a with ha | ⟨c, -, hkeep, -⟩
    · rw [ha]
      rfl
    · rw [hkeep]
      rfl

theorem receiveAll_newest {held : Option β} {l : List β} {b : β}
    (hb : held = some b ∨ b ∈ l) (hheld : ∀ c, held = some c → c = b ∨ key c < key b)
    (hnew : ∀ c ∈ l, c = b ∨ key c < key b) : receiveAll key held l = some b := by
  induction l generalizing held with
  | nil =>
    rcases hb with hb | hb
    · exact hb
    · cases hb
  | cons a l ih =>
    have hrest : ∀ c ∈ l, c = b ∨ key c < key b :=
      fun c hc => hnew c (List.mem_cons_of_mem a hc)
    have ha := hnew a List.mem_cons_self
    rw [receiveAll_cons]
    rcases receive_cases key held a with htake | ⟨c, hc, hkeep, hle⟩
    · rw [htake]
      refine ih ?_ ?_ hrest
      · -- the value held before can only give way to something newer
        rcases hb with hb | hb
        · left
          rcases ha with rfl | hlt
          · rfl
          · have hback := receive_forward key hb a
            rw [htake] at hback
            obtain ⟨d, hd, hle⟩ := hback
            cases hd
            exact absurd hle (not_le_of_gt hlt)
        · rcases List.mem_cons.mp hb with rfl | hb
          · exact Or.inl rfl
          · exact Or.inr hb
      · intro c hc
        cases hc
        exact ha
    · rw [hkeep]
      refine ih ?_ ?_ hrest
      · rcases hb with hb | hb
        · rw [hc] at hb
          exact Or.inl hb
        · rcases List.mem_cons.mp hb with rfl | hb
          · rcases hheld c hc with rfl | hlt
            · exact Or.inl rfl
            · exact absurd hle (not_le_of_gt hlt)
          · exact Or.inr hb
      · intro d hd
        cases hd
        exact hheld c hc

/-- What comes too late leaves no trace: values no newer than the one held do not matter for a
property that the held value and the others have. -/
theorem receiveAll_late {p : β → Prop} {held : Option β} {l : List β} {k : κ}
    (hheld : ∃ c, held = some c ∧ p c ∧ k ≤ key c) (hl : ∀ b ∈ l, p b ∨ key b ≤ k) :
    ∃ d, receiveAll key held l = some d ∧ p d := by
  induction l generalizing held with
  | nil =>
    obtain ⟨c, hc, hp, -⟩ := hheld
    exact ⟨c, hc, hp⟩
  | cons a l ih =>
    refine ih ?_ fun b hb => hl b (List.mem_cons_of_mem a hb)
    obtain ⟨c, rfl, hp, hk⟩ := hheld
    unfold receive
    by_cases hle : key a ≤ key c
    · exact ⟨c, if_pos hle, hp, hk⟩
    · refine ⟨a, if_neg hle, ?_, le_trans hk (le_of_not_ge hle)⟩
      rcases hl a List.mem_cons_self with ha | ha
      · exact ha
      · exact absurd (le_trans ha hk) hle

end Newest
