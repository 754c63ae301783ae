/-! # What a session writes

A session keeps the object it loaded. A flush writes the columns that were given another value than
the loaded one, over whatever the row holds by then; the other columns it leaves alone.
-/

namespace Session

variable {α : Type _} [DecidableEq α] {loaded new current : α}

def column (loaded new current : α) : α := if new = loaded then current else new

@[simp] theorem column_current (loaded new : α) : column loaded new loaded = new := by
  unfold column
  split
  · next h => exact h.symm
  · rfl

@[simp] theorem column_same (loaded current : α) : column loaded loaded current = current :=
  if_pos rfl

theorem column_of_ne (h : new ≠ loaded) : column loaded new current = new := if_neg h

theorem column_cases (loaded new current : α) :
    column loaded new current = new ∧ new ≠ loaded ∨ column loaded new current = current := by
  unfold column
  split
  · exact Or.inr rfl
  · next h => exact Or.inl ⟨rfl, h⟩

end Session
