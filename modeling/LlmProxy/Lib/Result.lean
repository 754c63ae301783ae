/-! # Computations that may fail

Inversion of the `Except` binds a pipeline of fallible stages is made of.
-/

namespace Result

variable {ε α β : Type _}

theorem bind_ok {x : Except ε α} {f : α → Except ε β} {b : β} (h : x >>= f = .ok b) :
    ∃ a, x = .ok a ∧ f a = .ok b := by
  cases x with
  | error e => cases h
  | ok a => exact ⟨a, rfl, h⟩

theorem bind_of_ok {x : Except ε α} {f : α → Except ε β} {a : α} (h : x = .ok a) :
    x >>= f = f a := by
  rw [h]
  rfl

theorem exists_ok {x : Except ε α} (h : x.isOk = true) : ∃ a, x = .ok a := by
  cases x with
  | error e => cases h
  | ok a => exact ⟨a, rfl⟩

theorem map_ok {x : Except ε α} {f : α → β} {b : β} (h : x.map f = .ok b) :
    ∃ a, x = .ok a ∧ f a = b := by
  cases x with
  | error e => cases h
  | ok a => exact ⟨a, rfl, Except.ok.inj h⟩

theorem map_error {x : Except ε α} {f : α → β} {e : ε} (h : x.map f = .error e) :
    x = .error e := by
  cases x with
  | error e' => rw [Except.error.inj h]
  | ok a => cases h

theorem forall_ok {a : α} {P : α → Prop} :
    (∀ b, (.ok a : Except ε α) = .ok b → P b) ↔ P a := by
  constructor
  · exact fun h => h a rfl
  · intro ha b hb
    rw [← Except.ok.inj hb]
    exact ha

theorem forall_error {e : ε} {P : α → Prop} :
    (∀ b, (.error e : Except ε α) = .ok b → P b) ↔ True := by
  refine iff_true_intro fun b hb => ?_
  cases hb

theorem toOption_congr {x y : Except ε α} (h : ∀ a, x = .ok a ↔ y = .ok a) :
    x.toOption = y.toOption := by
  cases x with
  | ok a => rw [(h a).mp rfl]
  | error e =>
    cases y with
    | ok b => cases (h b).mpr rfl
    | error e' => rfl

theorem ok_of_toOption {x : Except ε α} {a : α} (h : x.toOption = some a) : x = .ok a := by
  cases x with
  | error e => cases h
  | ok b => rw [Option.some.inj h]

/-- `raise e` unless the list is non-empty. -/
def orRaise (l : List α) (e : ε) : Except ε (List α) := if l.isEmpty then .error e else .ok l

theorem orRaise_ok {l out : List α} {e : ε} (h : orRaise l e = .ok out) :
    out = l ∧ l ≠ [] := by
  unfold orRaise at h
  split at h
  · cases h
  · next hne => exact ⟨(Except.ok.inj h).symm, fun hnil => hne (by rw [hnil]; rfl)⟩

theorem orRaise_of_ne_nil {l : List α} {e : ε} (h : l ≠ []) : orRaise l e = .ok l := by
  unfold orRaise
  rw [if_neg fun hempty => h (List.isEmpty_iff.mp hempty)]

theorem orRaise_of_mem {l : List α} {a : α} {e : ε} (h : a ∈ l) : orRaise l e = .ok l :=
  orRaise_of_ne_nil (List.ne_nil_of_mem h)

@[simp] theorem orRaise_cons (a : α) (l : List α) (e : ε) :
    orRaise (a :: l) e = .ok (a :: l) := rfl

end Result
