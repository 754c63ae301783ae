import Mathlib.Order.Defs.PartialOrder

/-! # Traces of a transition system

A system is a state type `σ`, an action type `α` and a total step function
`σ → α → σ`; an action that is not enabled leaves the state where it is. A *run* is a
list of actions, and what a development wants to know about a run is usually one of
two things: a predicate of the state it ends in, or a predicate of every (state,
action) pair it passes through. The second is `Along`.

The rules of this file turn one-step facts into facts about whole runs:

> `run_inv`          an invariant of the step is an invariant of the run;
> `run_inv_of_along` the same, when the step keeps the invariant only under a guard;
> `along_of_guard`   a guard met along the run gives the property along the run;
> `along_iff`        when guard and property agree on invariant states they agree on runs;
> `forall_prefix_iff_along` a predicate of the state at every point of a run;
> `le_run_of_along`  a measure no action lowers, the run does not lower;
> `run_stable`       what no action of the run changes, the run does not change.
-/

namespace Trace

variable {σ α : Type _} {step : σ → α → σ} {P G : σ → α → Prop} {I : σ → Prop}

def run (step : σ → α → σ) (s : σ) (as : List α) : σ := as.foldl step s

@[simp] theorem run_nil (s : σ) : run step s [] = s := rfl

@[simp] theorem run_cons (s : σ) (a : α) (as : List α) :
    run step s (a :: as) = run step (step s a) as := rfl

theorem run_append (s : σ) (as bs : List α) :
    run step s (as ++ bs) = run step (run step s as) bs :=
  List.foldl_append

/-- `P` holds of every (state, action) pair the run goes through. -/
def Along (step : σ → α → σ) (P : σ → α → Prop) : σ → List α → Prop
  | _, [] => True
  | s, a :: as => P s a ∧ Along step P (step s a) as

@[simp] theorem along_nil (s : σ) : Along step P s [] := trivial

@[simp] theorem along_cons (s : σ) (a : α) (as : List α) :
    Along step P s (a :: as) ↔ P s a ∧ Along step P (step s a) as := Iff.rfl

instance Along.decidable [∀ s a, Decidable (P s a)] :
    (s : σ) → (as : List α) → Decidable (Along step P s as)
  | _, [] => .isTrue trivial
  | s, a :: as =>
    have : Decidable (Along step P (step s a) as) := Along.decidable (step s a) as
    inferInstanceAs (Decidable (P s a ∧ Along step P (step s a) as))

theorem along_append (s : σ) (as bs : List α) :
    Along step P s (as ++ bs) ↔ Along step P s as ∧ Along step P (run step s as) bs := by
  induction as generalizing s with
  | nil => simp
  | cons a as ih => simp [ih, and_assoc]

/-- Read at the moment of one action: the action's predicate holds in the state the
actions before it lead to. -/
theorem along_iff_forall_prefix {s : σ} {as : List α} :
    Along step P s as ↔ ∀ pre a post, as = pre ++ a :: post → P (run step s pre) a := by
  constructor
  · intro h pre a post heq
    subst heq
    exact ((along_append s pre (a :: post)).mp h).2.1
  · intro h
    induction as generalizing s with
    | nil => trivial
    | cons a as ih =>
      refine ⟨h [] a as rfl, ih ?_⟩
      intro pre b post heq
      exact h (a :: pre) b post (by rw [heq]; rfl)

theorem along_of_forall (h : ∀ s a, P s a) {s : σ} {as : List α} : Along step P s as :=
  along_iff_forall_prefix.mpr fun pre a _ _ => h (run step s pre) a

/-- **Invariant rule.** -/
theorem run_inv (hstep : ∀ s a, I s → I (step s a)) {s : σ} (h : I s) (as : List α) :
    I (run step s as) := by
  induction as generalizing s with
  | nil => exact h
  | cons a as ih => exact ih (hstep s a h)

/-- **Guarded invariant rule**: the step keeps the invariant whenever the guard is met. -/
theorem run_inv_of_along (hstep : ∀ s a, I s → G s a → I (step s a)) {s : σ} (h : I s)
    {as : List α} (hg : Along step G s as) : I (run step s as) := by
  induction as generalizing s with
  | nil => exact h
  | cons a as ih => exact ih (hstep s a h hg.1) hg.2

/-- **Guard rule**: on invariant states the guard gives the property and the next
invariant state, so a run that meets the guard throughout has the property throughout. -/
theorem along_of_guard (hprop : ∀ s a, I s → G s a → P s a)
    (hstep : ∀ s a, I s → G s a → I (step s a)) {s : σ} (h : I s)
    {as : List α} (hg : Along step G s as) : Along step P s as := by
  induction as generalizing s with
  | nil => trivial
  | cons a as ih => exact ⟨hprop s a h hg.1, ih (hstep s a h hg.1) hg.2⟩

/-- **Exact guard rule**: in runs whose actions are all admissible (`V`), where guard and
property agree on invariant states and meeting the guard keeps the invariant, a run has the
property throughout exactly when it meets the guard throughout. -/
theorem along_iff {V : σ → α → Prop} (hiff : ∀ s a, I s → V s a → (P s a ↔ G s a))
    (hstep : ∀ s a, I s → V s a → G s a → I (step s a)) {s : σ} (h : I s) {as : List α}
    (hv : Along step V s as) : Along step P s as ↔ Along step G s as := by
  induction as generalizing s with
  | nil => exact Iff.rfl
  | cons a as ih =>
    constructor
    · intro hp
      have hg : G s a := (hiff s a h hv.1).mp hp.1
      exact ⟨hg, (ih (hstep s a h hv.1 hg) hv.2).mp hp.2⟩
    · intro hg
      exact ⟨(hiff s a h hv.1).mpr hg.1, (ih (hstep s a h hv.1 hg.1) hv.2).mpr hg.2⟩

theorem forall_prefix_iff_along {s : σ} {as : List α} (h : I s) :
    (∀ pre post, as = pre ++ post → I (run step s pre)) ↔
      Along step (fun s a => I (step s a)) s as := by
  constructor
  · intro hall
    refine along_iff_forall_prefix.mpr ?_
    intro pre a post heq
    have hnext := hall (pre ++ [a]) post (by rw [heq, List.append_assoc]; rfl)
    rw [run_append] at hnext
    exact hnext
  · intro halong pre post heq
    subst heq
    have hpre := ((along_append s pre post).mp halong).1
    exact run_inv_of_along (G := fun s a => I (step s a)) (fun _ _ _ hnext => hnext) h hpre

/-- A measure that no action of the run lowers, `R` apart, is not lowered by a run without
`R`. -/
theorem le_run_of_along {β : Type _} [Preorder β] {f : σ → β} {R : α → Prop} {s : σ} {as : List α}
    (h : Along step (fun s a => ¬ R a → f s ≤ f (step s a)) s as) (hr : ∀ a ∈ as, ¬ R a) :
    f s ≤ f (run step s as) := by
  induction as generalizing s with
  | nil => exact le_refl _
  | cons a as ih =>
    have hone : f s ≤ f (step s a) := h.1 (hr a List.mem_cons_self)
    exact le_trans hone (ih h.2 fun b hb => hr b (List.mem_cons_of_mem a hb))

/-- What no action along the run changes once it has the value `T` asks for, the run as a
whole does not change. -/
theorem run_stable {β : Type _} {f : σ → β} {T : β → Prop} {s : σ} {as : List α}
    (h : Along step (fun s a => T (f s) → f (step s a) = f s) s as) (ht : T (f s)) :
    f (run step s as) = f s := by
  induction as generalizing s with
  | nil => rfl
  | cons a as ih =>
    have hone : f (step s a) = f s := h.1 ht
    rw [run_cons, ih h.2 (by rw [hone]; exact ht), hone]

end Trace
