import Mathlib.Logic.Function.Basic
import LlmProxy.Lib.Trace

/-! # Calls that are interleaved

Calls share a state `σ`. What a call has left to do is a `τ`; between two of its awaits it runs
alone, and `next` is one such stretch. A run starts calls and resumes them, in any order.

The rule is that of the interference-free outline: `I` holds of the shared state, `J` of it and of
every call, and one stretch keeps `I`, the `J` of its own call and the `J` of every other.

> `run_safe`, and `run_exact` where a stretch that does not meet the guard breaks what is promised
> of the shared state.
-/

namespace Interleaving

open Trace

variable {σ τ γ : Type _}

/-- The shared state, and the calls by number. A call that has returned stays where it is. -/
structure Pool (σ τ : Type _) where
  shared : σ
  calls : Nat → Option τ := fun _ => none

inductive Act (γ : Type _) where
  | call (i : Nat) (c : γ)
  | resume (i : Nat)
  deriving DecidableEq, Repr

def step (start : σ → γ → τ) (next : σ → τ → σ × τ) (p : Pool σ τ) : Act γ → Pool σ τ
  | .call i c =>
    match p.calls i with
    | some _ => p
    | none => { p with calls := Function.update p.calls i (some (start p.shared c)) }
  | .resume i =>
    match p.calls i with
    | some t => ⟨(next p.shared t).1, Function.update p.calls i (some (next p.shared t).2)⟩
    | none => p

/-- The shared state and every call are as they should be. -/
structure Safe (I : σ → Prop) (J : σ → τ → Prop) (p : Pool σ τ) : Prop where
  shared : I p.shared
  calls : ∀ i t, p.calls i = some t → J p.shared t

/-- The stretch an action runs meets `G`. -/
def Guarded (G : σ → τ → Prop) (p : Pool σ τ) : Act γ → Prop
  | .call _ _ => True
  | .resume i => ∀ t, p.calls i = some t → G p.shared t

instance Guarded.decidable {G : σ → τ → Prop} [∀ s t, Decidable (G s t)] (p : Pool σ τ) :
    (a : Act γ) → Decidable (Guarded G p a)
  | .call _ _ => .isTrue trivial
  | .resume i => inferInstanceAs (Decidable (∀ t, t ∈ p.calls i → G p.shared t))

variable {start : σ → γ → τ} {next : σ → τ → σ × τ} {I : σ → Prop} {J : σ → τ → Prop}
  {G : σ → τ → Prop}

structure Outline (start : σ → γ → τ) (next : σ → τ → σ × τ) (I : σ → Prop) (J : σ → τ → Prop)
    (G : σ → τ → Prop) : Prop where
  start : ∀ s c, I s → J s (start s c)
  shared : ∀ s t, I s → J s t → G s t → I (next s t).1
  own : ∀ s t, I s → J s t → G s t → J (next s t).1 (next s t).2
  other : ∀ s t u, I s → J s t → G s t → J s u → J (next s t).1 u

theorem step_safe (h : Outline start next I J G) {p : Pool σ τ} (a : Act γ) (hp : Safe I J p)
    (hg : Guarded G p a) : Safe I J (step start next p a) := by
  cases a with
  | call i c =>
    cases hi : p.calls i with
    | some t =>
      simp only [step, hi]
      exact hp
    | none =>
      simp only [step, hi]
      refine ⟨hp.shared, fun j t hj => ?_⟩
      by_cases hji : j = i
      · rw [hji] at hj
        simp only [Function.update_self, Option.some.injEq] at hj
        rw [← hj]
        exact h.start p.shared c hp.shared
      · simp only [Function.update_of_ne hji] at hj
        exact hp.calls j t hj
  | resume i =>
    cases hi : p.calls i with
    | none =>
      simp only [step, hi]
      exact hp
    | some t =>
      simp only [step, hi]
      have ht : J p.shared t := hp.calls i t hi
      have hgt : G p.shared t := hg t hi
      refine ⟨h.shared _ t hp.shared ht hgt, fun j u hj => ?_⟩
      by_cases hji : j = i
      · rw [hji] at hj
        simp only [Function.update_self, Option.some.injEq] at hj
        rw [← hj]
        exact h.own _ t hp.shared ht hgt
      · simp only [Function.update_of_ne hji] at hj
        exact h.other _ t u hp.shared ht hgt (hp.calls j u hj)

/-- **Interference-free calls**: what the outline keeps, every run keeps whose stretches meet the
guard. -/
theorem run_safe (h : Outline start next I J G) {p : Pool σ τ} (hp : Safe I J p)
    {as : List (Act γ)} (hg : Along (step start next) (Guarded G) p as) :
    Safe I J (run (step start next) p as) :=
  run_inv_of_along (fun _ a hs hga => step_safe h a hs hga) hp hg

/-- **Exactly the guarded runs**: where `I` gives `P` and a stretch outside the guard ends outside
`P`, a run keeps `P` at every point exactly if all its stretches meet the guard. -/
theorem run_exact {P : σ → Prop} (h : Outline start next I J G) (hprop : ∀ s, I s → P s)
    (hbad : ∀ s t, I s → J s t → ¬ G s t → ¬ P (next s t).1) {p : Pool σ τ} (hp : Safe I J p)
    {as : List (Act γ)} :
    (∀ pre post, as = pre ++ post → P (run (step start next) p pre).shared) ↔
      Along (step start next) (Guarded G) p as := by
  rw [forall_prefix_iff_along (I := fun p : Pool σ τ => P p.shared) (hprop _ hp.shared)]
  refine along_iff (V := fun _ _ => True) (fun q a hq _ => ⟨fun hnext => ?_, fun hg => ?_⟩)
    (fun q a hq _ hg => step_safe h a hq hg) hp (along_of_forall fun _ _ => trivial)
  · cases a with
    | call i c => trivial
    | resume i =>
      intro t hi
      by_contra hg
      refine hbad q.shared t hq.shared (hq.calls i t hi) hg ?_
      simpa only [step, hi] using hnext
  · exact hprop _ (step_safe h a hq hg).shared

end Interleaving
