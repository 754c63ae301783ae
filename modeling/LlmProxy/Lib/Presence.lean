/-! # A row and its tombstone

The abstract life of one replicated row at one receiver. Two versions of the row travel, a
live one and a tombstone that is newer, in any order and any number of times. A receiver
that inserts only live versions, and lets a tombstone beat whatever it holds, is in one of
three situations, and moves between them as `arrive` says; in particular a tombstone that
reaches a receiver without the row leaves no trace.

> `foldl_arrive_ne_live_iff`: deliveries that include a live version leave the row not live
> exactly when some tombstone was delivered after a live version.
> `run_observe`: a concrete store whose deliveries are observed as `arrive` ends where the
> abstract run ends, so `run_ne_live_iff` holds of it.
-/

namespace Presence

inductive Version where
  | live
  | tombstone
  deriving DecidableEq, Repr

inductive Held where
  | absent
  | live
  | dead
  deriving DecidableEq, Repr

def heldOf {ρ : Type _} (alive : ρ → Bool) : Option ρ → Held
  | none => .absent
  | some r => if alive r then .live else .dead

def arrive : Held → Version → Held
  | .absent, .live => .live
  | .absent, .tombstone => .absent
  | .live, .live => .live
  | .live, .tombstone => .dead
  | .dead, _ => .dead

/-- Some tombstone was delivered after a live version. -/
def TombstoneAfterLive (vs : List Version) : Prop :=
  ∃ before after, vs = before ++ .live :: after ∧ .tombstone ∈ after

theorem foldl_arrive_dead (vs : List Version) : vs.foldl arrive .dead = .dead := by
  induction vs with
  | nil => rfl
  | cons v vs ih => cases v <;> exact ih

theorem foldl_arrive_live (vs : List Version) :
    vs.foldl arrive .live = if .tombstone ∈ vs then .dead else .live := by
  induction vs with
  | nil => rfl
  | cons v vs ih =>
    cases v with
    | live => simpa [arrive] using ih
    | tombstone => simpa [arrive] using foldl_arrive_dead vs

theorem tombstoneAfterLive_cons_live (vs : List Version) :
    TombstoneAfterLive (.live :: vs) ↔ .tombstone ∈ vs := by
  constructor
  · rintro ⟨before, after, heq, hmem⟩
    cases before with
    | nil => cases heq; exact hmem
    | cons v before =>
      cases heq
      exact List.mem_append_right _ (List.mem_cons_of_mem _ hmem)
  · intro h
    exact ⟨[], vs, rfl, h⟩

theorem tombstoneAfterLive_cons_tombstone (vs : List Version) :
    TombstoneAfterLive (.tombstone :: vs) ↔ TombstoneAfterLive vs := by
  constructor
  · rintro ⟨before, after, heq, hmem⟩
    cases before with
    | nil => cases heq
    | cons v before =>
      cases heq
      exact ⟨before, after, rfl, hmem⟩
  · rintro ⟨before, after, rfl, hmem⟩
    exact ⟨.tombstone :: before, after, rfl, hmem⟩

theorem foldl_arrive_ne_live_iff {vs : List Version} (h : .live ∈ vs) :
    vs.foldl arrive .absent ≠ .live ↔ TombstoneAfterLive vs := by
  induction vs with
  | nil => cases h
  | cons v vs ih =>
    cases v with
    | live =>
      rw [tombstoneAfterLive_cons_live]
      simp only [List.foldl_cons, arrive, foldl_arrive_live]
      split <;> simp_all
    | tombstone =>
      rw [tombstoneAfterLive_cons_tombstone]
      exact ih (by simpa using h)

/-! ## Rows that are looked up -/

section
variable {ρ : Type _} {alive : ρ → Bool} {row : Option ρ}

theorem heldOf_live : heldOf alive row = .live ↔ ∃ r, row = some r ∧ alive r = true := by
  unfold heldOf
  cases row with
  | none => simp
  | some r => cases h : alive r <;> simp [h]

theorem heldOf_dead : heldOf alive row = .dead ↔ ∃ r, row = some r ∧ alive r = false := by
  unfold heldOf
  cases row with
  | none => simp
  | some r => cases h : alive r <;> simp [h]

theorem heldOf_ne_dead : heldOf alive row ≠ .dead ↔ ∀ r, row = some r → alive r = true := by
  rw [Ne, heldOf_dead]
  simp

end

/-! ## A store that is observed -/

section
variable {σ δ : Type _} {step : σ → δ → σ} {o : σ → Held} {I : σ → Prop} {v : δ → Version}

/-- **Simulation rule.** A store whose every delivery is observed as `arrive` ends, after
any deliveries, where the abstract row ends. -/
theorem run_observe (hstep : ∀ s d, I s → I (step s d) ∧ o (step s d) = arrive (o s) (v d))
    {s : σ} (hs : I s) (ds : List δ) :
    o (ds.foldl step s) = (ds.map v).foldl arrive (o s) := by
  induction ds generalizing s with
  | nil => rfl
  | cons d ds ih =>
    obtain ⟨hi, hobs⟩ := hstep s d hs
    simp only [List.foldl_cons, List.map_cons]
    rw [ih hi, hobs]

theorem run_ne_live_iff (hstep : ∀ s d, I s → I (step s d) ∧ o (step s d) = arrive (o s) (v d))
    {s : σ} (hs : I s) (habs : o s = .absent) {ds : List δ} (hlive : .live ∈ ds.map v) :
    o (ds.foldl step s) ≠ .live ↔ TombstoneAfterLive (ds.map v) := by
  rw [run_observe hstep hs ds, habs]
  exact foldl_arrive_ne_live_iff hlive

end

end Presence
