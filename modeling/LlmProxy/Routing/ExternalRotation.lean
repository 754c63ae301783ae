import LlmProxy.Airi.Proposals
import LlmProxy.Lib.PyNum
import LlmProxy.Providers.Background
import LlmProxy.Routing.Router

/-! # Quota rotation

`evaluate_rules_for_provider` of `app/routing/external_rotation.py` and the two other writers of a
provider's `auto_skip_until`: `_persist_auto_skip` and an applied AIRI proposal.

Mirroring notes.
* Utilisations, the threshold and the hysteresis are exact rationals.
* The evaluator mutates the row it was given, and its caller commits; the writes are taken on the row
  itself, without the ORM's stamps.
* The dict the evaluator returns repeats its arguments; of it the model has the decision.

> `rotation_sound`: what holds of every run of the three writers.
-/

namespace LlmProxy.Routing

open LlmProxy.Cluster (Stamp)
open LlmProxy.Providers (Provider autoSkipWrites)
open Trace

/-- The columns of an `ExternalUsageSnapshot` that the rules read. -/
structure UsageSnapshot where
  sevenDayUtilization : Option Rat := none
  sevenDayResetsAt : Option Stamp := none
  fiveHourUtilization : Option Rat := none
  fiveHourResetsAt : Option Stamp := none
  deriving DecidableEq

/-- `external_rotation_capacity_pct` and `external_rotation_hysteresis_pct`. -/
structure RotationSettings where
  capacityPct : Rat := 95
  hysteresisPct : Rat := 5

inductive Decision where
  | noSnapshot
  | noUtilization
  | skipSet
  | skipCleared
  | noChange
  deriving DecidableEq, Repr

def isoOrNone (stamp : Option Stamp) : String := (stamp.map PyFormat.isoformat).getD "None"

def UsageSnapshot.sessionExhausted (snap : UsageSnapshot) : Bool :=
  snap.fiveHourUtilization.any (100 ≤ ·)

def UsageSnapshot.weeklyExhausted (cfg : RotationSettings) (snap : UsageSnapshot) : Bool :=
  snap.sevenDayUtilization.any (cfg.capacityPct ≤ ·)

def UsageSnapshot.candidates (cfg : RotationSettings) (snap : UsageSnapshot) : List Stamp :=
  (if snap.sessionExhausted then snap.fiveHourResetsAt.toList else []) ++
    (if snap.weeklyExhausted cfg then snap.sevenDayResetsAt.toList else [])

def UsageSnapshot.reason (cfg : RotationSettings) (snap : UsageSnapshot) : String :=
  "; ".intercalate
    ((if snap.sessionExhausted then
        ["session utilization " ++ PyFormat.fixed 1 (snap.fiveHourUtilization.getD 0) ++
          "% >= 100%; resets " ++ isoOrNone snap.fiveHourResetsAt]
      else []) ++
    (if snap.weeklyExhausted cfg then
        ["weekly utilization " ++ PyFormat.fixed 1 (snap.sevenDayUtilization.getD 0) ++ "% >= " ++
          PyFormat.fixed 0 cfg.capacityPct ++ "% threshold; resets " ++
          isoOrNone snap.sevenDayResetsAt]
      else []))

def RotationSettings.clearBelow (cfg : RotationSettings) : Rat :=
  max 0 (cfg.capacityPct - cfg.hysteresisPct)

/-- `evaluate_rules_for_provider`: the row it leaves, and its decision. -/
def evaluateRules (cfg : RotationSettings) (snapshot : Option UsageSnapshot) (p : Provider) :
    Provider × Decision :=
  match snapshot with
  | none => (p, .noSnapshot)
  | some snap =>
    if snap.sevenDayUtilization = none ∧ snap.fiveHourUtilization = none then (p, .noUtilization)
    else if snap.sessionExhausted || snap.weeklyExhausted cfg then
      ({ p with
          autoSkipUntil := (snap.candidates cfg).max?
          autoSkipReason := some (snap.reason cfg) }, .skipSet)
    else if p.autoSkipUntil.isSome then
      if snap.sevenDayUtilization.all (· ≤ cfg.clearBelow) &&
          snap.fiveHourUtilization.all (· < 100) then
        ({ p with autoSkipUntil := none, autoSkipReason := none }, .skipCleared)
      else (p, .noChange)
    else (p, .noChange)

/-! ## The three writers -/

inductive Writer where
  | evaluator
  | other
  deriving DecidableEq, Repr

/-- The row and the clock; beside them, which no code reads, the snapshot that was evaluated last,
whether AIRI has written since, and who wrote the skip. -/
structure Rotation where
  row : Provider
  clock : Stamp := 0
  latest : Option UsageSnapshot := none
  airiSince : Bool := false
  writer : Writer := .other

inductive RotationAct where
  | evaluate (snap : UsageSnapshot)
  | persistAutoSkip
  | airiAutoSkip (hours : Int)
  | wait (microseconds : Nat)
  deriving DecidableEq

/-- The writer of the skip after a write: who changed it, if it was changed. -/
def writerAfter (by_ : Writer) (s : Rotation) (row : Provider) : Writer :=
  if row.autoSkipUntil = s.row.autoSkipUntil then s.writer else by_

def Rotation.step (cfg : RotationSettings) (s : Rotation) : RotationAct → Rotation
  | .evaluate snap =>
    let row := (evaluateRules cfg (some snap) s.row).1
    { s with
      row := row, latest := some snap, airiSince := false, writer := writerAfter .evaluator s row }
  | .persistAutoSkip =>
    let row := autoSkipWrites s.clock s.row
    { s with row := row, writer := writerAfter .other s row }
  | .airiAutoSkip hours =>
    let row := Airi.changedRow s.clock (.autoSkipHours hours) s.row
    { s with row := row, airiSince := true, writer := writerAfter .other s row }
  | .wait microseconds => { s with clock := s.clock + microseconds }

/-! ## What the evaluator does -/

variable {cfg : RotationSettings} {snap : UsageSnapshot} {p : Provider} {s : Rotation}

def UsageSnapshot.exhausted (cfg : RotationSettings) (snap : UsageSnapshot) : Bool :=
  snap.sessionExhausted || snap.weeklyExhausted cfg

theorem evaluate_exhausted (h : snap.exhausted cfg = true) :
    (evaluateRules cfg (some snap) p).1.autoSkipUntil = (snap.candidates cfg).max? := by
  have hknown : ¬(snap.sevenDayUtilization = none ∧ snap.fiveHourUtilization = none) := by
    rintro ⟨hweekly, hsession⟩
    unfold UsageSnapshot.exhausted UsageSnapshot.sessionExhausted
      UsageSnapshot.weeklyExhausted at h
    rw [hweekly, hsession] at h
    cases h
  unfold evaluateRules
  dsimp only
  rw [if_neg hknown, if_pos (by exact h)]

theorem candidates_eq_nil (h : snap.exhausted cfg = false) : snap.candidates cfg = [] := by
  obtain ⟨hsession, hweekly⟩ := Bool.or_eq_false_iff.mp h
  unfold UsageSnapshot.candidates
  rw [hsession, hweekly]
  rfl

theorem evaluate_spared (h : snap.exhausted cfg = false) :
    (evaluateRules cfg (some snap) p).1 = p ∨
      p.autoSkipUntil.isSome = true ∧
        (evaluateRules cfg (some snap) p).1.autoSkipUntil = none ∧
        ¬(snap.sevenDayUtilization = none ∧ snap.fiveHourUtilization = none) ∧
        snap.sevenDayUtilization.all (· ≤ cfg.clearBelow) = true ∧
        snap.fiveHourUtilization.all (· < 100) = true := by
  unfold evaluateRules
  dsimp only
  split
  · exact Or.inl rfl
  · next hknown =>
    rw [if_neg (by rw [show (snap.sessionExhausted || snap.weeklyExhausted cfg) = false from h]
                   exact Bool.false_ne_true)]
    split
    · next hskip =>
      split
      · next hhealthy =>
        rw [Bool.and_eq_true] at hhealthy
        exact Or.inr ⟨hskip, rfl, hknown, hhealthy⟩
      · exact Or.inl rfl
    · exact Or.inl rfl

/-- `_persist_auto_skip` never shortens a skip. -/
theorem autoSkipWrites_extends {now u : Stamp} (h : p.autoSkipUntil = some u) :
    ∃ u', (autoSkipWrites now p).autoSkipUntil = some u' ∧ u ≤ u' := by
  unfold autoSkipWrites
  split
  · exact ⟨u, h, le_refl u⟩
  · split
    · exact ⟨u, h, le_refl u⟩
    · next hbeyond =>
      refine ⟨_, rfl, ?_⟩
      unfold Providers.Provider.skippedBeyond at hbeyond
      rw [h] at hbeyond
      exact not_lt.mp (by simpa using hbeyond)

/-! ## Runs of the three writers -/

/-- While a window that the latest snapshot says is exhausted has a known reset to come, and AIRI has
not written since, the provider is skipped. -/
def Covered (cfg : RotationSettings) (s : Rotation) : Prop :=
  ∀ snap, s.latest = some snap → s.airiSince = false →
    (∃ reset ∈ snap.candidates cfg, s.clock < reset) → isCurrentlyAtCapacity s.clock s.row = true

/-- What one write does: the state it leaves is covered, an evaluation without an exhausted window
clears a skip only if no known utilisation is above its floor and touches it no otherwise, and
`_persist_auto_skip` does not shorten it. -/
def RotatesSoundly (cfg : RotationSettings) (s : Rotation) (a : RotationAct) : Prop :=
  Covered cfg (s.step cfg a) ∧
    match a with
    | .evaluate snap =>
      snap.exhausted cfg = false → (s.step cfg a).row = s.row ∨
        (s.step cfg a).row.autoSkipUntil = none ∧
          ¬(snap.sevenDayUtilization = none ∧ snap.fiveHourUtilization = none) ∧
          snap.sevenDayUtilization.all (· ≤ cfg.clearBelow) = true ∧
          snap.fiveHourUtilization.all (· < 100) = true
    | .persistAutoSkip =>
      ∀ u, s.row.autoSkipUntil = some u → ∃ u', (s.step cfg a).row.autoSkipUntil = some u' ∧ u ≤ u'
    | _ => True

/-- The skip reaches to every known reset of the windows that are exhausted. -/
def Reaches (cfg : RotationSettings) (s : Rotation) : Prop :=
  ∀ snap, s.latest = some snap → s.airiSince = false →
    ∀ reset ∈ snap.candidates cfg, ∃ u, s.row.autoSkipUntil = some u ∧ reset ≤ u

theorem Reaches.covered (h : Reaches cfg s) : Covered cfg s := by
  intro snap hlatest hairi hreset
  obtain ⟨reset, hmem, hlt⟩ := hreset
  obtain ⟨u, hu, hle⟩ := h snap hlatest hairi reset hmem
  unfold isCurrentlyAtCapacity
  rw [hu]
  exact decide_eq_true (lt_of_lt_of_le hlt hle)

theorem reaches_step (h : Reaches cfg s) (a : RotationAct) : Reaches cfg (s.step cfg a) := by
  cases a with
  | evaluate snap =>
    intro snap' hlatest _ reset hmem
    obtain rfl : snap = snap' := Option.some.inj hlatest
    cases hexhausted : snap.exhausted cfg with
    | false =>
      rw [candidates_eq_nil hexhausted] at hmem
      cases hmem
    | true =>
      have hrow := evaluate_exhausted (p := s.row) hexhausted
      cases hmax : (snap.candidates cfg).max? with
      | none =>
        rw [List.max?_eq_none_iff.mp hmax] at hmem
        cases hmem
      | some u =>
        exact ⟨u, hrow.trans hmax, (List.max?_eq_some_iff.mp hmax).2 reset hmem⟩
  | persistAutoSkip =>
    intro snap hlatest hairi reset hmem
    obtain ⟨u, hu, hle⟩ := h snap hlatest hairi reset hmem
    obtain ⟨u', hu', hle'⟩ : ∃ u', (autoSkipWrites s.clock s.row).autoSkipUntil = some u' ∧ u ≤ u' :=
      autoSkipWrites_extends hu
    exact ⟨u', hu', le_trans hle hle'⟩
  | airiAutoSkip hours =>
    intro snap hlatest hairi
    cases hairi
  | wait microseconds => exact h

theorem rotatesSoundly (h : Reaches cfg s) (a : RotationAct) : RotatesSoundly cfg s a := by
  refine ⟨(reaches_step h a).covered, ?_⟩
  cases a with
  | evaluate snap =>
    intro hspared
    obtain hsame | ⟨-, hcleared⟩ := evaluate_spared (p := s.row) hspared
    · exact Or.inl hsame
    · exact Or.inr hcleared
  | persistAutoSkip => exact fun u hu => autoSkipWrites_extends hu
  | airiAutoSkip hours => trivial
  | wait microseconds => trivial

/-- **Quota rotation**, over every run of evaluations, auth-failure skips, AIRI skips and waits of one
provider, with any threshold and hysteresis. -/
theorem rotation_sound (cfg : RotationSettings) (p : Provider) (clock : Stamp)
    (as : List RotationAct) :
    Along (Rotation.step cfg) (RotatesSoundly cfg) { row := p, clock := clock } as := by
  have hstart : Reaches cfg { row := p, clock := clock } := by
    intro snap hlatest
    cases hlatest
  exact along_of_guard (I := Reaches cfg) (G := fun _ _ => True) (fun _ a h _ => rotatesSoundly h a)
    (fun _ a h _ => reaches_step h a) hstart (along_of_forall fun _ _ => trivial)

/-! ### Where the rules go further -/

/-- The rules without regard to what is known and to who wrote the skip: an exhausted snapshot with
any reset to come keeps the provider skipped; the evaluator clears its own skip only at or below the
floor and below 100; it never clears or shortens another's. -/
def rotatesStrictly (cfg : RotationSettings) (s : Rotation) (a : RotationAct) : Bool :=
  let s' := s.step cfg a
  let covered := s'.latest.all fun snap =>
    !snap.exhausted cfg ||
      !(snap.fiveHourResetsAt.toList ++ snap.sevenDayResetsAt.toList).any (s'.clock < ·) ||
      isCurrentlyAtCapacity s'.clock s'.row
  match a with
  | .evaluate snap =>
    covered && s.row.autoSkipUntil.all fun u =>
      u ≤ s.clock ||
        match s.writer with
        | .evaluator =>
          s'.row.autoSkipUntil.isSome ||
            snap.sevenDayUtilization.any (· ≤ cfg.capacityPct - cfg.hysteresisPct) &&
              snap.fiveHourUtilization.any (· < 100)
        | .other => s'.row.autoSkipUntil.any (u ≤ ·)
  | _ => covered

def rotated : Rotation := { row := { id := "p", name := "max", providerType := "claude-oauth" } }

def sessionFull (reset : Option Stamp) : UsageSnapshot :=
  { sevenDayUtilization := some 13, fiveHourUtilization := some 100, fiveHourResetsAt := reset }

/-- **The strict rules fail**: a full session whose reset is not known clears the skip of the snapshot
before it; a snapshot without the weekly window clears it; a healthy one clears the skip of an auth
failure; and AIRI clears the skip of a full session. -/
theorem rotation_not_strict :
    ¬ Along (Rotation.step {}) (fun s a => rotatesStrictly {} s a = true) rotated
        [.evaluate (sessionFull (some 9)), .evaluate (sessionFull none)] ∧
      ¬ Along (Rotation.step {}) (fun s a => rotatesStrictly {} s a = true) rotated
        [.evaluate (sessionFull (some 9)), .evaluate { fiveHourUtilization := some 99 }] ∧
      ¬ Along (Rotation.step {}) (fun s a => rotatesStrictly {} s a = true) rotated
        [.persistAutoSkip,
          .evaluate { sevenDayUtilization := some 13, fiveHourUtilization := some 20 }] ∧
      ¬ Along (Rotation.step {}) (fun s a => rotatesStrictly {} s a = true) rotated
        [.evaluate (sessionFull (some 9)), .airiAutoSkip 0] := by
  decide +kernel

end LlmProxy.Routing
