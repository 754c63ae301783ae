import LlmProxy.Airi.Proposals
import LlmProxy.Lib.SlidingWindow
import LlmProxy.Lib.Trace

/-! # The oscillation breaker of scheduled rules

`app/airi/evaluator.py`: a pass of the evaluator looks at a conditional rule that is due, and when
its condition fires the rule raises a proposal to skip its provider. A cooldown and a cap on the
actions of an hour bound it; one list of the times of its actions serves both, and what is an hour
old is taken off the list before either looks at it.

> `steady_iff`: over all runs of passes, the actions of a rule are the cooldown apart, at most so
> many in any hour, and none after the breaker tripped, exactly if the rule cannot act, or its
> cooldown is no longer than an hour or than what its cadence leaves between two passes.

Mirroring notes.
* Whether a condition fires, the tables of the proposal service and the warnings of a dry run are
  what they are at each pass. Only the evaluator writes the rule.
* A pass reads the clock when it starts and once more when the rule acts.
* A time that `isoformat` has written is read back as it was. The summary of a pass and the commits
  are not modelled.
-/

namespace LlmProxy.Airi

open LlmProxy.Providers
open SlidingWindow Trace

/-- `oscillation_state`. -/
structure OscillationState where
  acts : List Int
  trippedAt : Option Int := none

/-- A conditional rule, with what of its `spec` the evaluator reads. -/
structure ScheduledRule where
  name : String
  providerId : String
  actionType : Option String
  actionHours : Option Int
  cadenceMin : Option Int
  mode : String
  enabled : Bool
  maxRunsPerWindow : Option Int
  cooldownSec : Option Int
  expiryAt : Option Int
  lastRunAt : Option Int
  lastAction : Option String
  oscillationState : Option OscillationState

/-- What a pass finds: the clock, whether the condition fires, and the proposal service. -/
structure Pass where
  now : Int
  actNow : Int
  fired : Bool
  detail : String
  tables : State
  newId : String
  warned : Bool
  clk : FlushClock

structure RuleNote where
  subject : String
  message : String
  severity : String
  category : String

inductive RuleOutcome where
  | cooledDown
  | tripped
  | acted
  deriving DecidableEq

/-- What a pass does to a rule and to the tables, and its outcome when the condition fired. -/
structure PassResult where
  rule : ScheduledRule
  outcome : Option RuleOutcome
  note : Option RuleNote
  tables : State

/-- `value or default`, of a number. -/
def orDefault (value : Option Int) (default : Int) : Int :=
  match value with
  | some v => if v = 0 then default else v
  | none => default

/-- A second and an hour, in microseconds. -/
def second : Int := 1000000

def hour : Int := 3600 * second

def ScheduledRule.cooldown (rule : ScheduledRule) : Int := orDefault rule.cooldownSec 600

def ScheduledRule.cap (rule : ScheduledRule) : Int := orDefault rule.maxRunsPerWindow 5

def ScheduledRule.hours (rule : ScheduledRule) : Int := orDefault rule.actionHours 1

def ScheduledRule.cadence (rule : ScheduledRule) : Int := orDefault rule.cadenceMin 0

/-- `_finish_create`: the status of a new proposal. -/
def finishCreate (mode createdBy : String) (p : Pass) (st : State) : State × String :=
  if mode = "apply" ∧ p.warned = false then
    match applyProposal p.clk p.newId createdBy p.newId st with
    | .ok st' => (st', "applied")
    | .error _ => (st, "pending")
  else (st, "pending")

/-- `create_provider_change` with its tail; an error has no status, and reads as `pending`. -/
def proposeSkip (rule : ScheduledRule) (p : Pass) : State × String :=
  let createdBy := "airi-scheduled-rule:" ++ rule.name
  match createProviderChange p.newId rule.providerId (.autoSkipHours rule.hours) createdBy
      p.tables with
  | .ok st => finishCreate (if rule.mode = "auto_apply" then "apply" else "suggest") createdBy p st
  | .error _ => (p.tables, "pending")

def recentActs (rule : ScheduledRule) (now : Int) : List Int :=
  ((rule.oscillationState.map (·.acts)).getD []).filter (now - hour < ·)

def coolingDown (rule : ScheduledRule) (acts : List Int) (now : Int) : Bool :=
  acts.max?.any fun last => now - last < rule.cooldown * second

def skipNote (rule : ScheduledRule) (p : Pass) (status : String) : RuleNote :=
  if status = "applied" then
    { subject := "rule '" ++ rule.name ++ "' auto-skipped a provider"
      message := "Scheduled rule '" ++ rule.name ++ "' fired (" ++ p.detail ++
        ") and auto-skipped the provider for " ++ toString rule.hours ++ "h."
      severity := "warning"
      category := "automation" }
  else
    { subject := "rule '" ++ rule.name ++ "' raised a pending proposal"
      message := "Scheduled rule '" ++ rule.name ++ "' fired (" ++ p.detail ++
        "). A proposal to auto-skip the provider for " ++ toString rule.hours ++
        "h is PENDING your approval."
      severity := "warning"
      category := "automation" }

def tripNote (rule : ScheduledRule) (acts : List Int) : RuleNote :=
  { subject := "rule '" ++ rule.name ++ "' DISABLED — oscillation breaker"
    message := "Scheduled rule '" ++ rule.name ++ "' acted " ++ toString acts.length ++
      " times in the last hour (cap " ++ toString rule.cap ++
      ") and has been automatically disabled. Review it in AIRI before re-enabling."
    severity := "error"
    category := "automation" }

/-- `_act_conditional`. -/
def actConditional (rule : ScheduledRule) (p : Pass) : PassResult :=
  let acts := recentActs rule p.actNow
  if coolingDown rule acts p.actNow then
    { rule := { rule with lastAction := some ("cooled down (" ++ p.detail ++ ")") }
      outcome := some .cooledDown, note := none, tables := p.tables }
  else if rule.cap ≤ acts.length then
    { rule := { rule with
        enabled := false
        lastAction := some "tripped — oscillation breaker"
        oscillationState := some ⟨acts, some p.actNow⟩ }
      outcome := some .tripped, note := some (tripNote rule acts), tables := p.tables }
  else if rule.actionType ≠ some "auto_skip" then
    { rule := { rule with lastAction := some ("skipped — unsupported action " ++
        (match rule.actionType with
          | some type => "'" ++ type ++ "'"
          | none => "None")) }
      outcome := some .acted, note := none, tables := p.tables }
  else
    let res := proposeSkip rule p
    { rule := { rule with
        oscillationState := some ⟨acts ++ [p.actNow], none⟩
        lastAction := some (res.2 ++ " — auto_skip " ++ toString rule.hours ++ "h (" ++
          p.detail ++ ")") }
      outcome := some .acted, note := some (skipNote rule p res.2), tables := res.1 }

/-- The rule is enabled, has not expired, and its cadence has passed since its last run. -/
def isDue (rule : ScheduledRule) (now : Int) : Bool :=
  rule.enabled && !rule.expiryAt.any (· ≤ now) &&
    !rule.lastRunAt.any fun last => 0 < rule.cadence && now < last + rule.cadence * 60 * second

/-- The turn of a conditional rule in `evaluate_due_rules`. -/
def evaluateRule (rule : ScheduledRule) (p : Pass) : PassResult :=
  if isDue rule p.now then
    if p.fired then actConditional { rule with lastRunAt := some p.now } p
    else ⟨{ rule with lastRunAt := some p.now }, none, none, p.tables⟩
  else ⟨rule, none, none, p.tables⟩

def raised (p : Pass) (res : PassResult) : Bool :=
  p.tables.proposals.length < res.tables.proposals.length

structure RuleRun where
  rule : ScheduledRule
  actions : List Int := []

def RuleRun.step (s : RuleRun) (p : Pass) : RuleRun :=
  let res := evaluateRule s.rule p
  ⟨res.rule, if raised p res then s.actions ++ [p.actNow] else s.actions⟩

/-! ## One turn -/

section

variable {rule : ScheduledRule} {p : Pass} {s : RuleRun}

/-- No pass changes the terms of a rule, and none enables it. -/
structure SameTerms (rule rule' : ScheduledRule) : Prop where
  cooldown : rule'.cooldown = rule.cooldown
  cap : rule'.cap = rule.cap
  cadence : rule'.cadence = rule.cadence
  hours : rule'.hours = rule.hours
  actionType : rule'.actionType = rule.actionType
  providerId : rule'.providerId = rule.providerId
  enabled : rule'.enabled = true → rule.enabled = true

theorem SameTerms.trans {a b c : ScheduledRule} (hab : SameTerms a b) (hbc : SameTerms b c) :
    SameTerms a c where
  cooldown := hbc.cooldown.trans hab.cooldown
  cap := hbc.cap.trans hab.cap
  cadence := hbc.cadence.trans hab.cadence
  hours := hbc.hours.trans hab.hours
  actionType := hbc.actionType.trans hab.actionType
  providerId := hbc.providerId.trans hab.providerId
  enabled h := hab.enabled (hbc.enabled h)

/-- The rule is enabled, and what it would propose can be proposed. -/
structure CanAct (rule : ScheduledRule) : Prop where
  enabled : rule.enabled = true
  auto_skip : rule.actionType = some "auto_skip"
  hours : 0 < rule.hours
  provider : PyStr.strip rule.providerId ≠ ""

theorem SameTerms.canAct {rule' : ScheduledRule} (h : SameTerms rule rule') (hcan : CanAct rule') :
    CanAct rule :=
  ⟨h.enabled hcan.enabled, h.actionType ▸ hcan.auto_skip, h.hours ▸ hcan.hours,
    h.providerId ▸ hcan.provider⟩

theorem recentActs_later {now later : Int} (h : now ≤ later) :
    (recentActs rule now).filter (later - hour < ·) = recentActs rule later := by
  unfold recentActs
  rw [List.filter_filter]
  refine List.filter_congr fun t _ => ?_
  rw [← Bool.decide_and]
  refine decide_eq_decide.mpr ⟨fun hand => hand.1, fun hlater => ⟨hlater, ?_⟩⟩
  exact Int.lt_of_le_of_lt (Int.sub_le_sub_right h hour) hlater

/-- A turn that adds no action forgets no act of the hour. -/
structure Passed (p : Pass) (rule rule' : ScheduledRule) : Prop where
  lastRun : rule'.lastRunAt = rule.lastRunAt ∨ rule'.lastRunAt = some p.now
  recent : ∀ now, p.actNow ≤ now → (recentActs rule now).Sublist (recentActs rule' now)

/-- What held when the rule acted, and what the rule is then. -/
structure Acted (p : Pass) (rule rule' : ScheduledRule) : Prop where
  due : isDue rule p.now = true
  cooled : coolingDown rule (recentActs rule p.actNow) p.actNow = false
  below : ((recentActs rule p.actNow).length : Int) < rule.cap
  lastRun : rule'.lastRunAt = some p.now
  recent : ∀ now, p.actNow ≤ now →
    (recentActs rule now ++ [p.actNow].filter (now - hour < ·)).Sublist (recentActs rule' now)

theorem Acted.passed {rule' : ScheduledRule} (h : Acted p rule rule') : Passed p rule rule' where
  lastRun := .inr h.lastRun
  recent now hnow := (List.sublist_append_left _ _).trans (h.recent now hnow)

theorem actConditional_cases (rule : ScheduledRule) (p : Pass) (hdue : isDue rule p.now = true) :
    SameTerms rule (actConditional { rule with lastRunAt := some p.now } p).rule ∧
      (((actConditional { rule with lastRunAt := some p.now } p).tables = p.tables ∧
          Passed p rule (actConditional { rule with lastRunAt := some p.now } p).rule) ∨
        Acted p rule (actConditional { rule with lastRunAt := some p.now } p).rule) := by
  unfold actConditional
  dsimp only
  split
  · exact ⟨⟨rfl, rfl, rfl, rfl, rfl, rfl, id⟩,
      .inl ⟨rfl, .inr rfl, fun now _ => List.Sublist.refl _⟩⟩
  · next hcooled =>
    split
    · refine ⟨⟨rfl, rfl, rfl, rfl, rfl, rfl, fun h => absurd h Bool.false_ne_true⟩,
        .inl ⟨rfl, .inr rfl, fun now hnow => ?_⟩⟩
      have hlater : (recentActs rule p.actNow).filter (now - hour < ·) = recentActs rule now :=
        recentActs_later hnow
      exact hlater ▸ List.Sublist.refl _
    · next hbelow =>
      split
      · exact ⟨⟨rfl, rfl, rfl, rfl, rfl, rfl, id⟩,
          .inl ⟨rfl, .inr rfl, fun now _ => List.Sublist.refl _⟩⟩
      · refine ⟨⟨rfl, rfl, rfl, rfl, rfl, rfl, id⟩, .inr ⟨hdue, Bool.eq_false_iff.mpr hcooled,
          not_le.mp hbelow, rfl, fun now hnow => ?_⟩⟩
        have hlater : (recentActs rule p.actNow ++ [p.actNow]).filter (now - hour < ·) =
            recentActs rule now ++ [p.actNow].filter (now - hour < ·) := by
          rw [List.filter_append, recentActs_later hnow]
        exact hlater ▸ List.Sublist.refl _

theorem proposeSkip_error {e : String} (h : createProviderChange p.newId rule.providerId
    (.autoSkipHours rule.hours) ("airi-scheduled-rule:" ++ rule.name) p.tables = .error e) :
    (proposeSkip rule p).1 = p.tables := by
  unfold proposeSkip
  dsimp only
  rw [h]

theorem createProviderChange_skip {newId ref createdBy : String} {hours : Int} {st st' : State}
    (h : createProviderChange newId ref (.autoSkipHours hours) createdBy st = .ok st') :
    0 ≤ hours ∧ PyStr.strip ref ≠ "" := by
  unfold createProviderChange resolveProvider at h
  dsimp only at h
  constructor
  · by_contra hneg
    split at h
    · cases h
    · next p _ =>
      have hcapped : cappedChange (activeCaps st) p (.autoSkipHours hours) =
          .error "auto_skip_hours must be non-negative" := if_pos (not_le.mp hneg)
      rw [hcapped] at h
      cases h
  · intro hblank
    rw [if_pos hblank] at h
    cases h

theorem hours_ne_zero (rule : ScheduledRule) : rule.hours ≠ 0 := by
  unfold ScheduledRule.hours orDefault
  split
  · split
    · exact Int.one_ne_zero
    · next hne => exact hne
  · exact Int.one_ne_zero

theorem raised_canAct (h : raised p (evaluateRule rule p) = true) : CanAct rule := by
  have hsame : ∀ {r : PassResult}, r.tables = p.tables → raised p r ≠ true := by
    intro r htables hraised
    unfold raised at hraised
    rw [htables, decide_eq_true_eq] at hraised
    exact lt_irrefl _ hraised
  unfold evaluateRule at h
  split at h
  · next hdue =>
    split at h
    · unfold actConditional at h
      dsimp only at h
      split at h
      · exact absurd h (hsame rfl)
      · split at h
        · exact absurd h (hsame rfl)
        · split at h
          · exact absurd h (hsame rfl)
          · next hskip =>
            cases hmade : createProviderChange p.newId rule.providerId (.autoSkipHours rule.hours)
                ("airi-scheduled-rule:" ++ rule.name) p.tables with
            | error e => exact absurd h (hsame (proposeSkip_error hmade))
            | ok st =>
              obtain ⟨hhours, hprovider⟩ := createProviderChange_skip hmade
              refine ⟨?_, not_not.mp hskip, ?_, hprovider⟩
              · unfold isDue at hdue
                rw [Bool.and_eq_true, Bool.and_eq_true] at hdue
                exact hdue.1.1
              · exact lt_of_le_of_ne hhours (hours_ne_zero rule).symm
    · exact absurd h (hsame rfl)
  · exact absurd h (hsame rfl)

/-- **What a turn can do** to a rule and its actions. -/
theorem step_cases (s : RuleRun) (p : Pass) : SameTerms s.rule (s.step p).rule ∧
    (((s.step p).actions = s.actions ∧ Passed p s.rule (s.step p).rule) ∨
      ((s.step p).actions = s.actions ++ [p.actNow] ∧ CanAct s.rule ∧
        Acted p s.rule (s.step p).rule)) := by
  have hsame : raised p ⟨s.rule, none, none, p.tables⟩ = false :=
    decide_eq_false (lt_irrefl _)
  by_cases hdue : isDue s.rule p.now = true
  · by_cases hfired : p.fired = true
    · have hturn : evaluateRule s.rule p =
          actConditional { s.rule with lastRunAt := some p.now } p := by
        unfold evaluateRule
        rw [if_pos hdue, if_pos hfired]
      obtain ⟨hterms, hcases⟩ := actConditional_cases s.rule p hdue
      unfold RuleRun.step
      rw [hturn]
      refine ⟨hterms, ?_⟩
      dsimp only
      rcases hcases with ⟨htables, hpassed⟩ | hacted
      · refine .inl ⟨if_neg ?_, hpassed⟩
        unfold raised
        rw [htables, decide_eq_true_eq]
        exact lt_irrefl _
      · split
        · next hraised => exact .inr ⟨rfl, raised_canAct (hturn ▸ hraised), hacted⟩
        · exact .inl ⟨rfl, hacted.passed⟩
    · have hturn : evaluateRule s.rule p =
          ⟨{ s.rule with lastRunAt := some p.now }, none, none, p.tables⟩ := by
        unfold evaluateRule
        rw [if_pos hdue, if_neg hfired]
      unfold RuleRun.step
      rw [hturn]
      exact ⟨⟨rfl, rfl, rfl, rfl, rfl, rfl, id⟩,
        .inl ⟨if_neg (Bool.eq_false_iff.mp hsame), .inr rfl, fun now _ => List.Sublist.refl _⟩⟩
  · have hturn : evaluateRule s.rule p = ⟨s.rule, none, none, p.tables⟩ := by
      unfold evaluateRule
      rw [if_neg hdue]
    unfold RuleRun.step
    rw [hturn]
    exact ⟨⟨rfl, rfl, rfl, rfl, rfl, rfl, id⟩, .inl ⟨if_neg (Bool.eq_false_iff.mp hsame), .inl rfl,
      fun now _ => List.Sublist.refl _⟩⟩

theorem cooled_le {acts : List Int} {now t : Int} (h : coolingDown rule acts now = false)
    (ht : t ∈ acts) : t + rule.cooldown * second ≤ now := by
  obtain ⟨last, hlast⟩ : ∃ last, acts.max? = some last :=
    Option.isSome_iff_exists.mp (List.isSome_max?_of_mem ht)
  unfold coolingDown at h
  rw [hlast] at h
  have hcooled : ¬ now - last < rule.cooldown * second := of_decide_eq_false h
  have hle : t ≤ last := List.max?_le_iff hlast |>.mp le_rfl t ht
  omega

theorem not_due_sooner {now last : Int} (h : isDue rule now = true)
    (hlast : rule.lastRunAt = some last) (hcadence : 0 < rule.cadence) :
    last + rule.cadence * 60 * second ≤ now := by
  unfold isDue at h
  rw [hlast, Bool.and_eq_true, Bool.not_eq_true'] at h
  have hnot := h.2
  rw [Option.any_some, decide_eq_true hcadence, Bool.true_and] at hnot
  exact not_lt.mp (of_decide_eq_false hnot)

end

/-! ## Runs -/

section

variable {rule : ScheduledRule} {lag now : Int} {p : Pass} {s : RuleRun}

structure WithinTerms (rule : ScheduledRule) (actions : List Int) : Prop where
  apart : actions.Pairwise fun t u => t + rule.cooldown * second ≤ u
  capped : ∀ t, ((actions.filter fun u => t ≤ u ∧ u < t + hour).length : Int) ≤ rule.cap
  cappedAfter : ∀ t, ((actions.filter fun u => t < u ∧ u ≤ t + hour).length : Int) ≤ rule.cap

/-- An hour of acts, or the passes, last as long as the cooldown. -/
def CooldownKept (rule : ScheduledRule) (lag : Int) : Prop :=
  rule.cooldown * second ≤ hour ∨
    rule.cooldown * second ≤ rule.cadence * 60 * second - lag

/-- Where a rule stands after the passes up to a time. -/
structure Keeps (rule : ScheduledRule) (lag now : Int) (s : RuleRun) : Prop where
  terms : SameTerms rule s.rule
  past : ∀ t ∈ s.actions, t ≤ now
  sinceRun : ∀ t ∈ s.actions, ∃ last, s.rule.lastRunAt = some last ∧ t ≤ last + lag
  remembered : ∀ later, now ≤ later →
    (s.actions.filter (later - hour < ·)).Sublist (recentActs s.rule later)
  within : WithinTerms rule s.actions

theorem Keeps.apart_of_acted {rule' : ScheduledRule} (h : Keeps rule lag now s)
    (hkept : CooldownKept rule lag) (hacted : Acted p s.rule rule') (hnow : now ≤ p.now)
    (hclock : p.now ≤ p.actNow) (hlag : p.actNow ≤ p.now + lag) {t : Int} (ht : t ∈ s.actions) :
    t + rule.cooldown * second ≤ p.actNow := by
  have hcooldown := h.terms.cooldown
  have hcadence := h.terms.cadence
  have hpast := h.past t ht
  by_cases hrecent : p.actNow - hour < t
  · have hmem := (h.remembered p.actNow (hnow.trans hclock)).subset
      (List.mem_filter.mpr ⟨ht, decide_eq_true hrecent⟩)
    have hle := cooled_le hacted.cooled hmem
    rwa [hcooldown] at hle
  · rcases hkept with hhour | hpasses
    · omega
    · obtain ⟨last, hlast, htlast⟩ := h.sinceRun t ht
      by_cases hpos : 0 < rule.cadence
      · have hdue := not_due_sooner hacted.due hlast (by rw [hcadence]; exact hpos)
        rw [hcadence] at hdue
        omega
      · have hsecond : (0 : Int) < second := by decide
        have hnone : rule.cadence * 60 * second ≤ 0 :=
          Int.mul_nonpos_of_nonpos_of_nonneg (by omega) hsecond.le
        omega

theorem Keeps.capped_of_acted {rule' : ScheduledRule} (h : Keeps rule lag now s)
    (hacted : Acted p s.rule rule') (hnow : now ≤ p.actNow) {w : Int → Bool}
    (hw : ((s.actions.filter w).length : Int) ≤ rule.cap)
    (hrecent : w p.actNow = true → ∀ u, w u = true → p.actNow - hour < u) :
    (((s.actions ++ [p.actNow]).filter w).length : Int) ≤ rule.cap := by
  have hroom : ((s.actions.filter (p.actNow - hour < ·)).length : Int) < rule.cap := by
    have hlength := (h.remembered p.actNow hnow).length_le
    have hbelow := hacted.below
    rw [h.terms.cap] at hbelow
    omega
  have hle := @length_filter_concat_le _ s.actions p.actNow rule.cap.toNat w
    (fun u => decide (p.actNow - hour < u)) (by omega)
    (fun hin u _ hu => decide_eq_true (hrecent hin u hu)) (by omega)
  omega

theorem Keeps.step (h : Keeps rule lag now s) (hkept : CooldownKept rule lag) (hnow : now ≤ p.now)
    (hclock : p.now ≤ p.actNow) (hlag : p.actNow ≤ p.now + lag) :
    Keeps rule lag p.actNow (s.step p) := by
  obtain ⟨hterms, ⟨hactions, hpassed⟩ | ⟨hactions, -, hacted⟩⟩ := step_cases s p
  · refine ⟨h.terms.trans hterms, ?_, ?_, ?_, ?_⟩ <;> rw [hactions]
    · exact fun t ht => (h.past t ht).trans (hnow.trans hclock)
    · intro t ht
      rcases hpassed.lastRun with hlast | hlast
      · rw [hlast]
        exact h.sinceRun t ht
      · have hpast := h.past t ht
        exact ⟨p.now, hlast, by omega⟩
    · intro later hlater
      exact (h.remembered later ((hnow.trans hclock).trans hlater)).trans
        (hpassed.recent later hlater)
    · exact h.within
  · have hbefore : now ≤ p.actNow := hnow.trans hclock
    refine ⟨h.terms.trans hterms, ?_, ?_, ?_, ?_⟩ <;> rw [hactions]
    · intro t ht
      rcases List.mem_append.mp ht with ht | ht
      · exact (h.past t ht).trans hbefore
      · exact (List.mem_singleton.mp ht).le
    · intro t ht
      refine ⟨p.now, hacted.lastRun, ?_⟩
      rcases List.mem_append.mp ht with ht | ht
      · have hpast := h.past t ht
        omega
      · rw [List.mem_singleton.mp ht]
        exact hlag
    · intro later hlater
      rw [List.filter_append]
      exact ((h.remembered later (hbefore.trans hlater)).append (List.Sublist.refl _)).trans
        (hacted.recent later hlater)
    · refine ⟨?_, fun t => ?_, fun t => ?_⟩
      · refine List.pairwise_append.mpr ⟨h.within.apart, List.pairwise_singleton _ _, ?_⟩
        intro t ht u hu
        rw [List.mem_singleton.mp hu]
        exact h.apart_of_acted hkept hacted hnow hclock hlag ht
      · refine h.capped_of_acted hacted hbefore (h.within.capped t) fun hin u hu => ?_
        rw [decide_eq_true_eq] at hin hu
        omega
      · refine h.capped_of_acted hacted hbefore (h.within.cappedAfter t) fun hin u hu => ?_
        rw [decide_eq_true_eq] at hin hu
        omega

/-! ### From the first pass on -/

def start (rule : ScheduledRule) : RuleRun :=
  ⟨{ rule with lastRunAt := none, lastAction := none, oscillationState := none }, []⟩

/-- The clock does not go back, and a pass comes to the rule within so long of its start. -/
def Timely (lag : Int) (passes : List Pass) : Prop :=
  (∀ p ∈ passes, p.now ≤ p.actNow ∧ p.actNow ≤ p.now + lag) ∧
    passes.Pairwise fun p q => p.actNow ≤ q.now

/-- A run in which the rule keeps its terms, and takes no action after the breaker tripped. -/
structure Steady (rule : ScheduledRule) (passes : List Pass) : Prop where
  within : WithinTerms rule (run RuleRun.step (start rule) passes).actions
  quiet : ∀ before p after, passes = before ++ p :: after →
    (evaluateRule (run RuleRun.step (start rule) before).rule p).outcome = some .tripped →
    (run RuleRun.step (start rule) passes).actions =
      (run RuleRun.step (start rule) before).actions

theorem withinTerms_nil (hcap : 0 < rule.cap) : WithinTerms rule [] :=
  ⟨List.Pairwise.nil, fun _ => hcap.le, fun _ => hcap.le⟩

theorem keeps_start (hcap : 0 < rule.cap) (lag now : Int) : Keeps rule lag now (start rule) where
  terms := ⟨rfl, rfl, rfl, rfl, rfl, rfl, id⟩
  past _ ht := absurd ht List.not_mem_nil
  sinceRun _ ht := absurd ht List.not_mem_nil
  remembered _ _ := List.nil_sublist _
  within := withinTerms_nil hcap

/-- **The terms are kept** from any point on. -/
theorem Keeps.run (hkept : CooldownKept rule lag) {passes : List Pass}
    (htimely : Timely lag passes) (h : Keeps rule lag now s) (hnow : ∀ p ∈ passes, now ≤ p.now) :
    WithinTerms rule (Trace.run RuleRun.step s passes).actions := by
  induction passes generalizing s now with
  | nil => exact h.within
  | cons p passes ih =>
    obtain ⟨hclock, horder⟩ := htimely
    obtain ⟨hp, hrest⟩ := List.forall_mem_cons.mp hclock
    obtain ⟨hnext, horder⟩ := List.pairwise_cons.mp horder
    exact ih ⟨hrest, horder⟩ (h.step hkept (hnow p List.mem_cons_self) hp.1 hp.2) hnext

theorem actions_of_cannotAct (hcannot : ¬ CanAct rule) (hterms : SameTerms rule s.rule)
    (passes : List Pass) : (Trace.run RuleRun.step s passes).actions = s.actions := by
  induction passes generalizing s with
  | nil => rfl
  | cons p passes ih =>
    obtain ⟨hstep, ⟨hactions, -⟩ | ⟨-, hcan, -⟩⟩ := step_cases s p
    · exact (ih (hterms.trans hstep)).trans hactions
    · exact absurd (hterms.canAct hcan) hcannot

theorem tripped_spec (h : (evaluateRule s.rule p).outcome = some .tripped) :
    (s.step p).actions = s.actions ∧ ¬ CanAct (s.step p).rule := by
  have hturn : (evaluateRule s.rule p).tables = p.tables ∧
      (evaluateRule s.rule p).rule.enabled = false := by
    unfold evaluateRule at h ⊢
    split at h
    · next hdue =>
      split at h
      · next hfired =>
        rw [if_pos hdue, if_pos hfired]
        unfold actConditional at h ⊢
        dsimp only at h ⊢
        split at h
        · cases h
        · next hcooled =>
          rw [if_neg hcooled]
          split at h
          · next hcap =>
            rw [if_pos hcap]
            exact ⟨rfl, rfl⟩
          · split at h <;> cases h
      · cases h
    · cases h
  unfold RuleRun.step
  refine ⟨if_neg ?_, fun hcan => ?_⟩
  · unfold raised
    rw [hturn.1, decide_eq_true_eq]
    exact lt_irrefl _
  · have henabled := hcan.enabled
    rw [hturn.2] at henabled
    cases henabled

/-- **After a trip** there is no action. -/
theorem quiet_after_trip (before : List Pass) (p : Pass) (after : List Pass)
    (h : (evaluateRule (Trace.run RuleRun.step (start rule) before).rule p).outcome =
      some .tripped) :
    (Trace.run RuleRun.step (start rule) (before ++ p :: after)).actions =
      (Trace.run RuleRun.step (start rule) before).actions := by
  obtain ⟨hactions, hcannot⟩ := tripped_spec h
  rw [run_append, run_cons]
  exact (actions_of_cannotAct hcannot ⟨rfl, rfl, rfl, rfl, rfl, rfl, id⟩ after).trans hactions

theorem steady_of_within {passes : List Pass}
    (h : WithinTerms rule (Trace.run RuleRun.step (start rule) passes).actions) :
    Steady rule passes where
  within := h
  quiet before p after heq := by
    rw [heq]
    exact quiet_after_trip before p after

/-! ### Two actions too close -/

def onlyProvider (providerId : String) : State :=
  { providers := [{ id := PyStr.strip providerId, name := "main", providerType := "openai" }] }

/-- A pass on these tables, in which the condition fires. -/
def firingPass (providerId : String) (now actNow : Int) : Pass where
  now := now
  actNow := actNow
  fired := true
  detail := "error rate 60.0%"
  tables := onlyProvider providerId
  newId := "p1"
  warned := true
  clk := ⟨0, 0⟩

theorem propose_onlyProvider (hcan : CanAct rule) (now actNow : Int) :
    (onlyProvider rule.providerId).proposals.length <
      (proposeSkip rule (firingPass rule.providerId now actNow)).1.proposals.length := by
  have hfound : resolveProvider (onlyProvider rule.providerId).providers rule.providerId =
      some { id := PyStr.strip rule.providerId, name := "main", providerType := "openai" } := by
    unfold resolveProvider
    dsimp only
    rw [if_neg hcan.provider]
    have hrow : getRow (onlyProvider rule.providerId).providers (PyStr.strip rule.providerId) =
        some { id := PyStr.strip rule.providerId, name := "main", providerType := "openai" } :=
      List.find?_cons_of_pos (by exact decide_eq_true rfl)
    rw [hrow]
    rfl
  have hcapped : ∃ change, cappedChange (activeCaps (onlyProvider rule.providerId))
      { id := PyStr.strip rule.providerId, name := "main", providerType := "openai" }
      (.autoSkipHours rule.hours) = .ok change := by
    have hhours := hcan.hours
    unfold cappedChange
    dsimp only
    rw [if_neg (by omega)]
    split
    · next hzero =>
      have hcaps : (activeCaps (onlyProvider rule.providerId)).maxAutoSkipHours = 24 := rfl
      rw [hcaps]
      exact ⟨_, rfl⟩
    · rw [if_neg (by omega)]
      exact ⟨_, rfl⟩
  obtain ⟨change, hchange⟩ := hcapped
  obtain ⟨st, hmade, hlength⟩ : ∃ st, createProviderChange "p1" rule.providerId
      (.autoSkipHours rule.hours) ("airi-scheduled-rule:" ++ rule.name)
      (onlyProvider rule.providerId) = .ok st ∧ st.proposals.length = 1 := by
    unfold createProviderChange
    rw [hfound]
    dsimp only
    rw [hchange]
    exact ⟨_, rfl, rfl⟩
  have hfinish : ∀ mode createdBy,
      finishCreate mode createdBy (firingPass rule.providerId now actNow) st = (st, "pending") :=
    fun mode createdBy => if_neg fun hand => Bool.false_ne_true hand.2.symm
  have hpropose : proposeSkip rule (firingPass rule.providerId now actNow) = (st, "pending") := by
    unfold proposeSkip
    dsimp only [firingPass] at hmade ⊢
    rw [hmade]
    exact hfinish _ _
  rw [hpropose, hlength]
  exact Nat.zero_lt_one

theorem actConditional_acts {p : Pass} (hcan : CanAct rule) (hcap : 0 < rule.cap)
    (hnone : recentActs rule p.actNow = []) :
    (actConditional rule p).tables = (proposeSkip rule p).1 ∧
      (actConditional rule p).rule.oscillationState = some ⟨[p.actNow], none⟩ ∧
      (actConditional rule p).rule.lastRunAt = rule.lastRunAt ∧
      (actConditional rule p).rule.enabled = rule.enabled ∧
      (actConditional rule p).rule.expiryAt = rule.expiryAt := by
  have hbelow : ¬ rule.cap ≤ (([] : List Int).length : Int) := not_le.mpr hcap
  have hcooled : ¬ coolingDown rule [] p.actNow = true := Bool.false_ne_true
  unfold actConditional
  dsimp only
  rw [hnone, if_neg hcooled, if_neg hbelow, if_neg (not_not.mpr hcan.auto_skip)]
  exact ⟨rfl, rfl, rfl, rfl, rfl⟩

theorem firingPass_acts (hcan : CanAct s.rule) (hcap : 0 < s.rule.cap) {actNow : Int}
    (hdue : isDue s.rule now = true) (hnone : recentActs s.rule actNow = []) :
    (s.step (firingPass s.rule.providerId now actNow)).actions = s.actions ++ [actNow] ∧
      (s.step (firingPass s.rule.providerId now actNow)).rule.oscillationState =
        some ⟨[actNow], none⟩ ∧
      (s.step (firingPass s.rule.providerId now actNow)).rule.lastRunAt = some now ∧
      (s.step (firingPass s.rule.providerId now actNow)).rule.enabled = true ∧
      (s.step (firingPass s.rule.providerId now actNow)).rule.expiryAt = s.rule.expiryAt := by
  have hcan' : CanAct { s.rule with lastRunAt := some now } :=
    ⟨hcan.enabled, hcan.auto_skip, hcan.hours, hcan.provider⟩
  have hturn : evaluateRule s.rule (firingPass s.rule.providerId now actNow) =
      actConditional { s.rule with lastRunAt := some now }
        (firingPass s.rule.providerId now actNow) := by
    unfold evaluateRule
    exact (if_pos hdue).trans (if_pos rfl)
  obtain ⟨htables, hstate, hlast, henabled, hexpiry⟩ :=
    @actConditional_acts { s.rule with lastRunAt := some now }
      (firingPass s.rule.providerId now actNow) hcan' hcap hnone
  have hraised : raised (firingPass s.rule.providerId now actNow)
      (evaluateRule s.rule (firingPass s.rule.providerId now actNow)) = true := by
    unfold raised
    rw [hturn, htables]
    exact decide_eq_true (propose_onlyProvider hcan' now actNow)
  refine ⟨if_pos hraised, ?_⟩
  unfold RuleRun.step
  rw [hturn]
  exact ⟨hstate, hlast, henabled.trans hcan.enabled, hexpiry⟩

theorem isDue_of (henabled : rule.enabled = true) (hexpiry : ∀ e, rule.expiryAt = some e → now < e)
    (hlast : ∀ last, rule.lastRunAt = some last → last + rule.cadence * 60 * second ≤ now) :
    isDue rule now = true := by
  unfold isDue
  rw [Bool.and_eq_true, Bool.and_eq_true, Bool.not_eq_true', Bool.not_eq_true']
  refine ⟨⟨henabled, ?_⟩, ?_⟩
  · cases hsome : rule.expiryAt with
    | none => rfl
    | some e => exact decide_eq_false (not_le.mpr (hexpiry e hsome))
  · cases hsome : rule.lastRunAt with
    | none => rfl
    | some last =>
      rw [Option.any_some, decide_eq_false (not_lt.mpr (hlast last hsome)), Bool.and_false]

theorem first_acts (hcan : CanAct rule) (hcap : 0 < rule.cap) {t : Int} (lag : Int)
    (hexpiry : ∀ e, rule.expiryAt = some e → t < e) :
    ∃ s, s = (start rule).step (firingPass rule.providerId t (t + lag)) ∧ s.actions = [t + lag] ∧
      SameTerms rule s.rule ∧ s.rule.oscillationState = some ⟨[t + lag], none⟩ ∧
      s.rule.lastRunAt = some t ∧ s.rule.enabled = true ∧ s.rule.expiryAt = rule.expiryAt := by
  have hcan' : CanAct (start rule).rule :=
    ⟨hcan.enabled, hcan.auto_skip, hcan.hours, hcan.provider⟩
  have hdue : isDue (start rule).rule t = true :=
    isDue_of hcan.enabled hexpiry fun _ hlast => (Option.some_ne_none _ hlast.symm).elim
  obtain ⟨hactions, hrest⟩ := @firingPass_acts t (start rule) hcan' hcap (t + lag) hdue rfl
  obtain ⟨hstate, hlast, henabled, hexpiry'⟩ := hrest
  have hterms := (step_cases (start rule) (firingPass rule.providerId t (t + lag))).1
  have hsame : SameTerms rule (start rule).rule := ⟨rfl, rfl, rfl, rfl, rfl, rfl, id⟩
  exact ⟨_, rfl, hactions, hsame.trans hterms, hstate, hlast, henabled, hexpiry'⟩

theorem second_acts (hcan : CanAct rule) (hcap : 0 < rule.cap) (hterms : SameTerms rule s.rule)
    {first last : Int} (hstate : s.rule.oscillationState = some ⟨[first], none⟩)
    (hlast : s.rule.lastRunAt = some last) (henabled : s.rule.enabled = true)
    (hexpiry : ∀ e, s.rule.expiryAt = some e → now < e) (hforgotten : first + hour ≤ now)
    (hdue : last + rule.cadence * 60 * second ≤ now) :
    (s.step (firingPass rule.providerId now now)).actions = s.actions ++ [now] := by
  have hcan' : CanAct s.rule :=
    ⟨henabled, hterms.actionType.trans hcan.auto_skip, hterms.hours ▸ hcan.hours,
      hterms.providerId ▸ hcan.provider⟩
  have hnone : recentActs s.rule now = [] := by
    unfold recentActs
    rw [hstate]
    refine List.filter_eq_nil_iff.mpr fun u hu => ?_
    rw [List.mem_singleton.mp hu, decide_eq_true_eq]
    omega
  have hdue' : isDue s.rule now = true := by
    refine isDue_of henabled hexpiry fun last' hsome => ?_
    rw [hterms.cadence, ← Option.some.inj (hlast.symm.trans hsome)]
    exact hdue
  rw [← hterms.providerId]
  exact (firingPass_acts hcan' (hterms.cap ▸ hcap) hdue' hnone).1

/-- **A longer cooldown** is not kept: its second action comes as soon as the first is forgotten and
the rule is due. -/
theorem twice_within_cooldown (hcan : CanAct rule) (hcap : 0 < rule.cap) (hlag : 0 ≤ lag)
    (hnot : ¬ CooldownKept rule lag) : ∃ passes, Timely lag passes ∧ ¬ Steady rule passes := by
  obtain ⟨hhour, hpasses⟩ := not_or.mp hnot
  obtain ⟨gap, hgaphour, hgappasses, hgapcooldown⟩ : ∃ gap, hour ≤ gap ∧
      rule.cadence * 60 * second - lag ≤ gap ∧ gap < rule.cooldown * second :=
    ⟨_, le_max_left _ _, le_max_right _ _, max_lt (not_le.mp hhour) (not_le.mp hpasses)⟩
  have hpositive : (0 : Int) < hour := by decide
  -- early enough for the second pass to come before the rule expires
  obtain ⟨t, hexpiry⟩ : ∃ t, ∀ e, rule.expiryAt = some e → t + lag + gap < e := by
    refine ⟨rule.expiryAt.getD 0 - lag - gap - 1, fun e he => ?_⟩
    rw [he, Option.getD_some]
    omega
  obtain ⟨s, hs, hfirst, hterms, hstate, hlast, henabled, hexpiry'⟩ :=
    first_acts hcan hcap lag fun e he => (by have := hexpiry e he; omega : t < e)
  have hsecond : (s.step (firingPass rule.providerId (t + lag + gap) (t + lag + gap))).actions =
      [t + lag, t + lag + gap] := by
    rw [second_acts hcan hcap hterms hstate hlast henabled (fun e he => hexpiry e (hexpiry' ▸ he))
      (by omega) (by omega), hfirst]
    rfl
  refine ⟨[firingPass rule.providerId t (t + lag),
    firingPass rule.providerId (t + lag + gap) (t + lag + gap)], ⟨fun p hp => ?_, ?_⟩,
    fun hsteady => ?_⟩
  · rcases List.mem_cons.mp hp with rfl | hp
    · exact ⟨Int.le_add_of_nonneg_right hlag, Int.le_refl _⟩
    · rw [List.mem_singleton.mp hp]
      exact ⟨Int.le_refl _, Int.le_add_of_nonneg_right hlag⟩
  · exact List.pairwise_pair.mpr (Int.le_add_of_nonneg_right (by omega))
  · have hapart := hsteady.within.apart
    rw [run_cons, ← hs, run_cons, run_nil, hsecond, List.pairwise_pair] at hapart
    omega

/-- **Over all runs of passes** the rule keeps its terms exactly if it cannot act, or an hour or its
passes outlast the cooldown. -/
theorem steady_iff (hcap : 0 < rule.cap) (hlag : 0 ≤ lag) :
    (∀ passes, Timely lag passes → Steady rule passes) ↔ ¬ CanAct rule ∨ CooldownKept rule lag := by
  constructor
  · intro hsteady
    by_contra hnot
    obtain ⟨hcan, hlong⟩ := not_or.mp hnot
    obtain ⟨passes, htimely, hunsteady⟩ := twice_within_cooldown (not_not.mp hcan) hcap hlag hlong
    exact hunsteady (hsteady passes htimely)
  · intro hterms passes htimely
    refine steady_of_within ?_
    rcases hterms with hcannot | hkept
    · rw [actions_of_cannotAct hcannot ⟨rfl, rfl, rfl, rfl, rfl, rfl, id⟩]
      exact withinTerms_nil hcap
    · cases passes with
      | nil => exact withinTerms_nil hcap
      | cons p passes =>
        refine (keeps_start hcap lag p.now).run hkept htimely ?_
        intro q hq
        rcases List.mem_cons.mp hq with rfl | hq
        · exact le_refl _
        · exact (htimely.1 p List.mem_cons_self).1.trans
            ((List.pairwise_cons.mp htimely.2).1 q hq)

end

/-- A rule with a cooldown of two hours, evaluated every five minutes. -/
def twoHours : ScheduledRule where
  name := "skip on errors"
  providerId := "main"
  actionType := some "auto_skip"
  actionHours := some 1
  cadenceMin := some 5
  mode := "suggest"
  enabled := true
  maxRunsPerWindow := some 5
  cooldownSec := some 7200
  expiryAt := none
  lastRunAt := none
  lastAction := none
  oscillationState := none

theorem steady_iff_twoHours : (∀ passes, Timely 0 passes → Steady twoHours passes) ↔
    ¬ CanAct twoHours ∨ CooldownKept twoHours 0 :=
  steady_iff (by decide) (by decide)

/-- It acts again after an hour. -/
theorem twoHours_oscillates :
    Timely 0 [firingPass "main" 0 0, firingPass "main" hour hour] ∧
      (run RuleRun.step (start twoHours)
        [firingPass "main" 0 0, firingPass "main" hour hour]).actions = [0, hour] ∧
      ¬ Steady twoHours [firingPass "main" 0 0, firingPass "main" hour hour] := by
  have hactions : (run RuleRun.step (start twoHours)
      [firingPass "main" 0 0, firingPass "main" hour hour]).actions = [0, hour] := by
    decide +kernel
  refine ⟨⟨fun p hp => ?_, List.pairwise_pair.mpr (by decide)⟩, hactions, fun hsteady => ?_⟩
  · rcases List.mem_cons.mp hp with rfl | hp
    · exact ⟨le_refl _, le_refl _⟩
    · rw [List.mem_singleton.mp hp]
      exact ⟨le_refl _, le_refl _⟩
  · have hapart := hsteady.within.apart
    rw [hactions, List.pairwise_pair] at hapart
    exact absurd hapart (by decide)

end LlmProxy.Airi
