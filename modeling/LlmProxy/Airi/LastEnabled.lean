import LlmProxy.Airi.Decisions

/-! # The last enabled provider

`apply_proposal` refuses to disable the last enabled provider. `revert_proposal` restores `enabled`
from the snapshot of an apply, whatever proposal that was, and asks nothing.

> `stays_online_iff`: in a run, no call of the service takes the last enabled provider away exactly
> if no revert restores a disabled snapshot over it.
-/

namespace LlmProxy.Airi

open LlmProxy.Providers
open Trace

def Act.ofAiri : Act → Bool
  | .operator _ _ _ => false
  | _ => true

/-- The call leaves a provider enabled if there was one. -/
def StaysOnline (s : History) (a : Act) : Prop :=
  a.ofAiri = true → online s.providers = true → online (s.step a).providers = true

def PriorState.offline : Option PriorState → Bool
  | some (.provider _ false _) => true
  | _ => false

/-- Reverting the proposal writes a disabled snapshot over the only provider that is enabled. -/
def overLast (s : History) (id : String) : Bool :=
  match s.proposals.find? (·.id = id) with
  | none => false
  | some prop =>
    match prop.change with
    | .provider target _ =>
      prop.status = .applied && PriorState.offline prop.priorState &&
        (getRow s.providers target).any fun p =>
          !p.deleted && p.enabled && !othersEnabled s.providers p
    | _ => false

def Act.darkens (s : History) : Act → Bool
  | .revert _ _ id => overLast s id
  | _ => false

variable {s : History} {clk : FlushClock} {newRuleId decidedBy id : String}

theorem online_eq {rows : List Provider} {target : String} {p : Provider}
    (hids : (rows.map Provider.id).Nodup) (hrow : getRow rows target = some p) :
    online rows = ((!p.deleted && p.enabled) || othersEnabled rows p) := by
  have hsame : updateById ⟨0, 0⟩ target (fun p => p) rows = rows := by
    have hmap := Table.map_updateFirst_eq_iff (p := fun p : Provider => p.id = target)
      (f := fun p => flush ⟨0, 0⟩ p p) (g := fun p => p) (t := rows)
    simp only [List.map_id'] at hmap
    exact hmap.mpr fun p _ => if_pos rfl
  have hafter : online (updateById ⟨0, 0⟩ target (fun p => p) rows) = _ :=
    online_updateById hids hrow
  rw [hsame] at hafter
  exact hafter

theorem apply_online (hids : (s.providers.map Provider.id).Nodup)
    (hon : online s.providers = true) :
    online (s.step (.apply clk newRuleId decidedBy id)).providers = true := by
  cases happly : applyProposal clk newRuleId decidedBy id s.toState with
  | error e =>
    rw [step_apply_error happly]
    exact hon
  | ok st =>
    rw [step_apply_ok happly]
    obtain ⟨prop, -, -, ⟨-, hsame, -⟩ | ⟨target, change, p, -, hrow, hallowed, hproviders, -⟩⟩ :=
      apply_cases happly
    · show online st.providers = true
      rw [hsame]
      exact hon
    · show online st.providers = true
      rw [hproviders, online_updateById hids hrow]
      rw [online_eq hids hrow] at hon
      cases hothers : othersEnabled s.providers p with
      | true => exact Bool.or_true _
      | false =>
        rw [hothers, Bool.or_false] at hon
        rw [Bool.or_false]
        cases change with
        | priority value => exact hon
        | autoSkipHours hours => exact hon
        | enabled value =>
          have hboth := Bool.and_eq_true_iff.mp hon
          cases value with
          | true => exact Bool.and_eq_true_iff.mpr ⟨hboth.1, rfl⟩
          | false =>
            -- this is the call that is refused
            rw [hothers, hboth.2] at hallowed
            cases hallowed

theorem revert_ok (clk : FlushClock) (decidedBy : String) {prop : Proposal} {target : String}
    {change : ProviderChange} {p : Provider}
    (hprop : s.proposals.find? (·.id = id) = some prop) (happlied : prop.status = .applied)
    (hchange : prop.change = .provider target change) (hrow : getRow s.providers target = some p) :
    ∃ st, revertProposal clk decidedBy id s.toState = .ok st ∧
      st.providers = updateById clk target (restoredRow prop.priorState) s.providers := by
  unfold revertProposal
  simp only [hprop, happlied, hchange, hrow, ne_eq, not_true, if_false]
  exact ⟨_, rfl, rfl⟩

theorem restoredRow_online (prior : Option PriorState) (p : Provider)
    (h : PriorState.offline prior = false) (hp : (!p.deleted && p.enabled) = true) :
    (!(restoredRow prior p).deleted && (restoredRow prior p).enabled) = true := by
  unfold restoredRow
  split
  · next priority enabled skip =>
    cases enabled with
    | false => cases h
    | true => exact Bool.and_eq_true_iff.mpr ⟨(Bool.and_eq_true_iff.mp hp).1, rfl⟩
  · exact hp

theorem restoredRow_offline (prior : Option PriorState) (p : Provider)
    (h : PriorState.offline prior = true) : (restoredRow prior p).enabled = false := by
  unfold PriorState.offline at h
  split at h
  · rfl
  · cases h

theorem revert_online_row {prop : Proposal} {target : String} {change : ProviderChange}
    {p : Provider} (hids : (s.providers.map Provider.id).Nodup)
    (hprop : s.proposals.find? (·.id = id) = some prop) (happlied : prop.status = .applied)
    (hchange : prop.change = .provider target change) (hrow : getRow s.providers target = some p) :
    StaysOnline s (.revert clk decidedBy id) ↔
      (prop.status = .applied && PriorState.offline prop.priorState &&
        (some p).any fun p => !p.deleted && p.enabled && !othersEnabled s.providers p) = false := by
  obtain ⟨st, hrevert, hrows⟩ := revert_ok clk decidedBy hprop happlied hchange hrow
  have hstep : (s.step (.revert clk decidedBy id)).providers = st.providers := by
    show (orSame s.toState (revertProposal clk decidedBy id s.toState)).providers = _
    rw [hrevert]
    rfl
  unfold StaysOnline
  rw [hstep, hrows, online_updateById hids hrow, online_eq hids hrow, Option.any_some]
  cases hoff : PriorState.offline prop.priorState with
  | true =>
    rw [restoredRow_offline _ p hoff]
    simp only [happlied, Bool.and_false, Bool.false_or, decide_true, Bool.true_and]
    cases !p.deleted && p.enabled <;> cases othersEnabled s.providers p <;> simp [Act.ofAiri]
  | false =>
    refine iff_of_true (fun _ hon => ?_) (by simp)
    cases hothers : othersEnabled s.providers p with
    | true => exact Bool.or_true _
    | false =>
      rw [hothers, Bool.or_false] at hon
      rw [restoredRow_online _ p hoff hon]
      rfl

/-- A revert takes the last enabled provider away exactly if it `darkens`. -/
theorem revert_online (hids : (s.providers.map Provider.id).Nodup) :
    StaysOnline s (.revert clk decidedBy id) ↔ (Act.revert clk decidedBy id).darkens s = false := by
  have hsame : (∀ st, revertProposal clk decidedBy id s.toState = .ok st →
      st.providers = s.providers) → StaysOnline s (.revert clk decidedBy id) := by
    intro h _ hon
    show online (orSame s.toState (revertProposal clk decidedBy id s.toState)).providers = true
    cases hrevert : revertProposal clk decidedBy id s.toState with
    | error e => exact hon
    | ok st =>
      show online st.providers = true
      rw [h st hrevert]
      exact hon
  show _ ↔ overLast s id = false
  unfold overLast
  cases hprop : s.proposals.find? (·.id = id) with
  | none =>
    refine iff_of_true (hsame fun st h => ?_) rfl
    obtain ⟨prop, hfound, -⟩ := revert_cases h
    rw [hprop] at hfound
    cases hfound
  | some prop =>
    dsimp only
    cases hchange : prop.change with
    | rule target value =>
      refine iff_of_true (hsame fun st h => ?_) rfl
      obtain ⟨prop', hfound, -, -, ⟨-, hrows⟩ | ⟨target', change, p, hchange', -⟩⟩ := revert_cases h
      · exact hrows
      · rw [hprop, Option.some.injEq] at hfound
        rw [← hfound, hchange] at hchange'
        cases hchange'
    | addRule ruleType name spec mode =>
      refine iff_of_true (hsame fun st h => ?_) rfl
      obtain ⟨prop', hfound, -, -, ⟨-, hrows⟩ | ⟨target', change, p, hchange', -⟩⟩ := revert_cases h
      · exact hrows
      · rw [hprop, Option.some.injEq] at hfound
        rw [← hfound, hchange] at hchange'
        cases hchange'
    | provider target change =>
      dsimp only
      by_cases happlied : prop.status = .applied
      · cases hrow : getRow s.providers target with
        | none =>
          refine iff_of_true (hsame fun st h => ?_) (by rw [Option.any_none, Bool.and_false])
          obtain ⟨prop', hfound, -, -, ⟨-, hrows⟩ | ⟨target', change', p, hchange', hrow', -⟩⟩ :=
            revert_cases h
          · exact hrows
          · rw [hprop, Option.some.injEq] at hfound
            rw [← hfound, hchange] at hchange'
            cases hchange'
            rw [hrow] at hrow'
            cases hrow'
        | some p => exact revert_online_row hids hprop happlied hchange hrow
      · refine iff_of_true (hsame fun st h => ?_) (by simp [happlied])
        obtain ⟨prop', hfound, happlied', -⟩ := revert_cases h
        rw [hprop, Option.some.injEq] at hfound
        rw [← hfound] at happlied'
        exact absurd happlied' happlied

theorem staysOnline_of_providers {a : Act} (h : (s.step a).providers = s.providers) :
    StaysOnline s a := by
  intro _ hon
  rw [h]
  exact hon

/-- **One call** keeps a provider enabled exactly if it does not `darken`. -/
theorem staysOnline_iff (hids : (s.providers.map Provider.id).Nodup) (a : Act) :
    StaysOnline s a ↔ a.darkens s = false := by
  cases a with
  | propose newId ref change createdBy =>
    refine iff_of_true (staysOnline_of_providers ?_) rfl
    simp only [History.step]
    split
    · exact create_providers _ _ _ _ _
    · rfl
  | proposeRule newId ruleId value createdBy =>
    refine iff_of_true (staysOnline_of_providers ?_) rfl
    simp only [History.step]
    split
    · exact createRule_providers _ _ _ _ _
    · rfl
  | proposeAddRule newId rule createdBy =>
    refine iff_of_true (staysOnline_of_providers ?_) rfl
    simp only [History.step]
    split
    · exact createAdd_providers _ _ _ _
    · rfl
  | apply clk newRuleId appliedBy id => exact iff_of_true (fun _ hon => apply_online hids hon) rfl
  | reject clk decidedBy id =>
    exact iff_of_true (staysOnline_of_providers (reject_providers _ _ _ _)) rfl
  | revert clk decidedBy id => exact revert_online hids
  | operator providers rules activeRuleset => exact iff_of_true (fun h => absurd h Bool.false_ne_true) rfl

theorem changedRow_id (now : Cluster.Stamp) (change : ProviderChange) (p : Provider) :
    (changedRow now change p).id = p.id := by
  cases change <;> rfl

theorem restoredRow_id (prior : Option PriorState) (p : Provider) :
    (restoredRow prior p).id = p.id := by
  unfold restoredRow
  split <;> rfl

theorem step_ids (hids : (s.providers.map Provider.id).Nodup) (a : Act) :
    ((s.step a).providers.map Provider.id).Nodup := by
  have hsame : (s.step a).providers = s.providers →
      ((s.step a).providers.map Provider.id).Nodup := fun h => by rwa [h]
  cases a with
  | propose newId ref change createdBy =>
    refine hsame ?_
    simp only [History.step]
    split
    · exact create_providers _ _ _ _ _
    · rfl
  | proposeRule newId ruleId value createdBy =>
    refine hsame ?_
    simp only [History.step]
    split
    · exact createRule_providers _ _ _ _ _
    · rfl
  | proposeAddRule newId rule createdBy =>
    refine hsame ?_
    simp only [History.step]
    split
    · exact createAdd_providers _ _ _ _
    · rfl
  | apply clk newRuleId appliedBy id =>
    cases happly : applyProposal clk newRuleId appliedBy id s.toState with
    | error e =>
      rw [step_apply_error happly]
      exact hids
    | ok st =>
      rw [step_apply_ok happly]
      obtain ⟨prop, -, -, ⟨-, hrows, -⟩ | ⟨target, change, p, -, -, -, hrows, -⟩⟩ :=
        apply_cases happly
      · rwa [hrows]
      · rwa [hrows, ids_updateById (changedRow_id _ _)]
  | reject clk decidedBy id => exact hsame (reject_providers _ _ _ _)
  | revert clk decidedBy id =>
    show ((orSame s.toState (revertProposal clk decidedBy id s.toState)).providers.map _).Nodup
    cases hrevert : revertProposal clk decidedBy id s.toState with
    | error e => exact hids
    | ok st =>
      obtain ⟨prop, -, -, -, ⟨-, hrows⟩ | ⟨target, change, p, -, -, hrows⟩⟩ := revert_cases hrevert
      · show (st.providers.map _).Nodup
        rwa [hrows]
      · show (st.providers.map _).Nodup
        rwa [hrows, ids_updateById (restoredRow_id _)]
  | operator providers rules activeRuleset =>
    simp only [History.step]
    split
    · next hnodup => exact hnodup
    · exact hids

/-- **AIRI and the last enabled provider**: from tables with unique ids, a run's calls of the
service all leave a provider enabled where there was one, exactly if none of its reverts restores a
disabled snapshot over the only enabled provider. -/
theorem stays_online_iff (s : History) (hids : (s.providers.map Provider.id).Nodup)
    (as : List Act) :
    Along History.step StaysOnline s as ↔
      Along History.step (fun s a => a.darkens s = false) s as :=
  along_iff (V := fun _ _ => True) (I := fun s => (s.providers.map Provider.id).Nodup)
    (fun _ a hs _ => staysOnline_iff hs a) (fun _ a hs _ _ => step_ids hs a) hids
    (along_of_forall fun _ _ => trivial)

/-! ### Two providers -/

def spare (enabled : Bool) : Provider :=
  { id := "a", name := "spare", providerType := "openai", enabled := enabled }

def primary (enabled : Bool) : Provider :=
  { id := "b", name := "main", providerType := "openai", enabled := enabled }

def twoProviders : History := { providers := [spare false, primary true] }

/-- A priority proposal is applied to the spare provider while it is disabled. -/
def appliedToSpare : List Act :=
  [.propose "p" "spare" (.priority 11) "airi", .apply ⟨1, 1⟩ "r" "admin" "p"]

theorem stays_online_two :
    Along History.step StaysOnline twoProviders (appliedToSpare ++ [.revert ⟨2, 2⟩ "admin" "p"]) :=
  (stays_online_iff twoProviders (by decide) _).mpr (by decide +kernel)

/-- The operator has switched to the spare provider before the proposal is reverted. -/
def switched : List Act := appliedToSpare ++ [.operator [spare true, primary false] [] none]

/-- **A revert that takes the proxy offline**. -/
theorem revert_takes_offline :
    online (run History.step twoProviders switched).providers = true ∧
      online (run History.step twoProviders (switched ++ [.revert ⟨2, 2⟩ "admin" "p"])).providers =
        false := by
  decide +kernel

end LlmProxy.Airi
