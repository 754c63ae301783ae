import Mathlib.Logic.Function.Basic
import LlmProxy.Lib.Trace
import LlmProxy.Airi.Proposals

/-! # Proposals in any order

The calls of the proposal service (`app/airi/proposals.py`) and the operator's edits, in any order.
An edit may leave the provider table, the rules and the active rule-set in any state in which the
ids are still unique; it does not touch the proposals.

Beside the code's state stand two records that no call reads: what a priority proposal was created
from, and the row of a provider just before a proposal was applied to it.

> `apply_cases`, `revert_cases`: what the two deciding calls do to the providers.
-/

namespace LlmProxy.Airi

open LlmProxy.Providers
open Trace

/-! ## What the two deciding calls do -/

variable {clk : FlushClock} {st st' : State} {newRuleId decidedBy id : String}

theorem apply_cases (h : applyProposal clk newRuleId decidedBy id st = .ok st') :
    ∃ prop, st.proposals.find? (·.id = id) = some prop ∧ prop.status = .pending ∧
      ((∀ target change, prop.change ≠ .provider target change) ∧ st'.providers = st.providers ∧
          (∃ prior, st'.proposals =
            markDecided id .applied (some prior) clk.db decidedBy st.proposals) ∨
        ∃ target change p, prop.change = .provider target change ∧
          getRow st.providers target = some p ∧
          (change = .enabled false && p.enabled && !othersEnabled st.providers p) = false ∧
          st'.providers = updateById clk target (changedRow clk.db change) st.providers ∧
          st'.proposals =
            markDecided id .applied (some (snapshot p)) clk.db decidedBy st.proposals) := by
  unfold applyProposal at h
  cases hprop : st.proposals.find? (·.id = id) with
  | none =>
    rw [hprop] at h
    cases h
  | some prop =>
    rw [hprop] at h
    dsimp only at h
    by_cases hpending : prop.status = .pending
    · rw [if_neg (not_not_intro hpending)] at h
      refine ⟨prop, rfl, hpending, ?_⟩
      cases hchange : prop.change with
      | provider target change =>
        rw [hchange] at h
        dsimp only at h
        cases hrow : getRow st.providers target with
        | none =>
          rw [hrow] at h
          cases h
        | some p =>
          rw [hrow] at h
          dsimp only at h
          split at h
          · cases h
          · next hallowed =>
            cases h
            exact Or.inr ⟨target, change, p, rfl, hrow, Bool.eq_false_iff.mpr hallowed, rfl, rfl⟩
      | rule target value =>
        rw [hchange] at h
        dsimp only at h
        split at h
        · cases h
        · cases h
          exact Or.inl ⟨fun _ _ hc => (nomatch hc), rfl, _, rfl⟩
      | addRule ruleType name spec mode =>
        rw [hchange] at h
        dsimp only at h
        split at h
        · cases h
        · cases h
          exact Or.inl ⟨fun _ _ hc => (nomatch hc), rfl, _, rfl⟩
    · rw [if_pos hpending] at h
      cases h

theorem revert_cases (h : revertProposal clk decidedBy id st = .ok st') :
    ∃ prop, st.proposals.find? (·.id = id) = some prop ∧ prop.status = .applied ∧
      st'.proposals = markDecided id .reverted prop.priorState clk.db decidedBy st.proposals ∧
      ((∀ target change, prop.change ≠ .provider target change) ∧ st'.providers = st.providers ∨
        ∃ target change p, prop.change = .provider target change ∧
          getRow st.providers target = some p ∧
          st'.providers =
            updateById clk target (restoredRow prop.priorState) st.providers) := by
  unfold revertProposal at h
  cases hprop : st.proposals.find? (·.id = id) with
  | none =>
    rw [hprop] at h
    cases h
  | some prop =>
    rw [hprop] at h
    dsimp only at h
    by_cases happlied : prop.status = .applied
    · rw [if_neg (not_not_intro happlied)] at h
      refine ⟨prop, rfl, happlied, ?_⟩
      cases hchange : prop.change with
      | provider target change =>
        rw [hchange] at h
        dsimp only at h
        cases hrow : getRow st.providers target with
        | none =>
          rw [hrow] at h
          cases h
        | some p =>
          rw [hrow] at h
          cases h
          exact ⟨rfl, Or.inr ⟨target, change, p, rfl, hrow, rfl⟩⟩
      | rule target value =>
        rw [hchange] at h
        dsimp only at h
        split at h
        · cases h
        · cases h
          exact ⟨rfl, Or.inl ⟨fun _ _ hc => (nomatch hc), rfl⟩⟩
      | addRule ruleType name spec mode =>
        rw [hchange] at h
        dsimp only at h
        cases h
        exact ⟨rfl, Or.inl ⟨fun _ _ hc => (nomatch hc), rfl⟩⟩
    · rw [if_pos happlied] at h
      cases h

/-! ## The system -/

/-- What a priority proposal was created from: the priority, 0 read as 10, what was asked for, and
the cap in force. -/
structure Made where
  current : Int
  requested : Int
  cap : Int
  deriving DecidableEq, Repr

/-- The tables, with what each proposal was made from and the row it was applied to. -/
structure History extends State where
  made : String → Option Made := fun _ => none
  before : String → Option Provider := fun _ => none

/-- A call of the service, or an edit of the operator. -/
inductive Act where
  | propose (newId ref : String) (change : ProviderChange) (createdBy : String)
  | proposeRule (newId ruleId : String) (value : Int) (createdBy : String)
  | proposeAddRule (newId : String) (rule : AddRule) (createdBy : String)
  | apply (clk : FlushClock) (newRuleId appliedBy id : String)
  | reject (clk : FlushClock) (decidedBy id : String)
  | revert (clk : FlushClock) (decidedBy id : String)
  | operator (providers : List Provider) (rules : List AiriRule) (activeRuleset : Option String)

/-- The state after a call; a refused call changes nothing. -/
def orSame (st : State) : Except String State → State
  | .ok st' => st'
  | .error _ => st

def fresh (st : State) (newId : String) : Bool := st.proposals.all (·.id ≠ newId)

def madeFrom (st : State) (ref : String) : ProviderChange → Option Made
  | .priority requested =>
    (resolveProvider st.providers ref).map fun p =>
      ⟨if p.priority = 0 then 10 else p.priority, requested, (activeCaps st).maxPriorityDelta⟩
  | _ => none

def targetRow (st : State) (id : String) : Option Provider :=
  (st.proposals.find? (·.id = id)).bind fun prop =>
    match prop.change with
    | .provider target _ => getRow st.providers target
    | _ => none

def History.step (s : History) : Act → History
  | .propose newId ref change createdBy =>
    if fresh s.toState newId then
      { s with
        toState := orSame s.toState (createProviderChange newId ref change createdBy s.toState)
        made := Function.update s.made newId (madeFrom s.toState ref change) }
    else s
  | .proposeRule newId ruleId value createdBy =>
    if fresh s.toState newId then
      { s with toState := orSame s.toState (createRuleChange newId ruleId value createdBy s.toState) }
    else s
  | .proposeAddRule newId rule createdBy =>
    if fresh s.toState newId then
      { s with toState := orSame s.toState (createAddRule newId rule createdBy s.toState) }
    else s
  | .apply clk newRuleId appliedBy id =>
    match applyProposal clk newRuleId appliedBy id s.toState with
    | .ok st =>
      { s with
        toState := st
        before := Function.update s.before id (targetRow s.toState id) }
    | .error _ => s
  | .reject clk decidedBy id =>
    { s with toState := orSame s.toState (rejectProposal clk decidedBy id s.toState) }
  | .revert clk decidedBy id =>
    { s with toState := orSame s.toState (revertProposal clk decidedBy id s.toState) }
  | .operator providers rules activeRuleset =>
    if (providers.map Provider.id).Nodup then
      { s with providers := providers, rules := rules, activeRuleset := activeRuleset }
    else s

theorem step_apply_ok {s : History} {appliedBy : String}
    (h : applyProposal clk newRuleId appliedBy id s.toState = .ok st) :
    s.step (.apply clk newRuleId appliedBy id) =
      { s with
        toState := st
        before := Function.update s.before id (targetRow s.toState id) } := by
  simp only [History.step, h]

theorem step_apply_error {s : History} {appliedBy e : String}
    (h : applyProposal clk newRuleId appliedBy id s.toState = .error e) :
    s.step (.apply clk newRuleId appliedBy id) = s := by
  simp only [History.step, h]

def online (rows : List Provider) : Bool := rows.any fun p => !p.deleted && p.enabled

/-! ## The provider table -/

theorem create_providers (st : State) (newId ref createdBy : String) (change : ProviderChange) :
    (orSame st (createProviderChange newId ref change createdBy st)).providers = st.providers := by
  unfold createProviderChange
  repeat' split
  all_goals rfl

theorem createRule_providers (st : State) (newId ruleId createdBy : String) (value : Int) :
    (orSame st (createRuleChange newId ruleId value createdBy st)).providers = st.providers := by
  unfold createRuleChange
  repeat' split
  all_goals rfl

theorem createAdd_providers (st : State) (newId createdBy : String) (rule : AddRule) :
    (orSame st (createAddRule newId rule createdBy st)).providers = st.providers := by
  unfold createAddRule
  dsimp only
  repeat' split
  all_goals rfl

theorem reject_providers (st : State) (clk : FlushClock) (decidedBy id : String) :
    (orSame st (rejectProposal clk decidedBy id st)).providers = st.providers := by
  unfold rejectProposal
  repeat' split
  all_goals rfl

theorem flush_online (clk : FlushClock) (old new : Provider) :
    (!(flush clk old new).deleted && (flush clk old new).enabled) =
      (!new.deleted && new.enabled) := by
  unfold Provider.deleted
  rw [flush_deletedAt, flush_enabled]

/-- **The table after one row of it was edited**: the row it has become, or another. -/
theorem online_updateById {rows : List Provider} {target : String} {p : Provider}
    {edit : Provider → Provider} (hids : (rows.map Provider.id).Nodup)
    (hrow : getRow rows target = some p) :
    online (updateById clk target edit rows) =
      ((!(edit p).deleted && (edit p).enabled) || othersEnabled rows p) := by
  induction rows with
  | nil => cases hrow
  | cons q rows ih =>
    rw [List.map_cons, List.nodup_cons] at hids
    by_cases hq : q.id = target
    · have hp : q = p := by simpa [getRow, hq] using hrow
      subst hp
      have hothers : othersEnabled (q :: rows) q = online rows := by
        have hne : ∀ r ∈ rows, r.id ≠ q.id := fun r hr heq =>
          hids.1 (heq ▸ List.mem_map_of_mem hr)
        unfold othersEnabled online
        rw [Bool.eq_iff_iff, List.any_eq_true, List.any_eq_true]
        constructor
        · rintro ⟨r, hr, hrow⟩
          simp only [Bool.and_eq_true, decide_eq_true_eq] at hrow
          rcases List.mem_cons.mp hr with rfl | hr
          · exact absurd rfl hrow.2
          · exact ⟨r, hr, by simpa using hrow.1⟩
        · rintro ⟨r, hr, hrow⟩
          refine ⟨r, List.mem_cons_of_mem q hr, ?_⟩
          simpa [hne r hr] using hrow
      have hupdate : updateById clk target edit (q :: rows) = flush clk q (edit q) :: rows := by
        simp [updateById, Table.updateFirst, hq]
      rw [hupdate, hothers]
      show ((_ && _) || online rows) = _
      rw [flush_online]
    · have hrest : getRow rows target = some p := by simpa [getRow, hq] using hrow
      have hne : q.id ≠ p.id := by
        have hfound := List.find?_some hrest
        rw [of_decide_eq_true hfound]
        exact hq
      have hupdate : updateById clk target edit (q :: rows) =
          q :: updateById clk target edit rows := by
        simp [updateById, Table.updateFirst, hq]
      rw [hupdate]
      show ((!q.deleted && q.enabled) || online (updateById clk target edit rows)) = _
      rw [ih hids.2 hrest]
      unfold othersEnabled
      rw [List.any_cons]
      simp only [hne, ne_eq, not_false_iff, decide_true, Bool.and_true]
      exact Bool.or_left_comm _ _ _

theorem ids_updateById {rows : List Provider} {target : String} {edit : Provider → Provider}
    (hid : ∀ p, (edit p).id = p.id) :
    (updateById clk target edit rows).map Provider.id = rows.map Provider.id :=
  Table.map_updateFirst_eq_iff.mpr fun p _ => by rw [flush_id, hid]

end LlmProxy.Airi
