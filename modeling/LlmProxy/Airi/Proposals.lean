import LlmProxy.Providers.Admin

/-! # AIRI proposals

`app/airi/proposals.py`: a proposal is created `pending`, applied to live configuration with a
snapshot of the prior state, and reverted from that snapshot. Provider proposals change
`priority`, `enabled` or `auto_skip_until` of one row; the other two kinds change the rule-set.

Mirroring notes.
* `db.get(Provider, target_id)` finds a tombstoned row like any other; only the resolution by
  name and the last-enabled-provider check look at live rows.
* Proposed values have been coerced to their type; the dry-run preview is text for the operator
  and is left out. Auto-apply (`mode == "apply"`) is a creation followed by an `applyProposal`.
-/

namespace LlmProxy.Airi

open LlmProxy.Providers
open LlmProxy.Cluster (Stamp)

inductive ProposalStatus where
  | pending
  | applied
  | rejected
  | reverted
  deriving DecidableEq, Repr

def ProposalStatus.text : ProposalStatus → String
  | .pending => "pending"
  | .applied => "applied"
  | .rejected => "rejected"
  | .reverted => "reverted"

/-- The field of a provider change and its new value. -/
inductive ProviderChange where
  | priority (value : Int)
  | enabled (value : Bool)
  | autoSkipHours (value : Int)
  deriving DecidableEq, Repr

/-- The condition of a scheduled or monitor rule. -/
structure Condition where
  providerId : String
  providerName : String
  windowMin : Int
  op : String
  value : Rat
  deriving DecidableEq

/-- The `spec` of a rule: a threshold has `setting` and `value`, the others the rest. -/
structure RuleSpec where
  setting : Option String := none
  value : Option Int := none
  cadenceMin : Option Int := none
  condition : Option Condition := none
  actionHours : Option Int := none
  deriving DecidableEq

structure AiriRule where
  id : String
  rulesetId : String
  name : String
  kind : String
  spec : RuleSpec
  mode : String := "suggest"
  enabled : Bool := true
  createdBy : String
  deriving DecidableEq

/-- `kind`, `target_id` and `change` of a proposal. -/
inductive Change where
  | provider (targetId : String) (change : ProviderChange)
  | rule (targetId : String) (value : Int)
  | addRule (ruleType name : String) (spec : RuleSpec) (actionMode : String)
  deriving DecidableEq

/-- `prior_state`. -/
inductive PriorState where
  | provider (priority : Int) (enabled : Bool) (autoSkipUntil : Option Stamp)
  | rule (spec : RuleSpec)
  | createdRule (id : String)
  deriving DecidableEq

structure Proposal where
  id : String
  targetLabel : String
  change : Change
  priorState : Option PriorState := none
  status : ProposalStatus := .pending
  createdBy : String
  decidedAt : Option Stamp := none
  decidedBy : Option String := none
  deriving DecidableEq

/-- The tables the proposal service works on. -/
structure State where
  providers : List Provider := []
  proposals : List Proposal := []
  rules : List AiriRule := []
  activeRuleset : Option String := none

/-! ## Creating -/

/-- `_resolve_provider`: by id, then by exact name, then by part of the name. -/
def resolveProvider (rows : List Provider) (ref : String) : Option Provider :=
  let ref := PyStr.strip ref
  let live := rows.filter (!·.deleted)
  if ref = "" then none
  else (getRow rows ref).orElse fun _ =>
    (live.find? fun p => PyStr.lower p.name = PyStr.lower ref).orElse fun _ =>
      live.find? fun p => PyStr.contains (PyStr.lower p.name) (PyStr.lower ref)

/-- `_active_caps`: the caps of the active rule-set's threshold rules over the defaults. -/
structure Caps where
  maxPriorityDelta : Int := 2
  maxAutoSkipHours : Int := 24
  deriving DecidableEq

def activeCaps (st : State) : Caps :=
  (st.rules.filter fun r => some r.rulesetId = st.activeRuleset).foldl (fun caps r =>
    match r.spec.setting, r.spec.value with
    | some "max_priority_delta", some v => { caps with maxPriorityDelta := v }
    | some "max_auto_skip_hours", some v => { caps with maxAutoSkipHours := v }
    | _, _ => caps) {}

/-- The change as capped, or why there is nothing to propose. -/
def cappedChange (caps : Caps) (p : Provider) : ProviderChange → Except String ProviderChange
  | .priority new =>
    let cur := if p.priority = 0 then 10 else p.priority
    let cap := caps.maxPriorityDelta
    let value := if cap < ((new - cur).natAbs : Int) then cur + (if cur < new then cap else -cap) else new
    if cur = value then
      .error (p.name ++ "'s priority is already " ++ toString value ++ " — nothing to change")
    else .ok (.priority value)
  | .enabled value =>
    if p.enabled = value then
      .error (p.name ++ "'s enabled is already " ++ (if value then "True" else "False") ++
        " — nothing to change")
    else .ok (.enabled value)
  | .autoSkipHours new =>
    if new < 0 then .error "auto_skip_hours must be non-negative"
    else
      let value := if caps.maxAutoSkipHours < new then caps.maxAutoSkipHours else new
      if value = 0 then .error (p.name ++ "'s auto_skip_hours is already 0 — nothing to change")
      else .ok (.autoSkipHours value)

/-- `create_provider_change`. -/
def createProviderChange (newId ref : String) (requested : ProviderChange) (createdBy : String)
    (st : State) : Except String State :=
  match resolveProvider st.providers ref with
  | none => .error ("no provider matches '" ++ ref ++ "'")
  | some p =>
    match cappedChange (activeCaps st) p requested with
    | .error e => .error e
    | .ok change =>
      .ok { st with
        proposals := st.proposals ++
          [{ id := newId, targetLabel := p.name, change := .provider p.id change,
             createdBy := createdBy }] }

/-- `create_rule_change`. -/
def createRuleChange (newId ruleId : String) (new : Int) (createdBy : String) (st : State) :
    Except String State :=
  match st.rules.find? (·.id = PyStr.strip ruleId) with
  | none => .error ("no rule with id '" ++ ruleId ++ "'")
  | some r =>
    if r.kind ≠ "threshold" then
      .error ("only threshold rules can be changed (this is '" ++ r.kind ++ "')")
    else if new < 0 then .error "value must be non-negative"
    else if r.spec.value.getD 0 = new then
      .error ("rule '" ++ r.name ++ "' is already " ++ toString new)
    else
      .ok { st with
        proposals := st.proposals ++
          [{ id := newId, targetLabel := r.name, change := .rule r.id new,
             createdBy := createdBy }] }

/-- The arguments of `create_add_rule`. -/
structure AddRule where
  ruleType : String
  name : String
  providerRef : String
  windowMin : Int
  op : String
  threshold : Rat
  cadenceMin : Int
  actionHours : Int
  actionMode : String

/-- `create_add_rule`. -/
def createAddRule (newId : String) (a : AddRule) (createdBy : String) (st : State) :
    Except String State :=
  let name := PyStr.strip a.name
  if !(["conditional", "monitor"].contains a.ruleType) then
    .error "rule_type must be one of ['conditional', 'monitor']"
  else if name = "" then .error "the rule needs a name"
  else if !([">", ">=", "<", "<="].contains a.op) then .error "op must be one of > >= < <="
  else match resolveProvider st.providers a.providerRef with
    | none => .error ("no provider matches '" ++ a.providerRef ++ "'")
    | some p =>
      let spec : RuleSpec :=
        { cadenceMin := some (max 1 a.cadenceMin)
          condition := some
            { providerId := p.id, providerName := p.name, windowMin := max 1 a.windowMin,
              op := a.op, value := a.threshold }
          actionHours :=
            if a.ruleType = "conditional" then
              some (max 1 (if a.actionHours = 0 then 1 else a.actionHours))
            else none }
      let mode := if ["suggest", "auto_apply"].contains a.actionMode then a.actionMode else "suggest"
      .ok { st with
        proposals := st.proposals ++
          [{ id := newId, targetLabel := name, change := .addRule a.ruleType name spec mode,
             createdBy := createdBy }] }

/-! ## Applying and reverting -/

def changedRow (now : Stamp) (change : ProviderChange) (p : Provider) : Provider :=
  match change with
  | .priority value => { p with priority := value }
  | .enabled value => { p with enabled := value }
  | .autoSkipHours hours =>
    { p with autoSkipUntil := if 0 < hours then some (now + hours * 3600000000) else none }

def othersEnabled (rows : List Provider) (p : Provider) : Bool :=
  rows.any fun q => !q.deleted && q.enabled && q.id ≠ p.id

def snapshot (p : Provider) : PriorState := .provider p.priority p.enabled p.autoSkipUntil

def markDecided (id : String) (status : ProposalStatus) (prior : Option PriorState) (now : Stamp)
    (by_ : String) (proposals : List Proposal) : List Proposal :=
  Table.updateFirst (fun q => q.id = id)
    (fun q => { q with
      status := status, priorState := prior, decidedAt := some now, decidedBy := some by_ })
    proposals

/-- `apply_proposal`. -/
def applyProposal (clk : FlushClock) (newRuleId appliedBy id : String) (st : State) :
    Except String State :=
  match st.proposals.find? (·.id = id) with
  | none => .error "proposal not found"
  | some prop =>
    if prop.status ≠ .pending then
      .error ("proposal is '" ++ prop.status.text ++ "', not pending")
    else match prop.change with
      | .provider targetId change =>
        match getRow st.providers targetId with
        | none => .error "the provider no longer exists"
        | some p =>
          if change = .enabled false && p.enabled && !othersEnabled st.providers p then
            .error ("refused — this would disable the last enabled provider; the proxy must " ++
              "keep at least one.")
          else
            .ok { st with
              providers := updateById clk targetId (changedRow clk.db change) st.providers
              proposals := markDecided id .applied (some (snapshot p)) clk.db appliedBy st.proposals }
      | .rule targetId value =>
        match st.rules.find? (·.id = targetId) with
        | none => .error "the rule no longer exists"
        | some r =>
          .ok { st with
            rules := Table.updateFirst (fun r => r.id = targetId)
              (fun r => { r with spec := { r.spec with value := some value } }) st.rules
            proposals := markDecided id .applied (some (.rule r.spec)) clk.db appliedBy st.proposals }
      | .addRule ruleType name spec actionMode =>
        match st.activeRuleset with
        | none => .error "no active rule-set to add the rule to"
        | some rulesetId =>
          .ok { st with
            rules := st.rules ++
              [{ id := newRuleId, rulesetId := rulesetId, name := name, kind := ruleType,
                 spec := spec, mode := actionMode, createdBy := prop.createdBy }]
            proposals :=
              markDecided id .applied (some (.createdRule newRuleId)) clk.db appliedBy st.proposals }

/-- `reject_proposal`. -/
def rejectProposal (clk : FlushClock) (decidedBy id : String) (st : State) : Except String State :=
  match st.proposals.find? (·.id = id) with
  | none => .error "proposal not found"
  | some prop =>
    if prop.status ≠ .pending then
      .error ("proposal is '" ++ prop.status.text ++ "', not pending")
    else
      .ok { st with
        proposals := markDecided id .rejected prop.priorState clk.db decidedBy st.proposals }

def restoredRow (prior : Option PriorState) (p : Provider) : Provider :=
  match prior with
  | some (.provider priority enabled autoSkipUntil) =>
    { p with priority := priority, enabled := enabled, autoSkipUntil := autoSkipUntil }
  | _ => p

/-- `revert_proposal`. -/
def revertProposal (clk : FlushClock) (decidedBy id : String) (st : State) : Except String State :=
  match st.proposals.find? (·.id = id) with
  | none => .error "proposal not found"
  | some prop =>
    if prop.status ≠ .applied then
      .error ("only an applied proposal can be reverted (this is '" ++ prop.status.text ++ "')")
    else
      let proposals := markDecided id .reverted prop.priorState clk.db decidedBy st.proposals
      match prop.change with
      | .provider targetId _ =>
        match getRow st.providers targetId with
        | none => .error "the provider no longer exists"
        | some _ =>
          .ok { st with
            providers := updateById clk targetId (restoredRow prop.priorState) st.providers
            proposals := proposals }
      | .rule targetId _ =>
        match st.rules.find? (·.id = targetId) with
        | none => .error "the rule no longer exists"
        | some _ =>
          let spec : RuleSpec :=
            match prop.priorState with
            | some (.rule spec) => spec
            | _ => {}
          .ok { st with
            rules := Table.updateFirst (fun r => r.id = targetId)
              (fun r => { r with spec := spec }) st.rules
            proposals := proposals }
      | .addRule _ _ _ _ =>
        let rules :=
          match prop.priorState with
          | some (.createdRule rid) => st.rules.filter (·.id ≠ rid)
          | _ => st.rules
        .ok { st with rules := rules, proposals := proposals }

end LlmProxy.Airi
