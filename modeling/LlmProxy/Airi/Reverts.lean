import LlmProxy.Airi.LastEnabled

/-! # What an apply and a revert change

A priority proposal stores the capped target computed when it was created, an applied provider
proposal a snapshot of three columns taken by the apply. Between the two and the revert other
proposals and the operator may have moved the priority or written the other columns.

> `recorded_step`  the stored target and snapshot are those of the records;
> `apply_bounded_iff` an apply stays within the cap exactly if the priority had room;
> `revert_frames_iff` a revert touches one column exactly if the other two are as in the snapshot.
-/

namespace LlmProxy.Airi

open LlmProxy.Providers
open Trace

/-! ## The target of a priority proposal -/

def Made.target (m : Made) : Int :=
  if m.cap < ((m.requested - m.current).natAbs : Int) then
    m.current + (if m.current < m.requested then m.cap else -m.cap)
  else m.requested

/-- How far the priority may move until the apply, for the apply to stay within the cap. -/
def Made.room (m : Made) (moved : Int) : Bool :=
  if m.cap < m.requested - m.current then 0 ≤ moved && moved ≤ 2 * m.cap
  else if m.requested - m.current < -m.cap then -2 * m.cap ≤ moved && moved ≤ 0
  else m.requested - m.current - m.cap ≤ moved && moved ≤ m.requested - m.current + m.cap

theorem Made.room_iff (m : Made) (priority : Int) :
    ((m.target - priority).natAbs : Int) ≤ m.cap ↔ m.room (priority - m.current) = true := by
  have hroom : m.room (priority - m.current) = true ↔
      (m.cap < m.requested - m.current ∧ 0 ≤ priority - m.current ∧
          priority - m.current ≤ 2 * m.cap ∨
        ¬m.cap < m.requested - m.current ∧ m.requested - m.current < -m.cap ∧
          -2 * m.cap ≤ priority - m.current ∧ priority - m.current ≤ 0 ∨
        ¬m.cap < m.requested - m.current ∧ ¬m.requested - m.current < -m.cap ∧
          m.requested - m.current - m.cap ≤ priority - m.current ∧
          priority - m.current ≤ m.requested - m.current + m.cap) := by
    unfold Made.room
    split
    · next hup => simp [hup]
    · next hup =>
      split
      · next hdown => simp [hup, hdown]
      · next hdown => simp [hup, hdown]
  rw [hroom]
  unfold Made.target
  split
  · split <;> omega
  · omega

/-! ## What a call leaves of a proposal -/

variable {s : History} {clk : FlushClock} {newRuleId decidedBy id : String}

theorem cappedChange_priority {caps : Caps} {p : Provider} {requested : ProviderChange}
    {value : Int} (h : cappedChange caps p requested = .ok (.priority value)) :
    ∃ new, requested = .priority new ∧ value =
      Made.target ⟨if p.priority = 0 then 10 else p.priority, new, caps.maxPriorityDelta⟩ := by
  cases requested with
  | priority new =>
    simp only [cappedChange] at h
    obtain ⟨-, h⟩ | ⟨-, h⟩ := ite_eq_iff.mp h
    · cases h
    · cases h
      exact ⟨new, rfl, rfl⟩
  | enabled value =>
    simp only [cappedChange] at h
    obtain ⟨-, h⟩ | ⟨-, h⟩ := ite_eq_iff.mp h <;> cases h
  | autoSkipHours hours =>
    simp only [cappedChange] at h
    obtain ⟨-, h⟩ | ⟨-, h⟩ := ite_eq_iff.mp h
    · cases h
    · obtain ⟨-, h⟩ | ⟨-, h⟩ := ite_eq_iff.mp h <;> cases h

theorem create_cases {st st' : State} {newId ref createdBy : String} {change : ProviderChange}
    (h : createProviderChange newId ref change createdBy st = .ok st') :
    ∃ prop, st'.proposals = st.proposals ++ [prop] ∧ prop.id = newId ∧ prop.status = .pending ∧
      ∀ target value, prop.change = .provider target (.priority value) →
        ∃ m, madeFrom st ref change = some m ∧ value = m.target := by
  unfold createProviderChange at h
  cases hp : resolveProvider st.providers ref with
  | none =>
    rw [hp] at h
    cases h
  | some p =>
    rw [hp] at h
    dsimp only at h
    cases hcapped : cappedChange (activeCaps st) p change with
    | error e =>
      rw [hcapped] at h
      cases h
    | ok capped =>
      rw [hcapped] at h
      cases h
      refine ⟨_, rfl, rfl, rfl, fun target value hchange => ?_⟩
      obtain ⟨-, rfl⟩ := Change.provider.inj hchange
      obtain ⟨new, rfl, hvalue⟩ := cappedChange_priority hcapped
      refine ⟨_, ?_, hvalue⟩
      unfold madeFrom
      rw [hp]
      rfl

theorem createRule_cases {st st' : State} {newId ruleId createdBy : String} {value : Int}
    (h : createRuleChange newId ruleId value createdBy st = .ok st') :
    ∃ prop, st'.proposals = st.proposals ++ [prop] ∧ prop.id = newId ∧ prop.status = .pending ∧
      ∀ target change, prop.change ≠ .provider target change := by
  unfold createRuleChange at h
  repeat' split at h
  all_goals cases h
  all_goals exact ⟨_, rfl, rfl, rfl, fun _ _ hc => (nomatch hc)⟩

theorem createAdd_cases {st st' : State} {newId createdBy : String} {rule : AddRule}
    (h : createAddRule newId rule createdBy st = .ok st') :
    ∃ prop, st'.proposals = st.proposals ++ [prop] ∧ prop.id = newId ∧ prop.status = .pending ∧
      ∀ target change, prop.change ≠ .provider target change := by
  unfold createAddRule at h
  dsimp only at h
  repeat' split at h
  all_goals cases h
  all_goals exact ⟨_, rfl, rfl, rfl, fun _ _ hc => (nomatch hc)⟩

theorem reject_cases {st st' : State} (h : rejectProposal clk decidedBy id st = .ok st') :
    ∃ prop, st.proposals.find? (·.id = id) = some prop ∧
      st'.proposals = markDecided id .rejected prop.priorState clk.db decidedBy st.proposals := by
  unfold rejectProposal at h
  split at h
  · cases h
  · next prop hprop =>
    split at h
    · cases h
    · cases h
      exact ⟨prop, hprop, rfl⟩

theorem find?_created {proposals : List Proposal} {prop found : Proposal}
    (h : (proposals ++ [prop]).find? (·.id = id) = some found) :
    proposals.find? (·.id = id) = some found ∨ found = prop ∧ prop.id = id := by
  rw [List.find?_append] at h
  cases hfirst : proposals.find? (·.id = id) with
  | some first =>
    rw [hfirst] at h
    exact Or.inl h
  | none =>
    rw [hfirst, Option.none_or, List.find?_singleton] at h
    split at h
    · next heq =>
      cases h
      exact Or.inr ⟨rfl, of_decide_eq_true heq⟩
    · cases h

theorem find?_markDecided {proposals : List Proposal} {id' by' : String} {status : ProposalStatus}
    {prior : Option PriorState} {now : Cluster.Stamp} {found : Proposal}
    (h : (markDecided id' status prior now by' proposals).find? (·.id = id) = some found) :
    id' ≠ id ∧ proposals.find? (·.id = id) = some found ∨
      id' = id ∧ ∃ prop, proposals.find? (·.id = id) = some prop ∧ found.change = prop.change ∧
        found.status = status ∧ found.priorState = prior := by
  unfold markDecided at h
  by_cases hid : id' = id
  · rw [hid, Table.find?_updateFirst_self (by intro; rfl)] at h
    obtain ⟨prop, hprop, rfl⟩ := Option.map_eq_some_iff.mp h
    exact Or.inr ⟨hid, prop, hprop, rfl, rfl, rfl⟩
  · rw [Table.find?_updateFirst_other (by intro; rfl)] at h
    · exact Or.inl ⟨hid, h⟩
    · intro q _ hq
      rw [decide_eq_true_eq] at hq
      rw [hq]
      exact decide_eq_false hid

/-- How a proposal found after a call came about: it is new and pending, it was there before, or
the call applied or closed it. -/
inductive Became (s s' : History) (id : String) (found : Proposal) : Prop
  | created (pending : found.status = .pending)
      (record : ∀ target value, found.change = .provider target (.priority value) →
        ∃ m, s'.made id = some m ∧ value = m.target)
  | kept (there : s.proposals.find? (·.id = id) = some found) (made : s'.made id = s.made id)
      (before : s'.before id = s.before id)
  | applied (prop : Proposal) (there : s.proposals.find? (·.id = id) = some prop)
      (change : found.change = prop.change) (made : s'.made id = s.made id)
      (record : ∀ target change, found.change = .provider target change →
        ∃ old, s'.before id = some old ∧ found.priorState = some (snapshot old))
  | closed (prop : Proposal) (there : s.proposals.find? (·.id = id) = some prop)
      (change : found.change = prop.change) (made : s'.made id = s.made id)
      (status : found.status ≠ .applied)

theorem fresh_ne {st : State} {newId : String} {prop : Proposal} (h : fresh st newId = true)
    (hfound : st.proposals.find? (·.id = id) = some prop) : id ≠ newId := by
  rintro rfl
  have hid := List.all_eq_true.mp h prop (List.mem_of_find?_eq_some hfound)
  have hsame := List.find?_some hfound
  rw [decide_eq_true_eq] at hid hsame
  exact hid hsame

theorem became_of_appended {s' : History} {found : Proposal}
    (h : s'.proposals.find? (·.id = id) = some found) (hmade : s'.made = s.made)
    (hbefore : s'.before = s.before)
    (hprops : s'.proposals = s.proposals ∨ ∃ prop, s'.proposals = s.proposals ++ [prop] ∧
      prop.status = .pending ∧ ∀ target change, prop.change ≠ .provider target change) :
    Became s s' id found := by
  obtain hprops | ⟨prop, hprops, hpending, hkind⟩ := hprops
  · rw [hprops] at h
    exact .kept h (by rw [hmade]) (by rw [hbefore])
  · rw [hprops] at h
    obtain hthere | ⟨rfl, -⟩ := find?_created h
    · exact .kept hthere (by rw [hmade]) (by rw [hbefore])
    · exact .created hpending fun target value hchange => absurd hchange (hkind _ _)

theorem propose_became {newId ref createdBy : String} {change : ProviderChange} {found : Proposal}
    (h : (s.step (.propose newId ref change createdBy)).proposals.find? (·.id = id) = some found) :
    Became s (s.step (.propose newId ref change createdBy)) id found := by
  by_cases hfresh : fresh s.toState newId = true
  · have hstep : s.step (.propose newId ref change createdBy) =
        { s with
          toState := orSame s.toState (createProviderChange newId ref change createdBy s.toState)
          made := Function.update s.made newId (madeFrom s.toState ref change) } :=
      if_pos hfresh
    rw [hstep] at h ⊢
    cases hcreate : createProviderChange newId ref change createdBy s.toState with
    | error e =>
      rw [hcreate] at h
      exact .kept h (Function.update_of_ne (fresh_ne hfresh h) _ _) rfl
    | ok st =>
      rw [hcreate] at h
      change st.proposals.find? _ = _ at h
      obtain ⟨prop, hprops, hid, hpending, hmade⟩ := create_cases hcreate
      rw [hprops] at h
      obtain hthere | ⟨rfl, heq⟩ := find?_created h
      · exact .kept hthere (Function.update_of_ne (fresh_ne hfresh hthere) _ _) rfl
      · refine .created hpending fun target value hchange => ?_
        obtain ⟨m, hm, hvalue⟩ := hmade target value hchange
        refine ⟨m, ?_, hvalue⟩
        rw [← heq, hid]
        exact (Function.update_self _ _ _).trans hm
  · have hstep : s.step (.propose newId ref change createdBy) = s := if_neg hfresh
    rw [hstep] at h ⊢
    exact .kept h rfl rfl

theorem proposeRule_became {newId ruleId createdBy : String} {value : Int} {found : Proposal}
    (h : (s.step (.proposeRule newId ruleId value createdBy)).proposals.find? (·.id = id) =
      some found) :
    Became s (s.step (.proposeRule newId ruleId value createdBy)) id found := by
  simp only [History.step] at h ⊢
  split at h
  · next hfresh =>
    rw [if_pos hfresh]
    refine became_of_appended h rfl rfl ?_
    cases hcreate : createRuleChange newId ruleId value createdBy s.toState with
    | error e => exact Or.inl rfl
    | ok st =>
      obtain ⟨prop, hprops, -, hpending, hkind⟩ := createRule_cases hcreate
      exact Or.inr ⟨prop, hprops, hpending, hkind⟩
  · next hfresh =>
    rw [if_neg hfresh]
    exact .kept h rfl rfl

theorem proposeAddRule_became {newId createdBy : String} {rule : AddRule} {found : Proposal}
    (h : (s.step (.proposeAddRule newId rule createdBy)).proposals.find? (·.id = id) =
      some found) :
    Became s (s.step (.proposeAddRule newId rule createdBy)) id found := by
  simp only [History.step] at h ⊢
  split at h
  · next hfresh =>
    rw [if_pos hfresh]
    refine became_of_appended h rfl rfl ?_
    cases hcreate : createAddRule newId rule createdBy s.toState with
    | error e => exact Or.inl rfl
    | ok st =>
      obtain ⟨prop, hprops, -, hpending, hkind⟩ := createAdd_cases hcreate
      exact Or.inr ⟨prop, hprops, hpending, hkind⟩
  · next hfresh =>
    rw [if_neg hfresh]
    exact .kept h rfl rfl

theorem apply_became {appliedBy id' : String} {found : Proposal}
    (h : (s.step (.apply clk newRuleId appliedBy id')).proposals.find? (·.id = id) = some found) :
    Became s (s.step (.apply clk newRuleId appliedBy id')) id found := by
  cases happly : applyProposal clk newRuleId appliedBy id' s.toState with
  | error e =>
    rw [step_apply_error happly] at h ⊢
    exact .kept h rfl rfl
  | ok st =>
    rw [step_apply_ok happly] at h ⊢
    change st.proposals.find? _ = _ at h
    obtain ⟨prop, hprop, -, hcase⟩ := apply_cases happly
    have hdecided : ∃ prior, st.proposals =
        markDecided id' .applied (some prior) clk.db appliedBy s.proposals ∧
        ∀ target change, prop.change = .provider target change →
          ∃ old, targetRow s.toState id' = some old ∧ prior = snapshot old := by
      obtain ⟨hkind, -, prior, hprops⟩ | ⟨target, change, p, hchange, hrow, -, -, hprops⟩ := hcase
      · exact ⟨prior, hprops, fun target change hchange => absurd hchange (hkind _ _)⟩
      · refine ⟨snapshot p, hprops, fun target' change' hchange' => ⟨p, ?_, rfl⟩⟩
        unfold targetRow
        rw [hprop, Option.bind_some, hchange]
        exact hrow
    obtain ⟨prior, hprops, hprior⟩ := hdecided
    rw [hprops] at h
    obtain ⟨hne, hthere⟩ | ⟨rfl, prop', hprop', hchange, -, hstored⟩ := find?_markDecided h
    · exact .kept hthere rfl (Function.update_of_ne (Ne.symm hne) _ _)
    · refine .applied prop' hprop' hchange rfl fun target change hc => ?_
      rw [hprop] at hprop'
      rw [← Option.some.inj hprop'] at hchange
      obtain ⟨old, htarget, rfl⟩ := hprior target change (hchange.symm.trans hc)
      exact ⟨old, (Function.update_self _ _ _).trans htarget, hstored⟩

theorem became_of_closed {s' : History} {found : Proposal} {id' by' : String}
    {status : ProposalStatus} {prior : Option PriorState} {now : Cluster.Stamp}
    (h : s'.proposals.find? (·.id = id) = some found) (hmade : s'.made = s.made)
    (hbefore : s'.before = s.before) (hstatus : status ≠ .applied)
    (hprops : s'.proposals = s.proposals ∨
      s'.proposals = markDecided id' status prior now by' s.proposals) :
    Became s s' id found := by
  obtain hprops | hprops := hprops
  · rw [hprops] at h
    exact .kept h (by rw [hmade]) (by rw [hbefore])
  · rw [hprops] at h
    obtain ⟨-, hthere⟩ | ⟨-, prop, hprop, hchange, hclosed, -⟩ := find?_markDecided h
    · exact .kept hthere (by rw [hmade]) (by rw [hbefore])
    · exact .closed prop hprop hchange (by rw [hmade]) (by rwa [hclosed])

/-- **A proposal after a call.** -/
theorem step_became {a : Act} {found : Proposal}
    (h : (s.step a).proposals.find? (·.id = id) = some found) : Became s (s.step a) id found := by
  cases a with
  | propose newId ref change createdBy => exact propose_became h
  | proposeRule newId ruleId value createdBy => exact proposeRule_became h
  | proposeAddRule newId rule createdBy => exact proposeAddRule_became h
  | apply clk newRuleId appliedBy id' => exact apply_became h
  | reject clk decidedBy id' =>
    cases hreject : rejectProposal clk decidedBy id' s.toState with
    | error e =>
      have hsame : (s.step (.reject clk decidedBy id')).proposals = s.proposals := by
        simp only [History.step, hreject, orSame]
      rw [hsame] at h
      exact .kept h rfl rfl
    | ok st =>
      have hnext : (s.step (.reject clk decidedBy id')).proposals = st.proposals := by
        simp only [History.step, hreject, orSame]
      obtain ⟨prop, -, hprops⟩ := reject_cases hreject
      exact became_of_closed h rfl rfl (by decide) (Or.inr (hnext.trans hprops))
  | revert clk decidedBy id' =>
    cases hrevert : revertProposal clk decidedBy id' s.toState with
    | error e =>
      have hsame : (s.step (.revert clk decidedBy id')).proposals = s.proposals := by
        simp only [History.step, hrevert, orSame]
      rw [hsame] at h
      exact .kept h rfl rfl
    | ok st =>
      have hnext : (s.step (.revert clk decidedBy id')).proposals = st.proposals := by
        simp only [History.step, hrevert, orSame]
      obtain ⟨prop, -, -, hprops, -⟩ := revert_cases hrevert
      exact became_of_closed h rfl rfl (by decide) (Or.inr (hnext.trans hprops))
  | operator providers rules activeRuleset =>
    simp only [History.step] at h ⊢
    split at h
    · next hnodup =>
      rw [if_pos hnodup]
      exact .kept h rfl rfl
    · next hnodup =>
      rw [if_neg hnodup]
      exact .kept h rfl rfl

/-- The stored target and the stored snapshot of a proposal are those of the records. -/
structure Recorded (s : History) : Prop where
  ids : (s.providers.map Provider.id).Nodup
  made : ∀ id prop target value, s.proposals.find? (·.id = id) = some prop →
    prop.change = .provider target (.priority value) →
    ∃ m, s.made id = some m ∧ value = m.target
  before : ∀ id prop target change, s.proposals.find? (·.id = id) = some prop →
    prop.status = .applied → prop.change = .provider target change →
    ∃ old, s.before id = some old ∧ prop.priorState = some (snapshot old)

/-- **Any call keeps the records.** -/
theorem recorded_step (h : Recorded s) (a : Act) : Recorded (s.step a) := by
  refine ⟨step_ids h.ids a, fun id found target value hfound hchange => ?_,
    fun id found target change hfound happlied hchange => ?_⟩
  · cases step_became hfound with
    | created pending record => exact record target value hchange
    | kept there made before =>
      rw [made]
      exact h.made id found target value there hchange
    | applied prop there change made record =>
      rw [made]
      exact h.made id prop target value there (change.symm.trans hchange)
    | closed prop there change made status =>
      rw [made]
      exact h.made id prop target value there (change.symm.trans hchange)
  · cases step_became hfound with
    | created pending record =>
      rw [pending] at happlied
      cases happlied
    | kept there made before =>
      rw [before]
      exact h.before id found target change there happlied hchange
    | applied prop there _ made record => exact record target change hchange
    | closed prop there _ made status => exact absurd happlied status

/-! ## What a call may do to a provider -/

def columns (p : Provider) : Provider := { p with updatedAt := none, lastUserEditAt := none }

/-- The row with the column the change is about as it was in `old`. -/
def putBack (change : ProviderChange) (old p : Provider) : Provider :=
  match change with
  | .priority _ => { p with priority := old.priority }
  | .enabled _ => { p with enabled := old.enabled }
  | .autoSkipHours _ => { p with autoSkipUntil := old.autoSkipUntil }

/-- Applying the proposal moves the priority by at most the cap in force when it was created. -/
def Bounded (s : History) (st : State) (id : String) : Prop :=
  ∀ prop target value, s.proposals.find? (·.id = id) = some prop →
    prop.change = .provider target (.priority value) →
    ∃ m p p', s.made id = some m ∧ getRow s.providers target = some p ∧
      getRow st.providers target = some p' ∧ ((p'.priority - p.priority).natAbs : Int) ≤ m.cap

/-- Reverting the proposal puts its column back and touches nothing else. -/
def Framed (s : History) (st : State) (id : String) : Prop :=
  ∀ prop target change, s.proposals.find? (·.id = id) = some prop →
    prop.change = .provider target change →
    ∃ old p p', s.before id = some old ∧ getRow s.providers target = some p ∧
      getRow st.providers target = some p' ∧ columns p' = columns (putBack change old p) ∧
      ∀ other, other ≠ target → getRow st.providers other = getRow s.providers other

/-- The bounds and the frame of one call. -/
def KeepsWithin (s : History) : Act → Prop
  | .apply clk newRuleId appliedBy id =>
    ∀ st, applyProposal clk newRuleId appliedBy id s.toState = .ok st → Bounded s st id
  | .revert clk decidedBy id =>
    ∀ st, revertProposal clk decidedBy id s.toState = .ok st → Framed s st id
  | _ => True

/-- The apply of a priority proposal whose provider's priority has moved too far since. -/
def outOfRoom (s : History) (id : String) : Bool :=
  match s.proposals.find? (·.id = id) with
  | none => false
  | some prop =>
    match prop.change with
    | .provider target (.priority _) =>
      prop.status = .pending && (getRow s.providers target).any fun p =>
        (s.made id).any fun m => !m.room (p.priority - m.current)
    | _ => false

/-- The two columns of the snapshot that the change is not about are as they were in `old`. -/
def othersKept (change : ProviderChange) (old p : Provider) : Bool :=
  match change with
  | .priority _ => p.enabled = old.enabled && p.autoSkipUntil = old.autoSkipUntil
  | .enabled _ => p.priority = old.priority && p.autoSkipUntil = old.autoSkipUntil
  | .autoSkipHours _ => p.priority = old.priority && p.enabled = old.enabled

/-- The revert of a proposal after one of those two columns has changed. -/
def overwrites (s : History) (id : String) : Bool :=
  match s.proposals.find? (·.id = id) with
  | none => false
  | some prop =>
    match prop.change with
    | .provider target change =>
      prop.status = .applied && (getRow s.providers target).any fun p =>
        (s.before id).any fun old => !othersKept change old p
    | _ => false

def Act.strays (s : History) : Act → Bool
  | .apply _ _ _ id => outOfRoom s id
  | .revert _ _ id => overwrites s id
  | _ => false

theorem getRow_updateById_self {rows : List Provider} {target : String} {p : Provider}
    {edit : Provider → Provider} (hid : ∀ p, (edit p).id = p.id)
    (hrow : getRow rows target = some p) :
    getRow (updateById clk target edit rows) target = some (flush clk p (edit p)) := by
  unfold getRow updateById at *
  rw [Table.find?_updateFirst_self (by intro q; rw [flush_id, hid]), hrow]
  rfl

theorem getRow_updateById_other {rows : List Provider} {target other : String}
    {edit : Provider → Provider} (hid : ∀ p, (edit p).id = p.id) (hne : other ≠ target) :
    getRow (updateById clk target edit rows) other = getRow rows other := by
  unfold getRow updateById
  refine Table.find?_updateFirst_other (by intro q; rw [flush_id, hid]) fun q _ hq => ?_
  rw [decide_eq_true_eq] at hq
  rw [hq]
  exact decide_eq_false hne.symm

theorem columns_flush (clk : FlushClock) (old new : Provider) :
    columns (flush clk old new) = columns new := by
  obtain ⟨u, e, h⟩ := flush_cases clk old new
  rw [h]
  rfl

theorem flush_priority (clk : FlushClock) (old new : Provider) :
    (flush clk old new).priority = new.priority := by
  obtain ⟨u, e, h⟩ := flush_cases clk old new
  rw [h]

theorem columns_restoredRow_iff (change : ProviderChange) (old p : Provider) :
    columns (restoredRow (some (snapshot old)) p) = columns (putBack change old p) ↔
      othersKept change old p = true := by
  have hparts : ∀ a b : Provider, a = b → a.priority = b.priority ∧ a.enabled = b.enabled ∧
      a.autoSkipUntil = b.autoSkipUntil := fun a b h => by
    rw [h]
    exact ⟨rfl, rfl, rfl⟩
  cases change with
  | priority value =>
    simp only [othersKept, Bool.and_eq_true, decide_eq_true_eq]
    constructor
    · intro h
      obtain ⟨-, henabled, hskip⟩ := hparts _ _ h
      exact ⟨henabled.symm, hskip.symm⟩
    · rintro ⟨henabled, hskip⟩
      simp only [restoredRow, snapshot, putBack, columns, ← henabled, ← hskip]
  | enabled value =>
    simp only [othersKept, Bool.and_eq_true, decide_eq_true_eq]
    constructor
    · intro h
      obtain ⟨hpriority, -, hskip⟩ := hparts _ _ h
      exact ⟨hpriority.symm, hskip.symm⟩
    · rintro ⟨hpriority, hskip⟩
      simp only [restoredRow, snapshot, putBack, columns, ← hpriority, ← hskip]
  | autoSkipHours hours =>
    simp only [othersKept, Bool.and_eq_true, decide_eq_true_eq]
    constructor
    · intro h
      obtain ⟨hpriority, henabled, -⟩ := hparts _ _ h
      exact ⟨hpriority.symm, henabled.symm⟩
    · rintro ⟨hpriority, henabled⟩
      simp only [restoredRow, snapshot, putBack, columns, ← hpriority, ← henabled]

theorem apply_bounded_iff (h : Recorded s) :
    KeepsWithin s (.apply clk newRuleId decidedBy id) ↔ outOfRoom s id = false := by
  unfold outOfRoom
  constructor
  · intro hkeeps
    cases hprop : s.proposals.find? (·.id = id) with
    | none => rfl
    | some prop =>
      dsimp only
      split
      · next target value hchange =>
        rw [Bool.eq_false_iff]
        intro hout
        simp only [Bool.and_eq_true, decide_eq_true_eq, Option.any_eq_true, Bool.not_eq_true'] at hout
        obtain ⟨hpending, p, hrow, m, hmade, hroom⟩ := hout
        have happly : ∃ st, applyProposal clk newRuleId decidedBy id s.toState = .ok st ∧
            st.providers = updateById clk target (changedRow clk.db (.priority value)) s.providers := by
          unfold applyProposal
          simp only [hprop, hpending, hchange, hrow, ne_eq, not_true, if_false, reduceCtorEq,
            decide_false, Bool.false_and, Bool.false_eq_true]
          exact ⟨_, rfl, rfl⟩
        obtain ⟨st, happly, hrows⟩ := happly
        obtain ⟨m', p', q, hmade', hrow', hafter, hcap⟩ :=
          hkeeps st happly prop target value hprop hchange
        rw [hmade, Option.some.injEq] at hmade'
        rw [hrow, Option.some.injEq] at hrow'
        subst hmade' hrow'
        rw [hrows, getRow_updateById_self (changedRow_id _ _) hrow, Option.some.injEq] at hafter
        rw [← hafter, flush_priority] at hcap
        obtain ⟨m', hmade', hvalue⟩ := h.made id prop target value hprop hchange
        rw [hmade, Option.some.injEq] at hmade'
        subst hmade'
        change ((value - p.priority).natAbs : Int) ≤ m.cap at hcap
        rw [hvalue, m.room_iff, hroom] at hcap
        cases hcap
      · rfl
  · intro hroom st happly prop target value hprop hchange
    obtain ⟨prop', hprop', hpending, ⟨hkind, -⟩ | ⟨target', change, p, hchange', hrow, -, hrows, -⟩⟩ :=
      apply_cases happly
    · rw [hprop, Option.some.injEq] at hprop'
      exact absurd (hprop' ▸ hchange) (hkind _ _)
    · rw [hprop, Option.some.injEq] at hprop'
      subst hprop'
      rw [hchange] at hchange'
      obtain ⟨rfl, rfl⟩ := Change.provider.inj hchange'
      obtain ⟨m, hmade, hvalue⟩ := h.made id prop target value hprop hchange
      refine ⟨m, p, _, hmade, hrow,
        (congrArg (getRow · target) hrows).trans (getRow_updateById_self (changedRow_id _ _) hrow), ?_⟩
      rw [flush_priority]
      show ((value - p.priority).natAbs : Int) ≤ m.cap
      rw [hvalue, m.room_iff]
      simpa [hprop, hchange, hpending, hrow, hmade] using hroom

theorem revert_framed_iff (h : Recorded s) :
    KeepsWithin s (.revert clk decidedBy id) ↔ overwrites s id = false := by
  unfold overwrites
  constructor
  · intro hkeeps
    cases hprop : s.proposals.find? (·.id = id) with
    | none => rfl
    | some prop =>
      dsimp only
      split
      · next target change hchange =>
        rw [Bool.eq_false_iff]
        intro hover
        simp only [Bool.and_eq_true, decide_eq_true_eq, Option.any_eq_true, Bool.not_eq_true'] at hover
        obtain ⟨happlied, p, hrow, old, hbefore, hothers⟩ := hover
        obtain ⟨st, hrevert, hrows⟩ := revert_ok clk decidedBy hprop happlied hchange hrow
        obtain ⟨old', p', q, hbefore', hrow', hafter, hcolumns, -⟩ :=
          hkeeps st hrevert prop target change hprop hchange
        rw [hbefore, Option.some.injEq] at hbefore'
        rw [hrow, Option.some.injEq] at hrow'
        subst hbefore' hrow'
        obtain ⟨old', hbefore', hstored⟩ := h.before id prop target change hprop happlied hchange
        rw [hbefore, Option.some.injEq] at hbefore'
        subst hbefore'
        rw [hrows, getRow_updateById_self (restoredRow_id _) hrow, Option.some.injEq] at hafter
        rw [← hafter, columns_flush, hstored, columns_restoredRow_iff, hothers] at hcolumns
        cases hcolumns
      · rfl
  · intro hkept st hrevert prop target change hprop hchange
    obtain ⟨prop', hprop', happlied, -, ⟨hkind, -⟩ | ⟨target', change', p, hchange', hrow, hrows⟩⟩ :=
      revert_cases hrevert
    · rw [hprop, Option.some.injEq] at hprop'
      exact absurd (hprop' ▸ hchange) (hkind _ _)
    · rw [hprop, Option.some.injEq] at hprop'
      subst hprop'
      rw [hchange] at hchange'
      obtain ⟨rfl, rfl⟩ := Change.provider.inj hchange'
      obtain ⟨old, hbefore, hstored⟩ := h.before id prop target change hprop happlied hchange
      refine ⟨old, p, _, hbefore, hrow,
        (congrArg (getRow · target) hrows).trans (getRow_updateById_self (restoredRow_id _) hrow),
        ?_, fun other hother => ?_⟩
      · rw [columns_flush, hstored, columns_restoredRow_iff]
        simpa [hprop, hchange, happlied, hrow, hbefore] using hkept
      · rw [hrows]
        exact getRow_updateById_other (restoredRow_id _) hother

theorem keepsWithin_iff (h : Recorded s) (a : Act) : KeepsWithin s a ↔ a.strays s = false := by
  cases a with
  | apply clk newRuleId appliedBy id => exact apply_bounded_iff h
  | revert clk decidedBy id => exact revert_framed_iff h
  | propose newId ref change createdBy => exact iff_of_true trivial rfl
  | proposeRule newId ruleId value createdBy => exact iff_of_true trivial rfl
  | proposeAddRule newId rule createdBy => exact iff_of_true trivial rfl
  | reject clk decidedBy id => exact iff_of_true trivial rfl
  | operator providers rules activeRuleset => exact iff_of_true trivial rfl

theorem recorded_start {st : State} (hids : (st.providers.map Provider.id).Nodup)
    (hempty : st.proposals = []) : Recorded { toState := st } := by
  have hnone : ∀ id prop, ({ toState := st } : History).proposals.find? (·.id = id) ≠ some prop := by
    intro id prop hfound
    change st.proposals.find? _ = _ at hfound
    rw [hempty] at hfound
    cases hfound
  exact ⟨hids, fun id prop _ _ hfound => absurd hfound (hnone id prop),
    fun id prop _ _ hfound => absurd hfound (hnone id prop)⟩

theorem keepsWithin_along_iff (h : Recorded s) (as : List Act) :
    Along History.step KeepsWithin s as ↔
      Along History.step (fun s a => a.strays s = false) s as :=
  along_iff (V := fun _ _ => True) (I := Recorded) (fun _ a hs _ => keepsWithin_iff hs a)
    (fun _ a hs _ _ => recorded_step hs a) h (along_of_forall fun _ _ => trivial)

/-- **AIRI's changes**: in a run from tables without proposals, each applied priority proposal moves
the priority by at most its cap and each revert puts one column back and touches no other, exactly
if no apply is out of room and no revert overwrites a later change. -/
theorem changes_bounded_reversible_iff (st : State)
    (hids : (st.providers.map Provider.id).Nodup) (hempty : st.proposals = []) (as : List Act) :
    Along History.step KeepsWithin { toState := st } as ↔
      Along History.step (fun s a => a.strays s = false) { toState := st } as :=
  keepsWithin_along_iff (recorded_start hids hempty) as

/-! ### Proposals that overlap -/

/-- The second proposal is about another column, and the first is reverted before it is applied. -/
def oneByOne : List Act :=
  appliedToSpare ++
    [.propose "q" "spare" (.enabled true) "airi", .revert ⟨2, 2⟩ "admin" "p",
      .apply ⟨3, 3⟩ "r" "admin" "q"]

theorem changes_bounded_reversible_one_by_one :
    Along History.step KeepsWithin { providers := [spare false, primary true] } oneByOne :=
  (changes_bounded_reversible_iff { providers := [spare false, primary true] } (by decide) rfl
    oneByOne).mpr (by decide +kernel)

/-- The operator moves the priority between the creation and the apply. -/
def drifted : List Act :=
  [.propose "p" "spare" (.priority 12) "airi",
    .operator [{ spare false with priority := 1 }, primary true] [] none,
    .apply ⟨1, 1⟩ "r" "admin" "p"]

/-- The second proposal is applied, and then the first is reverted. -/
def overlapping : List Act :=
  appliedToSpare ++
    [.propose "q" "spare" (.enabled true) "airi", .apply ⟨2, 2⟩ "r" "admin" "q",
      .revert ⟨3, 3⟩ "admin" "p"]

/-- **An apply that moves the priority by 11 with a cap of 2, and a revert that undoes another
proposal**. -/
theorem changes_stray :
    ¬ Along History.step KeepsWithin { providers := [spare false, primary true] } drifted ∧
      ¬ Along History.step KeepsWithin { providers := [spare false, primary true] } overlapping := by
  have hstart : Recorded { providers := [spare false, primary true] } :=
    recorded_start (by decide) rfl
  rw [keepsWithin_along_iff hstart, keepsWithin_along_iff hstart]
  decide +kernel

end LlmProxy.Airi
