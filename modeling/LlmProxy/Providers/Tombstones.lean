import LlmProxy.Lib.Trace
import LlmProxy.Airi.Proposals
import LlmProxy.Cluster.Providers
import LlmProxy.Routing.Selection

/-! # Tombstoned providers and the router

The router selects on `enabled` alone, so a soft-deleted provider stays out of routing only as
long as its row is disabled too. `delete_provider` and the adoption of a peer's tombstone write
both columns together; every other writer of `enabled` finds rows by id or name, deleted or not.

A state is the provider table with AIRI's proposals and rules, an action is one API call, one
proposal decision or the merge of one peer row. `harmless` says of an action that it does not
switch on a tombstoned row, and the main result `tombstones_disabled_iff` that a run keeps every
tombstoned row disabled, and the router away from it, exactly when all its actions are harmless.
-/

namespace LlmProxy.Providers

open LlmProxy.Cluster (PeerProvider providerKeys mergeProvider insertProvider applyProvider
  applyProviders deletionOutranks acceptsEdit fieldOr)
open LlmProxy.Airi (State ProviderChange Change PriorState AddRule)

/-! ## The system -/

inductive Action where
  | create (env : AdminEnv) (body : ProviderBody)
  | update (clk : FlushClock) (id : String) (body : ProviderBody)
  | delete (clk : FlushClock) (id : String)
  | toggle (clk : FlushClock) (user : Option String) (id : String)
  | release (clk : FlushClock) (enable : Bool)
  | propose (newId ref : String) (change : ProviderChange) (createdBy : String)
  | proposeRule (newId ruleId : String) (value : Int) (createdBy : String)
  | proposeAddRule (newId : String) (rule : AddRule) (createdBy : String)
  | apply (clk : FlushClock) (newRuleId appliedBy id : String)
  | reject (clk : FlushClock) (decidedBy id : String)
  | revert (clk : FlushClock) (decidedBy id : String)
  | merge (clk : FlushClock) (row : PeerProvider)

/-- The table after an API call; a refused call changes nothing. -/
def withRows (st : State) : Except HttpError (List Provider) → State
  | .ok rows => { st with providers := rows }
  | .error _ => st

@[simp] theorem withRows_ok (st : State) (rows : List Provider) :
    (withRows st (.ok rows)).providers = rows := rfl

@[simp] theorem withRows_error (st : State) (e : HttpError) : withRows st (.error e) = st := rfl

/-- The state after a proposal call; a refused call changes nothing. -/
def orSame (st : State) : Except String State → State
  | .ok st' => st'
  | .error _ => st

def step (st : State) : Action → State
  | .create env body => withRows st (createProvider env body st.providers)
  | .update clk id body => withRows st (updateProvider clk id body st.providers)
  | .delete clk id => withRows st (deleteProvider clk id st.providers)
  | .toggle clk user id => withRows st (toggleProvider clk user id st.providers)
  | .release clk enable => { st with providers := releaseManualOverrides clk enable st.providers }
  | .propose newId ref change createdBy =>
    orSame st (Airi.createProviderChange newId ref change createdBy st)
  | .proposeRule newId ruleId value createdBy =>
    orSame st (Airi.createRuleChange newId ruleId value createdBy st)
  | .proposeAddRule newId rule createdBy => orSame st (Airi.createAddRule newId rule createdBy st)
  | .apply clk newRuleId appliedBy id =>
    orSame st (Airi.applyProposal clk newRuleId appliedBy id st)
  | .reject clk decidedBy id => orSame st (Airi.rejectProposal clk decidedBy id st)
  | .revert clk decidedBy id => orSame st (Airi.revertProposal clk decidedBy id st)
  | .merge clk row => { st with providers := applyProvider clk st.providers row }

/-! ## The invariant -/

def Provider.sound (p : Provider) : Bool := !(p.deleted && p.enabled)

def TombstonesDisabled (rows : List Provider) : Prop := ∀ p ∈ rows, p.sound = true

instance (rows : List Provider) : Decidable (TombstonesDisabled rows) :=
  inferInstanceAs (Decidable (∀ p ∈ rows, p.sound = true))

theorem sound_congr {p q : Provider} (h : p.switch = q.switch) : p.sound = q.sound := by
  obtain ⟨hen, hdel⟩ := Prod.mk.inj h
  unfold Provider.sound Provider.deleted
  rw [hen, hdel]

theorem sound_of_live {p : Provider} (h : p.deletedAt = none) : p.sound = true := by
  simp [Provider.sound, Provider.deleted, h]

theorem sound_of_disabled {p : Provider} (h : p.enabled = false) : p.sound = true := by
  simp [Provider.sound, h]

theorem sound_flush (clk : FlushClock) (old new : Provider) :
    (flush clk old new).sound = new.sound :=
  sound_congr (flush_switch clk old new)

theorem updateById_sound_iff {clk : FlushClock} {id : String} {edit : Provider → Provider}
    {rows : List Provider} {p : Provider} (h : TombstonesDisabled rows)
    (hp : getRow rows id = some p) :
    TombstonesDisabled (updateById clk id edit rows) ↔ (edit p).sound = true := by
  constructor
  · intro hall
    have hmem := hall _ (Table.updateFirst_mem (f := fun q => flush clk q (edit q)) hp)
    rwa [sound_flush] at hmem
  · intro hedit q hq
    rcases Table.mem_updateFirst hq with hold | ⟨a, ha, heq⟩
    · exact h q hold
    · have hap : a = p := Option.some.inj (ha.symm.trans hp)
      rw [heq, sound_flush, hap]
      exact hedit

theorem bump_sound {clk : FlushClock} {target : Int} {excl : Option String} {rows : List Provider}
    (h : TombstonesDisabled rows) :
    TombstonesDisabled (bumpPriorityConflicts clk target excl rows) := by
  intro q hq
  obtain ⟨p, hp, hswitch⟩ := mem_bumpPriorityConflicts hq
  rw [sound_congr hswitch]
  exact h p hp

/-! ## The guard -/

/-- The row of that id, if there is one, is not deleted. -/
def liveTarget (rows : List Provider) (id : String) : Bool := (getRow rows id).all (!·.deleted)

/-- The merge leaves a deleted row switched off: the deletion outranks the peer row, the edit
gate rejects it, or the peer row does not carry `enabled = true`. -/
def mergeHarmless (rows : List Provider) (r : PeerProvider) : Bool :=
  (Table.target (providerKeys r) rows).all fun e =>
    !e.deleted || deletionOutranks r e || !acceptsEdit r e || r.enabled ≠ some true

/-- Applying the pending proposal does not enable a deleted row. -/
def applyHarmless (st : State) (id : String) : Bool :=
  (st.proposals.find? (·.id = id)).all fun prop =>
    match prop.change with
    | .provider target (.enabled true) => prop.status ≠ .pending || liveTarget st.providers target
    | _ => true

/-- Reverting the applied proposal does not restore `enabled = true` on a deleted row. -/
def revertHarmless (st : State) (id : String) : Bool :=
  (st.proposals.find? (·.id = id)).all fun prop =>
    match prop.change, prop.priorState with
    | .provider target _, some (.provider _ true _) =>
      prop.status ≠ .applied || liveTarget st.providers target
    | _, _ => true

/-- The update is refused, its row is live, or it asks for `enabled = false`. -/
def updateHarmless (rows : List Provider) (id : String) (body : ProviderBody) : Bool :=
  (typeRefusal body.providerType).isSome ||
    (getRow rows id).all fun p =>
      (updateRefusal rows p body).isSome || !p.deleted || !body.enabled

def harmless (st : State) : Action → Bool
  | .update _ id body => updateHarmless st.providers id body
  | .toggle _ _ id => liveTarget st.providers id
  | .apply _ _ _ id => applyHarmless st id
  | .revert _ _ id => revertHarmless st id
  | .merge _ r => mergeHarmless st.providers r
  | _ => true

/-! ## One step -/

variable {st : State}

theorem step_create (h : TombstonesDisabled st.providers) (env : AdminEnv) (body : ProviderBody) :
    TombstonesDisabled (step st (.create env body)).providers := by
  show TombstonesDisabled (withRows st (createProvider env body st.providers)).providers
  unfold createProvider
  split
  · exact h
  · split
    · exact h
    · next row hrow =>
      intro q hq
      rcases List.mem_append.mp hq with hbumped | hnew
      · exact bump_sound h q hbumped
      · rw [List.mem_singleton.mp hnew]
        exact sound_of_live (typedRow_live hrow)

/-- The row an accepted `PUT` leaves keeps its tombstone and takes the body's switch. -/
theorem updatedRow_sound (clk : FlushClock) (body : ProviderBody) (p : Provider) :
    (updatedRow clk body p).sound = (!p.deleted || !body.enabled) := by
  unfold Provider.sound
  rw [Bool.not_and]
  rfl

theorem step_update (h : TombstonesDisabled st.providers) (clk : FlushClock) (id : String)
    (body : ProviderBody) :
    TombstonesDisabled (step st (.update clk id body)).providers ↔
      updateHarmless st.providers id body = true := by
  show TombstonesDisabled (withRows st (updateProvider clk id body st.providers)).providers ↔ _
  unfold updateProvider updateHarmless
  split
  · next e he => simpa [he] using h
  · next htype =>
    split
    · next hnone => simpa [hnone, htype] using h
    · next p hp =>
      split
      · next e he => simpa [hp, he] using h
      · next hok =>
        -- the row is looked up after its neighbours have moved
        have hrow : ∀ rows q, TombstonesDisabled rows → getRow rows id = some q →
            q.switch = p.switch →
            (TombstonesDisabled (updateById clk id (updatedRow clk body) rows) ↔
              (!p.deleted || !body.enabled) = true) := by
          intro rows q hrows hq hswitch
          have hdel : q.deleted = p.deleted := by
            unfold Provider.deleted
            rw [(Prod.mk.inj hswitch).2]
          rw [updateById_sound_iff hrows hq, updatedRow_sound, hdel]
        have hgoal : TombstonesDisabled (updateById clk id (updatedRow clk body)
            (if body.priority ≠ p.priority then
              bumpPriorityConflicts clk body.priority (some p.id) st.providers
            else st.providers)) ↔ (!p.deleted || !body.enabled) = true := by
          split
          · obtain ⟨q, hq, hswitch⟩ := getRow_bump clk body.priority (some p.id) hp
            exact hrow _ q (bump_sound h) hq hswitch
          · exact hrow _ p h hp rfl
        simpa [hp, hok, htype] using hgoal

theorem step_delete (h : TombstonesDisabled st.providers) (clk : FlushClock) (id : String) :
    TombstonesDisabled (step st (.delete clk id)).providers := by
  show TombstonesDisabled (withRows st (deleteProvider clk id st.providers)).providers
  unfold deleteProvider
  split
  · exact h
  · next p hp => exact (updateById_sound_iff h hp).mpr (sound_of_disabled rfl)

theorem toggledRow_sound {p : Provider} (hp : p.sound = true) (clk : FlushClock)
    (user : Option String) : (toggledRow clk user p).sound = !p.deleted := by
  unfold toggledRow
  cases hen : p.enabled with
  | true =>
    have hlive : p.deleted = false := by
      simpa [Provider.sound, hen] using hp
    rw [if_pos rfl, hlive]
    exact sound_of_disabled rfl
  | false =>
    rw [if_neg Bool.false_ne_true]
    simp [Provider.sound, Provider.deleted]

theorem step_toggle (h : TombstonesDisabled st.providers) (clk : FlushClock)
    (user : Option String) (id : String) :
    TombstonesDisabled (step st (.toggle clk user id)).providers ↔
      liveTarget st.providers id = true := by
  show TombstonesDisabled (withRows st (toggleProvider clk user id st.providers)).providers ↔ _
  unfold toggleProvider liveTarget
  split
  · next hnone => simpa [hnone] using h
  · next p hp =>
    have hsound := h p (List.mem_of_find?_eq_some hp)
    rw [withRows_ok, updateById_sound_iff h hp, toggledRow_sound hsound, hp]
    rfl

theorem step_release (h : TombstonesDisabled st.providers) (clk : FlushClock) (enable : Bool) :
    TombstonesDisabled (step st (.release clk enable)).providers := by
  intro q hq
  obtain ⟨p, hp, heq⟩ := List.mem_map.mp hq
  rw [← heq]
  split
  · next hlive =>
    have hnot : p.deleted = false := by simpa using (Bool.and_eq_true_iff.mp hlive).2
    simp [Provider.sound, Provider.deleted] at hnot ⊢
    simp [hnot]
  · exact h p hp

/-- The row after an applied change: only `enabled := true` can harm a deleted one. -/
theorem changedRow_sound {p : Provider} (hp : p.sound = true) (now : Cluster.Stamp)
    (change : ProviderChange) :
    (Airi.changedRow now change p).sound = true ↔ (change = .enabled true → p.deleted = false) := by
  cases change with
  | priority value => exact iff_of_true hp (fun h => nomatch h)
  | autoSkipHours hours => exact iff_of_true hp (fun h => nomatch h)
  | enabled value =>
    cases value with
    | false => exact iff_of_true (sound_of_disabled rfl) (fun h => nomatch h)
    | true => simp [Airi.changedRow, Provider.sound, Provider.deleted]

theorem step_apply (h : TombstonesDisabled st.providers) (clk : FlushClock)
    (newRuleId appliedBy id : String) :
    TombstonesDisabled (step st (.apply clk newRuleId appliedBy id)).providers ↔
      applyHarmless st id = true := by
  show TombstonesDisabled
    (orSame st (Airi.applyProposal clk newRuleId appliedBy id st)).providers ↔ _
  unfold Airi.applyProposal applyHarmless
  cases hprop : st.proposals.find? (·.id = id) with
  | none => exact iff_of_true h rfl
  | some prop =>
    dsimp only [Option.all]
    by_cases hpending : prop.status = .pending
    · rw [if_neg (not_not_intro hpending)]
      cases hchange : prop.change with
      | rule target value =>
        dsimp only
        split <;> exact iff_of_true h rfl
      | addRule ruleType name spec mode =>
        dsimp only
        split <;> exact iff_of_true h rfl
      | provider target change =>
        dsimp only
        split
        · next hnone =>
          refine iff_of_true h ?_
          split
          · next hsame =>
            cases hsame
            simp [liveTarget, hnone]
          · rfl
        · next p hp =>
          have hsound := h p (List.mem_of_find?_eq_some hp)
          split
          · next hrefused =>
            -- the refusal concerns disabling the last provider only
            have hoff : change = .enabled false := by simp at hrefused; exact hrefused.1.1
            rw [hoff]
            exact iff_of_true h rfl
          · rw [orSame, updateById_sound_iff h hp, changedRow_sound hsound]
            cases change with
            | priority value => exact iff_of_true (fun hc => nomatch hc) rfl
            | autoSkipHours hours => exact iff_of_true (fun hc => nomatch hc) rfl
            | enabled value =>
              cases value with
              | false => exact iff_of_true (fun hc => nomatch hc) rfl
              | true => simp [hpending, liveTarget, hp]
    · rw [if_pos hpending]
      refine iff_of_true h ?_
      split <;> simp [hpending]

theorem restoredRow_sound {p : Provider} (hp : p.sound = true) (prior : Option PriorState) :
    (Airi.restoredRow prior p).sound = true ↔
      ∀ priority skip, prior = some (.provider priority true skip) → p.deleted = false := by
  unfold Airi.restoredRow
  split
  · next priority enabled skip =>
    cases enabled with
    | false => exact iff_of_true (sound_of_disabled rfl) (fun _ _ hc => nomatch hc)
    | true => simp [Provider.sound, Provider.deleted]
  · next hother => exact iff_of_true hp (fun priority skip hc => absurd hc (hother _ _ _))

theorem step_revert (h : TombstonesDisabled st.providers) (clk : FlushClock)
    (decidedBy id : String) :
    TombstonesDisabled (step st (.revert clk decidedBy id)).providers ↔
      revertHarmless st id = true := by
  show TombstonesDisabled (orSame st (Airi.revertProposal clk decidedBy id st)).providers ↔ _
  unfold Airi.revertProposal revertHarmless
  cases hprop : st.proposals.find? (·.id = id) with
  | none => exact iff_of_true h rfl
  | some prop =>
    dsimp only [Option.all]
    by_cases happlied : prop.status = .applied
    · rw [if_neg (not_not_intro happlied)]
      cases hchange : prop.change with
      | rule target value =>
        dsimp only
        split <;> exact iff_of_true h rfl
      | addRule ruleType name spec mode => exact iff_of_true h rfl
      | provider target change =>
        dsimp only
        split
        · next hnone =>
          refine iff_of_true h ?_
          split
          · next hsame _ =>
            cases hsame
            simp [liveTarget, hnone]
          · rfl
        · next p hp =>
          have hsound := h p (List.mem_of_find?_eq_some hp)
          rw [orSame, updateById_sound_iff h hp, restoredRow_sound hsound]
          split
          · next hc hprior => cases hc; simp [hprior, happlied, liveTarget, hp]
          · next hother =>
            exact iff_of_true (fun priority skip hc => absurd hc (hother _ _ _ _ rfl)) rfl
    · rw [if_pos happlied]
      refine iff_of_true h ?_
      split <;> simp [happlied]

theorem mergeProvider_adopts {clk : FlushClock} {r : PeerProvider} {e : Provider}
    (he : e.deleted = false) (hr : r.deletedAt.isSome = true) :
    (mergeProvider clk r e).enabled = false := by
  have hlive : e.deletedAt.isNone = true := by simpa [Provider.deleted] using he
  unfold mergeProvider Cluster.mergeProviderRow
  rw [flush_enabled, hr, hlive]
  rfl

theorem mergeProvider_sound (clk : FlushClock) (r : PeerProvider) {e : Provider}
    (he : e.sound = true) :
    (mergeProvider clk r e).sound =
      (!e.deleted || deletionOutranks r e || !acceptsEdit r e || r.enabled ≠ some true) := by
  cases hdel : e.deleted with
  | false =>
    have hkeeps : (mergeProvider clk r e).deletedAt = r.deletedAt :=
      Cluster.mergeProvider_not_deleted hdel
    cases hr : r.deletedAt with
    | none =>
      rw [hr] at hkeeps
      exact sound_of_live hkeeps
    | some d => exact sound_of_disabled (mergeProvider_adopts hdel (by rw [hr]; rfl))
  | true =>
    have hoff : e.enabled = false := by simpa [Provider.sound, hdel] using he
    have hstays : (mergeProvider clk r e).deleted = true := by
      unfold Provider.deleted
      rw [Cluster.mergeProvider_deleted hdel]
      exact hdel
    unfold Provider.sound
    rw [hstays, Cluster.mergeProvider_enabled hdel, hoff]
    cases deletionOutranks r e with
    | true => simp
    | false =>
      cases acceptsEdit r e with
      | false => simp
      | true =>
        cases hen : r.enabled with
        | none => simp [fieldOr]
        | some b => cases b <;> simp [fieldOr]

theorem step_merge (h : TombstonesDisabled st.providers) (clk : FlushClock) (r : PeerProvider) :
    TombstonesDisabled (step st (.merge clk r)).providers ↔
      mergeHarmless st.providers r = true := by
  show TombstonesDisabled (applyProvider clk st.providers r) ↔ _
  unfold mergeHarmless
  cases htarget : Table.target (providerKeys r) st.providers with
  | none =>
    refine iff_of_true (fun q hq => ?_) rfl
    rcases Table.mem_upsert hq with hold | ⟨e, he, -⟩ | ⟨-, hnew⟩
    · exact h q hold
    · rw [htarget] at he
      cases he
    · cases hr : r.deletedAt with
      | none =>
        obtain ⟨p, hp, -, hlive⟩ := Cluster.insertProvider_live clk hr
        rw [hnew] at hp
        rw [Option.some.inj hp]
        exact sound_of_live hlive
      | some d =>
        rw [Cluster.insertProvider_dead clk (by rw [hr]; rfl)] at hnew
        cases hnew
  | some e =>
    have hsound := h e (Table.target_mem htarget)
    rw [Option.all_some, ← mergeProvider_sound clk r hsound]
    constructor
    · intro hall
      exact hall _ (Table.upsert_mem htarget)
    · intro hmerged q hq
      rcases Table.mem_upsert hq with hold | ⟨a, ha, heq⟩ | ⟨hnone, -⟩
      · exact h q hold
      · have hae : a = e := Option.some.inj (ha.symm.trans htarget)
        rw [heq, hae]
        exact hmerged
      · rw [htarget] at hnone
        cases hnone

/-- **Step.** On a sound table an action leaves a sound table exactly when it is harmless. -/
theorem step_sound_iff (h : TombstonesDisabled st.providers) (a : Action) :
    TombstonesDisabled (step st a).providers ↔ harmless st a = true := by
  cases a with
  | create env body => exact iff_of_true (step_create h env body) rfl
  | update clk id body => exact step_update h clk id body
  | delete clk id => exact iff_of_true (step_delete h clk id) rfl
  | toggle clk user id => exact step_toggle h clk user id
  | release clk enable => exact iff_of_true (step_release h clk enable) rfl
  | propose newId ref change createdBy =>
    refine iff_of_true ?_ rfl
    show TombstonesDisabled (orSame st (Airi.createProviderChange _ _ _ _ st)).providers
    unfold Airi.createProviderChange
    repeat' split
    all_goals exact h
  | proposeRule newId ruleId value createdBy =>
    refine iff_of_true ?_ rfl
    show TombstonesDisabled (orSame st (Airi.createRuleChange _ _ _ _ st)).providers
    unfold Airi.createRuleChange
    repeat' split
    all_goals exact h
  | proposeAddRule newId rule createdBy =>
    refine iff_of_true ?_ rfl
    show TombstonesDisabled (orSame st (Airi.createAddRule _ _ _ st)).providers
    unfold Airi.createAddRule
    dsimp only
    repeat' split
    all_goals exact h
  | apply clk newRuleId appliedBy id => exact step_apply h clk newRuleId appliedBy id
  | reject clk decidedBy id =>
    refine iff_of_true ?_ rfl
    show TombstonesDisabled (orSame st (Airi.rejectProposal _ _ _ st)).providers
    unfold Airi.rejectProposal
    repeat' split
    all_goals exact h
  | revert clk decidedBy id => exact step_revert h clk decidedBy id
  | merge clk r => exact step_merge h clk r

/-! ## Runs -/

/-- No route, whatever the request and the rest of the world, leads to a deleted provider. -/
def NeverRoutesDeleted (rows : List Provider) : Prop :=
  ∀ (w : Routing.World) (req : Routing.RouteRequest) (r : Routing.RouteResult),
    w.providers = rows → Routing.selectProvider w req = .ok (.route r) → r.provider.deleted = false

theorem neverRoutesDeleted_of_sound {rows : List Provider} (h : TombstonesDisabled rows) :
    NeverRoutesDeleted rows := by
  intro w req r hrows hroute
  obtain ⟨hadm, -, -⟩ := Routing.selectProvider_route hroute
  have hsound := h r.provider (by rw [← hrows]; exact hadm.row)
  simpa [Provider.sound, hadm.enabled] using hsound

/-- **Tombstones.** From a table whose tombstoned rows are disabled, a run keeps them disabled
in every state it reaches, and the router away from them, exactly when each of its actions is
harmless in the state it meets. -/
theorem tombstones_disabled_iff (st : State) (as : List Action)
    (h : TombstonesDisabled st.providers) :
    Trace.Along step (fun s a => TombstonesDisabled (step s a).providers ∧
        NeverRoutesDeleted (step s a).providers) st as ↔
      Trace.Along step (fun s a => harmless s a = true) st as := by
  have hall : Trace.Along step (fun _ _ => True) st as :=
    Trace.along_iff_forall_prefix.mpr fun _ _ _ _ => trivial
  refine Trace.along_iff (I := fun s => TombstonesDisabled s.providers) ?_ ?_ h hall
  · intro s a hs _
    constructor
    · intro hstep
      exact (step_sound_iff hs a).mp hstep.1
    · intro hharmless
      have hsound := (step_sound_iff hs a).mpr hharmless
      exact ⟨hsound, neverRoutesDeleted_of_sound hsound⟩
  · intro s a hs _ hharmless
    exact (step_sound_iff hs a).mpr hharmless

/-! ## Fixed runs -/

def noon : FlushClock := ⟨1000000, 1⟩

def openaiBody : ProviderBody := { name := "OpenAI", providerType := "openai", apiKey := some "sk-1" }

/-- A peer's live row, stamped before the deletion. -/
def lateRow : PeerProvider :=
  { id := "p1", name := "OpenAI", providerType := "openai", enabled := some true,
    updatedAt := some 500000, lastUserEditAt := some 9 }

/-- Create, delete, and the peer's older live row arriving after the deletion: the deletion
outranks it. -/
theorem tombstones_disabled_late_row :
    Trace.Along step (fun s a => TombstonesDisabled (step s a).providers ∧
        NeverRoutesDeleted (step s a).providers) {}
      [.create ⟨noon, "p1", ""⟩ openaiBody, .delete noon "p1",
        .merge noon lateRow] :=
  (tombstones_disabled_iff {} _ (by decide)).mpr (by decide)

/-- A `PUT` with the default body on a deleted provider switches it on again. -/
theorem put_enables_deleted_provider :
    ¬ Trace.Along step (fun s a => TombstonesDisabled (step s a).providers ∧
        NeverRoutesDeleted (step s a).providers) {}
      [.create ⟨noon, "p1", ""⟩ openaiBody, .delete noon "p1", .update noon "p1" openaiBody] := by
  intro h
  have hlast : TombstonesDisabled (Trace.run step {}
      [.create ⟨noon, "p1", ""⟩ openaiBody, .delete noon "p1",
        .update noon "p1" openaiBody]).providers := h.2.2.1.1
  have hbroken : ¬ TombstonesDisabled (Trace.run step {}
      [.create ⟨noon, "p1", ""⟩ openaiBody, .delete noon "p1",
        .update noon "p1" openaiBody]).providers := by decide
  exact hbroken hlast

end LlmProxy.Providers
