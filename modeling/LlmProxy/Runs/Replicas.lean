import LlmProxy.Runs.Replication

/-! # When the replicas agree

`Replication.lean` has the owner of a run, its pushes and a peer; here is what holds of all
their histories. Under the condition `Pushed` a run goes from queued to running and then fails
or expires, so there are at most two pushes, and everything there is to know of them is in
`InStep`: the newest snapshot shows what the owner shows (`Agreed`), the others are of a
running run.

> `inStep_iff`: on such a state a step keeps the agreement exactly when it meets the condition;
> `replicas_agree_iff`: and so does every history.
-/

namespace LlmProxy.Runs

/-- Neither parked, completed or cancelled, without a result and without a pending tool. -/
def Bare (v : Visible) : Prop :=
  v.status ≠ .requiresTool ∧ v.status ≠ .completed ∧ v.status ≠ .cancelled ∧
    v.resultText = none ∧ v.currentToolUseId = none

structure InStep (d : Replicated) : Prop where
  agreed : Agreed d
  coherent : d.sys.worker.Coherent
  fresh : ∀ s, d.sys.worker.session? = some s → Fresh d.sys.row s
  cancels : OnlyCancels d.sys
  bare : Bare d.sys.row.visible
  notCancelled : ∀ x ∈ d.known, x.status ≠ .cancelled
  running : d.sys.row.status.terminal = false → ∀ x ∈ d.known,
    d.sys.row.status ≠ .queued ∧ x.status = .running

/-! ## Pushes and deliveries -/

theorem mem_known {d : Replicated} {x : RunRow} :
    x ∈ d.known ↔ d.peer = some x ∨ x ∈ d.outstanding := by
  simp [Replicated.known]

theorem replicate_sys (d : Replicated) (x : RunRow) (terminal : Bool) :
    (d.replicate x terminal).sys = d.sys := by
  cases terminal <;> rfl

theorem replicate_peer (d : Replicated) (x : RunRow) (terminal : Bool) :
    (d.replicate x terminal).peer = d.peer := by
  cases terminal <;> rfl

theorem replicate_outstanding (d : Replicated) (x : RunRow) (terminal : Bool) :
    x ∈ (d.replicate x terminal).outstanding ∧
      (∀ y ∈ (d.replicate x terminal).outstanding, y = x ∨ y ∈ d.outstanding) ∧
      (terminal = true → ∀ y ∈ d.outstanding, y ∈ (d.replicate x terminal).outstanding) := by
  cases terminal with
  | true =>
    refine ⟨?_, ?_, ?_⟩
    · simp [Replicated.replicate, Replicated.outstanding]
    · intro y hy
      simp [Replicated.replicate, Replicated.outstanding] at hy ⊢
      rcases hy with hy | hy | hy
      · exact Or.inr (Or.inl hy)
      · exact Or.inr (Or.inr hy)
      · exact Or.inl hy
    · intro _ y hy
      simp [Replicated.replicate, Replicated.outstanding] at hy ⊢
      rcases hy with hy | hy
      · exact Or.inl hy
      · exact Or.inr (Or.inl hy)
  | false =>
    refine ⟨?_, ?_, fun h => nomatch h⟩
    · simp [Replicated.replicate, Replicated.outstanding]
    · intro y hy
      simp [Replicated.replicate, Replicated.outstanding] at hy ⊢
      rcases hy with hy | hy
      · exact Or.inl hy
      · exact Or.inr (Or.inr hy)

theorem Agreed.congr {d d' : Replicated} (h : Agreed d) (hpeer : d'.peer = d.peer)
    (hout : ∀ x, x ∈ d'.outstanding ↔ x ∈ d.outstanding)
    (hrow : d'.sys.row.visible = d.sys.row.visible) : Agreed d' := by
  intro order horder
  rw [hpeer, hrow]
  refine h order ⟨fun x hx => (hout x).mp (horder.1 x hx), fun x hx => ?_⟩
  exact horder.2 x ((hout x).mpr hx)

theorem Agreed.deliver {d d' : Replicated} (h : Agreed d) {x : RunRow} (hx : x ∈ d.outstanding)
    (hpeer : d'.peer = applyRun d.peer x) (hsub : ∀ y ∈ d'.outstanding, y ∈ d.outstanding)
    (hrest : ∀ y ∈ d.outstanding, y = x ∨ y ∈ d'.outstanding) (hsys : d'.sys = d.sys) :
    Agreed d' := by
  intro order horder
  rw [hpeer, hsys]
  refine h (x :: order) ⟨fun y hy => ?_, fun y hy => ?_⟩
  · rcases List.mem_cons.mp hy with rfl | hy
    · exact hx
    · exact hsub y (horder.1 y hy)
  · rcases hrest y hy with rfl | hy
    · exact List.mem_cons_self
    · exact List.mem_cons_of_mem x (horder.2 y hy)

theorem applyRun_forward (existing : Option RunRow) (incoming : RunRow) :
    Forward existing (applyRun existing incoming) := by
  intro r hr
  rw [applyRun_eq]
  exact Newest.receive_forward RunRow.updatedAt hr incoming

theorem step_forward (node : Node) (d : Replicated) (act : ReplicaAct) :
    Forward d.peer (d.step node act).peer := by
  have hsame : Forward d.peer d.peer := fun r hr => ⟨r, hr, Int.le_refl _⟩
  cases act with
  | owner a =>
    simp only [Replicated.step]
    split
    · rw [replicate_peer]
      exact hsame
    · exact hsame
  | fire =>
    simp only [Replicated.step]
    split <;> exact hsame
  | deliver x again =>
    simp only [Replicated.step]
    split
    · exact applyRun_forward d.peer x
    · exact hsame

/-! ## Deliveries and the timer -/

theorem fire_outstanding (node : Node) (d : Replicated) (x : RunRow) :
    x ∈ (d.step node .fire).outstanding ↔ x ∈ d.outstanding := by
  unfold Replicated.step
  cases hp : d.pending with
  | none => simp [Replicated.outstanding, hp]
  | some y => simp [Replicated.outstanding, hp, or_comm]

theorem agreed_fire {node : Node} {d : Replicated} (h : Agreed d) :
    Agreed (d.step node .fire) := by
  refine h.congr ?_ (fire_outstanding node d) ?_
  · simp only [Replicated.step]
    split <;> rfl
  · simp only [Replicated.step]
    split <;> rfl

theorem InStep.same_sys {d d' : Replicated} (h : InStep d) (hsys : d'.sys = d.sys)
    (hagreed : Agreed d') (hknown : ∀ x ∈ d'.known, x ∈ d.known) : InStep d' := by
  refine ⟨hagreed, ?_, ?_, ?_, ?_, fun x hx => h.notCancelled x (hknown x hx), ?_⟩
  · rw [hsys]
    exact h.coherent
  · rw [hsys]
    exact h.fresh
  · rw [hsys]
    exact h.cancels
  · rw [hsys]
    exact h.bare
  · rw [hsys]
    exact fun hopen x hx => h.running hopen x (hknown x hx)

theorem inStep_fire {node : Node} {d : Replicated} (h : InStep d) :
    InStep (d.step node .fire) := by
  refine h.same_sys ?_ (agreed_fire h.agreed) fun x hx => ?_
  · simp only [Replicated.step]
    split <;> rfl
  · have hpeer : (d.step node .fire).peer = d.peer := by
      simp only [Replicated.step]
      split <;> rfl
    rw [mem_known, hpeer, fire_outstanding] at hx
    exact mem_known.mpr hx

theorem inStep_deliver {node : Node} {d : Replicated} (h : InStep d) (x : RunRow)
    (again : Bool) : InStep (d.step node (.deliver x again)) := by
  by_cases hx : x ∈ d.inflight
  · have hout : x ∈ d.outstanding := List.mem_append_right _ hx
    have hstep : d.step node (.deliver x again) =
        { d with
          peer := applyRun d.peer x
          inflight := if again then d.inflight else d.inflight.erase x } := if_pos hx
    have hsub : ∀ y ∈ (d.step node (.deliver x again)).outstanding, y ∈ d.outstanding := by
      intro y hy
      rw [hstep] at hy
      rcases List.mem_append.mp hy with hy | hy
      · exact List.mem_append_left _ hy
      · refine List.mem_append_right _ ?_
        dsimp only at hy
        split at hy
        · exact hy
        · exact List.mem_of_mem_erase hy
    have hrest : ∀ y ∈ d.outstanding, y = x ∨
        y ∈ (d.step node (.deliver x again)).outstanding := by
      intro y hy
      by_cases hyx : y = x
      · exact Or.inl hyx
      · right
        rw [hstep]
        rcases List.mem_append.mp hy with hy | hy
        · exact List.mem_append_left _ hy
        · refine List.mem_append_right _ ?_
          dsimp only
          split
          · exact hy
          · exact (List.mem_erase_of_ne hyx).mpr hy
    have hpeer : (d.step node (.deliver x again)).peer = applyRun d.peer x := by rw [hstep]
    have hsys : (d.step node (.deliver x again)).sys = d.sys := by rw [hstep]
    refine h.same_sys hsys (h.agreed.deliver hout hpeer hsub hrest hsys) fun y hy => ?_
    rw [mem_known, hpeer, applyRun_eq] at hy
    rw [mem_known]
    rcases hy with hy | hy
    · rcases Newest.receive_cases RunRow.updatedAt d.peer x with htake | ⟨c, hc, hkeep, -⟩
      · rw [htake] at hy
        cases hy
        exact Or.inr hout
      · rw [hkeep] at hy
        cases hy
        exact Or.inl hc
    · exact Or.inr (hsub y hy)
  · have hstep : d.step node (.deliver x again) = d := if_neg hx
    rw [hstep]
    exact h

/-! ## The owner's pushes -/

theorem step_owner_push {node : Node} {d : Replicated} {a : Action} {t : Transition}
    {s' : Session} (hp : persists d.sys a = some (t, s')) :
    d.step node (.owner a) =
      Replicated.replicate { d with sys := step node d.sys a } s'.obj t.status.terminal := by
  simp only [Replicated.step, hp]

theorem step_owner_quiet {node : Node} {d : Replicated} {a : Action}
    (hp : persists d.sys a = none) :
    d.step node (.owner a) = { d with sys := step node d.sys a } := by
  simp only [Replicated.step, hp]

/-- A push on a state in step: the snapshot of an open run, without result and pending tool,
and a row that shows what the step wrote after it. -/
structure Snapshot (node : Node) (d : Replicated) (a : Action) (t : Transition)
    (s' : Session) : Prop where
  isOpen : d.sys.row.status.terminal = false
  status : s'.obj.status = t.status
  resultText : s'.obj.resultText = none
  currentToolUseId : s'.obj.currentToolUseId = none
  visible : (step node d.sys a).row.visible = (afterPersist a t s'.obj).visible
  start : t.status.terminal = false → t.status ≠ .requiresTool → d.known = []

theorem InStep.snapshot {node : Node} {d : Replicated} {a : Action} {t : Transition}
    {s' : Session} (h : InStep d) (hp : persists d.sys a = some (t, s')) :
    Snapshot node d a t s' := by
  have hspec := persists_spec node h.coherent hp
  obtain ⟨s, now, hs, hopen, hs', hstart⟩ := hspec.session
  obtain ⟨hloaded, hobj⟩ := h.fresh s hs
  have hstatus : s.obj.status = d.sys.row.status := congrArg Visible.status hobj
  obtain ⟨-, -, -, hresult, htool⟩ := h.bare
  refine ⟨hstatus ▸ hopen, ?_, ?_, ?_, ?_, ?_⟩
  · rw [hs']
    rfl
  · have hsame : s.obj.resultText = d.sys.row.resultText := congrArg Visible.resultText hobj
    rw [hs']
    exact hsame.trans hresult
  · have hsame : s.obj.currentToolUseId = d.sys.row.currentToolUseId :=
      congrArg Visible.currentToolUseId hobj
    rw [hs']
    exact hsame.trans htool
  · rw [hspec.row]
    refine flush_visible_fresh ?_
    rw [hs']
    exact hloaded
  · -- only a start leaves a run open, and before the start nothing was pushed
    intro hterm hparks
    have hq : d.sys.row.status = .queued := hstatus ▸ hstart hterm hparks
    refine List.eq_nil_iff_forall_not_mem.mpr fun x hx => ?_
    exact (h.running (by rw [hq]; rfl) x hx).1 hq

theorem agreed_push {node : Node} {d : Replicated} {a : Action} {t : Transition}
    {s' : Session} (hp : persists d.sys a = some (t, s')) (hs : Snapshot node d a t s')
    (hparks : t.status ≠ .requiresTool) (hcompletes : t.status ≠ .completed)
    (hlater : ∀ x ∈ d.known, x.updatedAt < s'.obj.updatedAt) :
    Agreed (d.step node (.owner a)) := by
  rw [step_owner_push hp]
  generalize hd : ({ d with sys := step node d.sys a } : Replicated) = d₁
  have hout : d₁.outstanding = d.outstanding := by rw [← hd]; rfl
  have hpeer : d₁.peer = d.peer := by rw [← hd]
  obtain ⟨hnew, hold, -⟩ := replicate_outstanding d₁ s'.obj t.status.terminal
  intro order horder
  rw [replicate_peer, replicate_sys, foldl_applyRun, hpeer, ← hd]
  have hnewest : Newest.receiveAll RunRow.updatedAt d.peer order = some s'.obj := by
    refine Newest.receiveAll_newest (Or.inr (horder.2 _ hnew)) ?_ ?_
    · intro c hc
      exact Or.inr (hlater c (mem_known.mpr (Or.inl hc)))
    · intro c hc
      rcases hold c (horder.1 c hc) with hc | hc
      · exact Or.inl hc
      · rw [hout] at hc
        exact Or.inr (hlater c (mem_known.mpr (Or.inr hc)))
  rw [hnewest, hs.visible, afterPersist_same hparks hcompletes]
  rfl

@[simp] theorem afterPersist_status (a : Action) (t : Transition) (run : RunRow) :
    (afterPersist a t run).status = run.status := by
  unfold afterPersist
  split
  · split
    · exact Journal.parkOn_status _ t run
    · exact Journal.keepResult_status _ t run
  · rfl

theorem delivers_refl (pushes : List RunRow) : Delivers pushes pushes :=
  ⟨fun _ hx => hx, fun _ hx => hx⟩

theorem Agreed.shown {d : Replicated} (h : Agreed d) (hout : d.outstanding ≠ []) :
    ∃ r ∈ d.known, r.visible = d.sys.row.visible := by
  have hsome : (Newest.receiveAll RunRow.updatedAt d.peer d.outstanding).isSome = true :=
    Newest.receiveAll_isSome (Or.inr hout)
  obtain ⟨r, hr⟩ := Option.isSome_iff_exists.mp hsome
  refine ⟨r, mem_known.mpr (Newest.receiveAll_mem hr), ?_⟩
  have hview := h d.outstanding (delivers_refl d.outstanding)
  rw [foldl_applyRun, hr] at hview
  exact hview

theorem known_push {node : Node} {d : Replicated} {a : Action} {t : Transition} {s' : Session}
    (hp : persists d.sys a = some (t, s')) {x : RunRow}
    (hx : x ∈ (d.step node (.owner a)).known) : x = s'.obj ∨ x ∈ d.known := by
  rw [step_owner_push hp, mem_known, replicate_peer] at hx
  rw [mem_known]
  rcases hx with hx | hx
  · exact Or.inr (Or.inl hx)
  · rcases (replicate_outstanding _ s'.obj t.status.terminal).2.1 x hx with hx | hx
    · exact Or.inl hx
    · exact Or.inr (Or.inr hx)

theorem later_of_agreed {node : Node} {d : Replicated} {a : Action} {t : Transition}
    {s' : Session} (h : InStep d) (hp : persists d.sys a = some (t, s'))
    (hs : Snapshot node d a t s') (hterm : t.status.terminal = true)
    (hag : Agreed (d.step node (.owner a))) :
    ∀ x ∈ d.known, x.updatedAt < s'.obj.updatedAt := by
  intro x hx
  refine Int.not_le.mp fun hlate => ?_
  have hrunning : ∀ y ∈ d.known, y.status = .running := fun y hy => (h.running hs.isOpen y hy).2
  rw [step_owner_push hp, hterm] at hag
  generalize hd : ({ d with sys := step node d.sys a } : Replicated) = d₁ at hag
  have hpeer : d₁.peer = d.peer := by rw [← hd]
  have hout : d₁.outstanding = d.outstanding := by rw [← hd]; rfl
  obtain ⟨hnew, hold, hkeep⟩ := replicate_outstanding d₁ s'.obj true
  -- delivered first, the older snapshot keeps the new one out
  have hfirst : ∃ c, Newest.receive RunRow.updatedAt d.peer x = some c ∧ c.status = .running ∧
      s'.obj.updatedAt ≤ c.updatedAt := by
    rcases Newest.receive_cases RunRow.updatedAt d.peer x with htake | ⟨c, hc, hkept, hle⟩
    · exact ⟨x, htake, hrunning x hx, hlate⟩
    · refine ⟨c, hkept, hrunning c (mem_known.mpr (Or.inl hc)), ?_⟩
      exact Int.le_trans hlate hle
  have hrest : ∀ y ∈ (d₁.replicate s'.obj true).outstanding,
      y.status = .running ∨ y.updatedAt ≤ s'.obj.updatedAt := by
    intro y hy
    rcases hold y hy with rfl | hy
    · exact Or.inr (Int.le_refl _)
    · rw [hout] at hy
      exact Or.inl (hrunning y (mem_known.mpr (Or.inr hy)))
  have hstuck : ∀ order, Delivers order (d₁.replicate s'.obj true).outstanding →
      ∀ r, Newest.receiveAll RunRow.updatedAt d.peer order = some r → r.status = .running →
      False := by
    intro order horder r hr hrun
    have hview := hag order horder
    rw [replicate_peer, replicate_sys, hpeer, foldl_applyRun, hr, ← hd, hs.visible] at hview
    have hstatus : r.status = (afterPersist a t s'.obj).status := congrArg Visible.status hview
    rw [hrun, afterPersist_status, hs.status] at hstatus
    rw [← hstatus] at hterm
    cases hterm
  rcases mem_known.mp hx with hx | hx
  · obtain ⟨r, hr, hrun⟩ := Newest.receiveAll_late ⟨x, hx, hrunning x (mem_known.mpr (Or.inl hx)),
      hlate⟩ hrest
    exact hstuck _ (delivers_refl _) r hr hrun
  · have hmem : x ∈ (d₁.replicate s'.obj true).outstanding := hkeep rfl x (by rw [hout]; exact hx)
    obtain ⟨r, hr, hrun⟩ := Newest.receiveAll_late hfirst hrest
    refine hstuck (x :: (d₁.replicate s'.obj true).outstanding) ⟨?_, ?_⟩ r hr hrun
    · intro y hy
      rcases List.mem_cons.mp hy with rfl | hy
      · exact hmem
      · exact hy
    · exact fun y hy => List.mem_cons_of_mem x hy

theorem pushed_of_agreed {node : Node} {d : Replicated} {a : Action} {t : Transition}
    {s' : Session} (h : InStep d) (hp : persists d.sys a = some (t, s'))
    (hag : Agreed (d.step node (.owner a))) :
    t.status ≠ .requiresTool ∧ t.status ≠ .completed ∧
      ∀ x ∈ d.known, x.updatedAt < s'.obj.updatedAt := by
  have hs : Snapshot node d a t s' := h.snapshot hp
  have hspec := persists_spec node h.coherent hp
  have hout : (d.step node (.owner a)).outstanding ≠ [] := by
    rw [step_owner_push hp]
    exact List.ne_nil_of_mem (replicate_outstanding _ s'.obj t.status.terminal).1
  obtain ⟨r, hr, hshown⟩ := hag.shown hout
  rw [step_owner_push hp, replicate_sys, hs.visible] at hshown
  -- an older snapshot has another status, and the new one lacks what was written after it
  have hstatus : r.status = t.status := by
    have hsame : r.status = (afterPersist a t s'.obj).status := congrArg Visible.status hshown
    rw [afterPersist_status, hs.status] at hsame
    exact hsame
  have hold : r = s'.obj ∨ r.status = .running := by
    rcases known_push hp hr with hr | hr
    · exact Or.inl hr
    · exact Or.inr (h.running hs.isOpen r hr).2
  have hparks : t.status ≠ .requiresTool := by
    intro hpark
    rcases hold with rfl | hrun
    · have htool := hspec.parks hpark s'.obj
      have hsame : s'.obj.currentToolUseId = (afterPersist a t s'.obj).currentToolUseId :=
        congrArg Visible.currentToolUseId hshown
      rw [← hsame, hs.currentToolUseId] at htool
      cases htool
    · rw [hstatus, hpark] at hrun
      cases hrun
  have hcompletes : t.status ≠ .completed := by
    intro hcomplete
    rcases hold with rfl | hrun
    · have hresult := hspec.completes hcomplete s'.obj
      have hsame : s'.obj.resultText = (afterPersist a t s'.obj).resultText :=
        congrArg Visible.resultText hshown
      rw [← hsame, hs.resultText] at hresult
      cases hresult
    · rw [hstatus, hcomplete] at hrun
      cases hrun
  refine ⟨hparks, hcompletes, ?_⟩
  cases hterm : t.status.terminal with
  | false =>
    rw [hs.start hterm hparks]
    exact fun x hx => nomatch hx
  | true => exact later_of_agreed h hp hs hterm hag

theorem InStep.owner_quiet {node : Node} {d : Replicated} {a : Action} (h : InStep d)
    (hp : persists d.sys a = none)
    (hrow : (step node d.sys a).row.visible = d.sys.row.visible) :
    InStep (d.step node (.owner a)) := by
  have hstatus : (step node d.sys a).row.status = d.sys.row.status := congrArg Visible.status hrow
  rw [step_owner_quiet hp]
  refine ⟨h.agreed.congr rfl (fun _ => Iff.rfl) hrow, step_coherent node h.coherent a, ?_,
    step_onlyCancels node h.cancels h.bare.1 a, ?_, h.notCancelled, ?_⟩
  · intro s hs
    obtain ⟨hloaded, hobj⟩ := step_session node h.fresh a hs
    exact ⟨hloaded.trans hrow.symm, hobj.trans hrow.symm⟩
  · show Bare (step node d.sys a).row.visible
    rw [hrow]
    exact h.bare
  · show (step node d.sys a).row.status.terminal = false → _
    rw [hstatus]
    exact h.running

theorem inStep_push {node : Node} {d : Replicated} {a : Action} {t : Transition} {s' : Session}
    (h : InStep d) (hp : persists d.sys a = some (t, s')) (hparks : t.status ≠ .requiresTool)
    (hcompletes : t.status ≠ .completed)
    (hlater : ∀ x ∈ d.known, x.updatedAt < s'.obj.updatedAt) :
    InStep (d.step node (.owner a)) := by
  have hs : Snapshot node d a t s' := h.snapshot hp
  have hspec := persists_spec node h.coherent hp
  have hrow : (step node d.sys a).row.visible = s'.obj.visible := by
    rw [hs.visible, afterPersist_same hparks hcompletes]
  have hstatus : (step node d.sys a).row.status = t.status :=
    (congrArg Visible.status hrow).trans hs.status
  have hsys : (d.step node (.owner a)).sys = step node d.sys a := by
    rw [step_owner_push hp, replicate_sys]
  refine ⟨agreed_push hp hs hparks hcompletes hlater, ?_, ?_, ?_, ?_, ?_, ?_⟩
  · rw [hsys]
    exact step_coherent node h.coherent a
  · intro s hopen
    rw [hsys, hspec.worker] at hopen
    cases hopen
  · rw [hsys]
    exact step_onlyCancels node h.cancels h.bare.1 a
  · rw [hsys, hrow]
    have hstatus' : s'.obj.visible.status = t.status := hs.status
    refine ⟨?_, ?_, ?_, hs.resultText, hs.currentToolUseId⟩
    · rw [hstatus']
      exact hparks
    · rw [hstatus']
      exact hcompletes
    · rw [hstatus']
      exact hspec.status.1
  · intro x hx
    rcases known_push hp hx with rfl | hx
    · rw [hs.status]
      exact hspec.status.1
    · exact h.notCancelled x hx
  · -- a run that stays open has just started: the snapshot is the first
    rw [hsys, hstatus]
    intro hopen x hx
    refine ⟨hspec.status.2, ?_⟩
    rcases known_push hp hx with rfl | hx
    · rw [hs.status]
      cases ht : t.status with
      | running => rfl
      | queued => exact absurd ht hspec.status.2
      | requiresTool => exact absurd ht hparks
      | _ => rw [ht] at hopen; cases hopen
    · rw [hs.start hopen hparks] at hx
      cases hx

/-! ## The endpoints -/

theorem commit_ended {node : Node} {sys : System} {i : Nat} {s : Session} (clk : Clock)
    (hh : sys.handlers i = some (.cancel s)) (hclean : s.obj = s.loaded)
    (hend : s.obj.status.terminal = true) :
    (step node sys (.commitHandler i clk)).row.visible = sys.row.visible := by
  obtain ⟨s', hw, hloaded, hobj⟩ := cancelWrites_ended clk hend
  simp only [step, hh, Handler.writes, hw]
  refine flush_visible_same ?_ sys.row
  rw [hobj, hclean, hloaded]

theorem commit_open {node : Node} {sys : System} {i : Nat} {s : Session} (clk : Clock)
    (hh : sys.handlers i = some (.cancel s)) (hclean : s.obj = s.loaded)
    (hopen : s.obj.status.terminal = false) :
    (step node sys (.commitHandler i clk)).row.status = .cancelled := by
  obtain ⟨s', hw, hloaded, hobj⟩ := cancelWrites_open clk hopen
  have hne : s'.obj.status ≠ s'.loaded.status := by
    intro heq
    rw [hobj, hloaded, ← hclean] at heq
    rw [← heq] at hopen
    cases hopen
  simp only [step, hh, Handler.writes, hw]
  show column s'.loaded.status s'.obj.status sys.row.status = .cancelled
  unfold column
  rw [if_neg hne, hobj]

theorem not_agreed_cancelled {node : Node} {d : Replicated} {a : Action} (h : InStep d)
    (hp : persists d.sys a = none) (hrow : (step node d.sys a).row.status = .cancelled) :
    ¬ Agreed (d.step node (.owner a)) := by
  intro hag
  have hview := hag d.outstanding (by
    rw [step_owner_quiet hp]
    exact delivers_refl _)
  rw [step_owner_quiet hp, foldl_applyRun] at hview
  have hstatus : (peerView (Newest.receiveAll RunRow.updatedAt d.peer d.outstanding)).status =
      (step node d.sys a).row.status := congrArg Visible.status hview
  rw [hrow] at hstatus
  cases hr : Newest.receiveAll RunRow.updatedAt d.peer d.outstanding with
  | none =>
    rw [hr] at hstatus
    cases hstatus
  | some r =>
    rw [hr] at hstatus
    exact h.notCancelled r (mem_known.mpr (Newest.receiveAll_mem hr)) hstatus

/-! ## Whole histories -/

theorem agreed_owner_iff {node : Node} {d : Replicated} (h : InStep d) (a : Action) :
    (Agreed (d.step node (.owner a)) ↔ Pushed d (.owner a)) ∧
      (Pushed d (.owner a) → InStep (d.step node (.owner a))) := by
  cases hp : persists d.sys a with
  | some p =>
    obtain ⟨t, s'⟩ := p
    have hpushed : Pushed d (.owner a) ↔ t.status ≠ .requiresTool ∧ t.status ≠ .completed ∧
        ∀ x ∈ d.known, x.updatedAt < s'.obj.updatedAt := by
      constructor
      · intro hg
        exact hg.1 t s' hp
      · intro hg
        refine ⟨?_, ?_⟩
        · intro t' s'' hp'
          rw [hp] at hp'
          cases hp'
          exact hg
        · rintro i clk hd rfl -
          cases hp
    rw [hpushed]
    refine ⟨⟨pushed_of_agreed h hp, ?_⟩, ?_⟩
    · rintro ⟨hparks, hcompletes, hlater⟩
      exact agreed_push hp (h.snapshot hp) hparks hcompletes hlater
    · rintro ⟨hparks, hcompletes, hlater⟩
      exact inStep_push h hp hparks hcompletes hlater
  | none =>
    have hquiet : (step node d.sys a).row.visible = d.sys.row.visible →
        InStep (d.step node (.owner a)) := fun hrow => h.owner_quiet hp hrow
    by_cases hcommit : ∃ i clk hd, a = .commitHandler i clk ∧ d.sys.handlers i = some hd
    · obtain ⟨i, clk, hd, rfl, hh⟩ := hcommit
      obtain ⟨s, rfl, hclean⟩ := h.cancels i hd hh
      have hpushed : Pushed d (.owner (.commitHandler i clk)) ↔
          s.obj.status.terminal = true := by
        constructor
        · intro hg
          exact hg.2 i clk _ rfl hh
        · intro hend
          refine ⟨fun t s' hp' => (nomatch hp'), ?_⟩
          rintro i' clk' hd' ⟨rfl, rfl⟩ hh'
          rw [hh] at hh'
          cases hh'
          exact hend
      rw [hpushed]
      cases hend : s.obj.status.terminal with
      | true =>
        have hnext := hquiet (commit_ended clk hh hclean hend)
        exact ⟨iff_of_true hnext.agreed rfl, fun _ => hnext⟩
      | false =>
        refine ⟨iff_of_false ?_ Bool.false_ne_true, fun hend => nomatch hend⟩
        exact not_agreed_cancelled h hp (commit_open clk hh hclean hend)
    · have hrow : (step node d.sys a).row.visible = d.sys.row.visible := by
        by_cases hhandler : ∃ i clk, a = .commitHandler i clk
        · obtain ⟨i, clk, rfl⟩ := hhandler
          cases hh : d.sys.handlers i with
          | none => simp only [step, hh]
          | some hd => exact absurd ⟨i, clk, hd, rfl, hh⟩ hcommit
        · exact step_visible node h.fresh hp fun i clk heq => hhandler ⟨i, clk, heq⟩
      have hg : Pushed d (.owner a) := by
        refine ⟨?_, ?_⟩
        · intro t s' hp'
          rw [hp] at hp'
          cases hp'
        · intro i clk hd heq hh
          exact absurd ⟨i, clk, hd, heq, hh⟩ hcommit
      exact ⟨iff_of_true (hquiet hrow).agreed hg, fun _ => hquiet hrow⟩

def Replicated.create (c : Creation) : Replicated := { sys := created (Journal.create c).row }

theorem inStep_create (c : Creation) : InStep (Replicated.create c) := by
  have hrow : (Journal.create c).row.visible = peerView none := by
    unfold Journal.create
    dsimp only
    split <;> rfl
  have hknown : (Replicated.create c).known = [] := rfl
  refine ⟨?_, Worker.coherent_idle, fun s hs => (nomatch hs), fun i hd hi => (nomatch hi), ?_,
    by simp [hknown], by simp [hknown]⟩
  · intro order horder
    have hnil : order = [] := List.eq_nil_iff_forall_not_mem.mpr fun x hx => (nomatch horder.1 x hx)
    rw [hnil]
    exact hrow.symm
  · show Bare (Journal.create c).row.visible
    rw [hrow]
    exact ⟨by decide, by decide, by decide, rfl, rfl⟩

/-- **When the replicas agree.** In every interleaving of a run's worker, its endpoints, its
debounce timer and the deliveries of its pushes, in any order and repeatedly, the peer's row
never goes back; and after every step the peer comes to show what the owner has committed,
once all pushes are delivered, exactly when no step parks or completes the run, no endpoint
ends an open run, and every push is stamped later than those before it. -/
theorem replicas_agree_iff (node : Node) (c : Creation) (acts : List ReplicaAct) :
    Trace.Along (Replicated.step node)
        (fun d act => Agreed (d.step node act) ∧ Forward d.peer (d.step node act).peer)
        (Replicated.create c) acts ↔
      Trace.Along (Replicated.step node) Pushed (Replicated.create c) acts := by
  refine Trace.along_iff (I := InStep) (V := fun _ _ => True) ?_ ?_ (inStep_create c)
    (Trace.along_of_forall fun _ _ => trivial)
  · intro d act h _
    refine Iff.trans (and_iff_left (step_forward node d act)) ?_
    cases act with
    | owner a => exact (agreed_owner_iff h a).1
    | fire => exact iff_of_true (agreed_fire h.agreed) trivial
    | deliver x again => exact iff_of_true (inStep_deliver h x again).agreed trivial
  · intro d act h _ hg
    cases act with
    | owner a => exact (agreed_owner_iff h a).2 hg
    | fire => exact inStep_fire h
    | deliver x again => exact inStep_deliver h x again

/-- A run that is answered with text: both pushes are delivered, in the order they were made,
and the peer has the completed run without its result. -/
theorem result_is_not_replicated :
    let owner := (callInFlight ++ textAnswer).map ReplicaAct.owner
    let d : Replicated :=
      Trace.run (Replicated.step sampleNode) (Replicated.create sampleCreation) owner
    let order := d.outstanding
    d.sys.row.status = .completed ∧ d.sys.row.resultText = some "done" ∧
      order.map RunRow.updatedAt = [1, 5] ∧
      (order.foldl applyRun d.peer).map (fun r => (r.status, r.resultText)) =
        some (.completed, none) ∧
      ¬ Agreed d := by
  intro owner d order
  refine ⟨by decide, by decide, by decide, by decide, fun h => ?_⟩
  have hview := congrArg Visible.resultText (h order (delivers_refl order))
  revert hview
  decide

end LlmProxy.Runs
