import LlmProxy.Runs.Worker

/-! # Terminal statuses across interleavings

`advance` never leaves a terminal status (`advance_terminal`), but each party applies it
to the object it read earlier. A run is therefore safe exactly as long as no party commits
a transition computed from a non-terminal object after another party made the row
terminal. This file says what one action can do to the committed status
(`step_status_cases`), derives the invariant that every open session agrees with a
terminal row (`SessionsAgree`), and proves

> `terminal_status_absorbing`: in every run of the system in which each committed
> transition starts from an object that is not stale in that sense, a terminal committed
> status never changes again.

`cancelled_run_committed_completed` is the interleaving that breaks it: the worker's model
call is in flight, the client cancels, the answer arrives, and the row ends `completed`.
-/

namespace LlmProxy.Runs

/-- The session an action commits a transition from, if it commits one. -/
def committer (sys : System) : Action → Option Session
  | .workerDispatch clk =>
    match sys.worker with
    | .loaded s =>
      if s.obj.status.terminal = false ∧
          (s.obj.deadlineTs ≤ clk.check ∨ s.obj.status = .queued) then some s else none
    | _ => none
  | .workerFail _ _ =>
    match sys.worker with
    | .calling s _ => some s
    | _ => none
  | .workerResponse _ _ =>
    match sys.worker with
    | .answered s => some s
    | _ => none
  | .commitHandler i _ => (sys.handlers i).map Handler.session
  | _ => none

def commitsCancel (sys : System) : Action → Bool
  | .commitHandler i _ =>
    match sys.handlers i with
    | some (.cancel _) => true
    | _ => false
  | _ => false

/-- The transition an action commits, if any, starts from an object that has seen the end
of the run: when the row is terminal, so is the object (or the row is cancelled already
and the action is one more cancel). -/
def NotStale (sys : System) (a : Action) : Prop :=
  ∀ s, committer sys a = some s → sys.row.status.terminal = true →
    s.obj.status.terminal = true ∨ (commitsCancel sys a = true ∧ sys.row.status = .cancelled)

/-- The action leaves a terminal committed status unchanged. -/
def Absorbs (node : Node) (sys : System) (a : Action) : Prop :=
  sys.row.status.terminal = true → (step node sys a).row.status = sys.row.status

instance (node : Node) (sys : System) (a : Action) : Decidable (Absorbs node sys a) :=
  inferInstanceAs (Decidable (_ → _))

instance (sys : System) (a : Action) : Decidable (NotStale sys a) :=
  match h : committer sys a with
  | none => .isTrue (fun s hs => by rw [h] at hs; cases hs)
  | some s =>
    decidable_of_iff (sys.row.status.terminal = true → s.obj.status.terminal = true ∨
        (commitsCancel sys a = true ∧ sys.row.status = .cancelled))
      ⟨fun hp s' hs => by rw [h] at hs; cases hs; exact hp, fun hp => hp s h⟩

/-! ## Open sessions -/

def Worker.session? : Worker → Option Session
  | .idle => none
  | .loaded s => some s
  | .running s _ => some s
  | .calling s _ => some s
  | .answered s => some s

/-- The context the worker carries through `_step_running`. -/
def Worker.ctx? : Worker → Option RunCtx
  | .running _ ctx => some ctx
  | .calling _ ctx => some ctx
  | _ => none

/-- A session some party holds. -/
def Open (sys : System) (s : Session) : Prop :=
  sys.worker.session? = some s ∨ ∃ i h, sys.handlers i = some h ∧ h.session = s

/-- A session between two of its party's actions: its object has the status it was loaded
with, and if that status is terminal it is the row's. -/
structure Agrees (row : RunRow) (s : Session) : Prop where
  clean : s.obj.status = s.loaded.status
  ended : s.obj.status.terminal = true → row.status = s.obj.status

/-- Every open session agrees with the row, and the worker's context with its session. -/
structure SessionsAgree (sys : System) : Prop where
  agree : ∀ s, Open sys s → Agrees sys.row s
  ctx : ∀ s c, sys.worker.session? = some s → sys.worker.ctx? = some c →
    c.status = s.obj.status

theorem sessionsAgree_of_no_session {sys : System} (hw : sys.worker = .idle)
    (hh : ∀ i, sys.handlers i = none) : SessionsAgree sys := by
  refine ⟨?_, ?_⟩
  · rintro s (h | ⟨i, h, hi, -⟩)
    · rw [hw] at h; cases h
    · rw [hh i] at hi; cases hi
  · intro s c h
    rw [hw] at h
    cases h

theorem Agrees.read (row : RunRow) : Agrees row (Session.read row) :=
  ⟨rfl, fun _ => rfl⟩

theorem Agrees.committed {row : RunRow} {s : Session} (h : Agrees row s) {f : RunRow → RunRow}
    (hf : ∀ r, (f r).status = r.status) : Agrees row (s.modify f).committed :=
  ⟨rfl, fun ht => by
    have hs : (s.modify f).committed.obj.status = s.obj.status := hf s.obj
    rw [hs] at ht ⊢
    exact h.ended ht⟩

theorem Agrees.of_absorbs {row row' : RunRow} {s : Session} (h : Agrees row s)
    (habs : row.status.terminal = true → row'.status = row.status) : Agrees row' s := by
  refine ⟨h.clean, fun ht => ?_⟩
  have hrow := h.ended ht
  rw [habs (by rw [hrow]; exact ht), hrow]

/-! ## What one action does -/

/-- The status a commit leaves when the session's object ends with `status`. -/
def statusAfter (s : Session) (status : RunStatus) (row : RunRow) : RunStatus :=
  column s.loaded.status status row.status

/-- `a` commits, from the open session `s`, the transition `t` that `event` makes from the
session's object. -/
structure Commits (node : Node) (sys : System) (a : Action) (s : Session) (event : EventKind)
    (t : Transition) : Prop where
  committer : committer sys a = some s
  isOpen : Open sys s
  cancel : event = .cancel → commitsCancel sys a = true
  cancels : commitsCancel sys a = true → event = .cancel
  advanced : ∃ ctx now data, ctx.status = s.obj.status ∧ advance ctx event now data = .ok t
  status : (step node sys a).row.status = statusAfter s t.status sys.row

theorem transitionOn_ok {s s' : Session} {ctx : RunCtx} {event : EventKind} {clk : Clock}
    {data : Option String} {t : Transition} (h : transitionOn s ctx event clk data = .ok (t, s')) :
    advance ctx event clk.advance data = .ok t ∧
      s' = s.modify (persistTransition · t clk.persist) := by
  unfold transitionOn at h
  cases hadv : advance ctx event clk.advance data with
  | error e => rw [hadv] at h; cases h
  | ok t' =>
    rw [hadv] at h
    cases h
    exact ⟨rfl, rfl⟩

@[simp] theorem worked_handlers (sys : System) (e : WorkerEffect) :
    (sys.worked e).handlers = sys.handlers := by
  unfold System.worked
  split <;> rfl

@[simp] theorem worked_worker (sys : System) (e : WorkerEffect) :
    (sys.worked e).worker = e.next := by
  unfold System.worked
  split <;> rfl

@[simp] theorem finish_next (r : Except InvalidTransition (Transition × Session))
    (extra : Transition → RunRow → RunRow) : (finish r extra).next = .idle := by
  unfold finish
  split <;> rfl

/-- The action's effect on the committed status, when it commits at all. -/
def StatusEffect (node : Node) (sys : System) (a : Action) : Prop :=
  (step node sys a).row.status = sys.row.status ∨ ∃ s event t, Commits node sys a s event t

theorem statusEffect_of_finish {node : Node} {sys : System} {a : Action} {s : Session}
    {ctx : RunCtx} {event : EventKind} {clk : Clock} {data : Option String}
    {extra : Transition → RunRow → RunRow}
    (hstep : step node sys a = sys.worked (finish (transitionOn s ctx event clk data) extra))
    (hextra : ∀ t r, (extra t r).status = r.status)
    (hcom : committer sys a = some s) (hopen : Open sys s)
    (hcancel : commitsCancel sys a = false) (hevent : event ≠ .cancel)
    (hctx : ctx.status = s.obj.status) : StatusEffect node sys a := by
  unfold StatusEffect
  cases htr : transitionOn s ctx event clk data with
  | error e =>
    left
    rw [hstep, htr]
    rfl
  | ok p =>
    obtain ⟨t, s'⟩ := p
    obtain ⟨hadv, rfl⟩ := transitionOn_ok htr
    refine Or.inr ⟨s, event, t, hcom, hopen, (absurd · hevent), ?_,
      ⟨ctx, _, _, hctx, hadv⟩, ?_⟩
    · rw [hcancel]
      exact (nomatch ·)
    rw [hstep, htr]
    show column _ (extra t _).status _ = _
    rw [hextra]
    rfl

theorem dispatch_statusEffect (node : Node) {sys : System} {s : Session} (clk : Clock)
    (hw : sys.worker = .loaded s) : StatusEffect node sys (.workerDispatch clk) := by
  have hopen : Open sys s := Or.inl (by rw [hw]; rfl)
  have hstep : step node sys (.workerDispatch clk) = sys.worked (dispatch s clk) := by
    simp only [step, hw]
  by_cases hdl : (ctxFromRow s.obj).status.terminal = false ∧ s.obj.deadlineTs ≤ clk.check
  · rw [show dispatch s clk = _ from if_pos hdl] at hstep
    refine statusEffect_of_finish hstep (fun _ _ => rfl) ?_ hopen rfl (by simp) rfl
    simp only [committer, hw]
    exact if_pos ⟨hdl.1, Or.inl hdl.2⟩
  · rw [show dispatch s clk = _ from if_neg hdl] at hstep
    cases hs : (ctxFromRow s.obj).status with
    | queued =>
      rw [hs] at hstep
      refine statusEffect_of_finish hstep (fun _ _ => rfl) ?_ hopen rfl (by simp) rfl
      simp only [committer, hw]
      have hq : s.obj.status = .queued := hs
      exact if_pos ⟨by rw [hq]; rfl, Or.inr hq⟩
    -- every other status commits nothing here
    | _ => exact Or.inl (by rw [hstep, hs]; rfl)

theorem response_statusEffect (node : Node) {sys : System} {s : Session} (blocks : List Block)
    (clk : Clock) (hw : sys.worker = .answered s) :
    StatusEffect node sys (.workerResponse blocks clk) := by
  have hopen : Open sys s := Or.inl (by rw [hw]; rfl)
  have hcom : committer sys (.workerResponse blocks clk) = some s := by
    simp only [committer, hw]
  have hstep : step node sys (.workerResponse blocks clk) =
      sys.worked (handleResponse s blocks clk) := by
    simp only [step, hw]
  unfold handleResponse at hstep
  cases htool : firstToolUse blocks with
  | some tool =>
    rw [htool] at hstep
    refine statusEffect_of_finish hstep ?_ hcom hopen rfl (by simp) rfl
    intro t r
    split <;> rfl
  | none =>
    rw [htool] at hstep
    refine statusEffect_of_finish hstep ?_ hcom hopen rfl (by simp) rfl
    intro t r
    split <;> rfl

def Handler.event : Handler → EventKind
  | .cancel _ => .cancel
  | .toolResult _ => .toolResult

theorem Handler.writes_ok {h : Handler} {clk : Clock} {s' : Session}
    (hw : h.writes clk = .ok s') :
    ∃ t, advance (ctxFromRow h.session.obj) h.event clk.advance none = .ok t ∧
      s'.loaded = h.session.loaded ∧ s'.obj.status = t.status := by
  cases h with
  | cancel s =>
    simp only [Handler.writes, cancelWrites] at hw
    cases htr : transitionOn s (ctxFromRow s.obj) .cancel clk with
    | error e => rw [htr] at hw; cases hw
    | ok p =>
      rw [htr] at hw
      obtain ⟨hadv, hs⟩ := transitionOn_ok htr
      cases hw
      rw [hs]
      exact ⟨p.1, hadv, rfl, rfl⟩
  | toolResult s =>
    simp only [Handler.writes, toolResultWrites] at hw
    cases htr : transitionOn s (ctxFromRow s.obj) .toolResult clk with
    | error e => rw [htr] at hw; cases hw
    | ok p =>
      rw [htr] at hw
      obtain ⟨hadv, hs⟩ := transitionOn_ok htr
      cases hw
      rw [hs]
      exact ⟨p.1, hadv, rfl, rfl⟩

theorem handler_statusEffect (node : Node) {sys : System} {i : Nat} {h : Handler} (clk : Clock)
    (hh : sys.handlers i = some h) : StatusEffect node sys (.commitHandler i clk) := by
  unfold StatusEffect
  cases hw : h.writes clk with
  | error e =>
    left
    simp only [step, hh, hw]
    rfl
  | ok s' =>
    obtain ⟨t, hadv, hl, ho⟩ := Handler.writes_ok hw
    refine Or.inr ⟨h.session, h.event, t, ?_, Or.inr ⟨i, h, hh, rfl⟩, ?_, ?_,
      ⟨_, _, _, rfl, hadv⟩, ?_⟩
    · simp only [committer, hh, Option.map_some]
    · cases h <;> simp [Handler.event, commitsCancel, hh]
    · cases h <;> simp [Handler.event, commitsCancel, hh]
    · simp only [step, hh, hw]
      show column s'.loaded.status s'.obj.status _ = _
      rw [hl, ho]
      rfl

/-- **What one action does to the committed status**: nothing, or the transition of a
session that was open. -/
theorem step_statusEffect (node : Node) {sys : System} (hinv : SessionsAgree sys) (a : Action) :
    StatusEffect node sys a := by
  cases a with
  | workerRead =>
    left
    simp only [step]
    split <;> rfl
  | workerDispatch clk =>
    cases hw : sys.worker with
    | loaded s => exact dispatch_statusEffect node clk hw
    | _ => exact Or.inl (by simp only [step, hw])
  | workerCompact did =>
    left
    cases hw : sys.worker with
    | running s ctx =>
      have hopen : Open sys s := Or.inl (by rw [hw]; rfl)
      simp only [step, hw]
      split
      · exact Session.flush_status_same (hinv.agree s hopen).clean sys.row
      · rfl
    | _ => simp only [step, hw]
  | workerUsage inTok outTok providerId =>
    left
    cases hw : sys.worker with
    | calling s ctx =>
      have hopen : Open sys s := Or.inl (by rw [hw]; rfl)
      simp only [step, hw]
      exact Session.flush_status_same (hinv.agree s hopen).clean sys.row
    | _ => simp only [step, hw]
  | workerFail f clk =>
    cases hw : sys.worker with
    | calling s ctx =>
      have hopen : Open sys s := Or.inl (by rw [hw]; rfl)
      have hctx : ctx.status = s.obj.status := hinv.ctx s ctx (by rw [hw]; rfl) (by rw [hw]; rfl)
      have hstep : step node sys (.workerFail f clk) = sys.worked (failRun s ctx f clk) := by
        simp only [step, hw]
      refine statusEffect_of_finish hstep (fun _ _ => rfl) ?_ hopen rfl ?_ hctx
      · simp only [committer, hw]
      · split <;> simp
    | _ => exact Or.inl (by simp only [step, hw])
  | workerResponse blocks clk =>
    cases hw : sys.worker with
    | answered s => exact response_statusEffect node blocks clk hw
    | _ => exact Or.inl (by simp only [step, hw])
  | openCancel i req =>
    left
    simp only [step, System.opened]
    repeat' split
    all_goals rfl
  | openToolResult i req =>
    left
    simp only [step, System.opened]
    repeat' split
    all_goals rfl
  | commitHandler i clk =>
    cases hh : sys.handlers i with
    | some h => exact handler_statusEffect node clk hh
    | none => exact Or.inl (by simp only [step, hh])

/-! ## The invariant along a run -/

theorem Commits.absorbs {node : Node} {sys : System} {a : Action} {s : Session}
    {event : EventKind} {t : Transition} (hc : Commits node sys a s event t)
    (hagree : Agrees sys.row s) (hfresh : NotStale sys a) : Absorbs node sys a := by
  intro hterm
  obtain ⟨ctx, now, data, hctx, hadv⟩ := hc.advanced
  rw [hc.status]
  by_cases hobj : s.obj.status.terminal = true
  · -- the object has ended too: only a cancel returns, with the status it found
    have ht := (advance_terminal (by rw [hctx]; exact hobj) hadv).2
    unfold statusAfter column
    rw [if_pos (by rw [ht, hctx, hagree.clean])]
  · rcases hfresh s hc.committer hterm with h | ⟨hcancel, hrow⟩
    · exact absurd h hobj
    · -- a second cancel on a cancelled row
      have hev := hc.cancels hcancel
      subst hev
      have ht : t.status = .cancelled := advance_cancel (by rw [hctx]; exact hobj) hadv
      unfold statusAfter column
      split
      · rfl
      · rw [ht, hrow]

theorem absorbs_of_notStale (node : Node) {sys : System} (hinv : SessionsAgree sys)
    {a : Action} (hfresh : NotStale sys a) : Absorbs node sys a := by
  rcases step_statusEffect node hinv a with h | ⟨s, event, t, hc⟩
  · exact fun _ => h
  · exact hc.absorbs (hinv.agree s hc.isOpen) hfresh

/-- A session open after an action was open before it, has just been read, or has just
been committed with column writes that leave the status alone. -/
def Descends (sys : System) (s' : Session) : Prop :=
  Open sys s' ∨ s' = Session.read sys.row ∨
    ∃ s f, Open sys s ∧ (∀ r : RunRow, (f r).status = r.status) ∧ s' = (s.modify f).committed

theorem Descends.agrees {sys : System} (hinv : SessionsAgree sys) {s' : Session}
    (h : Descends sys s') : Agrees sys.row s' := by
  rcases h with h | rfl | ⟨s, f, ho, hf, rfl⟩
  · exact hinv.agree s' h
  · exact Agrees.read sys.row
  · exact (hinv.agree s ho).committed hf

theorem setHandler_descends {sys sys' : System} {i : Nat} {o : Option Handler}
    (hw : sys'.worker = sys.worker) (hh : sys'.handlers = sys.handlers)
    (ho : ∀ h, o = some h → h.session = Session.read sys.row) {s' : Session}
    (h : Open (sys'.setHandler i o) s') : Descends sys s' := by
  rcases h with h | ⟨j, h, hj, hs⟩
  · left; left
    rw [← hw]
    exact h
  · simp only [System.setHandler] at hj
    split at hj
    · exact Or.inr (Or.inl (by rw [← hs, ho h hj]))
    · rw [hh] at hj
      exact Or.inl (Or.inr ⟨j, h, hj, hs⟩)

theorem openCancel_ok {node : Node} {req : Request} {row : RunRow} {s : Session}
    (h : openCancel node req row = .ok s) : s = Session.read row := by
  unfold openCancel at h
  repeat' split at h
  all_goals first | contradiction | (cases h; rfl)

theorem openToolResult_ok {node : Node} {req : Request} {row : RunRow} {s : Session}
    (h : openToolResult node req row = .ok s) : s = Session.read row := by
  unfold openToolResult at h
  repeat' split at h
  all_goals first | contradiction | (cases h; rfl)

theorem opened_descends {sys : System} {i : Nat} {r : Except Rejection Session}
    {mk : Session → Handler} (hmk : ∀ s, (mk s).session = s)
    (hr : ∀ s, r = .ok s → s = Session.read sys.row) {s' : Session}
    (h : Open (sys.opened i r mk) s') : Descends sys s' := by
  cases hrr : r with
  | error e =>
    rw [hrr] at h
    exact Or.inl h
  | ok s =>
    rw [hrr] at h
    refine setHandler_descends rfl rfl ?_ h
    rintro _ ⟨⟩
    rw [hmk, hr s hrr]

theorem workerStep_descends {sys sys' : System} {s' : Session} (h : Open sys' s')
    (hh : sys'.handlers = sys.handlers)
    (hw : sys'.worker.session? = some s' → Descends sys s') : Descends sys s' := by
  rcases h with h | ⟨i, h, hi, hs⟩
  · exact hw h
  · rw [hh] at hi
    exact Or.inl (Or.inr ⟨i, h, hi, hs⟩)

theorem finish_session? (r : Except InvalidTransition (Transition × Session))
    (extra : Transition → RunRow → RunRow) : (finish r extra).next.session? = none := by
  rw [finish_next]
  rfl

theorem handleResponse_session? (s : Session) (blocks : List Block) (clk : Clock) :
    (handleResponse s blocks clk).next.session? = none := by
  unfold handleResponse
  split <;> exact finish_session? _ _

theorem dispatch_session? {s s' : Session} {clk : Clock}
    (h : (dispatch s clk).next.session? = some s') : s' = s := by
  unfold dispatch at h
  simp only at h
  split at h
  · rw [finish_session?] at h; cases h
  · split at h
    · rw [finish_session?] at h; cases h
    · cases h; rfl
    · cases h

theorem step_descends (node : Node) {sys : System} (a : Action) {s' : Session}
    (h : Open (step node sys a) s') : Descends sys s' := by
  cases a with
  | workerRead =>
    cases hw : sys.worker with
    | idle =>
      simp only [step, hw] at h
      exact workerStep_descends h rfl fun hs => Or.inr (Or.inl (Option.some.inj hs).symm)
    | _ => simp only [step, hw] at h; exact Or.inl h
  | workerDispatch clk =>
    cases hw : sys.worker with
    | loaded s =>
      simp only [step, hw] at h
      refine workerStep_descends h (worked_handlers _ _) fun hs => ?_
      rw [worked_worker] at hs
      exact Or.inl (Or.inl (by rw [hw, dispatch_session? hs]; rfl))
    | _ => simp only [step, hw] at h; exact Or.inl h
  | workerCompact did =>
    cases hw : sys.worker with
    | running s ctx =>
      have hopen : Open sys s := Or.inl (by rw [hw]; rfl)
      simp only [step, hw] at h
      split at h
      · refine workerStep_descends h rfl fun hs => ?_
        exact Or.inr (Or.inr ⟨s, compacted, hopen, fun _ => rfl, (Option.some.inj hs).symm⟩)
      · refine workerStep_descends h rfl fun hs => ?_
        exact Or.inl (by rw [← Option.some.inj hs]; exact hopen)
    | _ => simp only [step, hw] at h; exact Or.inl h
  | workerUsage inTok outTok providerId =>
    cases hw : sys.worker with
    | calling s ctx =>
      have hopen : Open sys s := Or.inl (by rw [hw]; rfl)
      simp only [step, hw] at h
      refine workerStep_descends h rfl fun hs => ?_
      exact Or.inr (Or.inr ⟨s, recordUsage inTok outTok providerId, hopen, fun _ => rfl,
        (Option.some.inj hs).symm⟩)
    | _ => simp only [step, hw] at h; exact Or.inl h
  | workerFail f clk =>
    cases hw : sys.worker with
    | calling s ctx =>
      simp only [step, hw] at h
      refine workerStep_descends h (worked_handlers _ _) fun hs => ?_
      rw [worked_worker, failRun, finish_session?] at hs
      cases hs
    | _ => simp only [step, hw] at h; exact Or.inl h
  | workerResponse blocks clk =>
    cases hw : sys.worker with
    | answered s =>
      simp only [step, hw] at h
      refine workerStep_descends h (worked_handlers _ _) fun hs => ?_
      rw [worked_worker, handleResponse_session?] at hs
      cases hs
    | _ => simp only [step, hw] at h; exact Or.inl h
  | openCancel i req =>
    cases hh : sys.handlers i with
    | none =>
      simp only [step, hh] at h
      exact opened_descends (fun _ => rfl) (fun _ => openCancel_ok) h
    | some _ => simp only [step, hh] at h; exact Or.inl h
  | openToolResult i req =>
    cases hh : sys.handlers i with
    | none =>
      simp only [step, hh] at h
      exact opened_descends (fun _ => rfl) (fun _ => openToolResult_ok) h
    | some _ => simp only [step, hh] at h; exact Or.inl h
  | commitHandler i clk =>
    cases hh : sys.handlers i with
    | none => simp only [step, hh] at h; exact Or.inl h
    | some hd =>
      simp only [step, hh] at h
      split at h
      · exact setHandler_descends rfl rfl (by rintro _ ⟨⟩) h
      · exact setHandler_descends rfl rfl (by rintro _ ⟨⟩) h

/-- A worker phase whose context and session have one status. -/
def Worker.Coherent (w : Worker) : Prop :=
  ∀ s c, w.session? = some s → w.ctx? = some c → c.status = s.obj.status

theorem Worker.coherent_of_no_ctx {w : Worker} (h : w.ctx? = none) : w.Coherent := by
  intro s c _ hc
  rw [h] at hc
  cases hc

theorem Worker.coherent_idle : Worker.idle.Coherent := Worker.coherent_of_no_ctx rfl

theorem dispatch_coherent (s : Session) (clk : Clock) : (dispatch s clk).next.Coherent := by
  unfold dispatch
  simp only
  split
  · rw [finish_next]; exact Worker.coherent_idle
  · split
    · rw [finish_next]; exact Worker.coherent_idle
    · rintro _ _ ⟨⟩ ⟨⟩
      rfl
    · exact Worker.coherent_idle

theorem step_coherent (node : Node) {sys : System} (hinv : sys.worker.Coherent) (a : Action) :
    (step node sys a).worker.Coherent := by
  cases a with
  | workerRead =>
    cases hw : sys.worker with
    | idle => simp only [step, hw]; exact Worker.coherent_of_no_ctx rfl
    | _ => simp only [step, hw]; rw [← hw]; exact hinv
  | workerDispatch clk =>
    cases hw : sys.worker with
    | loaded s => simp only [step, hw, worked_worker]; exact dispatch_coherent s clk
    | _ => simp only [step, hw]; rw [← hw]; exact hinv
  | workerCompact did =>
    cases hw : sys.worker with
    | running s ctx =>
      have hctx : ctx.status = s.obj.status := hinv s ctx (by rw [hw]; rfl) (by rw [hw]; rfl)
      simp only [step, hw]
      split
      · rintro _ _ ⟨⟩ ⟨⟩; exact hctx
      · rintro _ _ ⟨⟩ ⟨⟩; exact hctx
    | _ => simp only [step, hw]; rw [← hw]; exact hinv
  | workerUsage inTok outTok providerId =>
    cases hw : sys.worker with
    | calling s ctx => simp only [step, hw]; exact Worker.coherent_of_no_ctx rfl
    | _ => simp only [step, hw]; rw [← hw]; exact hinv
  | workerFail f clk =>
    cases hw : sys.worker with
    | calling s ctx =>
      simp only [step, hw, worked_worker, failRun, finish_next]
      exact Worker.coherent_idle
    | _ => simp only [step, hw]; rw [← hw]; exact hinv
  | workerResponse blocks clk =>
    cases hw : sys.worker with
    | answered s =>
      simp only [step, hw, worked_worker, handleResponse]
      split <;> (simp only [handleToolUse, handleTerminalText, finish_next];
                 exact Worker.coherent_idle)
    | _ => simp only [step, hw]; rw [← hw]; exact hinv
  -- the endpoints leave the worker where it is
  | openCancel i req =>
    simp only [step, System.opened]
    repeat' split
    all_goals exact hinv
  | openToolResult i req =>
    simp only [step, System.opened]
    repeat' split
    all_goals exact hinv
  | commitHandler i clk =>
    simp only [step]
    repeat' split
    all_goals exact hinv

theorem step_sessionsAgree (node : Node) {sys : System} (hinv : SessionsAgree sys)
    {a : Action} (hfresh : NotStale sys a) : SessionsAgree (step node sys a) := by
  refine ⟨fun s hs => ?_, step_coherent node hinv.ctx a⟩
  exact ((step_descends node a hs).agrees hinv).of_absorbs (absorbs_of_notStale node hinv hfresh)

/-! ## Main theorem -/

/-- The system right after `create_run`'s commit: the row, and nobody holding a session. -/
def created (row : RunRow) : System := { row := row }

/-- **Terminal statuses are absorbing** in every interleaving whose committed transitions
all start from an object that is not stale: from the first moment the committed status is
terminal, whatever the worker and the endpoints still do, it stays. -/
theorem terminal_status_absorbing (node : Node) (row : RunRow) (as : List Action)
    (hfresh : Trace.Along (step node) NotStale (created row) as) (pre post : List Action)
    (hsplit : as = pre ++ post)
    (hterm : (Trace.run (step node) (created row) pre).row.status.terminal = true) :
    (Trace.run (step node) (created row) as).row.status =
      (Trace.run (step node) (created row) pre).row.status := by
  have hinv : SessionsAgree (created row) := sessionsAgree_of_no_session rfl fun _ => rfl
  have habs : Trace.Along (step node) (Absorbs node) (created row) as :=
    Trace.along_of_guard (I := SessionsAgree) (fun _ _ hi hg => absorbs_of_notStale node hi hg)
      (fun _ _ hi hg => step_sessionsAgree node hi hg) hinv hfresh
  subst hsplit
  rw [Trace.run_append]
  exact Trace.run_stable (T := fun st : RunStatus => st.terminal = true)
    ((Trace.along_append _ pre post).mp habs).2 hterm

/-! ## A cancel that is lost -/

/-- A run as `create_run` commits it, with a deadline at 100 and room for eight turns. -/
def sampleRow : RunRow :=
  { apiKeyId := "key", ownerNodeId := "local", status := .queued, deadlineTs := 100,
    maxTurns := 8, createdAt := 0, updatedAt := 0 }

def localNode : Node := { id := "local", knowsPeer := fun _ => false }

def Clock.instant (now : Time) : Clock := ⟨now, now, now⟩

/-- The worker starts the run and puts the model call in flight. -/
def callInFlight : List Action :=
  [.workerRead, .workerDispatch (.instant 1), .workerRead, .workerDispatch (.instant 2),
   .workerCompact false]

/-- The model answers with text. -/
def textAnswer : List Action :=
  [.workerUsage 10 20 "p1", .workerResponse [.text "done"] (.instant 5)]

/-- A cancel request of the owning key, read and committed. -/
def cancelRequest : List Action :=
  [.openCancel 0 { apiKeyId := "key" }, .commitHandler 0 (.instant 3)]

/-- A cancel request that arrives after the answer finds a terminal row and leaves it. -/
theorem terminal_status_absorbing_late_cancel :
    Trace.Along (step localNode) NotStale (created sampleRow)
        (callInFlight ++ textAnswer ++ cancelRequest) ∧
      (Trace.run (step localNode) (created sampleRow)
        (callInFlight ++ textAnswer ++ cancelRequest)).row.status = .completed := by
  have hfresh : Trace.Along (step localNode) NotStale (created sampleRow)
      (callInFlight ++ textAnswer ++ cancelRequest) := by decide
  have hmid : (Trace.run (step localNode) (created sampleRow)
      (callInFlight ++ textAnswer)).row.status = .completed := by decide
  refine ⟨hfresh, ?_⟩
  rw [terminal_status_absorbing localNode sampleRow _ hfresh (callInFlight ++ textAnswer)
    cancelRequest rfl (by rw [hmid]; rfl), hmid]

/-- **The lost cancel.** The same requests with the cancel while the model call is in
flight: the row is committed `cancelled`, then the worker commits the transition it
computes from the object it read before the call, and the row ends `completed`. -/
theorem cancelled_run_committed_completed :
    (Trace.run (step localNode) (created sampleRow)
        (callInFlight ++ cancelRequest)).row.status = .cancelled ∧
      (Trace.run (step localNode) (created sampleRow)
        (callInFlight ++ cancelRequest ++ textAnswer)).row.status = .completed := by
  decide

end LlmProxy.Runs
