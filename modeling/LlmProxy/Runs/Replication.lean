import Mathlib.Order.Defs.LinearOrder
import Mathlib.Data.Int.Order.Basic
import LlmProxy.Lib.Newest
import LlmProxy.Runs.Terminal
import LlmProxy.Runs.EventLog

/-! # The replicas of a run

`_persist_transition` of the worker hands the run to `replicate` (`app/runs/replication.py`),
which takes a snapshot of the object and pushes it to the peers: at once when the transition
is terminal, after a debounce otherwise, a newer snapshot taking the place of a waiting one.
A peer takes a snapshot that is newer than its row (`app/cluster/sync.py`).

The snapshot is taken in the middle of a step. What the step writes after it, the result of a
completed run and the pending tool of a parked one, is in no push; and the endpoints, whose
`_persist_transition` is another one, push nothing at all. So a peer agrees with the owner in
exactly the runs that neither park nor complete nor are cancelled (`replicas_agree_iff`), as
long as the worker's clock moves between its pushes. What holds in every run is that a peer's
row never goes back.

Mirroring notes.
* The peers are configured and reachable in the end: a push in flight is delivered, in any
  order, possibly more than once (the retries of a terminal push).
* `time.time()` is not 0, so that `incoming_ts or time.time()` is the incoming stamp.
* A worker step is its push and its commit; other parties run before or after it.
* A peer without a row has been told nothing, and is read as a run just created.
-/

namespace LlmProxy.Runs

/-! ## The pushes of the owner -/

/-- The transition of the worker's dispatch, and the session right after
`_persist_transition`. -/
def dispatchPersists (s : Session) (clk : Clock) : Option (Transition × Session) :=
  let ctx := ctxFromRow s.obj
  if ctx.status.terminal = false ∧ s.obj.deadlineTs ≤ clk.check then
    (transitionOn s ctx .deadlineExceeded clk).toOption
  else if ctx.status = .queued then (transitionOn s ctx .start clk).toOption
  else none

/-- The same of `_fail_run`. -/
def failPersists (s : Session) (ctx : RunCtx) (f : CallFailure) (clk : Clock) :
    Option (Transition × Session) :=
  (transitionOn s ctx (if f.kind = .provider then .providerExhausted else .internalError) clk
    (some f.detail)).toOption

def responsePersists (s : Session) (blocks : List Block) (clk : Clock) :
    Option (Transition × Session) :=
  let event := if (firstToolUse blocks).isSome then EventKind.modelReturnedTool
    else .modelReturnedText
  (transitionOn s (ctxFromRow s.obj) event clk).toOption

/-- The transition an action persists through the worker's `_persist_transition`. -/
def persists (sys : System) : Action → Option (Transition × Session)
  | .workerDispatch clk =>
    match sys.worker with
    | .loaded s => dispatchPersists s clk
    | _ => none
  | .workerFail f clk =>
    match sys.worker with
    | .calling s ctx => failPersists s ctx f clk
    | _ => none
  | .workerResponse blocks clk =>
    match sys.worker with
    | .answered s => responsePersists s blocks clk
    | _ => none
  | _ => none

def afterPersist (a : Action) (t : Transition) (run : RunRow) : RunRow :=
  match a with
  | .workerResponse blocks _ =>
    match firstToolUse blocks with
    | some tool => Journal.parkOn tool t run
    | none => Journal.keepResult blocks t run
  | _ => run

/-! ## The system with a peer -/

/-- The owner, the debounced push, the pushes on their way, and the peer's row. -/
structure Replicated where
  sys : System
  pending : Option RunRow := none
  inflight : List RunRow := []
  peer : Option RunRow := none

inductive ReplicaAct where
  | owner (a : Action)
  /-- the debounce timer runs out -/
  | fire
  /-- a push arrives; it may arrive again -/
  | deliver (snapshot : RunRow) (again : Bool)

/-- `replicate`. -/
def Replicated.replicate (d : Replicated) (snapshot : RunRow) (terminal : Bool) : Replicated :=
  if terminal then { d with inflight := d.inflight ++ [snapshot] }
  else { d with pending := some snapshot }

/-- `apply_sync`, for one run. -/
def applyRun (existing : Option RunRow) (incoming : RunRow) : Option RunRow :=
  match existing with
  | some run => if incoming.updatedAt ≤ run.updatedAt then some run else some incoming
  | none => some incoming

def Replicated.step (node : Node) (d : Replicated) : ReplicaAct → Replicated
  | .owner a =>
    let d' := { d with sys := Runs.step node d.sys a }
    match persists d.sys a with
    | some (t, s) => d'.replicate s.obj t.status.terminal
    | none => d'
  | .fire =>
    match d.pending with
    | some snapshot => { d with pending := none, inflight := d.inflight ++ [snapshot] }
    | none => d
  | .deliver snapshot again =>
    if snapshot ∈ d.inflight then
      { d with
        peer := applyRun d.peer snapshot
        inflight := if again then d.inflight else d.inflight.erase snapshot }
    else d

def Replicated.outstanding (d : Replicated) : List RunRow := d.pending.toList ++ d.inflight

def Replicated.known (d : Replicated) : List RunRow := d.peer.toList ++ d.outstanding

/-! ## Agreement -/

structure Visible where
  status : RunStatus
  modelCalls : Option Int
  resultText : Option String
  errorKind : Option ErrorKind
  errorMessage : Option String
  currentToolUseId : Option String
  currentToolName : Option String
  currentToolInput : Option String
  deriving DecidableEq, Repr

def RunRow.visible (r : RunRow) : Visible :=
  ⟨r.status, r.modelCalls, r.resultText, r.errorKind, r.errorMessage, r.currentToolUseId,
    r.currentToolName, r.currentToolInput⟩

def peerView : Option RunRow → Visible
  | some r => r.visible
  | none => ⟨.queued, some 0, none, none, none, none, none, none⟩

/-- An order in which the pushes can be delivered, each at least once. -/
def Delivers (order pushes : List RunRow) : Prop :=
  (∀ x ∈ order, x ∈ pushes) ∧ ∀ x ∈ pushes, x ∈ order

/-- Once all pushes are delivered, in whatever order, the peer shows what the owner has
committed. -/
def Agreed (d : Replicated) : Prop :=
  ∀ order, Delivers order d.outstanding →
    peerView (order.foldl applyRun d.peer) = d.sys.row.visible

/-- A row with a later stamp is not replaced by one with an earlier. -/
def Forward (row row' : Option RunRow) : Prop :=
  ∀ r, row = some r → ∃ r', row' = some r' ∧ r.updatedAt ≤ r'.updatedAt

/-- The step neither parks the run nor completes it, its push is the latest so far, and no
endpoint ends an open run. -/
def Pushed (d : Replicated) : ReplicaAct → Prop
  | .owner a =>
    (∀ t s, persists d.sys a = some (t, s) → t.status ≠ .requiresTool ∧
      t.status ≠ .completed ∧ ∀ x ∈ d.known, x.updatedAt < s.obj.updatedAt) ∧
    ∀ i clk h, a = .commitHandler i clk → d.sys.handlers i = some h →
      h.session.obj.status.terminal = true
  | _ => True

theorem applyRun_eq (existing : Option RunRow) (incoming : RunRow) :
    applyRun existing incoming = Newest.receive RunRow.updatedAt existing incoming := by
  cases existing <;> rfl

theorem foldl_applyRun (peer : Option RunRow) (order : List RunRow) :
    order.foldl applyRun peer = Newest.receiveAll RunRow.updatedAt peer order := by
  unfold Newest.receiveAll
  congr 1
  funext existing incoming
  exact applyRun_eq existing incoming

/-! ## Commits and what they show -/

theorem flush_visible_same {s : Session} (h : s.obj.visible = s.loaded.visible) (db : RunRow) :
    (s.flush db).visible = db.visible := by
  simp only [RunRow.visible, Visible.mk.injEq] at h ⊢
  obtain ⟨h1, h2, h3, h4, h5, h6, h7, h8⟩ := h
  refine ⟨if_pos h1, if_pos h2, if_pos h3, if_pos h4, if_pos h5, if_pos h6, if_pos h7,
    if_pos h8⟩

theorem flush_visible_fresh {s : Session} {db : RunRow} (h : s.loaded.visible = db.visible) :
    (s.flush db).visible = s.obj.visible := by
  simp only [RunRow.visible, Visible.mk.injEq] at h
  obtain ⟨h1, h2, h3, h4, h5, h6, h7, h8⟩ := h
  simp only [RunRow.visible, Session.flush, h1, h2, h3, h4, h5, h6, h7, h8, column_self]

/-- The worker's own events lead neither into `CANCELLED` nor back into `QUEUED`. Only a start
makes a run `RUNNING`, only a tool use parks it, and only a text completes it. -/
theorem advance_worker {ctx : RunCtx} {event : EventKind} {now : Time} {data : Option String}
    {t : Transition} (hcancel : event ≠ .cancel) (htool : event ≠ .toolResult)
    (h : advance ctx event now data = .ok t) :
    (t.status ≠ .cancelled ∧ t.status ≠ .queued) ∧
      (t.status.terminal = false → t.status ≠ .requiresTool → ctx.status = .queued) ∧
      (t.status = .requiresTool → event = .modelReturnedTool) ∧
      (t.status = .completed → event = .modelReturnedText) := by
  cases event <;>
    simp only [advance, start, modelText, modelTool, toolResult, providerExhausted, maxTurns,
      contextExhausted, internal, deadline, failWith] at h
  all_goals first
    | exact absurd rfl hcancel
    | exact absurd rfl htool
    | skip
  all_goals (repeat' split at h)
  all_goals first
    | contradiction
    | (cases h; simp_all [RunStatus.terminal])

theorem afterPersist_same {a : Action} {t : Transition} (hparks : t.status ≠ .requiresTool)
    (hcompletes : t.status ≠ .completed) (run : RunRow) : afterPersist a t run = run := by
  unfold afterPersist
  split
  · split
    · exact if_neg hparks
    · exact if_neg hcompletes
  · rfl

/-- What a persisted transition is: one from an open run of the worker's session, committed
with what the step writes after it; the iteration ends. -/
structure Persists (node : Node) (sys : System) (a : Action) (t : Transition) (s' : Session) :
    Prop where
  session : ∃ s now, sys.worker.session? = some s ∧ s.obj.status.terminal = false ∧
    s' = s.modify (persistTransition · t now) ∧
    (t.status.terminal = false → t.status ≠ .requiresTool → s.obj.status = .queued)
  status : t.status ≠ .cancelled ∧ t.status ≠ .queued
  parks : t.status = .requiresTool → ∀ run, (afterPersist a t run).currentToolUseId.isSome
  completes : t.status = .completed → ∀ run, (afterPersist a t run).resultText.isSome
  row : (step node sys a).row = (s'.modify (afterPersist a t)).flush sys.row
  worker : (step node sys a).worker = .idle
  handlers : (step node sys a).handlers = sys.handlers

/-- A worker step that ends in `finish` persists the transition it computed. -/
theorem persists_of_finish {node : Node} {sys : System} {a : Action} {s s' : Session}
    {ctx : RunCtx} {event : EventKind} {clk : Clock} {data : Option String} {t : Transition}
    (hopen : sys.worker.session? = some s) (hctx : ctx.status = s.obj.status)
    (hcancel : event ≠ .cancel) (htool : event ≠ .toolResult)
    (hparks : event = .modelReturnedTool → t.status = .requiresTool →
      ∀ run, (afterPersist a t run).currentToolUseId.isSome)
    (hcompletes : event = .modelReturnedText → t.status = .completed →
      ∀ run, (afterPersist a t run).resultText.isSome)
    (hstep : step node sys a =
      sys.worked (finish (transitionOn s ctx event clk data) (afterPersist a)))
    (hp : (transitionOn s ctx event clk data).toOption = some (t, s')) :
    Persists node sys a t s' := by
  have htr : transitionOn s ctx event clk data = .ok (t, s') := by
    cases htr : transitionOn s ctx event clk data with
    | error e => rw [htr] at hp; cases hp
    | ok p =>
      rw [htr] at hp
      cases hp
      rfl
  obtain ⟨hadv, hs'⟩ := transitionOn_ok htr
  obtain ⟨hnot, hrun, hpark, hcomplete⟩ := advance_worker hcancel htool hadv
  have hstart : s.obj.status.terminal = false := by
    cases hend : s.obj.status.terminal with
    | false => rfl
    | true => exact absurd (advance_terminal (hctx ▸ hend) hadv).1 hcancel
  rw [hctx] at hrun
  refine ⟨⟨s, clk.persist, hopen, hstart, hs', hrun⟩, hnot, fun h => hparks (hpark h) h,
    fun h => hcompletes (hcomplete h) h, ?_, ?_, ?_⟩
  · rw [hstep, htr]
    rfl
  · rw [hstep, htr]
    rfl
  · rw [hstep, htr]
    rfl

theorem persists_dispatch (node : Node) {sys : System} {s s' : Session} {clk : Clock}
    {t : Transition} (hw : sys.worker = .loaded s)
    (h : persists sys (.workerDispatch clk) = some (t, s')) :
    Persists node sys (.workerDispatch clk) t s' := by
  simp only [persists, hw, dispatchPersists] at h
  have hstep : step node sys (.workerDispatch clk) = sys.worked (dispatch s clk) := by
    simp only [step, hw]
  have hopen : sys.worker.session? = some s := by rw [hw]; rfl
  by_cases hdl : (ctxFromRow s.obj).status.terminal = false ∧ s.obj.deadlineTs ≤ clk.check
  · rw [if_pos hdl] at h
    rw [show dispatch s clk = _ from if_pos hdl] at hstep
    exact persists_of_finish hopen rfl (by simp) (by simp) (by simp) (by simp) hstep h
  · rw [if_neg hdl] at h
    rw [show dispatch s clk = _ from if_neg hdl] at hstep
    by_cases hq : (ctxFromRow s.obj).status = .queued
    · rw [if_pos hq] at h
      rw [hq] at hstep
      exact persists_of_finish hopen rfl (by simp) (by simp) (by simp) (by simp) hstep h
    · rw [if_neg hq] at h
      cases h

theorem persists_response (node : Node) {sys : System} {s s' : Session} {blocks : List Block}
    {clk : Clock} {t : Transition} (hw : sys.worker = .answered s)
    (h : persists sys (.workerResponse blocks clk) = some (t, s')) :
    Persists node sys (.workerResponse blocks clk) t s' := by
  simp only [persists, hw, responsePersists] at h
  have hstep : step node sys (.workerResponse blocks clk) =
      sys.worked (handleResponse s blocks clk) := by
    simp only [step, hw]
  have hopen : sys.worker.session? = some s := by rw [hw]; rfl
  unfold handleResponse at hstep
  cases htool : firstToolUse blocks with
  | some tool =>
    rw [htool] at hstep
    simp only [htool, Option.isSome_some, if_true] at h
    have hafter : afterPersist (.workerResponse blocks clk) = Journal.parkOn tool := by
      funext t run
      simp only [afterPersist, htool]
    refine persists_of_finish hopen rfl (by simp) (by simp) ?_ (by simp) ?_ h
    · intro _ hs run
      rw [hafter, Journal.parkOn, if_pos hs]
      rfl
    · rw [hafter]
      exact hstep
  | none =>
    rw [htool] at hstep
    simp only [htool, Option.isSome_none, Bool.false_eq_true, if_false] at h
    have hafter : afterPersist (.workerResponse blocks clk) = Journal.keepResult blocks := by
      funext t run
      simp only [afterPersist, htool]
    refine persists_of_finish hopen rfl (by simp) (by simp) (by simp) ?_ ?_ h
    · intro _ hs run
      rw [hafter, Journal.keepResult, if_pos hs]
      rfl
    · rw [hafter]
      exact hstep

theorem persists_spec (node : Node) {sys : System} (hcoh : sys.worker.Coherent) {a : Action}
    {t : Transition} {s' : Session} (h : persists sys a = some (t, s')) :
    Persists node sys a t s' := by
  cases a with
  | workerDispatch clk =>
    cases hw : sys.worker with
    | loaded s => exact persists_dispatch node hw h
    | _ => simp only [persists, hw] at h; cases h
  | workerFail f clk =>
    cases hw : sys.worker with
    | calling s ctx =>
      simp only [persists, hw, failPersists] at h
      have hstep : step node sys (.workerFail f clk) = sys.worked (failRun s ctx f clk) := by
        simp only [step, hw]
      have hctx : ctx.status = s.obj.status := hcoh s ctx (by rw [hw]; rfl) (by rw [hw]; rfl)
      refine persists_of_finish (by rw [hw]; rfl) hctx ?_ ?_ ?_ ?_ hstep h
      all_goals split <;> simp
    | _ => simp only [persists, hw] at h; cases h
  | workerResponse blocks clk =>
    cases hw : sys.worker with
    | answered s => exact persists_response node hw h
    | _ => simp only [persists, hw] at h; cases h
  | _ => cases h

theorem finish_row_of_none {sys : System}
    {r : Except InvalidTransition (Transition × Session)} (h : r.toOption = none)
    (extra : Transition → RunRow → RunRow) : (sys.worked (finish r extra)).row = sys.row := by
  cases r with
  | error e => rfl
  | ok p => cases h

/-- A worker's session shows the row, before and after the changes it has not committed. -/
def Fresh (row : RunRow) (s : Session) : Prop :=
  s.loaded.visible = row.visible ∧ s.obj.visible = row.visible

theorem step_visible (node : Node) {sys : System}
    (hfresh : ∀ s, sys.worker.session? = some s → Fresh sys.row s) {a : Action}
    (h : persists sys a = none) (hnot : ∀ i clk, a ≠ .commitHandler i clk) :
    (step node sys a).row.visible = sys.row.visible := by
  cases a with
  | workerRead =>
    simp only [step]
    split <;> rfl
  | workerDispatch clk =>
    cases hw : sys.worker with
    | loaded s =>
      simp only [persists, hw, dispatchPersists] at h
      simp only [step, hw, dispatch]
      split
      · next hdl =>
        rw [if_pos hdl] at h
        rw [finish_row_of_none h]
      · next hdl =>
        rw [if_neg hdl] at h
        split
        · next hq =>
          rw [if_pos hq] at h
          rw [finish_row_of_none h]
        · rfl
        · rfl
    | _ => simp only [step, hw]
  | workerCompact did =>
    cases hw : sys.worker with
    | running s ctx =>
      have hs := hfresh s (by rw [hw]; rfl)
      simp only [step, hw]
      split
      · refine flush_visible_same ?_ sys.row
        exact hs.2.trans hs.1.symm
      · rfl
    | _ => simp only [step, hw]
  | workerUsage inTok outTok providerId =>
    cases hw : sys.worker with
    | calling s ctx =>
      have hs := hfresh s (by rw [hw]; rfl)
      simp only [step, hw]
      refine flush_visible_same ?_ sys.row
      exact hs.2.trans hs.1.symm
    | _ => simp only [step, hw]
  | workerFail f clk =>
    cases hw : sys.worker with
    | calling s ctx =>
      simp only [persists, hw, failPersists] at h
      simp only [step, hw, failRun]
      rw [finish_row_of_none h]
    | _ => simp only [step, hw]
  | workerResponse blocks clk =>
    cases hw : sys.worker with
    | answered s =>
      simp only [persists, hw, responsePersists] at h
      simp only [step, hw, handleResponse]
      split
      · next tool htool =>
        simp only [htool, Option.isSome_some, if_true] at h
        rw [handleToolUse, finish_row_of_none h]
      · next htool =>
        simp only [htool, Option.isSome_none, Bool.false_eq_true, if_false] at h
        rw [handleTerminalText, finish_row_of_none h]
    | _ => simp only [step, hw]
  | openCancel i req =>
    simp only [step, System.opened]
    repeat' split
    all_goals rfl
  | openToolResult i req =>
    simp only [step, System.opened]
    repeat' split
    all_goals rfl
  | commitHandler i clk => exact absurd rfl (hnot i clk)

theorem step_session (node : Node) {sys : System}
    (hfresh : ∀ s, sys.worker.session? = some s → Fresh sys.row s) (a : Action) {s' : Session}
    (h : (step node sys a).worker.session? = some s') : Fresh sys.row s' := by
  cases a with
  | workerRead =>
    cases hw : sys.worker with
    | idle =>
      simp only [step, hw] at h
      cases h
      exact ⟨rfl, rfl⟩
    | _ => simp only [step, hw] at h; exact hfresh s' (by rw [hw]; exact h)
  | workerDispatch clk =>
    cases hw : sys.worker with
    | loaded s =>
      simp only [step, hw, worked_worker] at h
      rw [dispatch_session? h]
      exact hfresh s (by rw [hw]; rfl)
    | _ => simp only [step, hw] at h; exact hfresh s' (by rw [hw]; exact h)
  | workerCompact did =>
    cases hw : sys.worker with
    | running s ctx =>
      have hs := hfresh s (by rw [hw]; rfl)
      simp only [step, hw] at h
      split at h
      · cases h
        exact ⟨hs.2, hs.2⟩
      · cases h
        exact hs
    | _ => simp only [step, hw] at h; exact hfresh s' (by rw [hw]; exact h)
  | workerUsage inTok outTok providerId =>
    cases hw : sys.worker with
    | calling s ctx =>
      have hs := hfresh s (by rw [hw]; rfl)
      simp only [step, hw] at h
      cases h
      exact ⟨hs.2, hs.2⟩
    | _ => simp only [step, hw] at h; exact hfresh s' (by rw [hw]; exact h)
  | workerFail f clk =>
    cases hw : sys.worker with
    | calling s ctx =>
      simp only [step, hw, worked_worker, failRun, finish_session?] at h
      cases h
    | _ => simp only [step, hw] at h; exact hfresh s' (by rw [hw]; exact h)
  | workerResponse blocks clk =>
    cases hw : sys.worker with
    | answered s =>
      simp only [step, hw, worked_worker, handleResponse_session?] at h
      cases h
    | _ => simp only [step, hw] at h; exact hfresh s' (by rw [hw]; exact h)
  | openCancel i req =>
    simp only [step, System.opened] at h
    repeat' split at h
    all_goals exact hfresh s' h
  | openToolResult i req =>
    simp only [step, System.opened] at h
    repeat' split at h
    all_goals exact hfresh s' h
  | commitHandler i clk =>
    simp only [step] at h
    repeat' split at h
    all_goals exact hfresh s' h

/-- As long as no run parks, the open requests are cancels that have not written yet. -/
def OnlyCancels (sys : System) : Prop :=
  ∀ i h, sys.handlers i = some h → ∃ s, h = .cancel s ∧ s.obj = s.loaded

theorem setHandler_onlyCancels {sys sys' : System} {i : Nat} {o : Option Handler}
    (h : OnlyCancels sys) (hh : sys'.handlers = sys.handlers)
    (ho : ∀ hd, o = some hd → ∃ s, hd = .cancel s ∧ s.obj = s.loaded) :
    OnlyCancels (sys'.setHandler i o) := by
  intro j hd hj
  simp only [System.setHandler] at hj
  split at hj
  · exact ho hd hj
  · rw [hh] at hj
    exact h j hd hj

theorem step_onlyCancels (node : Node) {sys : System} (h : OnlyCancels sys)
    (hnot : sys.row.status ≠ .requiresTool) (a : Action) : OnlyCancels (step node sys a) := by
  cases a with
  | openCancel i req =>
    cases hh : sys.handlers i with
    | none =>
      simp only [step, hh, System.opened]
      split
      · next s hs =>
        refine setHandler_onlyCancels h rfl ?_
        rintro _ ⟨⟩
        exact ⟨s, rfl, by rw [openCancel_ok hs]; rfl⟩
      · exact h
    | some _ => simp only [step, hh]; exact h
  | openToolResult i req =>
    cases hh : sys.handlers i with
    | none =>
      simp only [step, hh, System.opened]
      split
      · next s hs =>
        have hparked := (Journal.openToolResult_ok (by rw [hs]; rfl)).2.1
        exact absurd hparked hnot
      · exact h
    | some _ => simp only [step, hh]; exact h
  | commitHandler i clk =>
    cases hh : sys.handlers i with
    | none => simp only [step, hh]; exact h
    | some hd =>
      simp only [step, hh]
      split
      · exact setHandler_onlyCancels h rfl (by rintro _ ⟨⟩)
      · exact setHandler_onlyCancels h rfl (by rintro _ ⟨⟩)
  -- the worker leaves the requests where they are
  | workerRead =>
    simp only [step]
    split <;> exact h
  | workerCompact did =>
    simp only [step]
    repeat' split
    all_goals exact h
  | workerUsage inTok outTok providerId =>
    simp only [step]
    split <;> exact h
  | _ =>
    simp only [step]
    split
    · intro i hd hi
      rw [worked_handlers] at hi
      exact h i hd hi
    · exact h

theorem cancelWrites_ended {s : Session} (clk : Clock) (hend : s.obj.status.terminal = true) :
    ∃ s', cancelWrites s clk = .ok s' ∧ s'.loaded = s.loaded ∧
      s'.obj.visible = s.obj.visible := by
  unfold cancelWrites transitionOn
  simp only [advance, cancel]
  by_cases hc : (ctxFromRow s.obj).status = .cancelled
  · have hs : s.obj.status = .cancelled := hc
    rw [if_pos hc]
    refine ⟨_, rfl, rfl, ?_⟩
    simp [RunRow.visible, persistTransition, ctxFromRow, hs]
  · have hctx : (ctxFromRow s.obj).status.terminal = true := hend
    rw [if_neg hc, if_pos hctx]
    refine ⟨_, rfl, rfl, ?_⟩
    simp [RunRow.visible, persistTransition, ctxFromRow]

theorem cancelWrites_open {s : Session} (clk : Clock) (hopen : s.obj.status.terminal = false) :
    ∃ s', cancelWrites s clk = .ok s' ∧ s'.loaded = s.loaded ∧ s'.obj.status = .cancelled := by
  have hne : (ctxFromRow s.obj).status ≠ .cancelled := by
    intro hc
    have hs : s.obj.status = .cancelled := hc
    rw [hs] at hopen
    cases hopen
  unfold cancelWrites transitionOn
  simp only [advance, cancel]
  rw [if_neg hne, if_neg (by rw [ctxFromRow_status, hopen]; exact Bool.false_ne_true)]
  exact ⟨_, rfl, rfl, rfl⟩

end LlmProxy.Runs
