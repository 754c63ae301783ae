import LlmProxy.Runs.History

/-! # The event log of a run

What a sequential history leaves in the event log and on the channel. Everything follows
from what one step emits beside the status it commits:

> `work_paired`: a worker step ends with the event of the terminal status it commits, and
> emits no terminal event otherwise; the exception is a start past the deadline, which
> commits `EXPIRED` and emits `run_started` (`work_late`);
> the endpoints emit `cancelled` with the cancel of an open run and `tool_use_received` with
> a result, also with one past the deadline, which commits `EXPIRED`.

`one_terminal_event_iff` and `published_iff` say of whole histories when the log ends in
exactly one terminal event, and when all of it has been published.
-/

namespace LlmProxy.Runs

def RunStatus.endKind : RunStatus → Option RunEventKind
  | .completed => some .completed
  | .failed => some .failed
  | .expired => some .expired
  | .cancelled => some .cancelled
  | _ => none

theorem endKind_isSome (s : RunStatus) : s.endKind.isSome = s.terminal := by
  cases s <;> rfl

theorem endKind_open {s : RunStatus} (h : s.terminal = false) : s.endKind = none := by
  cases s <;> first | rfl | cases h

theorem endKind_terminal {s : RunStatus} {k : RunEventKind} (h : s.endKind = some k) :
    k.terminal = true := by
  cases s <;> cases h <;> rfl

/-- The kinds end in the terminal event of the status, if it is terminal, and have no other
terminal event. -/
def Paired (status : RunStatus) (kinds : List RunEventKind) : Prop :=
  ∃ pre, kinds = pre ++ status.endKind.toList ∧ ∀ k ∈ pre, k.terminal = false

theorem paired_append {status : RunStatus} {kinds quiet : List RunEventKind}
    (h : Paired status kinds) (hquiet : ∀ k ∈ quiet, k.terminal = false) :
    Paired status (quiet ++ kinds) := by
  obtain ⟨pre, rfl, hpre⟩ := h
  refine ⟨quiet ++ pre, by rw [List.append_assoc], ?_⟩
  intro k hk
  rcases List.mem_append.mp hk with hk | hk
  · exact hquiet k hk
  · exact hpre k hk

theorem paired_quiet {status : RunStatus} {kinds : List RunEventKind}
    (hopen : status.terminal = false) (hquiet : ∀ k ∈ kinds, k.terminal = false) :
    Paired status kinds := by
  refine ⟨kinds, ?_, hquiet⟩
  rw [endKind_open hopen]
  simp

theorem paired_end {status : RunStatus} {k : RunEventKind} (h : status.endKind = some k) :
    Paired status [k] :=
  ⟨[], by rw [h]; rfl, fun k hk => nomatch hk⟩

theorem Paired.quiet {status : RunStatus} {kinds : List RunEventKind}
    (h : Paired status kinds) (hopen : status.terminal = false) :
    ∀ k ∈ kinds, k.terminal = false := by
  obtain ⟨pre, rfl, hpre⟩ := h
  rw [endKind_open hopen]
  simpa using hpre

/-! ## What a step commits -/

theorem column_self {α : Type} [DecidableEq α] (loaded obj : α) :
    column loaded obj loaded = obj := by
  unfold column
  split
  · next h => exact h.symm
  · rfl

theorem flush_read (run : RunRow) (f : RunRow → RunRow) :
    ((Session.read run).modify f).flush run = f run := by
  simp only [Session.flush, Session.modify_loaded, Session.modify_obj, Session.read_loaded,
    Session.read_obj, column_self]

theorem conclude_ok {run : RunRow} {messages stored : List Message} {ctx : RunCtx}
    {event : EventKind} {clk : Clock} {data : Option String} {t : Transition}
    {extra : Transition → RunRow → RunRow} {events : Transition → RunRow → List Emission}
    (h : advance ctx event clk.advance data = .ok t) :
    conclude run messages stored (transitionOn (Session.read run) ctx event clk data) extra
        events =
      ⟨extra t (persistTransition run t clk.persist), stored,
        events t (extra t (persistTransition run t clk.persist))⟩ := by
  have hflush := flush_read run fun run => extra t (persistTransition run t clk.persist)
  have hcompose : ((Session.read run).modify (persistTransition · t clk.persist)).modify
      (extra t) = (Session.read run).modify
        fun run => extra t (persistTransition run t clk.persist) := rfl
  unfold conclude transitionOn
  rw [h]
  simp only [hcompose, hflush]

theorem conclude_error {run : RunRow} {messages stored : List Message} {ctx : RunCtx}
    {event : EventKind} {clk : Clock} {data : Option String} {e : InvalidTransition}
    {extra : Transition → RunRow → RunRow} {events : Transition → RunRow → List Emission}
    (h : advance ctx event clk.advance data = .error e) :
    conclude run messages stored (transitionOn (Session.read run) ctx event clk data) extra
        events = .none run messages := by
  unfold conclude transitionOn
  rw [h]
  rfl

namespace Journal

def kinds (w : Writes) : List RunEventKind := w.events.map Prod.fst

theorem stepExpire_eq {run : RunRow} (messages : List Message) (clk : Clock)
    (hopen : run.status.terminal = false) :
    (stepExpire run messages clk).row.status = .expired ∧
      kinds (stepExpire run messages clk) = [.expired] := by
  have h : advance (ctxFromRow run) .deadlineExceeded clk.advance =
      .ok { status := .expired, turnsUsed := (ctxFromRow run).turnsUsed } := by
    simp [advance, deadline, hopen]
  unfold stepExpire
  rw [conclude_ok h]
  exact ⟨rfl, rfl⟩

theorem stepQueued_eq {run : RunRow} (messages : List Message) (clk : Clock)
    (hq : run.status = .queued) :
    (stepQueued run messages clk).row.status =
        (if run.deadlineTs ≤ clk.advance then RunStatus.expired else .running) ∧
      kinds (stepQueued run messages clk) = [.runStarted] := by
  unfold stepQueued
  by_cases hlate : run.deadlineTs ≤ clk.advance
  · have h : advance (ctxFromRow run) .start clk.advance =
        .ok { status := .expired, turnsUsed := (ctxFromRow run).turnsUsed } := by
      simp [advance, start, hq, ctxFromRow, hlate]
    rw [conclude_ok h, if_pos hlate]
    exact ⟨rfl, rfl⟩
  · have h : advance (ctxFromRow run) .start clk.advance =
        .ok { status := .running, turnsUsed := (ctxFromRow run).turnsUsed } := by
      simp [advance, start, hq, ctxFromRow, hlate]
    rw [conclude_ok h, if_neg hlate]
    exact ⟨rfl, rfl⟩

theorem advance_failure {ctx : RunCtx} (f : CallFailure) (now : Time)
    (hrunning : ctx.status = .running) :
    ∃ t, advance ctx
      (if f.kind = .provider then EventKind.providerExhausted else .internalError) now
      (some f.detail) = .ok t ∧ t.status = .failed := by
  split
  · simp only [advance, providerExhausted, failWith, hrunning]
    exact ⟨_, rfl, rfl⟩
  · simp only [advance, internal, failWith, hrunning]
    exact ⟨_, rfl, rfl⟩

theorem failRun_eq {run : RunRow} (messages : List Message) {ctx : RunCtx}
    (f : CallFailure) (clk : Clock) (hrunning : ctx.status = .running) :
    (failRun run messages ctx f clk).row.status = .failed ∧
      kinds (failRun run messages ctx f clk) = [.failed] := by
  obtain ⟨t, ht, hs⟩ := advance_failure f clk.advance hrunning
  unfold failRun
  rw [conclude_ok ht]
  exact ⟨hs, rfl⟩

theorem advance_tool (ctx : RunCtx) (now : Time) (hrunning : ctx.status = .running) :
    ∃ t, advance ctx .modelReturnedTool now = .ok t ∧
      (t.status = .requiresTool ∨ t.status = .expired ∨
        (t.status = .failed ∧ t.errorKind = some .toolLoopExceeded)) := by
  simp only [advance, modelTool, hrunning, ne_eq, not_true, if_false]
  split
  · exact ⟨_, rfl, Or.inr (Or.inl rfl)⟩
  · split
    · exact ⟨_, rfl, Or.inr (Or.inr ⟨rfl, rfl⟩)⟩
    · exact ⟨_, rfl, Or.inl rfl⟩

theorem advance_text (ctx : RunCtx) (now : Time) (hrunning : ctx.status = .running) :
    ∃ t, advance ctx .modelReturnedText now = .ok t ∧
      (t.status = .completed ∨ t.status = .expired) := by
  simp only [advance, modelText, hrunning, ne_eq, not_true, if_false]
  split
  · exact ⟨_, rfl, Or.inr rfl⟩
  · exact ⟨_, rfl, Or.inl rfl⟩

@[simp] theorem parkOn_status (tool : String × String × String) (t : Transition) (run : RunRow) :
    (parkOn tool t run).status = run.status := by
  unfold parkOn
  split <;> rfl

@[simp] theorem keepResult_status (blocks : List Block) (t : Transition) (run : RunRow) :
    (keepResult blocks t run).status = run.status := by
  unfold keepResult
  split <;> rfl

theorem handleToolUse_paired {run : RunRow} (messages stored : List Message)
    (tool : String × String × String) (clk : Clock) (hrunning : run.status = .running) :
    Paired (handleToolUse run messages stored tool clk).row.status
      (kinds (handleToolUse run messages stored tool clk)) := by
  obtain ⟨t, ht, hcases⟩ := advance_tool (ctxFromRow run) clk.advance hrunning
  unfold handleToolUse
  rw [conclude_ok ht]
  rcases hcases with hs | hs | ⟨hs, hk⟩
  · simpa [kinds, toolUseEvents, hs] using
      (paired_quiet rfl (by decide) : Paired .requiresTool [.toolUseRequested])
  · simpa [kinds, toolUseEvents, hs, expiredEvent] using
      (paired_end rfl : Paired .expired [.expired])
  · simpa [kinds, toolUseEvents, hs, hk] using
      (paired_end rfl : Paired .failed [.failed])

theorem handleTerminalText_paired {run : RunRow} (messages stored : List Message)
    (blocks : List Block) (clk : Clock) (hrunning : run.status = .running) :
    Paired (handleTerminalText run messages stored blocks clk).row.status
      (kinds (handleTerminalText run messages stored blocks clk)) := by
  obtain ⟨t, ht, hcases⟩ := advance_text (ctxFromRow run) clk.advance hrunning
  unfold handleTerminalText
  rw [conclude_ok ht]
  rcases hcases with hs | hs
  · simpa [kinds, terminalTextEvents, hs] using
      (paired_end rfl : Paired .completed [.completed])
  · simpa [kinds, terminalTextEvents, hs, expiredEvent] using
      (paired_end rfl : Paired .expired [.expired])

theorem handleResponse_paired {run : RunRow} (messages : List Message) (blocks : List Block)
    (clk : Clock) (hrunning : run.status = .running) :
    Paired (handleResponse run messages blocks clk).row.status
      (kinds (handleResponse run messages blocks clk)) := by
  unfold handleResponse
  dsimp only
  split
  · exact handleToolUse_paired messages _ _ clk hrunning
  · exact handleTerminalText_paired messages _ blocks clk hrunning

theorem callModelOnce_quiet (n : Nat) (anyFailed : Bool) (attempts : List Attempt) :
    ∀ k ∈ (callModelOnce n anyFailed attempts).1, k.terminal = false := by
  induction n generalizing anyFailed attempts with
  | zero =>
    intro k hk
    cases hk
  | succ n ih =>
    cases attempts with
    | nil =>
      intro k hk
      cases hk
    | cons a rest =>
      -- a failed attempt goes on with the rest, the others end the loop
      have hgo : ∀ k ∈ RunEventKind.modelCallStart :: .modelCallEnd :: .providerFailed ::
          (callModelOnce n true rest).1, k.terminal = false := by
        intro k hk
        simp only [List.mem_cons] at hk
        rcases hk with rfl | rfl | rfl | hk
        · rfl
        · rfl
        · rfl
        · exact ih true rest k hk
      have hstop : ∀ k ∈ [RunEventKind.modelCallStart, .modelCallEnd], k.terminal = false := by
        decide
      cases a with
      | unroutable detail => intro k hk; cases hk
      | crashed typeName detail => intro k hk; cases hk
      | excluded => exact ih anyFailed rest
      | timedOut => exact hgo
      | errored billing detail =>
        cases billing with
        | false => exact hgo
        | true => exact hstop
      | answered answer => exact hstop

theorem maybeCompactRun_status (run : RunRow) (messages : List Message) (env : StepEnv) :
    (maybeCompactRun run messages env).row.status = run.status := by
  unfold maybeCompactRun
  split <;> rfl

theorem callEvents_quiet (run : RunRow) (messages : List Message) (env : StepEnv) :
    ∀ k ∈ (callEvents run messages env).map Prod.fst, k.terminal = false := by
  have hcompact : ∀ e ∈ (maybeCompactRun run messages env).events, e.1.terminal = false := by
    unfold maybeCompactRun
    split
    · intro e he
      rw [List.mem_singleton.mp he]
      rfl
    · intro e he
      cases he
  intro k hk
  obtain ⟨e, he, rfl⟩ := List.mem_map.mp hk
  unfold callEvents at he
  rcases List.mem_append.mp he with he | he
  · rcases List.mem_append.mp he with he | he
    · exact hcompact e he
    · split at he
      · rw [List.mem_singleton.mp he]
        rfl
      · cases he
  · obtain ⟨k, hcall, rfl⟩ := List.mem_map.mp he
    exact callModelOnce_quiet 8 false env.attempts k hcall

theorem stepRunning_paired {run : RunRow} (messages : List Message) (env : StepEnv)
    (hrunning : run.status = .running) :
    Paired (stepRunning run messages env).row.status (kinds (stepRunning run messages env)) := by
  have hstatus : (maybeCompactRun run messages env).row.status = .running := by
    rw [maybeCompactRun_status, hrunning]
  unfold stepRunning kinds
  dsimp only
  rw [List.map_append]
  refine paired_append ?_ (callEvents_quiet run messages env)
  split
  · next f _ =>
    obtain ⟨hs, hkinds⟩ := @failRun_eq (maybeCompactRun run messages env).row
      (maybeCompactRun run messages env).messages (ctxFromRow run) f env.respond hrunning
    unfold kinds at hkinds
    rw [hs, hkinds]
    exact paired_end rfl
  · exact handleResponse_paired _ _ env.respond hstatus

/-- The worker starts a run whose deadline passes between the check and the start. -/
def startsLate (run : RunRow) (env : StepEnv) : Prop :=
  run.status = .queued ∧ env.clk.check < run.deadlineTs ∧ run.deadlineTs ≤ env.clk.advance

instance (run : RunRow) (env : StepEnv) : Decidable (startsLate run env) :=
  inferInstanceAs (Decidable (_ ∧ _ ∧ _))

theorem work_done {run : RunRow} (messages : List Message) (env : StepEnv)
    (hend : run.status.terminal = true) : work run messages env = .none run messages := by
  unfold work
  rw [if_neg (by rw [hend]; simp)]
  cases hs : run.status <;> rw [hs] at hend <;> cases hend

theorem work_paired {run : RunRow} (messages : List Message) (env : StepEnv)
    (hopen : run.status.terminal = false) (hlate : ¬ startsLate run env) :
    Paired (work run messages env).row.status (kinds (work run messages env)) := by
  unfold work
  by_cases hdl : run.status.terminal = false ∧ run.deadlineTs ≤ env.clk.check
  · rw [if_pos hdl]
    obtain ⟨hstatus, hkinds⟩ := stepExpire_eq messages env.clk hopen
    rw [hstatus, hkinds]
    exact paired_end rfl
  rw [if_neg hdl]
  have hcheck : env.clk.check < run.deadlineTs := Int.not_le.mp fun h => hdl ⟨hopen, h⟩
  split
  · next hs =>
    obtain ⟨hstatus, hkinds⟩ := stepQueued_eq messages env.clk hs
    have hnow : ¬ run.deadlineTs ≤ env.clk.advance := fun h => hlate ⟨hs, hcheck, h⟩
    rw [hstatus, hkinds, if_neg hnow]
    exact paired_quiet rfl (by decide)
  · next hs => exact stepRunning_paired messages env hs
  · exact paired_quiet hopen fun k hk => nomatch hk

/-- A late start: `EXPIRED` is committed and `run_started` emitted. -/
theorem work_late {run : RunRow} (messages : List Message) {env : StepEnv}
    (hlate : startsLate run env) :
    (work run messages env).row.status = .expired ∧
      kinds (work run messages env) = [.runStarted] := by
  obtain ⟨hq, hcheck, hnow⟩ := hlate
  unfold work
  rw [if_neg (fun h => Int.not_le.mpr hcheck h.2)]
  simp only [hq]
  obtain ⟨hstatus, hkinds⟩ := stepQueued_eq messages env.clk hq
  rw [if_pos hnow] at hstatus
  exact ⟨hstatus, hkinds⟩

/-! ## What the endpoints commit -/

theorem advance_cancel_ended (ctx : RunCtx) (now : Time) (hend : ctx.status.terminal = true) :
    ∃ t, advance ctx .cancel now = .ok t ∧ t.status = ctx.status := by
  simp only [advance, cancel]
  by_cases hc : ctx.status = .cancelled
  · rw [if_pos hc]
    exact ⟨_, rfl, hc.symm⟩
  · rw [if_neg hc, if_pos hend]
    exact ⟨_, rfl, rfl⟩

theorem openCancel_ok {node : Node} {req : Request} {run : RunRow}
    (hopens : (openCancel node req run).isOk = true) :
    openCancel node req run = .ok (Session.read run) := by
  unfold openCancel at hopens ⊢
  split
  · next h => rw [if_pos h] at hopens; cases hopens
  · next h =>
    rw [if_neg h] at hopens
    split
    · next r hr => rw [hr] at hopens; cases hopens
    · rfl

/-- A cancel that passes its checks: an open run is cancelled, with its event; an ended one
keeps its status, without. -/
theorem cancelRun_eq {node : Node} {req : Request} {run : RunRow} (messages : List Message)
    (clk : Clock) (hopens : (openCancel node req run).isOk = true) :
    (cancelRun node req run messages clk).row.status =
        (if run.status.terminal then run.status else .cancelled) ∧
      kinds (cancelRun node req run messages clk) =
        if run.status.terminal then [] else [.cancelled] := by
  unfold cancelRun
  rw [openCancel_ok hopens]
  dsimp only
  by_cases hend : run.status.terminal = true
  · obtain ⟨t, ht, hs⟩ := advance_cancel_ended (ctxFromRow run) clk.advance hend
    rw [ctxFromRow_status] at hs
    rw [conclude_ok ht]
    refine ⟨by simpa [hend] using hs, ?_⟩
    simp only [kinds, hs, hend, if_true]
    split
    · next h => exact absurd h.1 h.2
    · rfl
  · have hopen : run.status.terminal = false := Bool.not_eq_true _ ▸ hend
    have hne : run.status ≠ .cancelled := fun h => by rw [h] at hopen; cases hopen
    have ht : advance (ctxFromRow run) .cancel clk.advance =
        .ok { status := .cancelled, turnsUsed := (ctxFromRow run).turnsUsed } := by
      simp [advance, cancel, hne, hopen]
    rw [conclude_ok ht]
    simp [kinds, hopen, hne]

theorem cancelRun_rejected {node : Node} {req : Request} {run : RunRow}
    (messages : List Message) (clk : Clock) (hopens : ¬ (openCancel node req run).isOk = true) :
    cancelRun node req run messages clk = .none run messages := by
  unfold cancelRun
  split
  · rfl
  · next s hs =>
    rw [hs] at hopens
    exact absurd rfl hopens

theorem openToolResult_ok {node : Node} {req : Request} {run : RunRow}
    (hopens : (openToolResult node req run).isOk = true) :
    openToolResult node req run = .ok (Session.read run) ∧ run.status = .requiresTool ∧
      run.currentToolUseId = some req.toolUseId := by
  unfold openToolResult at hopens ⊢
  repeat' split at hopens
  all_goals try cases hopens
  next hid hkey r hredirect hcancelled hstatus htool =>
    rw [if_neg hid, if_neg hkey]
    rw [if_neg hcancelled, if_neg hstatus, if_neg htool]
    exact ⟨rfl, Decidable.not_not.mp hstatus, Decidable.not_not.mp htool⟩

theorem postToolResult_eq {node : Node} {req : Request} {run : RunRow}
    (out : ToolOutput) (messages : List Message) (clk : Clock)
    (hopens : (openToolResult node req run).isOk = true) :
    (postToolResult node req out run messages clk).row.status =
        (if run.deadlineTs ≤ clk.advance then RunStatus.expired else .running) ∧
      kinds (postToolResult node req out run messages clk) = [.toolUseReceived] := by
  obtain ⟨hsession, hs, -⟩ := openToolResult_ok hopens
  unfold postToolResult
  rw [hsession]
  dsimp only
  by_cases hlate : run.deadlineTs ≤ clk.advance
  · have h : advance (ctxFromRow run) .toolResult clk.advance =
        .ok { status := .expired, turnsUsed := (ctxFromRow run).turnsUsed } := by
      simp [advance, toolResult, hs, ctxFromRow, hlate]
    rw [conclude_ok h, if_pos hlate]
    exact ⟨rfl, rfl⟩
  · have h : advance (ctxFromRow run) .toolResult clk.advance =
        .ok { status := .running, turnsUsed := (ctxFromRow run).turnsUsed } := by
      simp [advance, toolResult, hs, ctxFromRow, hlate]
    rw [conclude_ok h, if_neg hlate]
    exact ⟨rfl, rfl⟩

theorem postToolResult_rejected {node : Node} {req : Request} {run : RunRow}
    (out : ToolOutput) (messages : List Message) (clk : Clock)
    (hopens : ¬ (openToolResult node req run).isOk = true) :
    postToolResult node req out run messages clk = .none run messages := by
  unfold postToolResult
  split
  · rfl
  · next s hs =>
    rw [hs] at hopens
    exact absurd rfl hopens

end Journal

/-! ## A step of the journal -/

/-- An emission that appends its event and touches nothing else. -/
def Appends (emitOne : Journal → Emission → Journal) : Prop :=
  ∀ j e, (emitOne j e).log.map Event.kind = j.log.map Event.kind ++ [e.1] ∧
    (emitOne j e).row = j.row ∧ (emitOne j e).messages = j.messages

theorem appends_emit (ts : Time) : Appends fun j e => j.emit e ts :=
  fun _ _ => ⟨List.map_append, rfl, rfl⟩

theorem appends_emitEvent (ts : Time) : Appends fun j e => j.emitEvent e ts :=
  fun _ _ => ⟨List.map_append, rfl, rfl⟩

theorem Appends.foldl {emitOne : Journal → Emission → Journal} (h : Appends emitOne)
    (es : List Emission) (j : Journal) :
    (es.foldl emitOne j).log.map Event.kind = j.log.map Event.kind ++ es.map Prod.fst ∧
      (es.foldl emitOne j).row = j.row ∧ (es.foldl emitOne j).messages = j.messages := by
  induction es generalizing j with
  | nil => simp
  | cons e es ih =>
    obtain ⟨hlog, hrow, hmsg⟩ := ih (emitOne j e)
    obtain ⟨hhead, hrow', hmsg'⟩ := h j e
    rw [List.foldl_cons]
    refine ⟨?_, hrow.trans hrow', hmsg.trans hmsg'⟩
    rw [hlog, hhead, List.append_assoc]
    rfl

/-- Whoever emits, the log grows by the step's events, and the row and the conversation are
the step's. -/
theorem step_log (node : Node) (j : Journal) (op : Op) :
    (j.step node op).log.map Event.kind =
        j.log.map Event.kind ++ Journal.kinds (j.writes node op) ∧
      (j.step node op).row = (j.writes node op).row ∧
      (j.step node op).messages = (j.writes node op).messages := by
  cases op with
  | work env => exact (appends_emit _).foldl _ _
  | cancel req clk => exact (appends_emitEvent _).foldl _ _
  | toolResult req out clk => exact (appends_emitEvent _).foldl _ _

/-! ## Exactly one terminal event -/

/-- The log agrees with the status: it ends in the one terminal event of an ended run, and
has none of an open one. -/
def Told (j : Journal) : Prop := Paired j.row.status (j.log.map Event.kind)

/-- An ended run's log has exactly one terminal event, it is the last one, and it is the
event of the run's status. -/
def EndsOnce (j : Journal) : Prop :=
  j.row.status.terminal = true →
    ∃ pre k, j.row.status.endKind = some k ∧ j.log.map Event.kind = pre ++ [k] ∧
      ∀ k' ∈ pre, k'.terminal = false

/-- Neither a start nor a tool result is processed at or past the deadline. -/
def Timely (node : Node) (j : Journal) : Op → Prop
  | .work env => ¬ Journal.startsLate j.row env
  | .cancel _ _ => True
  | .toolResult req _ clk =>
    (openToolResult node req j.row).isOk = true → clk.advance < j.row.deadlineTs

theorem Told.endsOnce {j : Journal} (h : Told j) : EndsOnce j := by
  intro hend
  obtain ⟨pre, heq, hpre⟩ := h
  rw [← endKind_isSome] at hend
  obtain ⟨k, hk⟩ := Option.isSome_iff_exists.mp hend
  rw [hk] at heq
  exact ⟨pre, k, hk, heq, hpre⟩

theorem not_endsOnce {j : Journal} {pre : List RunEventKind} {k : RunEventKind}
    (hend : j.row.status.terminal = true) (hlog : j.log.map Event.kind = pre ++ [k])
    (hk : k.terminal = false) : ¬ EndsOnce j := by
  intro h
  obtain ⟨pre', k', hk', heq, -⟩ := h hend
  rw [hlog] at heq
  have hlast : [k] = [k'] := (List.append_inj' heq rfl).2
  cases hlast
  rw [endKind_terminal hk'] at hk
  cases hk

theorem told_step {node : Node} {j : Journal} {op : Op} (h : Told j)
    (hg : Timely node j op) : Told (j.step node op) := by
  obtain ⟨hlog, hrow, -⟩ := step_log node j op
  unfold Told at h ⊢
  rw [hlog, hrow]
  cases op with
  | work env =>
    show Paired (Journal.work j.row j.messages env).row.status
      (_ ++ Journal.kinds (Journal.work j.row j.messages env))
    cases hend : j.row.status.terminal with
    | true =>
      rw [Journal.work_done j.messages env hend]
      simpa [Journal.kinds, Writes.none] using h
    | false => exact paired_append (Journal.work_paired j.messages env hend hg) (h.quiet hend)
  | cancel req clk =>
    show Paired (Journal.cancelRun node req j.row j.messages clk).row.status
      (_ ++ Journal.kinds (Journal.cancelRun node req j.row j.messages clk))
    by_cases hopens : (openCancel node req j.row).isOk = true
    · obtain ⟨hstatus, hkinds⟩ := Journal.cancelRun_eq j.messages clk hopens
      rw [hstatus, hkinds]
      cases hend : j.row.status.terminal with
      | true => simpa using h
      | false => exact paired_append (paired_end rfl) (h.quiet hend)
    · rw [Journal.cancelRun_rejected j.messages clk hopens]
      simpa [Journal.kinds, Writes.none] using h
  | toolResult req out clk =>
    show Paired (Journal.postToolResult node req out j.row j.messages clk).row.status
      (_ ++ Journal.kinds (Journal.postToolResult node req out j.row j.messages clk))
    by_cases hopens : (openToolResult node req j.row).isOk = true
    · obtain ⟨hstatus, hkinds⟩ := Journal.postToolResult_eq out j.messages clk hopens
      have hopen : j.row.status.terminal = false := by
        rw [(Journal.openToolResult_ok hopens).2.1]
        rfl
      rw [hstatus, hkinds, if_neg (Int.not_le.mpr (hg hopens))]
      exact paired_append (paired_quiet rfl (by decide)) (h.quiet hopen)
    · rw [Journal.postToolResult_rejected out j.messages clk hopens]
      simpa [Journal.kinds, Writes.none] using h

theorem endsOnce_step_iff {node : Node} {j : Journal} {op : Op} (h : Told j) :
    EndsOnce (j.step node op) ↔ Timely node j op := by
  constructor
  · intro hends
    obtain ⟨hlog, hrow, -⟩ := step_log node j op
    cases op with
    | work env =>
      intro hlate
      obtain ⟨hstatus, hkinds⟩ := Journal.work_late j.messages hlate
      have hend : (j.step node (.work env)).row.status.terminal = true := by
        rw [hrow]
        show (Journal.work j.row j.messages env).row.status.terminal = true
        rw [hstatus]
        rfl
      have hlast : (j.step node (.work env)).log.map Event.kind =
          j.log.map Event.kind ++ [.runStarted] := hlog.trans (congrArg _ hkinds)
      exact not_endsOnce hend hlast rfl hends
    | cancel req clk => trivial
    | toolResult req out clk =>
      intro hopens
      refine Int.not_le.mp fun hlate => ?_
      obtain ⟨hstatus, hkinds⟩ := Journal.postToolResult_eq out j.messages clk hopens
      have hend : (j.step node (.toolResult req out clk)).row.status.terminal = true := by
        rw [hrow]
        show (Journal.postToolResult node req out j.row j.messages clk).row.status.terminal = true
        rw [hstatus, if_pos hlate]
        rfl
      have hlast : (j.step node (.toolResult req out clk)).log.map Event.kind =
          j.log.map Event.kind ++ [.toolUseReceived] := hlog.trans (congrArg _ hkinds)
      exact not_endsOnce hend hlast rfl hends
  · intro hg
    exact (told_step h hg).endsOnce

theorem told_create (c : Creation) : Told (Journal.create c) := by
  unfold Journal.create
  dsimp only
  split
  · refine paired_quiet rfl fun k hk => ?_
    rw [List.mem_singleton.mp hk]
    rfl
  · exact paired_quiet rfl fun k hk => nomatch hk

/-- **When a finished run has exactly one terminal event.** In every sequential history of a
run from its creation, the log of every ended state reached has exactly one terminal event,
of the kind of the committed status and in the last place, exactly when no start and no
accepted tool result is processed at or past the deadline. -/
theorem one_terminal_event_iff (node : Node) (c : Creation) (ops : List Op) :
    Trace.Along (Journal.step node) (fun j op => EndsOnce (j.step node op)) (Journal.create c)
        ops ↔
      Trace.Along (Journal.step node) (Timely node) (Journal.create c) ops :=
  Trace.along_iff (I := Told) (V := fun _ _ => True) (fun _ _ h _ => endsOnce_step_iff h)
    (fun _ _ h _ hg => told_step h hg) (told_create c) (Trace.along_of_forall fun _ _ => trivial)

/-- A run of two turns with deadline 100, owned by this node. -/
def sampleCreation : Creation :=
  { apiKeyId := "k1", ownerNodeId := "n1", deadlineTs := 100, requestedTurns := 2
    ceiling := 50, messages := [⟨.user, .text "hi"⟩], now := 0 }

def sampleNode : Node := ⟨"n1", fun _ => false⟩

/-- The worker's iteration at one instant, with what the model answers. -/
def sampleWork (now : Time) (blocks : List Block) : Op :=
  .work
    { clk := ⟨now, now, now⟩
      attempts := [.answered ⟨1, 1, "p1", blocks⟩]
      respond := ⟨now, now, now⟩ }

/-- The deadline passes between the worker's check and its start; or while the run waits for
its tool: the run ends without a terminal event. -/
theorem late_runs_end_untold :
    let late : Journal := Trace.run (Journal.step sampleNode) (Journal.create sampleCreation)
      [.work { clk := ⟨99, 100, 100⟩, respond := ⟨100, 100, 100⟩ }]
    let parked : Journal := Trace.run (Journal.step sampleNode) (Journal.create sampleCreation)
      [sampleWork 1 [], sampleWork 2 [.toolUse "t1" "ls" ""],
        .toolResult ⟨"k1", "t1"⟩ {} ⟨101, 101, 101⟩]
    (late.row.status = .expired ∧ late.log.map Event.kind = [.runStarted] ∧
      ¬ EndsOnce late) ∧
      parked.row.status = .expired ∧
      parked.log.map Event.kind =
        [.runStarted, .modelCallStart, .modelCallEnd, .toolUseRequested, .toolUseReceived] := by
  intro late parked
  have hstatus : late.row.status = .expired := by decide
  have hlog : late.log.map Event.kind = [] ++ [.runStarted] := by decide
  refine ⟨⟨hstatus, hlog, not_endsOnce (by rw [hstatus]; rfl) hlog rfl⟩, ?_, ?_⟩
  · decide
  · decide

/-! ## Every committed event is published -/

/-- The channel has been given exactly the committed events, and it is closed exactly when
there is a terminal one among them. -/
def Published (j : Journal) : Prop :=
  j.published = j.log ∧ (j.bus.closed = true ↔ ∃ e ∈ j.log, e.kind.terminal = true)

/-- No endpoint produces an event: no cancel of an open run and no tool result is
accepted. -/
def WorkerOnly (node : Node) (j : Journal) : Op → Prop
  | .work _ => True
  | .cancel req _ => (openCancel node req j.row).isOk = true → j.row.status.terminal = true
  | .toolResult req _ _ => ¬ (openToolResult node req j.row).isOk = true

/-- The invariant: published, and a terminal event tells of an ended run. -/
def Synced (j : Journal) : Prop :=
  Published j ∧ ((∃ e ∈ j.log, e.kind.terminal = true) → j.row.status.terminal = true)

@[simp] theorem publish_closed {b : Bus} (h : b.closed = false) (e : Event) :
    (b.publish e).closed = e.kind.terminal := by
  simp [Bus.publish, h]

theorem foldl_emit_published {es : List Emission} (ts : Time) {j : Journal}
    (hopen : j.bus.closed = false) (hsame : j.published = j.log)
    (hquiet : ∀ k ∈ (es.map Prod.fst).dropLast, k.terminal = false) :
    (es.foldl (fun j e => j.emit e ts) j).published =
        (es.foldl (fun j e => j.emit e ts) j).log ∧
      ((es.foldl (fun j e => j.emit e ts) j).bus.closed = true ↔
        ∃ k ∈ es.map Prod.fst, k.terminal = true) := by
  induction es generalizing j with
  | nil => simp [hsame, hopen]
  | cons e es ih =>
    have hclosed : (j.emit e ts).bus.closed = e.1.terminal := by
      simp [Journal.emit, hopen]
    have hsame' : (j.emit e ts).published = (j.emit e ts).log := by
      simp [Journal.emit, hopen, hsame]
    rw [List.foldl_cons]
    cases es with
    | nil => exact ⟨hsame', by simp [hclosed]⟩
    | cons e' es =>
      -- an event with another behind it is not terminal, so the channel stays open
      have hfirst : e.1.terminal = false := hquiet e.1 (by simp)
      obtain ⟨hpub, hany⟩ := ih (j := j.emit e ts) (by rw [hclosed, hfirst]) hsame'
        fun k hk => hquiet k (by
          rw [List.map_cons, List.map_cons, List.dropLast_cons_of_ne_nil (by simp)]
          exact List.mem_cons_of_mem _ hk)
      refine ⟨hpub, hany.trans ?_⟩
      simp [hfirst]

theorem work_kinds {run : RunRow} (messages : List Message) (env : StepEnv)
    (hopen : run.status.terminal = false) :
    (∀ k ∈ (Journal.kinds (Journal.work run messages env)).dropLast, k.terminal = false) ∧
      ((∃ k ∈ Journal.kinds (Journal.work run messages env), k.terminal = true) →
        (Journal.work run messages env).row.status.terminal = true) := by
  by_cases hlate : Journal.startsLate run env
  · obtain ⟨hstatus, hkinds⟩ := Journal.work_late messages hlate
    rw [hkinds, hstatus]
    exact ⟨fun k hk => (nomatch hk), fun _ => rfl⟩
  · obtain ⟨pre, hkinds, hpre⟩ := Journal.work_paired messages env hopen hlate
    rw [hkinds]
    cases hend : (Journal.work run messages env).row.status.endKind with
    | none =>
      refine ⟨fun k hk => hpre k ?_, ?_⟩
      · rw [Option.toList_none, List.append_nil] at hk
        exact (List.dropLast_sublist pre).subset hk
      · rintro ⟨k, hk, hterm⟩
        rw [Option.toList_none, List.append_nil] at hk
        rw [hpre k hk] at hterm
        cases hterm
    | some k =>
      refine ⟨fun k' hk' => hpre k' ?_, fun _ => ?_⟩
      · rw [Option.toList_some, List.dropLast_concat] at hk'
        exact hk'
      · rw [← endKind_isSome, hend]
        rfl

theorem step_of_none (node : Node) (j : Journal) (op : Op)
    (h : j.writes node op = .none j.row j.messages) : j.step node op = j := by
  unfold Journal.step
  rw [h]
  cases op <;> rfl

theorem synced_work {node : Node} {j : Journal} (h : Synced j) (env : StepEnv) :
    Synced (j.step node (.work env)) := by
  cases hend : j.row.status.terminal with
  | true =>
    rw [step_of_none node j (.work env) (Journal.work_done j.messages env hend)]
    exact h
  | false =>
    have hnone : ¬ ∃ e ∈ j.log, e.kind.terminal = true := by
      intro hex
      rw [h.2 hex] at hend
      cases hend
    have hopen : j.bus.closed = false := by
      cases hb : j.bus.closed with
      | false => rfl
      | true => exact absurd (h.1.2.mp hb) hnone
    obtain ⟨hquiet, hterm⟩ := work_kinds j.messages env hend
    obtain ⟨hpub, hclosed⟩ := foldl_emit_published env.respond.persist
      (j := j.store (Journal.work j.row j.messages env)) hopen h.1.1 hquiet
    obtain ⟨hlog, hrow, -⟩ := step_log node j (.work env)
    -- what is terminal in the log is what this step emitted
    have hex : (∃ e ∈ (j.step node (.work env)).log, e.kind.terminal = true) ↔
        ∃ k ∈ Journal.kinds (Journal.work j.row j.messages env), k.terminal = true := by
      have hkinds : (∃ e ∈ (j.step node (.work env)).log, e.kind.terminal = true) ↔
          ∃ k ∈ (j.step node (.work env)).log.map Event.kind, k.terminal = true := by
        constructor
        · rintro ⟨e, he, het⟩
          exact ⟨e.kind, List.mem_map_of_mem he, het⟩
        · rintro ⟨k, hk, hkt⟩
          obtain ⟨e, he, rfl⟩ := List.mem_map.mp hk
          exact ⟨e, he, hkt⟩
      rw [hkinds, hlog]
      constructor
      · rintro ⟨k, hk, hkt⟩
        rcases List.mem_append.mp hk with hk | hk
        · obtain ⟨e, he, rfl⟩ := List.mem_map.mp hk
          exact absurd ⟨e, he, hkt⟩ hnone
        · exact ⟨k, hk, hkt⟩
      · rintro ⟨k, hk, hkt⟩
        exact ⟨k, List.mem_append_right _ hk, hkt⟩
    refine ⟨⟨hpub, hclosed.trans hex.symm⟩, fun h' => ?_⟩
    rw [hrow]
    exact hterm (hex.mp h')

theorem not_published_of_api {node : Node} {j : Journal} {op : Op} {k : RunEventKind}
    (h : Published j) (hop : ∀ env, op ≠ .work env)
    (hkinds : Journal.kinds (j.writes node op) = [k]) : ¬ Published (j.step node op) := by
  intro hp
  have hsame : (j.step node op).published = j.published := by
    have hfold : ∀ (es : List Emission) (ts : Time) (j : Journal),
        (es.foldl (fun j e => j.emitEvent e ts) j).published = j.published := by
      intro es ts
      induction es with
      | nil => intro j; rfl
      | cons e es ih => intro j; exact ih (j.emitEvent e ts)
    cases op with
    | work env => exact absurd rfl (hop env)
    | cancel req clk => exact hfold _ _ _
    | toolResult req out clk => exact hfold _ _ _
  have hlen := congrArg List.length (step_log node j op).1
  rw [hkinds] at hlen
  have hlog : (j.step node op).log.length = j.log.length := by
    rw [← hp.1, hsame, h.1]
  simp [hlog] at hlen

theorem published_step_iff {node : Node} {j : Journal} {op : Op} (h : Synced j) :
    Published (j.step node op) ↔ WorkerOnly node j op := by
  cases op with
  | work env => exact iff_of_true (synced_work h env).1 trivial
  | cancel req clk =>
    by_cases hopens : (openCancel node req j.row).isOk = true
    · obtain ⟨-, hkinds⟩ := Journal.cancelRun_eq j.messages clk hopens
      cases hend : j.row.status.terminal with
      | true =>
        refine iff_of_true ?_ fun _ => hend
        rw [hend, if_pos rfl] at hkinds
        have hevents : (Journal.cancelRun node req j.row j.messages clk).events = [] :=
          List.map_eq_nil_iff.mp hkinds
        unfold Journal.step Journal.writes
        dsimp only
        rw [hevents]
        exact h.1
      | false =>
        rw [hend, if_neg Bool.false_ne_true] at hkinds
        refine iff_of_false (not_published_of_api h.1 (fun _ => by simp) hkinds) fun hg => ?_
        rw [hg hopens] at hend
        cases hend
    · refine iff_of_true ?_ fun hok => absurd hok hopens
      rw [step_of_none node j (.cancel req clk)
        (Journal.cancelRun_rejected j.messages clk hopens)]
      exact h.1
  | toolResult req out clk =>
    by_cases hopens : (openToolResult node req j.row).isOk = true
    · obtain ⟨-, hkinds⟩ := Journal.postToolResult_eq out j.messages clk hopens
      exact iff_of_false (not_published_of_api h.1 (fun _ => by simp) hkinds)
        fun hg => hg hopens
    · refine iff_of_true ?_ hopens
      rw [step_of_none node j (.toolResult req out clk)
        (Journal.postToolResult_rejected out j.messages clk hopens)]
      exact h.1

theorem synced_step {node : Node} {j : Journal} {op : Op} (h : Synced j)
    (hg : WorkerOnly node j op) : Synced (j.step node op) := by
  refine ⟨(published_step_iff h).mpr hg, ?_⟩
  cases op with
  | work env => exact (synced_work h env).2
  | cancel req clk =>
    by_cases hopens : (openCancel node req j.row).isOk = true
    · obtain ⟨hstatus, -⟩ := Journal.cancelRun_eq j.messages clk hopens
      intro _
      rw [(step_log node j (.cancel req clk)).2.1]
      show (Journal.cancelRun node req j.row j.messages clk).row.status.terminal = true
      rw [hstatus, if_pos (hg hopens)]
      exact hg hopens
    · rw [step_of_none node j (.cancel req clk) (Journal.cancelRun_rejected j.messages clk hopens)]
      exact h.2
  | toolResult req out clk =>
    rw [step_of_none node j (.toolResult req out clk)
      (Journal.postToolResult_rejected out j.messages clk hg)]
    exact h.2

theorem published_create_iff (c : Creation) :
    Published (Journal.create c) ↔
      (clampMaxTurns c.requestedTurns c.ceiling hardTurnsCeiling).2 = false := by
  unfold Journal.create
  dsimp only
  cases (clampMaxTurns c.requestedTurns c.ceiling hardTurnsCeiling).2 with
  | true =>
    refine iff_of_false (fun h => ?_) (by simp)
    have := h.1
    simp [Journal.emitEvent] at this
  | false =>
    refine iff_of_true ⟨rfl, ?_⟩ rfl
    simp

/-- **When every committed event is published.** A run's creation and every step of its
sequential history leave exactly the committed events on its channel, closed exactly by a
terminal one, exactly when all its events come from the worker: its turn budget is not
clamped, no open run is cancelled, and no tool result is accepted. -/
theorem published_iff (node : Node) (c : Creation) (ops : List Op) :
    (Published (Journal.create c) ∧ Trace.Along (Journal.step node)
        (fun j op => Published (j.step node op)) (Journal.create c) ops) ↔
      ((clampMaxTurns c.requestedTurns c.ceiling hardTurnsCeiling).2 = false ∧
        Trace.Along (Journal.step node) (WorkerOnly node) (Journal.create c) ops) := by
  rw [published_create_iff]
  refine and_congr_right fun hclamp => ?_
  have hsynced : Synced (Journal.create c) := by
    refine ⟨(published_create_iff c).mpr hclamp, ?_⟩
    unfold Journal.create
    simp [hclamp]
  exact Trace.along_iff (I := Synced) (V := fun _ _ => True) (fun _ _ h _ => published_step_iff h)
    (fun _ _ h _ hg => synced_step h hg) hsynced (Trace.along_of_forall fun _ _ => trivial)

/-- A cancelled run: the `cancelled` event is committed, the channel never hears of it and
stays open. -/
theorem cancel_is_not_published :
    let j : Journal := Trace.run (Journal.step sampleNode) (Journal.create sampleCreation)
      [sampleWork 1 [], .cancel ⟨"k1", ""⟩ ⟨2, 2, 2⟩]
    j.row.status = .cancelled ∧ j.log.map Event.kind = [.runStarted, .cancelled] ∧
      j.published.map Event.kind = [.runStarted] ∧ j.bus.closed = false ∧ ¬ Published j := by
  intro j
  have hlog : j.log.map Event.kind = [.runStarted, .cancelled] := by decide
  have hpub : j.published.map Event.kind = [.runStarted] := by decide
  refine ⟨by decide, hlog, hpub, by decide, fun h => ?_⟩
  rw [h.1, hlog] at hpub
  cases hpub

end LlmProxy.Runs
