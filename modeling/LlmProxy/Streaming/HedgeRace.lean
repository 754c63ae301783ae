import LlmProxy.Streaming.SseFrames

/-! # The hedge race

`race_streams` (`app/routing/hedging.py`): the primary has until a timer fires, then both streams
race for the first healthy chunk.

> `race_right_iff`: whatever the order of the timer and the two first chunks, the race does no
> worse than its best stream, unless the primary raises before its first chunk and is seen to
> before the timer fires.

The coroutine is a state machine. `Active` is what holds of it once the backup is started;
`active_step` carries it over every event.

Mirroring notes.
* A stream is its frames and the exception it ends with. An iterator that has ended yields
  nothing more.
* `wait_for` raises `TimeoutError` if the timer fires before the coroutine is resumed, whether
  the first chunk is there or not.
* The loser's `aclose` and the cancellation of its task are left out.
-/

namespace LlmProxy.Streaming

/-- An exception a stream raises; `timeout` if it is an `asyncio.TimeoutError`. -/
structure StreamFailure where
  name : String
  timeout : Bool
  deriving DecidableEq

structure SseStream where
  frames : List SseFrame
  failure : Option StreamFailure := none
  deriving DecidableEq

/-- What `_first_chunk` comes to. -/
inductive FirstChunk where
  | chunk (c : SseFrame)
  | empty
  | raised (e : StreamFailure)

def firstChunk (s : SseStream) : FirstChunk :=
  match s.frames, s.failure with
  | c :: _, _ => .chunk c
  | [], none => .empty
  | [], some e => .raised e

/-- The iterator behind `_first_chunk`. -/
def SseStream.rest (s : SseStream) : SseStream :=
  match s.frames with
  | [] => { frames := [] }
  | _ :: frames => { frames := frames, failure := s.failure }

/-- `_replay`. -/
def replay (first : Option SseFrame) (rest : SseStream) : SseStream :=
  { rest with frames := first.toList ++ rest.frames }

inductive Winner where
  | primary
  | backup
  deriving DecidableEq

inductive RaceError where
  | stream (e : StreamFailure)
  /-- hedge race produced no stream -/
  | noStream

/-- Where the coroutine waits, or how it has ended. -/
inductive Phase where
  /-- in `wait_for` -/
  | waiting
  /-- the primary has failed, and the backup is awaited -/
  | backupOnly (primaryFirst : Option SseFrame)
  /-- in `asyncio.wait` -/
  | racing
  | awaitingPrimary (bf : Option SseFrame)
  | awaitingBackup (pf : Option SseFrame)
  | returned (stream : SseStream) (winner : Winner)
  | raised (e : RaceError)

structure RaceState where
  phase : Phase := .waiting
  /-- `first_task.done()` and `backup_task.done()` -/
  primaryDone : Bool := false
  backupDone : Bool := false

inductive RaceEvent where
  | timer
  /-- the first chunk of the primary, and of the backup -/
  | primary
  | backup
  /-- the coroutine runs as far as it can -/
  | resume
  deriving DecidableEq

/-- `_task_chunk`. -/
def taskChunk (done : Bool) (s : SseStream) : Option SseFrame :=
  if done then
    match firstChunk s with
    | .chunk c => some c
    | _ => none
  else none

section

variable (p b : SseStream)

def bothFailed (pf bf : Option SseFrame) : Phase :=
  if pf.isSome then .returned (replay pf p.rest) .primary
  else if bf.isSome then .returned (replay bf b.rest) .backup
  else
    match firstChunk p, firstChunk b with
    | .raised e, _ => .raised (.stream e)
    | _, .raised e => .raised (.stream e)
    | _, _ => .raised .noStream

/-- `wait_for` returns or raises. -/
def settlePrimary : Phase :=
  match firstChunk p with
  | .raised e => if e.timeout then .racing else .raised (.stream e)
  | _ =>
    let primaryFirst := taskChunk true p
    if chunkOk primaryFirst then .returned (replay primaryFirst p.rest) .primary
    else .backupOnly primaryFirst

def settleBackup (primaryFirst : Option SseFrame) : Phase :=
  let backupFirst := taskChunk true b
  if chunkOk backupFirst then .returned (replay backupFirst b.rest) .backup
  else .returned (replay primaryFirst p.rest) .primary

/-- The end of the race: `pf` has failed, and the backup is looked at. -/
def lookAtBackup (backupDone : Bool) (pf bf : Option SseFrame) : Phase :=
  if !backupDone then .awaitingBackup pf else bothFailed p b pf bf

/-- Behind `asyncio.wait`. -/
def settleRace (primaryDone backupDone : Bool) : Phase :=
  let pf := taskChunk primaryDone p
  let bf := taskChunk backupDone b
  if chunkOk pf then .returned (replay pf p.rest) .primary
  else if chunkOk bf then .returned (replay bf b.rest) .backup
  else if !primaryDone then .awaitingPrimary bf
  else lookAtBackup p b backupDone pf bf

def resume (s : RaceState) : Phase :=
  match s.phase with
  | .waiting => if s.primaryDone then settlePrimary p else .waiting
  | .backupOnly primaryFirst =>
    if s.backupDone then settleBackup p b primaryFirst else .backupOnly primaryFirst
  | .racing =>
    if s.primaryDone || s.backupDone then settleRace p b s.primaryDone s.backupDone else .racing
  | .awaitingPrimary bf =>
    if s.primaryDone then
      let pf := taskChunk true p
      if chunkOk pf then .returned (replay pf p.rest) .primary
      else lookAtBackup p b s.backupDone pf bf
    else .awaitingPrimary bf
  | .awaitingBackup pf =>
    if s.backupDone then
      let bf := taskChunk true b
      if chunkOk bf then .returned (replay bf b.rest) .backup else bothFailed p b pf bf
    else .awaitingBackup pf
  | .returned stream winner => .returned stream winner
  | .raised e => .raised e

def Phase.backupStarted : Phase → Bool
  | .backupOnly _ => true
  | .racing => true
  | .awaitingPrimary _ => true
  | .awaitingBackup _ => true
  | _ => false

def raceStep (s : RaceState) : RaceEvent → RaceState
  | .timer =>
    match s.phase with
    | .waiting => { s with phase := .racing }
    | _ => s
  | .primary => { s with primaryDone := true }
  | .backup => if s.phase.backupStarted then { s with backupDone := true } else s
  | .resume => { s with phase := resume p b s }

/-- What an order leaves out comes behind it. -/
def completing : List RaceEvent := [.timer, .primary, .backup, .resume]

/-- `race_streams`, with the timer and the first chunks in some order. -/
def raceStreams (order : List RaceEvent) : RaceState :=
  (order ++ completing).foldl (raceStep p b) {}

end

/-! ## A race that does no worse than its best stream -/

/-- The first chunk is healthy. -/
def SseStream.Healthy (s : SseStream) : Prop := chunkOk s.frames.head? = true

def Winner.stream (p b : SseStream) : Winner → SseStream
  | .primary => p
  | .backup => b

/-- The backup has been started and has failed. -/
def BackupFailed (b : SseStream) (s : RaceState) : Prop := s.backupDone = true ∧ ¬ b.Healthy

/-- The race has ended: with a stream that is the winner's as a whole, and is healthy if one of
the two is; what the primary fails with is surfaced only when the backup has failed too. -/
def RaceRight (p b : SseStream) (s : RaceState) : Prop :=
  match s.phase with
  | .returned stream winner =>
    stream = winner.stream p b ∧ (p.Healthy ∨ b.Healthy → stream.Healthy) ∧
      (winner = .primary → ¬ p.Healthy → BackupFailed b s)
  | .raised _ => ¬ p.Healthy ∧ BackupFailed b s
  | _ => False

/-- The primary raises before its first chunk, and no `TimeoutError`. -/
def RaisesFirst (p : SseStream) : Prop :=
  p.frames = [] ∧ ∃ e, p.failure = some e ∧ e.timeout = false

/-- The coroutine runs with the first chunk of the primary there, before the timer fires. -/
def seenInTime : Bool → List RaceEvent → Bool
  | _, [] => false
  | _, .timer :: _ => false
  | _, .primary :: order => seenInTime true order
  | done, .backup :: order => seenInTime done order
  | done, .resume :: order => done || seenInTime done order

section

variable {p b : SseStream}

theorem taskChunk_true (s : SseStream) : taskChunk true s = s.frames.head? := by
  obtain ⟨frames, failure⟩ := s
  cases frames with
  | nil => cases failure <;> rfl
  | cons c frames => rfl

theorem replay_rest {s : SseStream} (h : s.frames ≠ [] ∨ s.failure = none) :
    replay s.frames.head? s.rest = s := by
  obtain ⟨frames, failure⟩ := s
  cases frames with
  | nil =>
    rcases h with hne | hnone
    · exact absurd rfl hne
    · have hfailure : failure = none := hnone
      rw [hfailure]
      rfl
  | cons c frames => rfl

theorem frames_ne_nil {s : SseStream} {c : SseFrame} (h : s.frames.head? = some c) :
    s.frames ≠ [] := by
  intro hnil
  rw [hnil] at h
  cases h

theorem ne_nil_of_healthy {s : SseStream} (h : s.Healthy) : s.frames ≠ [] := by
  intro hnil
  unfold SseStream.Healthy at h
  rw [hnil] at h
  cases h

/-! ### The ways the race ends -/

theorem returned_primary (primaryDone backupDone : Bool) (hprimary : p.Healthy) :
    RaceRight p b ⟨.returned (replay p.frames.head? p.rest) .primary, primaryDone, backupDone⟩ := by
  rw [replay_rest (Or.inl (ne_nil_of_healthy hprimary))]
  exact ⟨rfl, fun _ => hprimary, fun _ hnot => absurd hprimary hnot⟩

theorem returned_backup (primaryDone backupDone : Bool) (hbackup : b.Healthy) :
    RaceRight p b ⟨.returned (replay b.frames.head? b.rest) .backup, primaryDone, backupDone⟩ := by
  rw [replay_rest (Or.inl (ne_nil_of_healthy hbackup))]
  exact ⟨rfl, fun _ => hbackup, fun h => Winner.noConfusion h⟩

theorem returned_failed (primaryDone : Bool) (hbackup : ¬ b.Healthy)
    (hwhole : p.frames ≠ [] ∨ p.failure = none) :
    RaceRight p b ⟨.returned (replay p.frames.head? p.rest) .primary, primaryDone, true⟩ := by
  rw [replay_rest hwhole]
  refine ⟨rfl, ?_, fun _ _ => ⟨rfl, hbackup⟩⟩
  rintro (hp | hb)
  · exact hp
  · exact absurd hb hbackup

theorem bothFailed_right (primaryDone : Bool) (hprimary : ¬ p.Healthy) (hbackup : ¬ b.Healthy) :
    RaceRight p b ⟨bothFailed p b p.frames.head? b.frames.head?, primaryDone, true⟩ := by
  have hraised : ∀ e, RaceRight p b ⟨.raised e, primaryDone, true⟩ :=
    fun _ => ⟨hprimary, rfl, hbackup⟩
  unfold bothFailed
  cases hpf : p.frames.head? with
  | some c =>
    rw [if_pos Option.isSome_some, ← hpf]
    exact returned_failed primaryDone hbackup (Or.inl (frames_ne_nil hpf))
  | none =>
    rw [if_neg (by simp)]
    cases hbf : b.frames.head? with
    | some c =>
      rw [if_pos Option.isSome_some, ← hbf, replay_rest (Or.inl (frames_ne_nil hbf))]
      refine ⟨rfl, ?_, fun h => Winner.noConfusion h⟩
      rintro (hp | hb)
      · exact absurd hp hprimary
      · exact absurd hb hbackup
    | none =>
      rw [if_neg (by simp)]
      split
      · exact hraised _
      · exact hraised _
      · exact hraised _

/-! ### Once the backup is started -/

/-- What holds once the first phase is over: what has been seen of a stream is its first chunk,
and one that is awaited no more has failed. -/
def Active (p b : SseStream) (s : RaceState) : Prop :=
  match s.phase with
  | .waiting => False
  | .backupOnly primaryFirst => primaryFirst = p.frames.head? ∧ ¬ p.Healthy ∧
      (p.frames ≠ [] ∨ p.failure = none)
  | .racing => True
  | .awaitingPrimary bf => bf = b.frames.head? ∧ BackupFailed b s
  | .awaitingBackup pf => pf = p.frames.head? ∧ ¬ p.Healthy
  | .returned _ _ => RaceRight p b s
  | .raised _ => RaceRight p b s

theorem active_of_right {s : RaceState} (h : RaceRight p b s) : Active p b s := by
  obtain ⟨phase, primaryDone, backupDone⟩ := s
  cases phase with
  | returned stream winner => exact h
  | raised e => exact h
  | _ => exact h.elim

theorem active_lookAtBackup (primaryDone : Bool) {backupDone : Bool} (hprimary : ¬ p.Healthy)
    (hbackup : backupDone = true → ¬ b.Healthy) :
    Active p b ⟨lookAtBackup p b backupDone p.frames.head? (taskChunk backupDone b),
      primaryDone, backupDone⟩ := by
  cases backupDone with
  | false => exact ⟨rfl, hprimary⟩
  | true =>
    rw [taskChunk_true]
    exact active_of_right (bothFailed_right primaryDone hprimary (hbackup rfl))

theorem active_settleBackup (primaryDone : Bool) (hprimary : p.frames ≠ [] ∨ p.failure = none) :
    Active p b ⟨settleBackup p b p.frames.head?, primaryDone, true⟩ := by
  unfold settleBackup
  rw [taskChunk_true]
  dsimp only
  by_cases hbackup : chunkOk b.frames.head? = true
  · rw [if_pos hbackup]
    exact active_of_right (returned_backup primaryDone true hbackup)
  · rw [if_neg hbackup]
    exact active_of_right (returned_failed primaryDone hbackup hprimary)

theorem active_settleRace {primaryDone backupDone : Bool}
    (hdone : (primaryDone || backupDone) = true) :
    Active p b ⟨settleRace p b primaryDone backupDone, primaryDone, backupDone⟩ := by
  unfold settleRace
  dsimp only
  cases primaryDone with
  | false =>
    -- the backup is the one that is done
    have hbackup : backupDone = true := hdone
    rw [hbackup, taskChunk_true, if_neg (show chunkOk (taskChunk false p) ≠ true from
      Bool.false_ne_true)]
    by_cases hbf : chunkOk b.frames.head? = true
    · rw [if_pos hbf]
      exact active_of_right (returned_backup false true hbf)
    · rw [if_neg hbf]
      exact ⟨rfl, rfl, hbf⟩
  | true =>
    rw [taskChunk_true]
    by_cases hpf : chunkOk p.frames.head? = true
    · rw [if_pos hpf]
      exact active_of_right (returned_primary true backupDone hpf)
    · rw [if_neg hpf]
      by_cases hbf : chunkOk (taskChunk backupDone b) = true
      · rw [if_pos hbf]
        cases backupDone with
        | false => cases hbf
        | true =>
          rw [taskChunk_true] at hbf ⊢
          exact active_of_right (returned_backup true true hbf)
      · rw [if_neg hbf]
        refine active_lookAtBackup true hpf fun hbackup => ?_
        rw [hbackup, taskChunk_true] at hbf
        exact hbf

theorem active_awaitedPrimary (hbackup : ¬ b.Healthy) :
    Active p b ⟨resume p b ⟨.awaitingPrimary b.frames.head?, true, true⟩, true, true⟩ := by
  have hresume : resume p b ⟨.awaitingPrimary b.frames.head?, true, true⟩ =
      if chunkOk (taskChunk true p) then .returned (replay (taskChunk true p) p.rest) .primary
      else bothFailed p b (taskChunk true p) b.frames.head? := rfl
  rw [hresume, taskChunk_true]
  by_cases hprimary : chunkOk p.frames.head? = true
  · rw [if_pos hprimary]
    exact active_of_right (returned_primary true true hprimary)
  · rw [if_neg hprimary]
    exact active_of_right (bothFailed_right true hprimary hbackup)

theorem active_awaitedBackup (primaryDone : Bool) (hprimary : ¬ p.Healthy) :
    Active p b
      ⟨resume p b ⟨.awaitingBackup p.frames.head?, primaryDone, true⟩, primaryDone, true⟩ := by
  have hresume : resume p b ⟨.awaitingBackup p.frames.head?, primaryDone, true⟩ =
      if chunkOk (taskChunk true b) then .returned (replay (taskChunk true b) b.rest) .backup
      else bothFailed p b p.frames.head? (taskChunk true b) := rfl
  rw [hresume, taskChunk_true]
  by_cases hbackup : chunkOk b.frames.head? = true
  · rw [if_pos hbackup]
    exact active_of_right (returned_backup primaryDone true hbackup)
  · rw [if_neg hbackup]
    exact active_of_right (bothFailed_right primaryDone hprimary hbackup)

theorem active_resume {s : RaceState} (h : Active p b s) :
    Active p b (raceStep p b s .resume) := by
  obtain ⟨phase, primaryDone, backupDone⟩ := s
  cases phase with
  | waiting => exact h.elim
  | returned stream winner => exact h
  | raised e => exact h
  | backupOnly primaryFirst =>
    obtain ⟨rfl, hprimary, hwhole⟩ := h
    cases backupDone with
    | false => exact ⟨rfl, hprimary, hwhole⟩
    | true => exact active_settleBackup primaryDone hwhole
  | racing =>
    by_cases hdone : (primaryDone || backupDone) = true
    · have hresume : resume p b ⟨.racing, primaryDone, backupDone⟩ =
          settleRace p b primaryDone backupDone := if_pos hdone
      show Active p b ⟨resume p b ⟨.racing, primaryDone, backupDone⟩, primaryDone, backupDone⟩
      rw [hresume]
      exact active_settleRace hdone
    · have hresume : resume p b ⟨.racing, primaryDone, backupDone⟩ = .racing := if_neg hdone
      show Active p b ⟨resume p b ⟨.racing, primaryDone, backupDone⟩, primaryDone, backupDone⟩
      rw [hresume]
      exact trivial
  | awaitingPrimary bf =>
    obtain ⟨rfl, hdone, hfailed⟩ := h
    have hbackup : backupDone = true := hdone
    cases primaryDone with
    | false => exact ⟨rfl, hdone, hfailed⟩
    | true =>
      rw [hbackup]
      exact active_awaitedPrimary hfailed
  | awaitingBackup pf =>
    obtain ⟨rfl, hprimary⟩ := h
    cases backupDone with
    | false => exact ⟨rfl, hprimary⟩
    | true => exact active_awaitedBackup primaryDone hprimary

/-- **Every event keeps it.** -/
theorem active_step {s : RaceState} (h : Active p b s) (e : RaceEvent) :
    Active p b (raceStep p b s e) := by
  cases e with
  | resume => exact active_resume h
  | timer =>
    obtain ⟨phase, primaryDone, backupDone⟩ := s
    cases phase with
    | waiting => exact h.elim
    | _ => exact h
  | primary =>
    obtain ⟨phase, primaryDone, backupDone⟩ := s
    cases phase <;> exact h
  | backup =>
    obtain ⟨phase, primaryDone, backupDone⟩ := s
    cases phase with
    | awaitingPrimary bf => exact ⟨h.1, rfl, h.2.2⟩
    | _ => exact h

theorem active_foldl {s : RaceState} (h : Active p b s) (order : List RaceEvent) :
    Active p b (order.foldl (raceStep p b) s) := by
  induction order generalizing s with
  | nil => exact h
  | cons e order ih => exact ih (active_step h e)

/-! ### The first phase -/

theorem active_settlePrimary (backupDone : Bool) (h : ¬ RaisesFirst p) :
    Active p b ⟨settlePrimary p, true, backupDone⟩ := by
  have hsettled : (p.frames ≠ [] ∨ p.failure = none) →
      Active p b ⟨if chunkOk p.frames.head? then .returned (replay p.frames.head? p.rest) .primary
        else .backupOnly p.frames.head?, true, backupDone⟩ := by
    intro hwhole
    by_cases hprimary : chunkOk p.frames.head? = true
    · rw [if_pos hprimary]
      exact active_of_right (returned_primary true backupDone hprimary)
    · rw [if_neg hprimary]
      exact ⟨rfl, hprimary, hwhole⟩
  obtain ⟨frames, failure⟩ := p
  cases frames with
  | cons c frames => exact hsettled (Or.inl (List.cons_ne_nil c frames))
  | nil =>
    cases failure with
    | none => exact hsettled (Or.inr rfl)
    | some e =>
      have htimeout : e.timeout = true := by
        by_contra hnot
        exact h ⟨rfl, e, rfl, eq_false_of_ne_true hnot⟩
      have hphase : settlePrimary ⟨[], some e⟩ = .racing := if_pos htimeout
      rw [hphase]
      exact trivial

theorem active_of_waiting {done : Bool} {order : List RaceEvent}
    (htimer : RaceEvent.timer ∈ order) (h : ¬ (RaisesFirst p ∧ seenInTime done order = true)) :
    Active p b (order.foldl (raceStep p b) ⟨.waiting, done, false⟩) := by
  induction order generalizing done with
  | nil => exact absurd htimer List.not_mem_nil
  | cons e order ih =>
    cases e with
    | timer =>
      have hracing : Active p b ⟨.racing, done, false⟩ := trivial
      exact active_foldl hracing order
    | primary => exact ih ((List.mem_cons.mp htimer).resolve_left (by decide)) h
    | backup => exact ih ((List.mem_cons.mp htimer).resolve_left (by decide)) h
    | resume =>
      cases done with
      | false => exact ih ((List.mem_cons.mp htimer).resolve_left (by decide)) h
      | true => exact active_foldl (active_settlePrimary false fun hraises => h ⟨hraises, rfl⟩) order

theorem raised_foldl (e : RaceError) (done : Bool) (order : List RaceEvent) :
    ∃ done', order.foldl (raceStep p b) ⟨.raised e, done, false⟩ = ⟨.raised e, done', false⟩ := by
  induction order generalizing done with
  | nil => exact ⟨done, rfl⟩
  | cons event order ih =>
    cases event with
    | primary => exact ih true
    | _ => exact ih done

theorem raised_of_seen {done : Bool} {order : List RaceEvent} (h : RaisesFirst p)
    (hseen : seenInTime done order = true) :
    ∃ e done', order.foldl (raceStep p b) ⟨.waiting, done, false⟩ = ⟨.raised e, done', false⟩ := by
  induction order generalizing done with
  | nil => cases hseen
  | cons event order ih =>
    cases event with
    | timer => cases hseen
    | primary => exact ih hseen
    | backup => exact ih hseen
    | resume =>
      cases done with
      | false => exact ih hseen
      | true =>
        obtain ⟨hframes, e, hfailure, htimeout⟩ := h
        have hphase : settlePrimary p = .raised (.stream e) := by
          obtain ⟨frames, failure⟩ := p
          obtain rfl : frames = [] := hframes
          obtain rfl : failure = some e := hfailure
          exact if_neg (ne_true_of_eq_false htimeout)
        obtain ⟨done', hrest⟩ := raised_foldl (p := p) (b := b) (.stream e) true order
        refine ⟨.stream e, done', ?_⟩
        show order.foldl (raceStep p b) ⟨settlePrimary p, true, false⟩ = _
        rw [hphase]
        exact hrest

theorem seenInTime_completing (done : Bool) (order : List RaceEvent) :
    seenInTime done (order ++ completing) = seenInTime done order := by
  induction order generalizing done with
  | nil => rfl
  | cons e order ih =>
    cases e with
    | timer => rfl
    | primary => exact ih true
    | backup => exact ih done
    | resume => exact congrArg (done || ·) (ih done)

/-! ### Every race ends -/

def Phase.Ended : Phase → Prop
  | .returned _ _ => True
  | .raised _ => True
  | _ => False

theorem bothFailed_ended (pf bf : Option SseFrame) : (bothFailed p b pf bf).Ended := by
  unfold bothFailed
  split
  · exact trivial
  · split
    · exact trivial
    · split <;> exact trivial

theorem ite_ended {q : Prop} [Decidable q] {x y : Phase} (hx : x.Ended) (hy : y.Ended) :
    (if q then x else y).Ended := by
  split
  · exact hx
  · exact hy

theorem completing_ended (s : RaceState) :
    (completing.foldl (raceStep p b) s).phase.Ended := by
  have hboth := fun pf bf => bothFailed_ended (p := p) (b := b) pf bf
  have hrace : (settleRace p b true true).Ended :=
    ite_ended trivial (ite_ended trivial (hboth _ _))
  obtain ⟨phase, primaryDone, backupDone⟩ := s
  cases phase with
  | waiting => exact hrace
  | racing => exact hrace
  | backupOnly primaryFirst => exact ite_ended trivial trivial
  | awaitingPrimary bf => exact ite_ended trivial (hboth _ _)
  | awaitingBackup pf => exact ite_ended trivial (hboth _ _)
  | returned stream winner => exact trivial
  | raised e => exact trivial

theorem right_of_active {s : RaceState} (h : Active p b s) (hended : s.phase.Ended) :
    RaceRight p b s := by
  obtain ⟨phase, primaryDone, backupDone⟩ := s
  cases phase with
  | returned stream winner => exact h
  | raised e => exact h
  | _ => exact hended.elim

end

/-- **A hedge race does no worse than its best stream**, for every two streams and every order of
the timer and the first chunks, unless the primary raises before its first chunk and is seen to
before the timer fires. -/
theorem race_right_iff (p b : SseStream) (order : List RaceEvent) :
    RaceRight p b (raceStreams p b order) ↔
      ¬ (RaisesFirst p ∧ seenInTime false order = true) := by
  rw [← seenInTime_completing]
  constructor
  · intro h ⟨hraises, hseen⟩
    obtain ⟨e, done, hend⟩ := raised_of_seen (b := b) hraises hseen
    have hphase : raceStreams p b order = ⟨.raised e, done, false⟩ := hend
    rw [hphase] at h
    exact Bool.false_ne_true h.2.1
  · intro h
    have hactive : Active p b (raceStreams p b order) :=
      active_of_waiting (List.mem_append_right order List.mem_cons_self) h
    have hended : (raceStreams p b order).phase.Ended := by
      unfold raceStreams
      rw [List.foldl_append]
      exact completing_ended _
    exact right_of_active hactive hended

/-- The primary's connection fails at once, and the backup is healthy. -/
def refusedPrimary : SseStream := ⟨[], some ⟨"ConnectError", false⟩⟩

def healthyBackup : SseStream :=
  { frames := ["data: \x7b\"type\":\"message_start\"\x7d\n\n".toList] }

/-- The exception leaves the race, and the backup is not started. -/
theorem refused_primary_raises :
    healthyBackup.Healthy ∧
      ¬ RaceRight refusedPrimary healthyBackup
        (raceStreams refusedPrimary healthyBackup [.primary, .resume]) := by
  have hhealthy : chunkOk healthyBackup.frames.head? = true := by decide +kernel
  refine ⟨hhealthy, fun h => ?_⟩
  exact Bool.false_ne_true h.2.1

end LlmProxy.Streaming
