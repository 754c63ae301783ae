import LlmProxy.Runs.EventBus

/-! # Numbering the events of a run

Every emitter of run events numbers them alike (`_emit` in `app/runs/worker.py`,
`_emit_event` in `app/api/runs.py`): it reads `max(seq)` in its own session, adds a row
with the next number and commits later. The worker, the rate-limit callback, the endpoints
and the recovery sweep each have a session of their own, and `run_events` has no unique
constraint on `(run_id, seq)`.

> `event_seqs_unique_iff`: the committed numbers are pairwise distinct throughout a run of
> the emitters exactly when no emitter commits events numbered before another's commit.
> Then the log is numbered 1, 2, 3, … in order, and the rows after any `Last-Event-ID` are
> exactly the ones that id has not seen.

Mirroring notes.
* A session sees its own uncommitted rows (the read flushes them first) and the committed
  rows of the others.
* An emitter that fails rolls its session back.
-/

namespace LlmProxy.Runs

/-- `(func.max(RunEvent.seq) or 0) + 1` over the rows a session sees. -/
def nextSeq (rows : List Event) : Int := rows.foldl (fun m e => max m e.seq) 0 + 1

/-- The committed rows of the run, and the uncommitted ones of each session. -/
structure Emitters where
  log : List Event := []
  pending : Nat → List Event := fun _ => []

inductive EmitAction where
  | emit (i : Nat) (kind : RunEventKind) (payload : Payload) (ts : Time)
  | commit (i : Nat)
  | rollback (i : Nat)
  deriving DecidableEq, Repr

def Emitters.setPending (s : Emitters) (i : Nat) (rows : List Event) : Emitters :=
  { s with pending := fun j => if j = i then rows else s.pending j }

def Emitters.numbered (s : Emitters) (i : Nat) (kind : RunEventKind) (payload : Payload)
    (ts : Time) : Event :=
  ⟨nextSeq (s.log ++ s.pending i), kind, payload, ts⟩

def Emitters.step (s : Emitters) : EmitAction → Emitters
  | .emit i kind payload ts =>
    s.setPending i (s.pending i ++ [s.numbered i kind payload ts])
  | .commit i => { s.setPending i [] with log := s.log ++ s.pending i }
  | .rollback i => s.setPending i []

/-- What a session commits was numbered after all that is committed. -/
def CommitsInTurn (s : Emitters) : EmitAction → Prop
  | .commit i => ∀ e ∈ (s.pending i).head?, e.seq = nextSeq s.log
  | _ => True

/-! ## Consecutive numbers -/

/-- The rows are numbered `n + 1`, `n + 2`, … -/
def Numbered : Int → List Event → Prop
  | _, [] => True
  | n, e :: rows => e.seq = n + 1 ∧ Numbered (n + 1) rows

theorem numbered_append {n : Int} {rows rows' : List Event} :
    Numbered n (rows ++ rows') ↔ Numbered n rows ∧ Numbered (n + rows.length) rows' := by
  induction rows generalizing n with
  | nil => simp [Numbered]
  | cons e rows ih =>
    rw [List.cons_append, Numbered, Numbered, ih, and_assoc, List.length_cons]
    rw [show n + 1 + (rows.length : Int) = n + ((rows.length + 1 : Nat) : Int) by omega]

theorem numbered_bounds {n : Int} {rows : List Event} (h : Numbered n rows) :
    ∀ e ∈ rows, n < e.seq ∧ e.seq ≤ n + rows.length := by
  induction rows generalizing n with
  | nil =>
    intro e he
    cases he
  | cons a rows ih =>
    intro e he
    have hlen : ((a :: rows).length : Int) = rows.length + 1 := by simp
    rcases List.mem_cons.mp he with rfl | he
    · have := h.1
      omega
    · have := ih h.2 e he
      omega

theorem numbered_nodup {n : Int} {rows : List Event} (h : Numbered n rows) :
    (rows.map Event.seq).Nodup := by
  induction rows generalizing n with
  | nil => exact List.nodup_nil
  | cons a rows ih =>
    rw [List.map_cons, List.nodup_cons]
    refine ⟨?_, ih h.2⟩
    intro hmem
    obtain ⟨e, he, heq⟩ := List.mem_map.mp hmem
    have := numbered_bounds h.2 e he
    have := h.1
    omega

theorem numbered_mem {n k : Int} {rows : List Event} (h : Numbered n rows) (hlo : n < k)
    (hhi : k ≤ n + rows.length) : ∃ e ∈ rows, e.seq = k := by
  induction rows generalizing n with
  | nil =>
    rw [List.length_nil] at hhi
    omega
  | cons a rows ih =>
    rw [List.length_cons] at hhi
    by_cases hk : k = n + 1
    · exact ⟨a, List.mem_cons_self, by rw [hk]; exact h.1⟩
    · obtain ⟨e, he, heq⟩ := ih h.2 (by omega) (by omega)
      exact ⟨e, List.mem_cons_of_mem a he, heq⟩

theorem foldl_max_numbered {n : Int} {rows : List Event} (h : Numbered n rows) :
    rows.foldl (fun m e => max m e.seq) n = n + rows.length := by
  induction rows generalizing n with
  | nil => simp
  | cons e rows ih =>
    rw [List.foldl_cons, h.1, show max n (n + 1) = n + 1 by omega, ih h.2, List.length_cons]
    omega

theorem nextSeq_numbered {rows : List Event} (h : Numbered 0 rows) :
    nextSeq rows = rows.length + 1 := by
  unfold nextSeq
  rw [foldl_max_numbered h]
  omega

theorem eventsAfter_numbered {n : Int} {rows : List Event} (h : Numbered n rows) (k : Nat) :
    eventsAfter (n + k) rows = rows.drop k := by
  induction rows generalizing n k with
  | nil => simp [eventsAfter]
  | cons e rows ih =>
    cases k with
    | zero =>
      rw [List.drop_zero]
      refine List.filter_eq_self.mpr fun a ha => ?_
      have := numbered_bounds h a ha
      simpa using this.1
    | succ k =>
      have hfirst : ¬ n + ((k + 1 : Nat) : Int) < e.seq := by
        have := h.1
        omega
      rw [List.drop_succ_cons, ← ih h.2 k]
      unfold eventsAfter
      rw [List.filter_cons_of_neg (by simpa using hfirst)]
      rw [show n + 1 + (k : Int) = n + ((k + 1 : Nat) : Int) by omega]

/-! ## The emitters -/

/-- The log is numbered in order; the first row of a session was numbered after some row of
the log, and if that row is still the last, the session's rows go on from it. -/
structure InTurn (s : Emitters) : Prop where
  log : Numbered 0 s.log
  first : ∀ i, ∀ e ∈ (s.pending i).head?, 1 ≤ e.seq ∧ e.seq ≤ s.log.length + 1
  rest : ∀ i, (∀ e ∈ (s.pending i).head?, e.seq = s.log.length + 1) →
    Numbered s.log.length (s.pending i)

theorem inTurn_fresh : InTurn {} where
  log := trivial
  first i e he := by cases he
  rest i _ := trivial

theorem InTurn.setPending {s : Emitters} (h : InTurn s) (i : Nat) {rows : List Event}
    (hfirst : ∀ e ∈ rows.head?, 1 ≤ e.seq ∧ e.seq ≤ s.log.length + 1)
    (hrest : (∀ e ∈ rows.head?, e.seq = s.log.length + 1) → Numbered s.log.length rows) :
    InTurn (s.setPending i rows) := by
  refine ⟨h.log, fun j => ?_, fun j => ?_⟩
  · by_cases hj : j = i
    · simpa [Emitters.setPending, hj] using hfirst
    · simpa [Emitters.setPending, hj] using h.first j
  · by_cases hj : j = i
    · simpa [Emitters.setPending, hj] using hrest
    · simpa [Emitters.setPending, hj] using h.rest j

theorem InTurn.emit {s : Emitters} (h : InTurn s) (i : Nat) (kind : RunEventKind)
    (payload : Payload) (ts : Time) : InTurn (s.step (.emit i kind payload ts)) := by
  refine h.setPending i ?_ ?_
  · cases hp : s.pending i with
    | nil =>
      intro e he
      cases he
      show 1 ≤ nextSeq (s.log ++ s.pending i) ∧ nextSeq (s.log ++ s.pending i) ≤ _
      rw [hp, List.append_nil, nextSeq_numbered h.log]
      constructor <;> omega
    | cons a rows =>
      have hold := h.first i
      rw [hp] at hold
      intro e he
      exact hold e he
  · intro hlast
    have hnum : Numbered s.log.length (s.pending i) := by
      refine h.rest i fun e he => hlast e ?_
      cases hp : s.pending i with
      | nil =>
        rw [hp] at he
        cases he
      | cons a rows =>
        rw [hp] at he
        exact he
    -- the session reads the log and, behind it, its own rows
    have hall : Numbered 0 (s.log ++ s.pending i) := by
      refine numbered_append.mpr ⟨h.log, ?_⟩
      rw [Int.zero_add]
      exact hnum
    refine numbered_append.mpr ⟨hnum, ?_, trivial⟩
    show nextSeq (s.log ++ s.pending i) = _
    rw [nextSeq_numbered hall, List.length_append]
    omega

theorem InTurn.commit {s : Emitters} (h : InTurn s) {i : Nat}
    (hturn : CommitsInTurn s (.commit i)) : InTurn (s.step (.commit i)) := by
  have hseq := nextSeq_numbered h.log
  have hnum : Numbered s.log.length (s.pending i) := by
    refine h.rest i fun e he => ?_
    rw [hturn e he, hseq]
  have hlog : Numbered 0 (s.log ++ s.pending i) := by
    refine numbered_append.mpr ⟨h.log, ?_⟩
    rw [Int.zero_add]
    exact hnum
  have hlen : ((s.log ++ s.pending i).length : Int) = s.log.length + (s.pending i).length := by
    simp
  refine ⟨hlog, fun j e he => ?_, fun j hlast => ?_⟩
  · by_cases hj : j = i
    · simp [Emitters.step, Emitters.setPending, hj] at he
    · have hold := h.first j e (by simpa [Emitters.step, Emitters.setPending, hj] using he)
      show 1 ≤ e.seq ∧ e.seq ≤ ((s.log ++ s.pending i).length : Int) + 1
      omega
  · by_cases hj : j = i
    · have hnil : (s.step (.commit i)).pending j = [] := by
        simp [Emitters.step, Emitters.setPending, hj]
      rw [hnil]
      trivial
    · have hsame : (s.step (.commit i)).pending j = s.pending j := by
        simp [Emitters.step, Emitters.setPending, hj]
      rw [hsame] at hlast ⊢
      cases hp : s.pending j with
      | nil => trivial
      | cons a rows =>
        -- its first row cannot have been numbered past what has just been committed
        have hfirst := h.first j a (by rw [hp]; rfl)
        have hlast' : a.seq = ((s.log ++ s.pending i).length : Int) + 1 :=
          hlast a (by rw [hp]; rfl)
        have hnone : (s.pending i).length = 0 := by omega
        have hlog' : ((s.step (.commit i)).log.length : Int) = s.log.length := by
          show ((s.log ++ s.pending i).length : Int) = _
          omega
        rw [hlog', ← hp]
        refine h.rest j fun e he => ?_
        have := hlast e he
        rw [hlog'] at this
        exact this

theorem seqs_nodup_step_iff {s : Emitters} (h : InTurn s) (a : EmitAction) :
    ((s.step a).log.map Event.seq).Nodup ↔ CommitsInTurn s a := by
  cases a with
  | emit i kind payload ts => exact iff_of_true (numbered_nodup h.log) trivial
  | rollback i => exact iff_of_true (numbered_nodup h.log) trivial
  | commit i =>
    constructor
    · intro hnodup e he
      -- a number at or below the last is taken
      refine Decidable.byContradiction fun hne => ?_
      obtain ⟨hlo, hhi⟩ := h.first i e he
      rw [nextSeq_numbered h.log] at hne
      obtain ⟨e', he', heq⟩ := numbered_mem h.log (k := e.seq) (by omega) (by omega)
      have hmem : e ∈ s.pending i := List.mem_of_mem_head? he
      have hdisj := (List.nodup_append.mp
        (show ((s.log.map Event.seq) ++ (s.pending i).map Event.seq).Nodup by
          rw [← List.map_append]
          exact hnodup)).2.2
      exact hdisj e'.seq (List.mem_map_of_mem he') e.seq (List.mem_map_of_mem hmem) heq
    · intro hturn
      exact numbered_nodup (h.commit hturn).log

theorem InTurn.step {s : Emitters} (h : InTurn s) {a : EmitAction} (hturn : CommitsInTurn s a) :
    InTurn (s.step a) := by
  cases a with
  | emit i kind payload ts => exact h.emit i kind payload ts
  | commit i => exact h.commit hturn
  | rollback i => exact h.setPending i (fun e he => (nomatch he)) fun _ => trivial

/-- **When event numbers are unique.** In every interleaving of the emitters of a run, the
committed numbers are pairwise distinct in every state reached exactly when every commit is
in turn; and then the rows after any `Last-Event-ID` are the ones not yet seen, each once
and in order. -/
theorem event_seqs_unique_iff (as : List EmitAction) :
    (Trace.Along Emitters.step (fun s a => ((s.step a).log.map Event.seq).Nodup) {} as ↔
      Trace.Along Emitters.step CommitsInTurn {} as) ∧
    (Trace.Along Emitters.step CommitsInTurn {} as → ∀ last : Nat,
      eventsAfter last (Trace.run Emitters.step {} as).log =
        (Trace.run Emitters.step {} as).log.drop last) := by
  constructor
  · exact Trace.along_iff (I := InTurn) (V := fun _ _ => True)
      (fun _ a h _ => seqs_nodup_step_iff h a) (fun _ _ h _ hg => h.step hg) inTurn_fresh
      (Trace.along_of_forall fun _ _ => trivial)
  · intro hturn last
    have hinv : InTurn (Trace.run Emitters.step {} as) :=
      Trace.run_inv_of_along (I := InTurn) (fun _ _ h hg => h.step hg) inTurn_fresh hturn
    have := eventsAfter_numbered hinv.log last
    rwa [Int.zero_add] at this

/-- The worker numbers the start of a model call; a cancel numbers, and commits, its event
before the worker commits. -/
theorem two_emitters_take_one_number :
    (Trace.run Emitters.step {}
      [.emit 0 .runStarted .empty 1, .commit 0, .emit 0 .modelCallStart (.report "") 2,
        .emit 1 .cancelled .empty 3, .commit 1, .commit 0]).log.map Event.seq = [1, 2, 2] := by
  decide

end LlmProxy.Runs
