import LlmProxy.Runs.EventBus

/-! # When a live event stream is complete

A consumer owes its client the events after `last_event_id` that were in the ring when it
attached or are published later. What it has yielded and what it will still yield without
any further publish (`total`) never changes while it runs on its own (`resume_total`), so
the question is which publishes and attaches keep `total` in step with what is due.

> a publish while the consumer sits in its live loop does: the event reaches the queue;
> a publish while it is suspended inside the replay does not: the replay list was taken
> at the attach and the queue does not exist yet, so the event reaches the ring only. If
> it was the terminal event, the consumer then finds the channel closed and returns.

`stream_complete_iff`: as long as its queue does not overflow, a consumer is complete in
every state of a run exactly when no event that concerns it is published while it replays,
and it did not attach to a closed channel whose end it claims to have seen.
-/

namespace LlmProxy.Runs

/-! ## What a consumer has yielded and has in hand -/

def Item.event? : Item → Option Event
  | .event e => some e
  | .keepalive _ => none

def Consumer.events (c : Consumer) : List Event := c.yielded.filterMap Item.event?

/-- The events it holds and will yield before it next waits or returns. -/
def Phase.pending : Phase → List Event
  | .idle => []
  | .replaying rest => rest
  | .live queue _ => (queue.takeWhile Option.isSome).filterMap id
  | .returned => []

def Consumer.total (c : Consumer) : List Event := c.events ++ c.phase.pending

/-- A consumer resumed a number of times, with nothing published in between. -/
def Consumer.resumes (closed : Bool) (c : Consumer) : Nat → Consumer
  | 0 => c
  | k + 1 => (c.resume closed).resumes closed k

/-- The consumer after `k` turns of its own. -/
def Bus.drained (b : Bus) (i k : Nat) : Consumer :=
  (Trace.run Bus.step b (List.replicate k (.resume i))).consumers i

/-- The stream of consumer `i` is complete in this state: however long it runs on, it
yields a part from the front of what is due; it gets to all of it; and it does not return
without having yielded the terminal event. -/
structure Complete (i : Nat) (b : Bus) : Prop where
  ordered : ∀ k, eventsAfter (b.consumers i).since (b.drained i k).events <+:
    (b.consumers i).due
  delivered : ∃ k, eventsAfter (b.consumers i).since (b.drained i k).events =
    (b.consumers i).due
  closes : ∀ k, (b.drained i k).phase = .returned →
    ∃ e ∈ (b.drained i k).events, e.kind.terminal = true

/-! ## The consumer on its own -/

theorem drained_eq (b : Bus) (i k : Nat) :
    b.drained i k = (b.consumers i).resumes b.closed k := by
  induction k generalizing b with
  | zero => rfl
  | succ k ih =>
    show (b.step (.resume i)).drained i k = _
    rw [ih]
    simp [Bus.step, Bus.setConsumer, Consumer.resumes]

@[simp] theorem emit_events (c : Consumer) (e : Event) (phase : Phase) :
    (c.emit e phase).events = c.events ++ [e] := by
  simp [Consumer.emit, Consumer.events, Item.event?]

@[simp] theorem emit_phase (c : Consumer) (e : Event) (phase : Phase) :
    (c.emit e phase).phase = phase := rfl

@[simp] theorem afterReplay_events (c : Consumer) (closed : Bool) :
    (c.afterReplay closed).events = c.events := rfl

theorem afterReplay_pending (c : Consumer) (closed : Bool) :
    (c.afterReplay closed).phase.pending = [] := by
  cases closed <;> rfl

theorem replay_events (c : Consumer) (closed : Bool) (rest : List Event) :
    (c.replay closed rest).events = c.events ++ rest.take 1 := by
  cases rest with
  | nil => simp [Consumer.replay]
  | cons e rest => simp [Consumer.replay]

theorem replay_pending (c : Consumer) (closed : Bool) (rest : List Event) :
    (c.replay closed rest).phase.pending = rest.tail := by
  cases rest with
  | nil => exact afterReplay_pending c closed
  | cons e rest => rfl

theorem resume_events (c : Consumer) (closed : Bool) :
    (c.resume closed).events = c.events ++ c.phase.pending.take 1 := by
  unfold Consumer.resume
  split
  · next h => simp [h, Phase.pending]
  · next rest h => rw [replay_events, h, Phase.pending]
  · next e queue sub h => simp [h, Phase.pending]
  · next h => simp [h, Phase.pending, Consumer.events]
  · next h => simp [h, Phase.pending]
  · next h => simp [h, Phase.pending]

theorem resume_pending (c : Consumer) (closed : Bool) :
    (c.resume closed).phase.pending = c.phase.pending.tail := by
  unfold Consumer.resume
  split
  · next h => simp [h, Phase.pending]
  · next rest h => rw [replay_pending, h, Phase.pending]
  · next e queue sub h => simp [h, Phase.pending]
  · next h => simp [h, Phase.pending]
  · next h => simp [h, Phase.pending]
  · next h => simp [h, Phase.pending]

theorem resume_total (c : Consumer) (closed : Bool) : (c.resume closed).total = c.total := by
  unfold Consumer.total
  rw [resume_events, resume_pending, List.append_assoc]
  cases c.phase.pending <;> rfl

theorem replay_since (c : Consumer) (closed : Bool) (rest : List Event) :
    (c.replay closed rest).since = c.since ∧ (c.replay closed rest).due = c.due := by
  cases rest <;> exact ⟨rfl, rfl⟩

@[simp] theorem resume_since (c : Consumer) (closed : Bool) :
    (c.resume closed).since = c.since ∧ (c.resume closed).due = c.due := by
  unfold Consumer.resume
  split
  · exact ⟨rfl, rfl⟩
  · exact replay_since c closed _
  all_goals exact ⟨rfl, rfl⟩

theorem resumes_total (c : Consumer) (closed : Bool) (k : Nat) :
    (c.resumes closed k).total = c.total := by
  induction k generalizing c with
  | zero => rfl
  | succ k ih => rw [Consumer.resumes, ih, resume_total]

theorem resumes_pending (c : Consumer) (closed : Bool) (k : Nat) :
    (c.resumes closed k).phase.pending = c.phase.pending.drop k := by
  induction k generalizing c with
  | zero => rfl
  | succ k ih => rw [Consumer.resumes, ih, resume_pending, List.drop_tail]

theorem events_prefix_total (c : Consumer) : c.events <+: c.total :=
  List.prefix_append c.events c.phase.pending

theorem prefix_resumes_events (c : Consumer) (closed : Bool) (k : Nat) :
    (c.resumes closed k).events <+: c.total := by
  rw [← resumes_total c closed k]
  exact events_prefix_total _

theorem resumes_events_all (c : Consumer) (closed : Bool) :
    (c.resumes closed c.phase.pending.length).events = c.total := by
  have htotal := resumes_total c closed c.phase.pending.length
  unfold Consumer.total at htotal
  rw [resumes_pending, List.drop_length, List.append_nil] at htotal
  exact htotal

theorem resumes_replaying_closed {rest : List Event} {c : Consumer}
    (h : c.phase = .replaying rest) :
    (c.resumes true (rest.length + 1)).phase = .returned := by
  induction rest generalizing c with
  | nil => simp [Consumer.resumes, Consumer.resume, h, Consumer.replay, Consumer.afterReplay]
  | cons e rest ih =>
    rw [List.length_cons, Consumer.resumes]
    refine ih ?_
    simp [Consumer.resume, h, Consumer.replay]

/-! ## The invariant -/

/-- The consumer has, in hand or out, exactly what is due; it has the terminal event exactly
when the channel is closed; and its queue ends in the sentinel exactly then. -/
structure Sound (closed : Bool) (c : Consumer) : Prop where
  total : eventsAfter c.since c.total = c.due
  terminal : c.phase ≠ .idle → (closed = true ↔ ∃ e ∈ c.total, e.kind.terminal = true)
  queue : ∀ q sub, c.phase = .live q sub →
    sub = true ∧ ∃ es : List Event, q = es.map some ++ if closed then [none] else []
  returned : c.phase = .returned → closed = true
  fresh : c.phase = .idle → c.events = [] ∧ c.due = []

theorem Sound.resume {closed : Bool} {c : Consumer} (h : Sound closed c) :
    Sound closed (c.resume closed) := by
  have hnotIdle : (c.resume closed).phase ≠ .idle → c.phase ≠ .idle := by
    intro hne hidle
    refine hne ?_
    simp [Consumer.resume, hidle]
  have hidle : (c.resume closed).phase = .idle → c.resume closed = c := by
    intro hidle
    unfold Consumer.resume at hidle ⊢
    split at hidle
    · rfl
    · next rest hphase =>
      cases rest <;> cases closed <;> cases hidle
    all_goals first | rfl | cases hidle
  refine ⟨?_, ?_, ?_, ?_, ?_⟩
  · rw [resume_total, (resume_since c closed).1, (resume_since c closed).2]
    exact h.total
  · intro hne
    rw [resume_total]
    exact h.terminal (hnotIdle hne)
  · intro q sub hlive
    unfold Consumer.resume at hlive
    split at hlive
    · next hphase =>
      rw [hphase] at hlive
      cases hlive
    · next rest hphase =>
      -- only the end of the replay on an open channel leads to the live loop
      cases rest with
      | cons e rest => cases hlive
      | nil =>
        cases closed with
        | true => cases hlive
        | false =>
          cases hlive
          exact ⟨rfl, [], rfl⟩
    · next e queue sub' hphase =>
      obtain ⟨hsub, es, hq⟩ := h.queue _ _ hphase
      cases hlive
      refine ⟨hsub, es.tail, ?_⟩
      cases es with
      | nil => cases closed <;> cases hq
      | cons e' es =>
        simp only [List.map_cons, List.cons_append, List.cons.injEq] at hq
        exact hq.2
    · cases hlive
    · next sub' hphase => exact h.queue _ _ hlive
    · next hphase =>
      rw [hphase] at hlive
      cases hlive
  · intro hret
    unfold Consumer.resume at hret
    split at hret
    · next hphase =>
      rw [hphase] at hret
      cases hret
    · next rest hphase =>
      cases rest with
      | cons e rest => cases hret
      | nil =>
        cases closed with
        | true => rfl
        | false => cases hret
    · cases hret
    · next queue sub hphase =>
      obtain ⟨_, es, hq⟩ := h.queue _ _ hphase
      cases closed with
      | true => rfl
      | false => cases es <;> cases hq
    · next hphase =>
      rw [hphase] at hret
      cases hret
    · next hphase => exact h.returned hphase
  · intro hi
    have hsame := hidle hi
    rw [hsame] at hi ⊢
    exact h.fresh hi

theorem Sound.resumes {closed : Bool} {c : Consumer} (h : Sound closed c) (k : Nat) :
    Sound closed (c.resumes closed k) := by
  induction k generalizing c with
  | zero => exact h
  | succ k ih => exact ih h.resume

theorem prefix_eventsAfter {l l' : List Event} (h : l <+: l') (last : Int) :
    eventsAfter last l <+: eventsAfter last l' := h.filter _

theorem Sound.complete {b : Bus} {i : Nat} (h : Sound b.closed (b.consumers i)) :
    Complete i b := by
  refine ⟨?_, ⟨(b.consumers i).phase.pending.length, ?_⟩, ?_⟩
  · intro k
    rw [drained_eq, ← h.total]
    exact prefix_eventsAfter (prefix_resumes_events _ _ k) _
  · rw [drained_eq, resumes_events_all]
    exact h.total
  · intro k hret
    rw [drained_eq] at hret ⊢
    have hk := h.resumes k
    obtain ⟨e, he, hterm⟩ := (hk.terminal (by rw [hret]; simp)).mp (hk.returned hret)
    refine ⟨e, ?_, hterm⟩
    unfold Consumer.total at he
    rw [hret] at he
    simpa [Phase.pending] using he

/-- An open channel has seen no terminal event. -/
def RingOpen (b : Bus) : Prop :=
  b.closed = false → ∀ e ∈ b.ring, e.kind.terminal = false

/-! ## The conditions on a step -/

/-- The queue of consumer `i` takes what a publish puts on it. -/
def Fits (i : Nat) (b : Bus) : BusAction → Prop
  | .publish e => b.closed = false → ∀ q sub, (b.consumers i).phase = .live q sub →
      q.length + (if e.kind.terminal then 2 else 1) ≤ 2 * ringSize
  | _ => True

/-- No event that concerns consumer `i` is published while it is suspended in its replay,
and it does not attach to a closed channel from its end. -/
def Attentive (i : Nat) (b : Bus) : BusAction → Prop
  | .publish e => b.closed = false → ∀ rest, (b.consumers i).phase = .replaying rest →
      e.seq ≤ (b.consumers i).since ∧ e.kind.terminal = false
  | .attach j last => j = i → (b.consumers i).phase = .idle → b.closed = true →
      ∃ e ∈ b.ring, e.kind.terminal = true ∧ last < e.seq
  | _ => True

/-! ## A publish -/

theorem receive_idle {c : Consumer} (h : c.phase = .idle) (e : Event) : c.receive e = c := by
  unfold Consumer.receive Consumer.owe
  simp only [h, Consumer.offer, Consumer.wake, ite_self]

theorem receive_replaying {c : Consumer} {rest : List Event} (h : c.phase = .replaying rest)
    (e : Event) : c.receive e = { c with due := c.due ++ eventsAfter c.since [e] } := by
  unfold Consumer.receive Consumer.owe
  simp only [h, Consumer.offer, Consumer.wake, ite_self]

theorem receive_live {c : Consumer} {q : List (Option Event)} {e : Event}
    (h : c.phase = .live q true)
    (hfits : q.length + (if e.kind.terminal then 2 else 1) ≤ 2 * ringSize) :
    c.receive e =
      { c with
        due := c.due ++ eventsAfter c.since [e]
        phase := .live (q ++ some e :: if e.kind.terminal then [none] else []) true } := by
  unfold Consumer.receive Consumer.owe
  cases hterm : e.kind.terminal with
  | false =>
    rw [hterm] at hfits
    have hlt : q.length < 2 * ringSize := by simp at hfits; omega
    simp [h, Consumer.offer, hlt]
  | true =>
    rw [hterm] at hfits
    have hlt : q.length < 2 * ringSize := by simp at hfits; omega
    have hlt' : q.length + 1 < 2 * ringSize := by simp at hfits; omega
    simp [h, Consumer.offer, Consumer.wake, hlt, hlt']

theorem pending_live (es : List Event) (tail : List (Option Event)) (sub : Bool)
    (htail : tail = [] ∨ tail = [none]) :
    (Phase.live (es.map some ++ tail) sub).pending = es := by
  induction es with
  | nil => rcases htail with rfl | rfl <;> rfl
  | cons e es ih =>
    simp only [Phase.pending, List.map_cons, List.cons_append, Option.isSome_some,
      List.takeWhile_cons_of_pos, List.filterMap_cons, id_eq, List.cons.injEq, true_and]
    exact ih

theorem Sound.publish {c : Consumer} {e : Event} (h : Sound false c)
    (hfits : ∀ q sub, c.phase = .live q sub →
      q.length + (if e.kind.terminal then 2 else 1) ≤ 2 * ringSize)
    (hreplay : ∀ rest, c.phase = .replaying rest →
      e.seq ≤ c.since ∧ e.kind.terminal = false) :
    Sound e.kind.terminal (c.receive e) := by
  cases hphase : c.phase with
  | idle =>
    rw [receive_idle hphase]
    refine ⟨h.total, fun hne => absurd hphase hne, ?_, ?_, h.fresh⟩
    · intro q sub hl
      rw [hphase] at hl
      cases hl
    · intro hr
      rw [hphase] at hr
      cases hr
  | replaying rest =>
    -- the event is below what the consumer asked for, so nothing more is due
    obtain ⟨hseq, hterm⟩ := hreplay rest hphase
    have hnone : eventsAfter c.since [e] = [] := by
      simp [eventsAfter, Int.not_lt.mpr hseq]
    rw [receive_replaying hphase, hnone, List.append_nil, hterm]
    exact h
  | live q sub =>
    obtain ⟨rfl, es, hq⟩ := h.queue q sub hphase
    have hpend : c.phase.pending = es := by
      rw [hphase, hq]
      exact pending_live es [] true (Or.inl rfl)
    have hqueue : q ++ some e :: (if e.kind.terminal then [none] else []) =
        (es ++ [e]).map some ++ if e.kind.terminal then [none] else [] := by
      rw [hq]
      simp
    rw [receive_live hphase (hfits q true hphase), hqueue]
    have htotal : Consumer.total
        { c with
          due := c.due ++ eventsAfter c.since [e]
          phase := .live ((es ++ [e]).map some ++ if e.kind.terminal then [none] else []) true } =
        c.total ++ [e] := by
      unfold Consumer.total
      rw [hpend]
      have := pending_live (es ++ [e]) (if e.kind.terminal then [none] else []) true
        (by cases e.kind.terminal <;> simp)
      simp only [this]
      exact (List.append_assoc c.events es [e]).symm
    refine ⟨?_, ?_, ?_, fun hr => (nomatch hr), fun hi => (nomatch hi)⟩
    · rw [htotal, eventsAfter, List.filter_append]
      show eventsAfter c.since c.total ++ eventsAfter c.since [e] = _
      rw [h.total]
    · intro _
      have hopen := h.terminal (by rw [hphase]; simp)
      rw [htotal]
      constructor
      · intro hterm
        exact ⟨e, by simp, hterm⟩
      · rintro ⟨e', he', hterm⟩
        rcases List.mem_append.mp he' with hold | hnew
        · exact absurd (hopen.mpr ⟨e', hold, hterm⟩) Bool.false_ne_true
        · rw [List.mem_singleton.mp hnew] at hterm
          exact hterm
    · intro q' sub' hl
      cases hl
      exact ⟨rfl, es ++ [e], rfl⟩
  | returned => exact absurd (h.returned hphase) Bool.false_ne_true

theorem publish_missed {b : Bus} {i : Nat} {e : Event} {rest : List Event}
    (h : Sound false (b.consumers i)) (hopen : b.closed = false)
    (hphase : (b.consumers i).phase = .replaying rest)
    (hconcerns : ¬ (e.seq ≤ (b.consumers i).since ∧ e.kind.terminal = false)) :
    ¬ Complete i (b.step (.publish e)) := by
  intro hc
  have hcons : (b.step (.publish e)).consumers i = (b.consumers i).receive e := by
    simp [Bus.step, Bus.publish, hopen]
  rw [receive_replaying hphase] at hcons
  have hclosed : (b.step (.publish e)).closed = e.kind.terminal := by
    simp [Bus.step, Bus.publish, hopen]
  have hphase' : ((b.step (.publish e)).consumers i).phase = .replaying rest := by
    rw [hcons]
    exact hphase
  have htotal : ((b.step (.publish e)).consumers i).total = (b.consumers i).total := by
    rw [hcons]
    rfl
  cases hterm : e.kind.terminal with
  | true =>
    -- the channel is closed: the consumer returns, and the terminal event is not in its hands
    have hclose := hc.closes (rest.length + 1)
    rw [drained_eq, hclosed, hterm] at hclose
    obtain ⟨e', he', hterm'⟩ := hclose (resumes_replaying_closed hphase')
    have hmem := (prefix_resumes_events _ true (rest.length + 1)).subset he'
    rw [htotal] at hmem
    exact absurd ((h.terminal (by rw [hphase]; simp)).mpr ⟨e', hmem, hterm'⟩) Bool.false_ne_true
  | false =>
    -- one event more is due than the consumer will ever yield
    have hseq : (b.consumers i).since < e.seq :=
      Int.not_le.mp fun hle => hconcerns ⟨hle, hterm⟩
    have hsince : ((b.step (.publish e)).consumers i).since = (b.consumers i).since := by
      rw [hcons]
    have hdue : ((b.step (.publish e)).consumers i).due = (b.consumers i).due ++ [e] := by
      rw [hcons]
      simp [eventsAfter, hseq]
    obtain ⟨k, hk⟩ := hc.delivered
    have hle := (prefix_eventsAfter (prefix_resumes_events ((b.step (.publish e)).consumers i)
      (b.step (.publish e)).closed k) (b.consumers i).since).length_le
    rw [drained_eq, hsince, hdue] at hk
    rw [hk, htotal, h.total, List.length_append, List.length_singleton] at hle
    omega

/-! ## An attach -/

theorem attach_idle {c : Consumer} (h : c.phase = .idle) (ring : List Event) (closed : Bool)
    (last : Int) :
    c.attach ring closed last =
      ({ c with lastEventId := last, since := last, due := eventsAfter last ring } :
        Consumer).replay closed (eventsAfter last ring) := by
  simp only [Consumer.attach, h]

theorem attach_total {c : Consumer} (h : c.phase = .idle) (hfresh : c.events = [])
    (ring : List Event) (closed : Bool) (last : Int) :
    (c.attach ring closed last).total = eventsAfter last ring := by
  unfold Consumer.total
  rw [attach_idle h, replay_events, replay_pending]
  show c.events ++ _ ++ _ = _
  rw [hfresh]
  cases eventsAfter last ring <;> rfl

theorem Sound.attach {closed : Bool} {c : Consumer} {ring : List Event} {last : Int}
    (h : Sound closed c) (hidle : c.phase = .idle)
    (hopen : closed = false → ∀ e ∈ ring, e.kind.terminal = false)
    (hend : closed = true → ∃ e ∈ ring, e.kind.terminal = true ∧ last < e.seq) :
    Sound closed (c.attach ring closed last) := by
  have htotal := attach_total hidle (h.fresh hidle).1 ring closed last
  have hsince : (c.attach ring closed last).since = last ∧
      (c.attach ring closed last).due = eventsAfter last ring := by
    rw [attach_idle hidle]
    exact replay_since _ closed _
  refine ⟨?_, ?_, ?_, ?_, ?_⟩
  · rw [htotal, hsince.1, hsince.2]
    exact List.filter_filter.trans (by simp [eventsAfter])
  · intro _
    rw [htotal]
    constructor
    · intro hclosed
      obtain ⟨e, he, hterm, hlt⟩ := hend hclosed
      exact ⟨e, List.mem_filter.mpr ⟨he, by simpa using hlt⟩, hterm⟩
    · rintro ⟨e, he, hterm⟩
      cases closed with
      | true => rfl
      | false =>
        rw [hopen rfl e (List.mem_filter.mp he).1] at hterm
        cases hterm
  all_goals rw [attach_idle hidle]
  · intro q sub hl
    cases hL : eventsAfter last ring with
    | cons e rest =>
      rw [hL] at hl
      cases hl
    | nil =>
      rw [hL] at hl
      cases closed with
      | true => cases hl
      | false =>
        cases hl
        exact ⟨rfl, [], rfl⟩
  · intro hr
    cases hL : eventsAfter last ring with
    | cons e rest =>
      rw [hL] at hr
      cases hr
    | nil =>
      rw [hL] at hr
      cases closed with
      | true => rfl
      | false => cases hr
  · intro hi
    cases hL : eventsAfter last ring with
    | cons e rest =>
      rw [hL] at hi
      cases hi
    | nil =>
      rw [hL] at hi
      cases closed <;> cases hi

theorem attach_missed {b : Bus} {i : Nat} {last : Int} (h : Sound true (b.consumers i))
    (hclosed : b.closed = true) (hidle : (b.consumers i).phase = .idle)
    (hend : ¬ ∃ e ∈ b.ring, e.kind.terminal = true ∧ last < e.seq) :
    ¬ Complete i (b.step (.attach i last)) := by
  intro hc
  have hcons : (b.step (.attach i last)).consumers i =
      (b.consumers i).attach b.ring true last := by
    simp [Bus.step, Bus.setConsumer, hclosed]
  have hclosed' : (b.step (.attach i last)).closed = true := hclosed
  have htotal := attach_total hidle (h.fresh hidle).1 b.ring true last
  -- with nothing published it comes to its return
  have hreturns : ∃ k,
      (((b.consumers i).attach b.ring true last).resumes true k).phase = .returned := by
    cases hL : eventsAfter last b.ring with
    | nil =>
      refine ⟨0, ?_⟩
      rw [Consumer.resumes, attach_idle hidle, hL]
      rfl
    | cons e rest =>
      refine ⟨rest.length + 1, resumes_replaying_closed ?_⟩
      rw [attach_idle hidle, hL]
      rfl
  obtain ⟨k, hk⟩ := hreturns
  have hclose := hc.closes k
  rw [drained_eq, hcons, hclosed'] at hclose
  obtain ⟨e, he, hterm⟩ := hclose hk
  have hmem := (prefix_resumes_events _ true k).subset he
  rw [htotal] at hmem
  obtain ⟨hring, hseq⟩ := List.mem_filter.mp hmem
  exact hend ⟨e, hring, hterm, by simpa using hseq⟩

/-! ## Runs -/

/-- The invariant of a run, as seen by consumer `i`. -/
def BusInv (i : Nat) (b : Bus) : Prop := RingOpen b ∧ Sound b.closed (b.consumers i)

theorem mem_pushRing {ring : List Event} {e x : Event} (h : x ∈ pushRing ring e) :
    x ∈ ring ∨ x = e := by
  unfold pushRing at h
  split at h
  · rcases List.mem_append.mp h with hold | hnew
    · exact Or.inl hold
    · exact Or.inr (List.mem_singleton.mp hnew)
  · rcases List.mem_append.mp h with hold | hnew
    · exact Or.inl (List.mem_of_mem_tail hold)
    · exact Or.inr (List.mem_singleton.mp hnew)

theorem ringOpen_step {b : Bus} (h : RingOpen b) (a : BusAction) : RingOpen (b.step a) := by
  cases a with
  | publish e =>
    unfold RingOpen
    simp only [Bus.step, Bus.publish]
    split
    · exact h
    · next hopen =>
      intro hterm x hx
      dsimp only at hterm hx
      rcases mem_pushRing hx with hold | rfl
      · exact h (Bool.eq_false_iff.mpr hopen) x hold
      · exact hterm
  | attach j last => exact h
  | resume j => exact h
  | timeout j => exact h

theorem Sound.timeout {closed : Bool} {c : Consumer} (h : Sound closed c) :
    Sound closed c.timeout := by
  have hsame : c.timeout.phase = c.phase ∧ c.timeout.events = c.events ∧
      c.timeout.since = c.since ∧ c.timeout.due = c.due := by
    unfold Consumer.timeout
    split
    · exact ⟨rfl, by simp [Consumer.events, Item.event?], rfl, rfl⟩
    · exact ⟨rfl, rfl, rfl, rfl⟩
  obtain ⟨hphase, hevents, hsince, hdue⟩ := hsame
  have htotal : c.timeout.total = c.total := by
    unfold Consumer.total
    rw [hphase, hevents]
  refine ⟨?_, ?_, ?_, ?_, ?_⟩
  · rw [htotal, hsince, hdue]
    exact h.total
  · rw [hphase, htotal]
    exact h.terminal
  · rw [hphase]
    exact h.queue
  · rw [hphase]
    exact h.returned
  · rw [hphase, hevents, hdue]
    exact h.fresh

theorem busInv_step {i : Nat} {b : Bus} {a : BusAction} (h : BusInv i b) (hfits : Fits i b a)
    (hatt : Attentive i b a) : BusInv i (b.step a) := by
  refine ⟨ringOpen_step h.1 a, ?_⟩
  have hsound := h.2
  cases a with
  | publish e =>
    simp only [Bus.step, Bus.publish]
    cases hclosed : b.closed with
    | true =>
      rw [hclosed] at hsound
      simp only [if_true, hclosed]
      exact hsound
    | false =>
      rw [hclosed] at hsound
      exact hsound.publish (hfits hclosed) (hatt hclosed)
  | attach j last =>
    by_cases hj : j = i
    · subst hj
      simp only [Bus.step, Bus.setConsumer, if_true]
      by_cases hidle : (b.consumers j).phase = .idle
      · exact hsound.attach hidle h.1 (hatt rfl hidle)
      · have hsame : (b.consumers j).attach b.ring b.closed last = b.consumers j := by
          unfold Consumer.attach
          split
          · next hphase => exact absurd hphase hidle
          · rfl
        rw [hsame]
        exact hsound
    · simp only [Bus.step, Bus.setConsumer, if_neg (Ne.symm hj)]
      exact hsound
  | resume j =>
    by_cases hj : j = i
    · subst hj
      simp only [Bus.step, Bus.setConsumer, if_true]
      exact hsound.resume
    · simp only [Bus.step, Bus.setConsumer, if_neg (Ne.symm hj)]
      exact hsound
  | timeout j =>
    by_cases hj : j = i
    · subst hj
      simp only [Bus.step, Bus.setConsumer, if_true]
      exact hsound.timeout
    · simp only [Bus.step, Bus.setConsumer, if_neg (Ne.symm hj)]
      exact hsound

theorem complete_step_iff {i : Nat} {b : Bus} {a : BusAction} (h : BusInv i b)
    (hfits : Fits i b a) : Complete i (b.step a) ↔ Attentive i b a := by
  constructor
  · intro hc
    cases a with
    | publish e =>
      intro hopen rest hphase
      refine Classical.byContradiction fun hconcerns => ?_
      have hsound := h.2
      rw [hopen] at hsound
      exact publish_missed hsound hopen hphase hconcerns hc
    | attach j last =>
      intro hj hidle hclosed
      subst hj
      refine Classical.byContradiction fun hend => ?_
      have hsound := h.2
      rw [hclosed] at hsound
      exact attach_missed hsound hclosed hidle hend hc
    | resume j => trivial
    | timeout j => trivial
  · intro hatt
    exact (busInv_step h hfits hatt).2.complete

theorem busInv_fresh (i : Nat) : BusInv i {} := by
  refine ⟨fun _ e he => (nomatch he), rfl, fun hne => absurd rfl hne, ?_, ?_, fun _ => ⟨rfl, rfl⟩⟩
  · intro q sub hl
    cases hl
  · intro hr
    cases hr

/-- **When the live stream is complete.** In every interleaving from a fresh channel in
which the queue of consumer `i` does not overflow: its stream is complete in every state
reached exactly when no event after its `last_event_id`, and no terminal event, is
published while it is suspended in its replay, and it does not attach to a closed channel
whose terminal event is at or before its `last_event_id`. -/
theorem stream_complete_iff (i : Nat) {as : List BusAction}
    (hfits : Trace.Along Bus.step (Fits i) {} as) :
    Trace.Along Bus.step (fun b a => Complete i (b.step a)) {} as ↔
      Trace.Along Bus.step (Attentive i) {} as :=
  Trace.along_iff (I := BusInv i) (fun _ _ h hv => complete_step_iff h hv)
    (fun _ _ h hv hg => busInv_step h hv hg) (busInv_fresh i) hfits

/-- A consumer replays the start of a run, catches up, and then gets the end live. -/
theorem stream_complete_of_caught_up :
    Trace.Along Bus.step (fun b a => Complete 0 (b.step a)) {}
      [.publish ⟨1, .runStarted, .empty, 1⟩, .attach 0 0, .resume 0,
        .publish ⟨2, .completed, .empty, 2⟩, .resume 0, .resume 0] := by
  refine (stream_complete_iff 0 ?_).mpr ?_
  · refine ⟨fun _ q sub h => (nomatch h), trivial, trivial, fun _ q sub h => ?_, trivial,
      trivial, trivial⟩
    cases h
    decide
  · exact ⟨fun _ rest h => (nomatch h), fun _ _ h => (nomatch h), trivial,
      fun _ rest h => (nomatch h), trivial, trivial, trivial⟩

/-- The run ends while its consumer is suspended at the one event it replays: the consumer
returns without the terminal event. -/
theorem replay_misses_the_end :
    let first : Event := ⟨1, .runStarted, .empty, 1⟩
    let last : Event := ⟨2, .completed, .empty, 2⟩
    let as : List BusAction := [.publish first, .attach 0 0, .publish last, .resume 0]
    Trace.Along Bus.step (Fits 0) {} as ∧
      ((Trace.run Bus.step {} as).consumers 0).phase = .returned ∧
      ((Trace.run Bus.step {} as).consumers 0).events = [first] ∧
      ((Trace.run Bus.step {} as).consumers 0).due = [first, last] ∧
      ¬ Complete 0 (Trace.run Bus.step {} as) := by
  intro first last as
  have hfits : Trace.Along Bus.step (Fits 0) {} as :=
    ⟨fun _ q sub h => (nomatch h), trivial, fun _ q sub h => (nomatch h), trivial, trivial⟩
  refine ⟨hfits, by decide, by decide, by decide, fun hc => ?_⟩
  obtain ⟨e, he, hterm⟩ := hc.closes 0 (by decide)
  have hevents : ((Trace.run Bus.step {} as).drained 0 0).events = [first] := by decide
  rw [hevents, List.mem_singleton] at he
  rw [he] at hterm
  cases hterm

end LlmProxy.Runs
