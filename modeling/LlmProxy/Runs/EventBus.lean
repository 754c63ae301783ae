import LlmProxy.Lib.Trace
import LlmProxy.Runs.State

/-! # The run event broker

`app/runs/event_bus.py`: the channel of one run. Publishers append to a bounded ring and
fan out to the queues of the live subscribers; a terminal event closes the channel. A
consumer (`stream_events`) first yields the ring's events after the one it has seen last,
then subscribes and yields what arrives on its queue until the sentinel.

A consumer is a generator: it runs from one suspension point to the next, and publishers
run in between. Its suspension points are the `yield`s of the replay loop, the `yield` of
the live loop and the wait on the queue. Between the last replayed event and the
subscription there is none: `subscribe` awaits nothing.

Mirroring notes.
* The channel's `_subscribers` set is spread over the consumers: a consumer in its live
  loop holds its queue and whether the channel still fans out to it.
* The registry `_CHANNELS` maps a run to its channel; only the one channel is here.
* A consumer that is cancelled by its client takes no further step.
* A payload has the fields its emitting site gives it; those that only report on a model
  call, a failover, a compaction or a throttle are kept as JSON text.
-/

namespace LlmProxy.Runs

inductive RunEventKind where
  | maxTurnsClamped
  | runStarted
  | modelCallStart
  | modelCallEnd
  | providerFailed
  | contextCompacted
  | rateLimited
  | toolUseRequested
  | toolUseReceived
  | runRecovered
  | completed
  | failed
  | expired
  | cancelled
  deriving DecidableEq, Repr

/-- `TERMINAL_KINDS`. -/
def RunEventKind.terminal : RunEventKind → Bool
  | .completed | .failed | .expired | .cancelled => true
  | _ => false

inductive Payload where
  | empty
  | clamped (requested clampedTo ceiling hardCeiling : Int)
  | expired (deadlineTs total : Time)
  | failed (error : String) (kind : ErrorKind) (lastProviderUsed : Option String)
  | completed (resultText : String) (total : Time)
  | toolUseRequested (toolUseId name input : String)
  | toolUseReceived (toolUseId : String) (execMs : Option Int)
  | report (json : String)
  deriving DecidableEq, Repr

/-- An event of a run, as it is published and as its row keeps it. -/
structure Event where
  seq : Int
  kind : RunEventKind
  payload : Payload := .empty
  ts : Time := 0
  deriving DecidableEq, Repr

def ringSize : Nat := 1000

/-- What a consumer yields: an event, or the keepalive with the last sequence number. -/
inductive Item where
  | event (e : Event)
  | keepalive (seq : Int)
  deriving DecidableEq, Repr

/-- Where the generator stands. In the live loop it holds its queue, in which `none` is the
sentinel, and whether it is subscribed: an overflow drops it from the channel. -/
inductive Phase where
  | idle
  | replaying (rest : List Event)
  | live (queue : List (Option Event)) (subscribed : Bool)
  | returned
  deriving DecidableEq, Repr

/-- A consumer. `since` is the `last_event_id` it was called with, `lastEventId` the
variable it keeps of it; `yielded` is what it has yielded, and `due` what it should yield:
the events after `since` that were in the ring when it attached or were published later. -/
structure Consumer where
  phase : Phase := .idle
  lastEventId : Int := 0
  since : Int := 0
  yielded : List Item := []
  due : List Event := []
  deriving DecidableEq, Repr

structure Bus where
  ring : List Event := []
  closed : Bool := false
  consumers : Nat → Consumer := fun _ => {}

/-! ## Publishing -/

/-- `deque(maxlen=RING_SIZE).append`: a full ring drops its oldest event. -/
def pushRing (ring : List Event) (e : Event) : List Event :=
  if ring.length < ringSize then ring ++ [e] else ring.tail ++ [e]

/-- `put_nowait(event)`; a full queue is dropped from the subscribers. -/
def Consumer.offer (c : Consumer) (e : Event) : Consumer :=
  match c.phase with
  | .live queue true =>
    if queue.length < 2 * ringSize then { c with phase := .live (queue ++ [some e]) true }
    else { c with phase := .live queue false }
  | _ => c

/-- `put_nowait(None)`; a full queue goes without. -/
def Consumer.wake (c : Consumer) : Consumer :=
  match c.phase with
  | .live queue true =>
    if queue.length < 2 * ringSize then { c with phase := .live (queue ++ [none]) true } else c
  | _ => c

/-- `replay_since`: the events with `seq > last_seq`. -/
def eventsAfter (last : Int) (events : List Event) : List Event := events.filter (last < ·.seq)

/-- The event is due to every consumer that has attached. -/
def Consumer.owe (c : Consumer) (e : Event) : Consumer :=
  match c.phase with
  | .idle => c
  | _ => { c with due := c.due ++ eventsAfter c.since [e] }

/-- What a publish on the open channel does to a consumer. -/
def Consumer.receive (c : Consumer) (e : Event) : Consumer :=
  let c := (c.owe e).offer e
  if e.kind.terminal then c.wake else c

/-- `_RunChannel.publish`. -/
def Bus.publish (b : Bus) (e : Event) : Bus :=
  if b.closed then b
  else
    { ring := pushRing b.ring e
      closed := e.kind.terminal
      consumers := fun i => (b.consumers i).receive e }

/-! ## Consuming -/

def Consumer.emit (c : Consumer) (e : Event) (phase : Phase) : Consumer :=
  { c with phase := phase, lastEventId := e.seq, yielded := c.yielded ++ [.event e] }

/-- The end of the replay loop: `if ch.closed: return`, else subscribe. -/
def Consumer.afterReplay (c : Consumer) (closed : Bool) : Consumer :=
  { c with phase := if closed then .returned else .live [] true }

def Consumer.replay (c : Consumer) (closed : Bool) : List Event → Consumer
  | [] => c.afterReplay closed
  | e :: rest => c.emit e (.replaying rest)

/-- The first `__anext__` of `stream_events(last_event_id=last)`. -/
def Consumer.attach (c : Consumer) (ring : List Event) (closed : Bool) (last : Int) : Consumer :=
  match c.phase with
  | .idle =>
    { c with
      lastEventId := last
      since := last
      due := eventsAfter last ring }.replay closed (eventsAfter last ring)
  | _ => c

/-- The generator resumed: up to its next `yield`, its `return`, or its wait on an empty
queue. -/
def Consumer.resume (c : Consumer) (closed : Bool) : Consumer :=
  match c.phase with
  | .idle => c
  | .replaying rest => c.replay closed rest
  | .live (some e :: queue) subscribed => c.emit e (.live queue subscribed)
  | .live (none :: _) _ => { c with phase := .returned }
  | .live [] _ => c
  | .returned => c

def Consumer.timeout (c : Consumer) : Consumer :=
  match c.phase with
  | .live [] _ => { c with yielded := c.yielded ++ [.keepalive c.lastEventId] }
  | _ => c

inductive BusAction where
  | publish (e : Event)
  | attach (i : Nat) (last : Int)
  | resume (i : Nat)
  | timeout (i : Nat)
  deriving DecidableEq, Repr

def Bus.setConsumer (b : Bus) (i : Nat) (c : Consumer) : Bus :=
  { b with consumers := fun j => if j = i then c else b.consumers j }

def Bus.step (b : Bus) : BusAction → Bus
  | .publish e => b.publish e
  | .attach i last => b.setConsumer i ((b.consumers i).attach b.ring b.closed last)
  | .resume i => b.setConsumer i ((b.consumers i).resume b.closed)
  | .timeout i => b.setConsumer i (b.consumers i).timeout

end LlmProxy.Runs
