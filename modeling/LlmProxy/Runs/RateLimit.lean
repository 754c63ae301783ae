import Mathlib.Algebra.Order.Field.Rat
import Mathlib.Data.List.Induction
import LlmProxy.Lib.SlidingWindow

/-! # Model calls of a run

`app/runs/rate_limit.py`: a run may start so many model calls in any minute. `acquire` takes the
bucket of its run once, and waits with it until there is room; between the test and the record
nothing else runs. `reset` drops the bucket, and calls that wait keep theirs.

> `bucket_sparse`: no closed minute holds more starts of one bucket than the limit;
> `starts_between_resets`: nor more starts of calls of a run that began between two resets of it.

Mirroring notes.
* A time is the exact value of its float. How long a call sleeps is left open: a call that waits
  may look again at any time.
* The payload of `rate_limited` and the numbers that are answered are not modelled.
-/

namespace LlmProxy.Runs

open SlidingWindow

/-- `WINDOW_SEC`. -/
def windowSec : Rat := 60

/-- A call that waits for a slot, with its bucket and with the resets of the run before it began. -/
structure SlotCall where
  runId : String
  epoch : Nat
  bucket : Nat

/-- A start that was recorded, and the resets of the run before that. -/
structure CallStart where
  call : SlotCall
  recordedIn : Nat
  time : Rat

/-- The buckets, by the order in which they were made; `_buckets`; and the calls that wait. Beside
them what no code reads: the resets of each run and the starts so far. -/
structure Limiter where
  made : Nat := 0
  content : Nat → List Rat := fun _ => []
  buckets : String → Option Nat := fun _ => none
  waiting : List SlotCall := []
  resets : String → Nat := fun _ => 0
  starts : List CallStart := []

/-- `_get_bucket`. -/
def getBucket (s : Limiter) (runId : String) : Nat × Limiter :=
  match s.buckets runId with
  | some b => (b, s)
  | none =>
    (s.made, { s with
      made := s.made + 1
      content := Function.update s.content s.made []
      buckets := Function.update s.buckets runId (some s.made) })

/-- One turn of the loop of `acquire`: the bucket is trimmed, and the call starts or waits. -/
def trySlot (limit : Nat) (s : Limiter) (call : SlotCall) (now : Rat) : Limiter :=
  let trimmed := expire (now - windowSec) (s.content call.bucket)
  if trimmed.length < limit then
    { s with
      content := Function.update s.content call.bucket (trimmed ++ [now])
      starts := s.starts ++ [⟨call, s.resets call.runId, now⟩] }
  else
    { s with
      content := Function.update s.content call.bucket trimmed
      waiting := s.waiting ++ [call] }

/-- What can happen: a call begins, one that waits looks again, a run's bucket is dropped. -/
inductive SlotEvent
  | acquire (runId : String) (now : Rat)
  | retry (k : Nat) (now : Rat)
  | reset (runId : String)

def slotStep (limit : Nat) (s : Limiter) : SlotEvent → Limiter
  | .acquire runId now =>
    let taken := getBucket s runId
    trySlot limit taken.2 ⟨runId, taken.2.resets runId, taken.1⟩ now
  | .retry k now =>
    match s.waiting[k]? with
    | none => s
    | some call => trySlot limit { s with waiting := s.waiting.eraseIdx k } call now
  | .reset runId =>
    { s with
      buckets := Function.update s.buckets runId none
      resets := Function.update s.resets runId (s.resets runId + 1) }

def slotRun (limit : Nat) (events : List SlotEvent) : Limiter :=
  events.foldl (slotStep limit) {}

def slotTimes (events : List SlotEvent) : List Rat :=
  events.filterMap fun
    | .acquire _ now => some now
    | .retry _ now => some now
    | .reset _ => none

/-! ## The invariant -/

def timesOf (s : Limiter) (bucket : Nat) : List Rat :=
  (s.starts.filter (·.call.bucket = bucket)).map CallStart.time

/-- Each bucket holds the starts of the last minute, of which there are not too many. -/
structure Windowed (limit : Nat) (s : Limiter) (now : Rat) : Prop where
  past : ∀ st ∈ s.starts, st.time ≤ now
  sorted : (s.starts.map CallStart.time).Pairwise (· ≤ ·)
  trails : ∀ b, Trails (timesOf s b) (s.content b) (now - windowSec)
  sparse : ∀ b, Sparse (timesOf s b) windowSec limit
  fresh : ∀ st ∈ s.starts, st.call.bucket < s.made
  known : ∀ call ∈ s.waiting, call.bucket < s.made
  listed : ∀ runId b, s.buckets runId = some b → b < s.made

/-- Calls of one run that began between the same resets have one bucket. -/
structure OneBucket (s : Limiter) (home : String → Nat → Nat → Prop) : Prop where
  started : ∀ st ∈ s.starts, home st.call.runId st.call.epoch st.call.bucket
  waits : ∀ call ∈ s.waiting, home call.runId call.epoch call.bucket
  current : ∀ runId b, s.buckets runId = some b → home runId (s.resets runId) b
  one : ∀ runId epoch b b', home runId epoch b → home runId epoch b' → b = b'
  before : ∀ runId epoch b, home runId epoch b → epoch ≤ s.resets runId
  last : ∀ runId b, home runId (s.resets runId) b → s.buckets runId = some b

section

variable {limit : Nat} {s : Limiter} {now now' : Rat} {call : SlotCall}
  {home : String → Nat → Nat → Prop}

theorem timesOf_sublist (s : Limiter) (b : Nat) :
    (timesOf s b).Sublist (s.starts.map CallStart.time) := List.filter_sublist.map _

theorem Windowed.later (h : Windowed limit s now) (hle : now ≤ now') : Windowed limit s now' where
  past st hst := (h.past st hst).trans hle
  sorted := h.sorted
  trails b := (h.trails b).later (sub_le_sub_right hle _)
  sparse := h.sparse
  fresh := h.fresh
  known := h.known
  listed := h.listed

/-- **A turn of the loop** keeps the windows. -/
theorem Windowed.trySlot (h : Windowed limit s now) (hmade : call.bucket < s.made) :
    Windowed limit (trySlot limit s call now) now := by
  have hsorted : ∀ b, (timesOf s b).Pairwise (· ≤ ·) := fun b =>
    h.sorted.sublist (timesOf_sublist s b)
  have htrimmed := (h.trails call.bucket).expire
  unfold Runs.trySlot
  dsimp only
  split
  · next hroom =>
    rw [(h.trails call.bucket).expire_eq_filter (hsorted _)] at hroom
    have hother : ∀ b, b ≠ call.bucket → timesOf { s with
        content := Function.update s.content call.bucket
          (expire (now - windowSec) (s.content call.bucket) ++ [now])
        starts := s.starts ++ [⟨call, s.resets call.runId, now⟩] } b = timesOf s b := by
      intro b hne
      unfold timesOf
      rw [List.filter_append, List.filter_cons_of_neg (by simpa using Ne.symm hne),
        List.filter_nil, List.append_nil]
    have hown : timesOf { s with
        content := Function.update s.content call.bucket
          (expire (now - windowSec) (s.content call.bucket) ++ [now])
        starts := s.starts ++ [⟨call, s.resets call.runId, now⟩] } call.bucket =
          timesOf s call.bucket ++ [now] := by
      unfold timesOf
      rw [List.filter_append, List.filter_cons_of_pos (by simp), List.filter_nil, List.map_append]
      rfl
    refine ⟨fun st hst => ?_, ?_, fun b => ?_, fun b => ?_, fun st hst => ?_, h.known, h.listed⟩
    · rcases List.mem_append.mp hst with hst | hst
      · exact h.past st hst
      · rw [List.mem_singleton.mp hst]
    · rw [List.map_append, List.pairwise_append]
      refine ⟨h.sorted, List.pairwise_singleton _ _, fun t ht u hu => ?_⟩
      obtain ⟨st, hst, rfl⟩ := List.mem_map.mp ht
      rw [List.mem_singleton.mp hu]
      exact h.past st hst
    · show Trails _ (Function.update s.content call.bucket _ b) _
      by_cases hb : b = call.bucket
      · rw [hb, hown, Function.update_self]
        exact htrimmed.append [now]
      · rw [hother b hb, Function.update_of_ne hb]
        exact h.trails b
    · by_cases hb : b = call.bucket
      · rw [hb, hown]
        exact (h.sparse call.bucket).admitted hroom
      · rw [hother b hb]
        exact h.sparse b
    · rcases List.mem_append.mp hst with hst | hst
      · exact h.fresh st hst
      · rw [List.mem_singleton.mp hst]
        exact hmade
  · refine ⟨h.past, h.sorted, fun b => ?_, h.sparse, h.fresh, fun c hc => ?_, h.listed⟩
    · show Trails (timesOf s b) (Function.update s.content call.bucket _ b) _
      by_cases hb : b = call.bucket
      · rw [hb, Function.update_self]
        exact htrimmed
      · rw [Function.update_of_ne hb]
        exact h.trails b
    · rcases List.mem_append.mp hc with hc | hc
      · exact h.known c hc
      · rw [List.mem_singleton.mp hc]
        exact hmade

theorem Windowed.getBucket (h : Windowed limit s now) (runId : String) :
    (Runs.getBucket s runId).1 < (Runs.getBucket s runId).2.made ∧
      Windowed limit (Runs.getBucket s runId).2 now := by
  unfold Runs.getBucket
  cases hb : s.buckets runId with
  | some b => exact ⟨h.listed runId b hb, h⟩
  | none =>
    refine ⟨Nat.lt_succ_self _, h.past, h.sorted, fun b => ?_, h.sparse, fun st hst => ?_,
      fun c hc => Nat.lt_succ_of_lt (h.known c hc), fun id b hlist => ?_⟩
    · show Trails (timesOf s b) (Function.update s.content s.made [] b) _
      by_cases heq : b = s.made
      · have hnone : timesOf s b = [] := by
          unfold timesOf
          rw [List.map_eq_nil_iff, List.filter_eq_nil_iff]
          intro st hst hbucket
          have := h.fresh st hst
          have heq' : st.call.bucket = b := of_decide_eq_true hbucket
          omega
        rw [hnone, heq, Function.update_self]
        exact trails_refl _ _
      · rw [Function.update_of_ne heq]
        exact h.trails b
    · exact Nat.lt_succ_of_lt (h.fresh st hst)
    · have hset : Function.update s.buckets runId (some s.made) id = some b := hlist
      by_cases hid : id = runId
      · rw [hid, Function.update_self] at hset
        rw [← Option.some.inj hset]
        exact Nat.lt_succ_self _
      · rw [Function.update_of_ne hid] at hset
        exact Nat.lt_succ_of_lt (h.listed id b hset)

theorem OneBucket.trySlot (h : OneBucket s home)
    (hcall : home call.runId call.epoch call.bucket) :
    OneBucket (trySlot limit s call now) home := by
  unfold Runs.trySlot
  dsimp only
  split
  · refine ⟨fun st hst => ?_, h.waits, h.current, h.one, h.before, h.last⟩
    rcases List.mem_append.mp hst with hst | hst
    · exact h.started st hst
    · rw [List.mem_singleton.mp hst]
      exact hcall
  · refine ⟨h.started, fun c hc => ?_, h.current, h.one, h.before, h.last⟩
    rcases List.mem_append.mp hc with hc | hc
    · exact h.waits c hc
    · rw [List.mem_singleton.mp hc]
      exact hcall

theorem OneBucket.getBucket (h : OneBucket s home) (runId : String) :
    ∃ home', OneBucket (Runs.getBucket s runId).2 home' ∧
      home' runId ((Runs.getBucket s runId).2.resets runId) (Runs.getBucket s runId).1 := by
  unfold Runs.getBucket
  cases hb : s.buckets runId with
  | some b => exact ⟨home, h, h.current runId b hb⟩
  | none =>
    have hnew : ∀ b, ¬ home runId (s.resets runId) b := by
      intro b hhome
      rw [h.last runId b hhome] at hb
      cases hb
    refine ⟨fun id epoch b => home id epoch b ∨
      (id = runId ∧ epoch = s.resets runId ∧ b = s.made), ?_, .inr ⟨rfl, rfl, rfl⟩⟩
    refine ⟨fun st hst => .inl (h.started st hst), fun c hc => .inl (h.waits c hc),
      fun id b hlist => ?_, fun id epoch b b' hhome hhome' => ?_, fun id epoch b hhome => ?_,
      fun id b hhome => ?_⟩
    · have hset : Function.update s.buckets runId (some s.made) id = some b := hlist
      by_cases hid : id = runId
      · rw [hid, Function.update_self] at hset
        exact .inr ⟨hid, by rw [hid], (Option.some.inj hset).symm⟩
      · rw [Function.update_of_ne hid] at hset
        exact .inl (h.current id b hset)
    · rcases hhome with hhome | ⟨rfl, rfl, rfl⟩
      · rcases hhome' with hhome' | ⟨rfl, rfl, rfl⟩
        · exact h.one id epoch b b' hhome hhome'
        · exact absurd hhome (hnew b)
      · rcases hhome' with hhome' | ⟨-, -, rfl⟩
        · exact absurd hhome' (hnew b')
        · rfl
    · rcases hhome with hhome | ⟨rfl, rfl, -⟩
      · exact h.before id epoch b hhome
      · exact Nat.le_refl _
    · rcases hhome with hhome | ⟨rfl, -, rfl⟩
      · by_cases hid : id = runId
        · rw [hid] at hhome
          exact absurd hhome (hnew b)
        · show Function.update s.buckets runId (some s.made) id = some b
          rw [Function.update_of_ne hid]
          exact h.last id b hhome
      · exact Function.update_self _ _ _

theorem OneBucket.reset (h : OneBucket s home) (runId : String) :
    OneBucket (slotStep limit s (.reset runId)) home := by
  refine ⟨h.started, h.waits, fun id b hlist => ?_, h.one, fun id epoch b hhome => ?_,
    fun id b hhome => ?_⟩
  · by_cases hid : id = runId
    · have hnone : Function.update s.buckets runId none id = some b := hlist
      rw [hid, Function.update_self] at hnone
      cases hnone
    · have hlist' : Function.update s.buckets runId none id = some b := hlist
      rw [Function.update_of_ne hid] at hlist'
      show home id (Function.update s.resets runId (s.resets runId + 1) id) b
      rw [Function.update_of_ne hid]
      exact h.current id b hlist'
  · have hle := h.before id epoch b hhome
    show epoch ≤ Function.update s.resets runId (s.resets runId + 1) id
    by_cases hid : id = runId
    · rw [hid, Function.update_self, ← hid]
      omega
    · rw [Function.update_of_ne hid]
      exact hle
  · by_cases hid : id = runId
    · have hhome' : home id (Function.update s.resets runId (s.resets runId + 1) id) b := hhome
      rw [hid, Function.update_self] at hhome'
      have hle := h.before runId _ b hhome'
      omega
    · have hhome' : home id (Function.update s.resets runId (s.resets runId + 1) id) b := hhome
      rw [Function.update_of_ne hid] at hhome'
      show Function.update s.buckets runId none id = some b
      rw [Function.update_of_ne hid]
      exact h.last id b hhome'

end

/-! ## Runs -/

section

variable {limit : Nat} {events : List SlotEvent} {now : Rat}

theorem slotTimes_concat (events : List SlotEvent) (event : SlotEvent) :
    slotTimes (events ++ [event]) = slotTimes events ++ slotTimes [event] :=
  List.filterMap_append

/-- **The invariant of a run.** -/
theorem windowed_slotRun (limit : Nat) (hclock : (slotTimes events).Pairwise (· ≤ ·))
    (hnow : ∀ t ∈ slotTimes events, t ≤ now) :
    Windowed limit (slotRun limit events) now ∧ ∃ home, OneBucket (slotRun limit events) home := by
  induction events using List.reverseRecOn generalizing now with
  | nil =>
    refine ⟨⟨fun _ h => absurd h List.not_mem_nil, List.Pairwise.nil, fun _ => trails_refl _ _,
      fun _ => sparse_nil _ _, fun _ h => absurd h List.not_mem_nil,
      fun _ h => absurd h List.not_mem_nil,
      fun _ _ h => absurd h (Option.some_ne_none _).symm⟩, fun _ _ _ => False, ?_⟩
    exact ⟨fun _ h => absurd h List.not_mem_nil, fun _ h => absurd h List.not_mem_nil,
      fun _ _ h => absurd h (Option.some_ne_none _).symm, fun _ _ _ _ h => h.elim, fun _ _ _ h => h.elim, fun _ _ h => h.elim⟩
  | append_singleton events event ih =>
    have hrun : slotRun limit (events ++ [event]) = slotStep limit (slotRun limit events) event := by
      unfold slotRun
      rw [List.foldl_append]
      rfl
    rw [slotTimes_concat] at hclock hnow
    obtain ⟨hbefore, -, hlast⟩ := List.pairwise_append.mp hclock
    rw [hrun]
    cases event with
    | reset runId =>
      obtain ⟨hwindows, home, hhome⟩ := ih hbefore fun t ht => hnow t (List.mem_append_left _ ht)
      refine ⟨⟨hwindows.past, hwindows.sorted, hwindows.trails, hwindows.sparse, hwindows.fresh,
        hwindows.known, fun id b hlist => ?_⟩, home, hhome.reset runId⟩
      by_cases hid : id = runId
      · have hnone : Function.update (slotRun limit events).buckets runId none id = some b := hlist
        rw [hid, Function.update_self] at hnone
        cases hnone
      · have hlist' : Function.update (slotRun limit events).buckets runId none id = some b := hlist
        rw [Function.update_of_ne hid] at hlist'
        exact hwindows.listed id b hlist'
    | acquire runId time =>
      have htime : time ≤ now := hnow time (List.mem_append_right _ (List.mem_singleton_self _))
      obtain ⟨hwindows, home, hhome⟩ := ih hbefore fun t ht =>
        hlast t ht time (List.mem_singleton_self _)
      obtain ⟨hmade, hwindows'⟩ := hwindows.getBucket runId
      obtain ⟨home', hhome', hcall⟩ := hhome.getBucket runId
      exact ⟨(hwindows'.trySlot hmade).later htime, home', hhome'.trySlot hcall⟩
    | retry k time =>
      have htime : time ≤ now := hnow time (List.mem_append_right _ (List.mem_singleton_self _))
      obtain ⟨hwindows, home, hhome⟩ := ih hbefore fun t ht =>
        hlast t ht time (List.mem_singleton_self _)
      unfold slotStep
      dsimp only
      cases hcall : (slotRun limit events).waiting[k]? with
      | none => exact ⟨hwindows.later htime, home, hhome⟩
      | some call =>
        have hmem := List.mem_of_getElem? hcall
        have hless : ∀ c ∈ (slotRun limit events).waiting.eraseIdx k,
            c ∈ (slotRun limit events).waiting := fun c hc => List.mem_of_mem_eraseIdx hc
        have hwindows' : Windowed limit { slotRun limit events with
            waiting := (slotRun limit events).waiting.eraseIdx k } time :=
          ⟨hwindows.past, hwindows.sorted, hwindows.trails, hwindows.sparse, hwindows.fresh,
            fun c hc => hwindows.known c (hless c hc), hwindows.listed⟩
        have hhome' : OneBucket { slotRun limit events with
            waiting := (slotRun limit events).waiting.eraseIdx k } home :=
          ⟨hhome.started, fun c hc => hhome.waits c (hless c hc), hhome.current, hhome.one,
            hhome.before, hhome.last⟩
        exact ⟨(hwindows'.trySlot (hwindows.known call hmem)).later htime, home,
          hhome'.trySlot (hhome.waits call hmem)⟩

/-- The starts of a run in a closed minute, of calls that began between two resets. -/
def startsBegunIn (s : Limiter) (runId : String) (epoch : Nat) (t : Rat) : List CallStart :=
  s.starts.filter fun st =>
    st.call.runId = runId ∧ st.call.epoch = epoch ∧ t ≤ st.time ∧ st.time ≤ t + windowSec

/-- The starts of a run in a closed minute that were recorded between two resets. -/
def startsRecordedIn (s : Limiter) (runId : String) (epoch : Nat) (t : Rat) : List CallStart :=
  s.starts.filter fun st =>
    st.call.runId = runId ∧ st.recordedIn = epoch ∧ t ≤ st.time ∧ st.time ≤ t + windowSec

/-- **Between resets** no closed minute holds more starts than the limit. -/
theorem starts_between_resets (limit : Nat) (hclock : (slotTimes events).Pairwise (· ≤ ·))
    (runId : String) (epoch : Nat) (t : Rat) :
    (startsBegunIn (slotRun limit events) runId epoch t).length ≤ limit := by
  obtain ⟨now, hnow⟩ : ∃ now, ∀ u ∈ slotTimes events, u ≤ now := by
    cases hlast : (slotTimes events).getLast? with
    | none =>
      rw [List.getLast?_eq_none_iff.mp hlast]
      exact ⟨0, fun _ h => absurd h List.not_mem_nil⟩
    | some last =>
      obtain ⟨front, hfront⟩ := List.getLast?_eq_some_iff.mp hlast
      rw [hfront] at hclock ⊢
      refine ⟨last, fun u hu => ?_⟩
      rcases List.mem_append.mp hu with hu | hu
      · exact (List.pairwise_append.mp hclock).2.2 u hu last (List.mem_singleton_self _)
      · rw [List.mem_singleton.mp hu]
  obtain ⟨hwindows, home, hhome⟩ := windowed_slotRun limit hclock hnow
  cases hstarts : startsBegunIn (slotRun limit events) runId epoch t with
  | nil => exact Nat.zero_le _
  | cons first rest =>
    -- all of them are in the bucket of the first
    have hin : ∀ st ∈ startsBegunIn (slotRun limit events) runId epoch t,
        home runId epoch st.call.bucket := by
      intro st hst
      obtain ⟨hmem, htest⟩ := List.mem_filter.mp hst
      obtain ⟨hrun, hepoch, -⟩ := of_decide_eq_true htest
      have hstarted := hhome.started st hmem
      rwa [hrun, hepoch] at hstarted
    have hfirst := hin first (by rw [hstarts]; exact List.mem_cons_self)
    refine le_trans ?_ (hwindows.sparse first.call.bucket t)
    rw [← hstarts]
    unfold inSpan timesOf
    rw [List.filter_map, List.length_map, List.filter_filter]
    unfold startsBegunIn
    rw [← List.countP_eq_length_filter, ← List.countP_eq_length_filter]
    refine List.countP_mono_left fun st hst htest => ?_
    have hbucket := hhome.one runId epoch _ _ (hin st (List.mem_filter.mpr ⟨hst, htest⟩)) hfirst
    obtain ⟨-, -, hafter, hbefore⟩ := of_decide_eq_true htest
    rw [Bool.and_eq_true]
    exact ⟨decide_eq_true ⟨hafter, hbefore⟩, decide_eq_true hbucket⟩

end

end LlmProxy.Runs
