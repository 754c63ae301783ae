import LlmProxy.Dispatch.RankedRuns
import LlmProxy.Streaming.SseFrames

/-! # The empty-stream guard

`preflight_sse`, `buffer_sse_until_content` and `stream_with_empty_guard`
(`app/api/_sse_guard.py`): the frames of a stream are read until one carries content, and a
stream that ends before is given up for one of another provider.

> `emptyGuard_right`: a stream that is served is served as a whole and is not empty, and the
> breaker is told of the empty ones.

A stream of an error is refused by `preflight_sse`; the breaker is not told of it here.

Mirroring notes.
* All selections of a run read one provider table, and each its own breakers, clock and sample.
* The activity log is left out.
* A frame with a delta, block or choice that is true and no object raises where it is read, and
  so does the status of an error whose message is true and no text.
-/

namespace LlmProxy.Dispatch

open LlmProxy.Providers
open LlmProxy.Routing
open LlmProxy.Streaming

/-! ## Buffering -/

/-- `max_frames`. -/
def maxFrames : Nat := 64

/-- The loop of `buffer_sse_until_content`: the frames read, whether they have content, and the
rest of the stream; `none` where a frame cannot be read. -/
def bufferLoop (frames : List SseFrame) : List SseFrame →
    Option (List SseFrame × Bool × List SseFrame)
  | [] => some (frames, !(frames.length < maxFrames), [])
  | frame :: gen =>
    if frames.length < maxFrames then
      (sseFrameHasContent frame).bind fun has =>
        if has then some (frames ++ [frame], true, gen) else bufferLoop (frames ++ [frame]) gen
    else some (frames, true, frame :: gen)

/-- `buffer_sse_until_content`. -/
def bufferSseUntilContent (first : SseFrame) (gen : List SseFrame) :
    Option (List SseFrame × Bool × List SseFrame) :=
  (sseFrameHasContent first).bind fun has =>
    if has then some ([first], true, gen) else bufferLoop [first] gen

/-- The stream carries content, or is long enough to be passed on. -/
def Full (frames : List SseFrame) : Prop :=
  (∃ f ∈ frames, sseFrameHasContent f = some true) ∨ maxFrames ≤ frames.length

/-- The stream ends early and carries no content. -/
def Bare (frames : List SseFrame) : Prop :=
  frames.length < maxFrames ∧ ∀ f ∈ frames, sseFrameHasContent f = some false

instance (frames : List SseFrame) : Decidable (Bare frames) :=
  inferInstanceAs (Decidable (_ ∧ _))

/-- What reading a stream to its content comes to. -/
def BufferedAs (whole : List SseFrame) : Option (List SseFrame × Bool × List SseFrame) → Prop
  | none => ∃ f ∈ whole, sseFrameHasContent f = none
  | some (frames, true, gen) => frames ++ gen = whole ∧ Full whole
  | some (_, false, _) => Bare whole

theorem bufferLoop_spec (frames gen : List SseFrame)
    (h : ∀ f ∈ frames, sseFrameHasContent f = some false) :
    BufferedAs (frames ++ gen) (bufferLoop frames gen) := by
  induction gen generalizing frames with
  | nil =>
    rw [List.append_nil]
    unfold bufferLoop
    by_cases hfew : frames.length < maxFrames
    · have hflag : (!decide (frames.length < maxFrames)) = false := by simpa using hfew
      rw [hflag]
      exact ⟨hfew, h⟩
    · have hflag : (!decide (frames.length < maxFrames)) = true := by simpa using hfew
      rw [hflag]
      exact ⟨List.append_nil frames, Or.inr (Nat.le_of_not_lt hfew)⟩
  | cons frame gen ih =>
    have hwhole : frames ++ frame :: gen = (frames ++ [frame]) ++ gen := by simp
    have hmem : frame ∈ frames ++ frame :: gen := by simp
    unfold bufferLoop
    by_cases hfew : frames.length < maxFrames
    · rw [if_pos hfew]
      cases hcontent : sseFrameHasContent frame with
      | none => exact ⟨frame, hmem, hcontent⟩
      | some has =>
        rw [Option.bind_some]
        cases has with
        | true => exact ⟨hwhole.symm, Or.inl ⟨frame, hmem, hcontent⟩⟩
        | false =>
          rw [if_neg Bool.false_ne_true, hwhole]
          apply ih
          intro f hf
          rcases List.mem_append.mp hf with hold | hnew
          · exact h f hold
          · rw [List.mem_singleton.mp hnew]
            exact hcontent
    · rw [if_neg hfew]
      refine ⟨rfl, Or.inr ?_⟩
      rw [List.length_append]
      omega

theorem bufferSseUntilContent_spec (first : SseFrame) (gen : List SseFrame) :
    BufferedAs (first :: gen) (bufferSseUntilContent first gen) := by
  unfold bufferSseUntilContent
  cases hcontent : sseFrameHasContent first with
  | none => exact ⟨first, List.mem_cons_self, hcontent⟩
  | some has =>
    rw [Option.bind_some]
    cases has with
    | true => exact ⟨rfl, Or.inl ⟨first, List.mem_cons_self, hcontent⟩⟩
    | false =>
      rw [if_neg Bool.false_ne_true]
      apply bufferLoop_spec [first] gen
      intro f hf
      rw [List.mem_singleton.mp hf]
      exact hcontent

/-! ## The guard -/

inductive GuardEnd where
  /-- `(frames, gen, route)` -/
  | served (frames gen : List SseFrame) (route : RouteResult)
  /-- `HTTPException(status, ..)` -/
  | failed (status : Nat)
  /-- an exception no handler catches -/
  | escaped

/-- A run: the routes whose streams it starts, the calls of `record_failure` and its end. -/
structure GuardRun where
  started : List RouteResult
  failures : List String
  result : GuardEnd

/-- What a run reads: `start` is `start_stream`. -/
structure GuardEnv where
  table : List Provider
  envs : Nat → World
  request : RouteRequest
  start : RouteResult → List SseFrame
  dumps : Json → String

def GuardEnv.reselect (env : GuardEnv) (n : Nat) (emptyFailed : List String) :
    Except RoutingError RouteResult :=
  selectRoute (tableAt env.table env.envs n)
    { env.request.around emptyFailed with
      excludedProviderTypes := ["claude-oauth", "grok-web", "ChatGPT-oauth-plan"] }

def emptyStreamText : String := "upstream produced an empty stream"

/-- `preflight_sse`: the first frame with the rest of the stream, or the error. -/
def preflightSse : List SseFrame → Except StreamError (SseFrame × List SseFrame)
  | [] => .error (.message (.str emptyStreamText))
  | first :: gen =>
    match sseFrameError first with
    | some err => .error err
    | none => .ok (first, gen)

def GuardRun.after (route : RouteResult) (run : GuardRun) : GuardRun :=
  { run with started := route :: run.started, failures := route.provider.id :: run.failures }

/-- The loop of `stream_with_empty_guard`: `left` attempts to go, the `n`-th next. -/
def guardLoop (env : GuardEnv) : Nat → Nat → List String → RouteResult → GuardRun
  | 0, _, _, _ => { started := [], failures := [], result := .failed 502 }
  | left + 1, n, emptyFailed, route =>
    match preflightSse (env.start route) with
    | .error err =>
      { started := [route], failures := []
        result := match httpStatusForStreamError env.dumps err with
          | some status => .failed status
          | none => .escaped }
    | .ok (first, gen) =>
      match bufferSseUntilContent first gen with
      | none => { started := [route], failures := [], result := .escaped }
      | some (frames, true, gen) =>
        { started := [route], failures := [], result := .served frames gen route }
      | some (_, false, _) =>
        let last : GuardRun :=
          { started := [route], failures := [route.provider.id], result := .failed 502 }
        if left = 0 then last
        else
          match env.reselect n (route.provider.id :: emptyFailed) with
          | .error _ => last
          | .ok next =>
            if next.provider.id ∈ route.provider.id :: emptyFailed then last
            else
              (guardLoop env left (n + 1) (route.provider.id :: emptyFailed) next).after route

/-- `stream_with_empty_guard`. -/
def runEmptyGuard (env : GuardEnv) (maxAttempts : Nat) (route : RouteResult) : GuardRun :=
  guardLoop env maxAttempts 0 [] route

/-! ## Whole runs -/

/-- The stream has frames, the first of them no error, but ends early and without content. -/
def EmptySuccess (frames : List SseFrame) : Prop :=
  frames ≠ [] ∧ (frames.head?.bind sseFrameError).isNone = true ∧ Bare frames

instance (frames : List SseFrame) : Decidable (EmptySuccess frames) :=
  inferInstanceAs (Decidable (_ ∧ _ ∧ _))

/-- The first frame is an error, with this status; `none` where that cannot be told. -/
def ErrorFirst (dumps : Json → String) (frames : List SseFrame) (status : Option Nat) : Prop :=
  ∃ first gen err, frames = first :: gen ∧ sseFrameError first = some err ∧
    httpStatusForStreamError dumps err = status

/-- How a run should end. -/
def GuardEnds (env : GuardEnv) (run : GuardRun) : Prop :=
  match run.result with
  | .served frames gen r => run.started.getLast? = some r ∧ frames ++ gen = env.start r ∧
      Full (env.start r)
  | .failed status =>
    (status = 502 ∧ ∀ r ∈ run.started, Bare (env.start r)) ∨
      ∃ r, run.started.getLast? = some r ∧ ErrorFirst env.dumps (env.start r) (some status)
  | .escaped => ∃ r, run.started.getLast? = some r ∧
      ((∃ f ∈ env.start r, sseFrameHasContent f = none) ∨
        ErrorFirst env.dumps (env.start r) none)

def GuardRun.ids (run : GuardRun) : List String := run.started.map (·.provider.id)

structure GuardRight (env : GuardEnv) (maxAttempts : Nat) (run : GuardRun) : Prop where
  few : run.started.length ≤ maxAttempts
  distinct : run.ids.Nodup
  ends : GuardEnds env run
  /-- the breaker is told once of every empty stream, and of no other -/
  recorded : run.failures =
    (run.started.filter fun r => EmptySuccess (env.start r)).map (·.provider.id)
  before : ∀ r ∈ run.started.dropLast, EmptySuccess (env.start r)
  called : 0 < maxAttempts → run.started ≠ []

/-- The same of the rest of a run, behind the providers that have failed. -/
structure GuardFrom (env : GuardEnv) (left : Nat) (emptyFailed : List String) (run : GuardRun) :
    Prop extends GuardRight env left run where
  new : ∀ id ∈ run.ids, id ∉ emptyFailed

section

variable {env : GuardEnv} {emptyFailed : List String} {route : RouteResult}

theorem guardFrom_single {left : Nat} {result : GuardEnd} {failures : List String}
    (hnew : route.provider.id ∉ emptyFailed)
    (hends : GuardEnds env { started := [route], failures := failures, result := result })
    (hrecorded : failures = if EmptySuccess (env.start route) then [route.provider.id] else []) :
    GuardFrom env (left + 1) emptyFailed
      { started := [route], failures := failures, result := result } where
  few := Nat.le_add_left 1 left
  distinct := List.nodup_singleton _
  ends := hends
  recorded := by
    rw [hrecorded]
    by_cases hempty : EmptySuccess (env.start route)
    · simp [hempty]
    · simp [hempty]
  before := List.forall_mem_nil _
  called := fun _ => List.cons_ne_nil route []
  new := by
    intro id hid
    rw [List.mem_singleton.mp hid]
    exact hnew

theorem preflightSse_error {frames : List SseFrame} {err : StreamError}
    (h : preflightSse frames = .error err) :
    (frames = [] ∧ err = .message (.str emptyStreamText)) ∨
      ∃ first gen, frames = first :: gen ∧ sseFrameError first = some err := by
  unfold preflightSse at h
  cases frames with
  | nil => exact Or.inl ⟨rfl, (Except.error.inj h).symm⟩
  | cons first gen =>
    cases herr : sseFrameError first with
    | none =>
      simp only [herr] at h
      cases h
    | some err' =>
      simp only [herr] at h
      rw [Except.error.inj h] at herr
      exact Or.inr ⟨first, gen, rfl, herr⟩

theorem preflightSse_ok {frames gen : List SseFrame} {first : SseFrame}
    (h : preflightSse frames = .ok (first, gen)) :
    frames = first :: gen ∧ sseFrameError first = none := by
  unfold preflightSse at h
  cases frames with
  | nil => cases h
  | cons first' gen' =>
    cases herr : sseFrameError first' with
    | some err =>
      simp only [herr] at h
      cases h
    | none =>
      simp only [herr] at h
      obtain ⟨rfl, rfl⟩ := Prod.mk.inj (Except.ok.inj h)
      exact ⟨rfl, herr⟩

theorem status_emptyStream (dumps : Json → String) :
    httpStatusForStreamError dumps (.message (.str emptyStreamText)) = some 502 := by
  have htext : statusForText (PyStr.lower emptyStreamText) = 502 := by decide +kernel
  have htrue : (Json.str emptyStreamText).truthy = true := by decide +kernel
  show (if (Json.str emptyStreamText).truthy then some (PyStr.lower emptyStreamText)
    else some "").map statusForText = some 502
  rw [if_pos htrue, Option.map_some, htext]

theorem not_emptySuccess_of_error {frames : List SseFrame} {err : StreamError}
    (h : preflightSse frames = .error err) : ¬ EmptySuccess frames := by
  rcases preflightSse_error h with ⟨rfl, -⟩ | ⟨first, gen, rfl, herr⟩
  · exact fun hempty => hempty.1 rfl
  · intro hempty
    have hnone := hempty.2.1
    rw [List.head?_cons, Option.bind_some, herr] at hnone
    cases hnone

theorem guardFrom_error {left : Nat} {err : StreamError}
    (hnew : route.provider.id ∉ emptyFailed) (h : preflightSse (env.start route) = .error err) :
    GuardFrom env (left + 1) emptyFailed
      { started := [route], failures := []
        result := match httpStatusForStreamError env.dumps err with
          | some status => .failed status
          | none => .escaped } := by
  refine guardFrom_single hnew ?_ (if_neg (not_emptySuccess_of_error h)).symm
  rcases preflightSse_error h with ⟨hempty, rfl⟩ | ⟨first, gen, hframes, herr⟩
  · rw [status_emptyStream]
    refine Or.inl ⟨rfl, ?_⟩
    intro r hr
    rw [List.mem_singleton.mp hr, hempty]
    exact ⟨by decide, List.forall_mem_nil _⟩
  · cases hstatus : httpStatusForStreamError env.dumps err with
    | some status => exact Or.inr ⟨route, rfl, first, gen, err, hframes, herr, hstatus⟩
    | none => exact ⟨route, rfl, Or.inr ⟨first, gen, err, hframes, herr, hstatus⟩⟩

theorem not_full_of_bare {frames : List SseFrame} (h : Bare frames) : ¬ Full frames := by
  rintro (⟨f, hf, hcontent⟩ | hlong)
  · rw [h.2 f hf] at hcontent
    cases hcontent
  · exact absurd h.1 (Nat.not_lt.mpr hlong)

theorem guardFrom_after {left : Nat} {run : GuardRun} (hnew : route.provider.id ∉ emptyFailed)
    (hempty : EmptySuccess (env.start route)) (hleft : left ≠ 0)
    (h : GuardFrom env left (route.provider.id :: emptyFailed) run) :
    GuardFrom env (left + 1) emptyFailed (run.after route) := by
  have hstarted : run.started ≠ [] := h.called (Nat.pos_of_ne_zero hleft)
  have hlast : (route :: run.started).getLast? = run.started.getLast? :=
    List.getLast?_cons_of_ne_nil hstarted
  refine ⟨⟨Nat.succ_le_succ h.few, ?_, ?_, ?_, ?_, fun _ => List.cons_ne_nil _ _⟩, ?_⟩
  · exact List.nodup_cons.mpr ⟨fun hmem => h.new _ hmem List.mem_cons_self, h.distinct⟩
  · have hends := h.ends
    unfold GuardEnds at hends ⊢
    show match run.result with
      | .served frames gen r => (route :: run.started).getLast? = some r ∧ _
      | .failed status => (status = 502 ∧ ∀ r ∈ route :: run.started, Bare (env.start r)) ∨
          ∃ r, (route :: run.started).getLast? = some r ∧ _
      | .escaped => ∃ r, (route :: run.started).getLast? = some r ∧ _
    rw [hlast]
    cases hresult : run.result with
    | served frames gen r =>
      rw [hresult] at hends
      exact hends
    | failed status =>
      rw [hresult] at hends
      rcases hends with ⟨hstatus, hbare⟩ | herror
      · exact Or.inl ⟨hstatus, List.forall_mem_cons.mpr ⟨hempty.2.2, hbare⟩⟩
      · exact Or.inr herror
    | escaped =>
      rw [hresult] at hends
      exact hends
  · show route.provider.id :: run.failures = _
    rw [h.recorded]
    show _ = ((route :: run.started).filter fun r => EmptySuccess (env.start r)).map _
    rw [List.filter_cons_of_pos (by simpa using hempty), List.map_cons]
  · intro r hr
    have hdrop : (route :: run.started).dropLast = route :: run.started.dropLast :=
      List.dropLast_cons_of_ne_nil hstarted
    have hmem : r ∈ route :: run.started.dropLast := by rw [← hdrop]; exact hr
    rcases List.mem_cons.mp hmem with rfl | hrest
    · exact hempty
    · exact h.before r hrest
  · intro id hid
    rcases List.mem_cons.mp hid with rfl | hrest
    · exact hnew
    · exact fun hmem => h.new id hrest (List.mem_cons_of_mem _ hmem)

end

/-- **Every run keeps it**, by induction on the attempts left. -/
theorem guardLoop_from (env : GuardEnv) (left n : Nat) (emptyFailed : List String)
    (route : RouteResult) (hnew : route.provider.id ∉ emptyFailed) :
    GuardFrom env left emptyFailed (guardLoop env left n emptyFailed route) := by
  induction left generalizing n emptyFailed route with
  | zero =>
    exact ⟨⟨le_refl 0, List.nodup_nil, Or.inl ⟨rfl, List.forall_mem_nil _⟩, rfl,
      List.forall_mem_nil _, fun h => absurd h (lt_irrefl 0)⟩, List.forall_mem_nil _⟩
  | succ left ih =>
    unfold guardLoop
    cases hpre : preflightSse (env.start route) with
    | error err => exact guardFrom_error hnew hpre
    | ok pair =>
      obtain ⟨first, gen⟩ := pair
      obtain ⟨hframes, herr⟩ := preflightSse_ok hpre
      have hspec := bufferSseUntilContent_spec first gen
      rw [← hframes] at hspec
      dsimp only
      cases hbuffer : bufferSseUntilContent first gen with
      | none =>
        rw [hbuffer] at hspec
        obtain ⟨f, hf, hnone⟩ := hspec
        have hnot : ¬ EmptySuccess (env.start route) := by
          intro hempty
          rw [hempty.2.2.2 f hf] at hnone
          cases hnone
        exact guardFrom_single hnew ⟨route, rfl, Or.inl ⟨f, hf, hnone⟩⟩ (if_neg hnot).symm
      | some out =>
        obtain ⟨frames, has, rest⟩ := out
        rw [hbuffer] at hspec
        cases has with
        | true =>
          obtain ⟨hwhole, hfull⟩ := hspec
          have hnot : ¬ EmptySuccess (env.start route) :=
            fun hempty => not_full_of_bare hempty.2.2 hfull
          exact guardFrom_single hnew ⟨rfl, hwhole, hfull⟩ (if_neg hnot).symm
        | false =>
          have hbare : Bare (env.start route) := hspec
          have hempty : EmptySuccess (env.start route) := by
            refine ⟨?_, ?_, hbare⟩
            · rw [hframes]
              exact List.cons_ne_nil first gen
            · rw [hframes, List.head?_cons, Option.bind_some, herr]
              rfl
          have hlast : GuardFrom env (left + 1) emptyFailed
              { started := [route], failures := [route.provider.id], result := .failed 502 } :=
            guardFrom_single hnew
              (Or.inl ⟨rfl, fun r hr => by rw [List.mem_singleton.mp hr]; exact hbare⟩)
              (if_pos hempty).symm
          dsimp only
          split
          · exact hlast
          · next hleft =>
            split
            · exact hlast
            · next next hnext =>
              split
              · exact hlast
              · next hfresh => exact guardFrom_after hnew hempty hleft (ih _ _ next hfresh)

/-- **The empty-stream guard is right**, over every provider table and whatever the streams. -/
theorem emptyGuard_right (env : GuardEnv) (maxAttempts : Nat) (route : RouteResult) :
    GuardRight env maxAttempts (runEmptyGuard env maxAttempts route) :=
  (guardLoop_from env maxAttempts 0 [] route List.not_mem_nil).toGuardRight

/-! ## Streams that are no success, and yet not recorded -/

def singleStream (frames : List SseFrame) : GuardEnv where
  table := [onlyRow]
  envs := fun _ => onlyWorld
  request := {}
  start := fun _ => frames
  dumps := fun _ => ""

def refusedFrame : SseFrame :=
  "data: \x7b\"type\":\"error\",\"error\":\x7b\"message\":\"401 invalid key\"\x7d\x7d\n\n".toList

def oddFrame : SseFrame :=
  "data: \x7b\"type\":\"content_block_delta\",\"delta\":\"text\"\x7d\n\n".toList

/-- A stream of one error frame has frames and no content, but is not recorded, and a delta that is
no object raises. -/
theorem refused_not_recorded :
    (sseFrameHasContent refusedFrame = some false ∧
        (runEmptyGuard (singleStream [refusedFrame]) 3 onlyRoute).failures = []) ∧
      (runEmptyGuard (singleStream [oddFrame]) 3 onlyRoute).result = .escaped := by
  have hrefused : (sseFrameError refusedFrame).isSome = true := by decide +kernel
  have hpassed : (sseFrameError oddFrame).isNone = true := by decide +kernel
  have hodd : (sseFrameHasContent oddFrame).isNone = true := by decide +kernel
  refine ⟨⟨by decide +kernel, ?_⟩, ?_⟩
  · obtain ⟨err, herr⟩ := Option.isSome_iff_exists.mp hrefused
    have hpre : preflightSse [refusedFrame] = .error err := by
      simp only [preflightSse, herr]
    show (guardLoop (singleStream [refusedFrame]) 3 0 [] onlyRoute).failures = []
    unfold guardLoop
    rw [show (singleStream [refusedFrame]).start onlyRoute = [refusedFrame] from rfl, hpre]
  · have hpre : preflightSse [oddFrame] = .ok (oddFrame, []) := by
      simp only [preflightSse, Option.isNone_iff_eq_none.mp hpassed]
    have hbuffer : bufferSseUntilContent oddFrame [] = none := by
      unfold bufferSseUntilContent
      rw [Option.isNone_iff_eq_none.mp hodd, Option.bind_none]
    show (guardLoop (singleStream [oddFrame]) 3 0 [] onlyRoute).result = .escaped
    unfold guardLoop
    rw [show (singleStream [oddFrame]).start onlyRoute = [oddFrame] from rfl, hpre]
    dsimp only
    rw [hbuffer]

end LlmProxy.Dispatch
