import LlmProxy.Streaming.Completion

/-! # The OpenAI stream

`_stream_openai` (`app/api/_completions_streaming.py`): the chunks of the upstream are passed on
one behind, so that the last one can be given the finish reason seen before it.

> `streamOpenai_right_iff`: the stream is complete and terminated exactly when the upstream
> raises before its first chunk or not at all, the accounting behind `[DONE]` does not raise, and
> the last chunk has a choice to carry the finish reason.

`Held` is what the loop keeps: everything but the last chunk is out (`held_openAiChunk`). An
exception finds the last chunk still held, and the handler does not emit it
(`streamOpenai_raised`).

Mirroring notes.
* A data frame is the chunk `model_dump_json` writes in it, with the disclosure set in its object.
* The clock is left out.
-/

namespace LlmProxy.Streaming

/-! ## Chunks -/

structure OpenAiChoice where
  finishReason : Option String
  /-- `delta.content` -/
  content : Option String
  fields : List (String × String)
  deriving DecidableEq

structure OpenAiChunk where
  choices : List OpenAiChoice
  usage : Option Usage
  fields : List (String × String)
  deriving DecidableEq

def OpenAiChoice.finish (choice : OpenAiChoice) : Option String :=
  if given choice.finishReason then choice.finishReason else none

def OpenAiChunk.firstFinish (chunk : OpenAiChunk) : Option String :=
  chunk.choices.head?.bind OpenAiChoice.finish

def OpenAiChunk.finishes (chunk : OpenAiChunk) : List String :=
  chunk.choices.filterMap OpenAiChoice.finish

inductive OpenAiFrame where
  | chunk (chunk : OpenAiChunk) (disclosure : Option String)
  | error (message : String)
  | done
  deriving DecidableEq

/-- A call of `record_outcome`. -/
inductive Accounted where
  | success (inTok outTok : Nat)
  | failure (errorStr : String)
  deriving DecidableEq

/-- What the upstream sends: its chunks, and the exception it raises behind them. -/
structure Upstream where
  chunks : List OpenAiChunk
  exc : Option String

structure OpenAiEnv where
  /-- the text of `compliance_disclosure`, where the client accepts it -/
  disclosure : Option String
  /-- `cache_decision.eligible` -/
  eligible : Bool
  /-- what `record_outcome(success=True)` raises -/
  successExc : Option String
  /-- `record_outcome(success=False)` raises -/
  failureRaises : Bool

/-! ## The generator -/

structure OpenAiState where
  frames : List OpenAiFrame
  prevChunk : Option OpenAiChunk
  lastFinish : Option String
  pending : Option String
  inTok : Nat
  outTok : Nat
  fullText : List String

def OpenAiState.start (env : OpenAiEnv) : OpenAiState := ⟨[], none, none, env.disclosure, 0, 0, []⟩

def OpenAiState.emit (s : OpenAiState) (chunk : OpenAiChunk) : OpenAiState :=
  { s with frames := s.frames ++ [.chunk chunk s.pending], pending := none }

def OpenAiState.note (s : OpenAiState) (chunk : OpenAiChunk) : OpenAiState :=
  { s with
    inTok := (chunk.usage.map (·.promptTokens)).getD s.inTok
    outTok := (chunk.usage.map (·.completionTokens)).getD s.outTok
    lastFinish := chunk.firstFinish.or s.lastFinish
    fullText := s.fullText ++
      ((chunk.choices.head?.bind (·.content)).filter (· ≠ "")).toList }

def openAiChunk (s : OpenAiState) (chunk : OpenAiChunk) : OpenAiState :=
  let s := s.note chunk
  let s := match s.prevChunk with
    | some prev => s.emit prev
    | none => s
  { s with prevChunk := some chunk }

/-- The last chunk, with a finish reason where it lacks one. -/
def patchFinish (lastFinish : Option String) (chunk : OpenAiChunk) : OpenAiChunk :=
  match chunk.choices, lastFinish with
  | c0 :: rest, some f =>
    if given c0.finishReason then chunk
    else { chunk with choices := { c0 with finishReason := some f } :: rest }
  | _, _ => chunk

/-- A run: the frames it yields, the calls of `record_outcome`, the text stored in the cache and
whether the generator raises. -/
structure OpenAiRun where
  frames : List OpenAiFrame
  accounted : List Accounted
  stored : Option String
  raised : Bool

def onException (env : OpenAiEnv) (frames : List OpenAiFrame) (accounted : List Accounted)
    (exc : String) : OpenAiRun :=
  if env.failureRaises then ⟨frames, accounted ++ [.failure exc], none, true⟩
  else ⟨frames ++ [.error exc, .done], accounted ++ [.failure exc], none, false⟩

def endOfStream (env : OpenAiEnv) (s : OpenAiState) : OpenAiRun :=
  let s := match s.prevChunk with
    | some prev => s.emit (patchFinish s.lastFinish prev)
    | none => s
  let frames := s.frames ++ [.done]
  let accounted := [Accounted.success s.inTok s.outTok]
  match env.successExc with
  | some exc => onException env frames accounted exc
  | none =>
    let stored := if env.eligible then some ("".intercalate s.fullText) else none
    ⟨frames, accounted, stored, false⟩

/-- `_stream_openai`. -/
def streamOpenai (env : OpenAiEnv) (upstream : Upstream) : OpenAiRun :=
  let s := upstream.chunks.foldl openAiChunk (OpenAiState.start env)
  match upstream.exc with
  | some exc => onException env s.frames [] exc
  | none => endOfStream env s

/-! ## What the loop keeps -/

def relayed (disclosure : Option String) : List OpenAiChunk → List OpenAiFrame
  | [] => []
  | c :: rest => .chunk c disclosure :: rest.map (.chunk · none)

theorem relayed_concat (disclosure : Option String) (chunks : List OpenAiChunk) (c : OpenAiChunk) :
    relayed disclosure (chunks ++ [c]) =
      relayed disclosure chunks ++ [.chunk c (if chunks = [] then disclosure else none)] := by
  cases chunks with
  | nil => rfl
  | cons d rest => simp [relayed]

def lastFirstFinish (chunks : List OpenAiChunk) : Option String :=
  (chunks.filterMap OpenAiChunk.firstFinish).getLast?

theorem lastFirstFinish_concat (chunks : List OpenAiChunk) (c : OpenAiChunk) :
    lastFirstFinish (chunks ++ [c]) = c.firstFinish.or (lastFirstFinish chunks) := by
  unfold lastFirstFinish
  rw [List.filterMap_append]
  cases h : c.firstFinish with
  | none => simp [h]
  | some f => simp [h]

/-- Everything but the last of the chunks seen is out. -/
structure Held (env : OpenAiEnv) (seen : List OpenAiChunk) (s : OpenAiState) : Prop where
  frames : s.frames = relayed env.disclosure seen.dropLast
  pending : s.pending = if seen.dropLast = [] then env.disclosure else none
  prev : s.prevChunk = seen.getLast?
  finish : s.lastFinish = lastFirstFinish seen

theorem held_start (env : OpenAiEnv) : Held env [] (OpenAiState.start env) :=
  ⟨rfl, rfl, rfl, rfl⟩

/-- **The step of the loop.** -/
theorem held_openAiChunk {env : OpenAiEnv} {seen : List OpenAiChunk} {s : OpenAiState}
    (h : Held env seen s) (c : OpenAiChunk) : Held env (seen ++ [c]) (openAiChunk s c) := by
  have hfinish : c.firstFinish.or s.lastFinish = lastFirstFinish (seen ++ [c]) := by
    rw [lastFirstFinish_concat, h.finish]
  have hlast : some c = (seen ++ [c]).getLast? := by simp
  have hdrop : (seen ++ [c]).dropLast = seen := by simp
  rcases List.eq_nil_or_concat' seen with rfl | ⟨before, prev, rfl⟩
  · have hprev : s.prevChunk = none := h.prev
    have hstep : openAiChunk s c = { s.note c with prevChunk := some c } := by
      simp only [openAiChunk, OpenAiState.note, hprev]
    rw [hstep]
    exact ⟨h.frames, h.pending, hlast, hfinish⟩
  · have hprev : s.prevChunk = some prev := by simpa using h.prev
    have hbefore : (before ++ [prev]).dropLast = before := by simp
    have hframes := h.frames
    have hpending := h.pending
    rw [hbefore] at hframes hpending
    have hstep : openAiChunk s c = { (s.note c).emit prev with prevChunk := some c } := by
      simp only [openAiChunk, OpenAiState.note, hprev]
    rw [hstep]
    refine ⟨?_, ?_, hlast, hfinish⟩
    · show s.frames ++ [.chunk prev s.pending] = _
      rw [hdrop, relayed_concat, hframes, hpending]
    · show none = _
      rw [hdrop, if_neg (by simp)]

theorem held_foldl {env : OpenAiEnv} {seen : List OpenAiChunk} {s : OpenAiState}
    (h : Held env seen s) (chunks : List OpenAiChunk) :
    Held env (seen ++ chunks) (chunks.foldl openAiChunk s) := by
  induction chunks generalizing seen s with
  | nil => simpa using h
  | cons c rest ih =>
    have hrest := ih (held_openAiChunk h c)
    rw [List.append_assoc] at hrest
    exact hrest

def patched (chunks : List OpenAiChunk) : List OpenAiChunk :=
  chunks.dropLast ++ (chunks.getLast?.map (patchFinish (lastFirstFinish chunks))).toList

theorem streamOpenai_raised (env : OpenAiEnv) {upstream : Upstream} {exc : String}
    (h : upstream.exc = some exc) :
    (streamOpenai env upstream).frames =
      relayed env.disclosure upstream.chunks.dropLast ++
        if env.failureRaises then [] else [.error exc, .done] := by
  have hheld := held_foldl (held_start env) upstream.chunks
  unfold streamOpenai
  simp only [h]
  unfold onException
  rw [hheld.frames, List.nil_append]
  cases env.failureRaises with
  | true => simp
  | false => rfl

/-- The upstream ends: every chunk is out, and `[DONE]`. -/
theorem streamOpenai_ended (env : OpenAiEnv) {upstream : Upstream} (h : upstream.exc = none) :
    (streamOpenai env upstream).frames =
      relayed env.disclosure (patched upstream.chunks) ++ [.done] ++
        match env.successExc with
        | some exc => if env.failureRaises then [] else [.error exc, .done]
        | none => [] := by
  have hheld := held_foldl (held_start env) upstream.chunks
  rw [List.nil_append] at hheld
  unfold streamOpenai
  simp only [h]
  have hout : (match (upstream.chunks.foldl openAiChunk (OpenAiState.start env)).prevChunk with
      | some prev => (upstream.chunks.foldl openAiChunk (OpenAiState.start env)).emit
          (patchFinish (upstream.chunks.foldl openAiChunk (OpenAiState.start env)).lastFinish prev)
      | none => upstream.chunks.foldl openAiChunk (OpenAiState.start env)).frames =
        relayed env.disclosure (patched upstream.chunks) := by
    rw [hheld.prev]
    unfold patched
    cases hlast : upstream.chunks.getLast? with
    | none =>
      simp only [Option.map_none, Option.toList_none, List.append_nil]
      exact hheld.frames
    | some last =>
      simp only [Option.map_some, Option.toList_some]
      rw [relayed_concat, ← hheld.frames, ← hheld.pending, ← hheld.finish]
      rfl
  unfold endOfStream
  simp only [hout]
  cases env.successExc with
  | none => simp
  | some exc =>
    unfold onException
    cases env.failureRaises with
    | true => simp
    | false => simp

/-! ## Complete and terminated -/

def OpenAiChunk.unfinished (chunk : OpenAiChunk) : OpenAiChunk :=
  { chunk with choices := chunk.choices.map fun choice => { choice with finishReason := none } }

def lastFinishSeen (chunks : List OpenAiChunk) : Option String :=
  (chunks.flatMap OpenAiChunk.finishes).getLast?

/-- What the stream is to be: the chunks shown are those received, up to the finish reason of
the last; they stand before at most one error, and `[DONE]` is last and occurs once. -/
structure RightStream (env : OpenAiEnv) (upstream : Upstream) (shown : List OpenAiChunk)
    (errors frames : List OpenAiFrame) : Prop where
  frames : frames = relayed env.disclosure shown ++ errors ++ [.done]
  received : shown.dropLast = upstream.chunks.dropLast
  last : shown.getLast?.map OpenAiChunk.unfinished =
    upstream.chunks.getLast?.map OpenAiChunk.unfinished
  single : errors = [] ∨ ∃ message, errors = [.error message]
  raised : ∀ exc, upstream.exc = some exc → errors = [.error exc]
  finish : upstream.exc = none → ∀ f, lastFinishSeen upstream.chunks = some f →
    ∃ chunk, shown.getLast? = some chunk ∧ f ∈ chunk.finishes

def Right (env : OpenAiEnv) (upstream : Upstream) : Prop :=
  ∃ shown errors, RightStream env upstream shown errors (streamOpenai env upstream).frames

/-- The last chunk can show the finish reason: it has one of its own, or it has a choice and the
last reason seen is one of a first choice. -/
def FinishFits (chunks : List OpenAiChunk) : Prop :=
  ∀ f, lastFinishSeen chunks = some f → ∃ chunk, chunks.getLast? = some chunk ∧
    (chunk.finishes ≠ [] ∨ chunk.choices ≠ [] ∧ lastFirstFinish chunks = some f)

/-- The condition on the upstream and the accounting. -/
def Streamable (env : OpenAiEnv) (upstream : Upstream) : Prop :=
  match upstream.exc with
  | some _ => upstream.chunks = [] ∧ env.failureRaises = false
  | none => (env.successExc = none ∨ env.failureRaises = true) ∧ FinishFits upstream.chunks

/-! ### Counting frames -/

def OpenAiFrame.isChunk : OpenAiFrame → Bool
  | .chunk _ _ => true
  | _ => false

theorem isChunk_of_mem_relayed {disclosure : Option String} {chunks : List OpenAiChunk}
    {frame : OpenAiFrame} (h : frame ∈ relayed disclosure chunks) : frame.isChunk = true := by
  cases chunks with
  | nil => cases h
  | cons c rest =>
    rcases List.mem_cons.mp h with rfl | hrest
    · rfl
    · obtain ⟨d, -, rfl⟩ := List.mem_map.mp hrest
      rfl

theorem filter_relayed (disclosure : Option String) (chunks : List OpenAiChunk) :
    (relayed disclosure chunks).filter OpenAiFrame.isChunk = relayed disclosure chunks :=
  List.filter_eq_self.mpr fun _ h => isChunk_of_mem_relayed h

theorem relayed_injective {disclosure : Option String} {chunks others : List OpenAiChunk}
    (h : relayed disclosure chunks = relayed disclosure others) : chunks = others := by
  cases chunks with
  | nil =>
    cases others with
    | nil => rfl
    | cons d rest => cases h
  | cons c rest =>
    cases others with
    | nil => cases h
    | cons d others =>
      obtain ⟨hfirst, hrest⟩ := List.cons.inj h
      have hinjective : Function.Injective fun c => OpenAiFrame.chunk c none :=
        fun _ _ heq => (OpenAiFrame.chunk.inj heq).1
      rw [(OpenAiFrame.chunk.inj hfirst).1, hinjective.list_map hrest]

theorem chunks_of_frames {disclosure : Option String} {chunks : List OpenAiChunk}
    {others : List OpenAiFrame} (h : ∀ frame ∈ others, frame.isChunk = false) :
    (relayed disclosure chunks ++ others).filter OpenAiFrame.isChunk =
      relayed disclosure chunks := by
  rw [List.filter_append, filter_relayed, List.filter_eq_nil_iff.mpr, List.append_nil]
  intro frame hmem
  rw [h frame hmem]
  exact Bool.false_ne_true

theorem others_not_chunk {errors : List OpenAiFrame}
    (h : errors = [] ∨ ∃ message, errors = [.error message]) :
    ∀ frame ∈ errors ++ [.done], frame.isChunk = false := by
  intro frame hmem
  rcases h with rfl | ⟨message, rfl⟩
  · rw [List.mem_singleton.mp hmem]
    rfl
  · rcases List.mem_cons.mp hmem with rfl | hdone
    · rfl
    · rw [List.mem_singleton.mp hdone]
      rfl

/-! ### The finish reason -/

theorem given_of_finish {choice : OpenAiChoice} {f : String} (h : choice.finish = some f) :
    given (some f) = true := by
  unfold OpenAiChoice.finish at h
  by_cases hgiven : given choice.finishReason = true
  · rw [if_pos hgiven] at h
    rw [← h]
    exact hgiven
  · rw [if_neg hgiven] at h
    cases h

theorem given_of_lastFirstFinish {chunks : List OpenAiChunk} {f : String}
    (h : lastFirstFinish chunks = some f) : given (some f) = true := by
  have hmem := List.mem_of_getLast? h
  obtain ⟨c, -, hc⟩ := List.mem_filterMap.mp hmem
  obtain ⟨choice, -, hchoice⟩ := Option.bind_eq_some_iff.mp hc
  exact given_of_finish hchoice

theorem finishes_patchFinish (lastFinish : Option String) {chunk : OpenAiChunk} {f : String}
    (h : f ∈ chunk.finishes) : f ∈ (patchFinish lastFinish chunk).finishes := by
  unfold patchFinish
  split
  · next c0 rest g hchoices =>
    by_cases hgiven : given c0.finishReason = true
    · rw [if_pos hgiven]
      exact h
    · rw [if_neg hgiven]
      have hnone : c0.finish = none := if_neg hgiven
      unfold OpenAiChunk.finishes at h
      rw [hchoices, List.filterMap_cons_none hnone] at h
      obtain ⟨choice, hmem, hchoice⟩ := List.mem_filterMap.mp h
      exact List.mem_filterMap.mpr ⟨choice, List.mem_cons_of_mem _ hmem, hchoice⟩
  · exact h

theorem finishes_patchFinish_iff {chunks : List OpenAiChunk} {chunk : OpenAiChunk}
    (hnone : chunk.finishes = []) (f : String) :
    f ∈ (patchFinish (lastFirstFinish chunks) chunk).finishes ↔
      chunk.choices ≠ [] ∧ lastFirstFinish chunks = some f := by
  cases hchoices : chunk.choices with
  | nil =>
    unfold patchFinish
    simp [hchoices, OpenAiChunk.finishes]
  | cons c0 rest =>
    have hall : ∀ choice ∈ c0 :: rest, choice.finish = none := by
      rw [← hchoices]
      exact List.filterMap_eq_nil_iff.mp hnone
    have hfirst : given c0.finishReason = false := by
      have hfinish := hall c0 List.mem_cons_self
      unfold OpenAiChoice.finish at hfinish
      by_contra hgiven
      rw [Bool.not_eq_false] at hgiven
      rw [if_pos hgiven] at hfinish
      rw [hfinish] at hgiven
      exact Bool.false_ne_true hgiven
    cases hlast : lastFirstFinish chunks with
    | none =>
      unfold patchFinish
      simp [hchoices, hnone]
    | some g =>
      have hgiven := given_of_lastFirstFinish hlast
      have hpatched : (patchFinish (some g) chunk).finishes = [g] := by
        unfold patchFinish
        simp only [hchoices, hfirst, Bool.false_eq_true, if_false]
        unfold OpenAiChunk.finishes
        have hset : OpenAiChoice.finish { c0 with finishReason := some g } = some g := if_pos hgiven
        rw [List.filterMap_cons_some hset, List.filterMap_eq_nil_iff.mpr]
        exact fun choice hmem => hall choice (List.mem_cons_of_mem _ hmem)
      rw [hpatched, List.mem_singleton]
      simp [eq_comm]

theorem unfinished_patchFinish (lastFinish : Option String) (chunk : OpenAiChunk) :
    (patchFinish lastFinish chunk).unfinished = chunk.unfinished := by
  unfold patchFinish
  split
  · next c0 rest g hchoices =>
    split
    · rfl
    · simp [OpenAiChunk.unfinished, hchoices]
  · rfl

theorem dropLast_patched (chunks : List OpenAiChunk) :
    (patched chunks).dropLast = chunks.dropLast := by
  rcases List.eq_nil_or_concat' chunks with rfl | ⟨before, c, rfl⟩
  · rfl
  · simp [patched]

theorem getLast?_patched (chunks : List OpenAiChunk) :
    (patched chunks).getLast? = chunks.getLast?.map (patchFinish (lastFirstFinish chunks)) := by
  rcases List.eq_nil_or_concat' chunks with rfl | ⟨before, c, rfl⟩
  · rfl
  · simp [patched]

theorem finish_patched_iff (chunks : List OpenAiChunk) :
    (∀ f, lastFinishSeen chunks = some f →
        ∃ chunk, (patched chunks).getLast? = some chunk ∧ f ∈ chunk.finishes) ↔
      FinishFits chunks := by
  rw [getLast?_patched]
  apply forall_congr'
  intro f
  apply imp_congr_right
  intro hseen
  rcases List.eq_nil_or_concat' chunks with rfl | ⟨before, c, rfl⟩
  · cases hseen
  · have hlast : (before ++ [c]).getLast? = some c := by simp
    rw [hlast]
    simp only [Option.map_some, Option.some.injEq, exists_eq_left']
    by_cases hnone : c.finishes = []
    · rw [finishes_patchFinish_iff hnone]
      simp [hnone]
    · have hmem : f ∈ c.finishes := by
        unfold lastFinishSeen at hseen
        rw [List.flatMap_append, List.flatMap_singleton, List.getLast?_append_of_ne_nil _ hnone]
          at hseen
        exact List.mem_of_getLast? hseen
      simp [hnone, finishes_patchFinish _ hmem]

/-! ### The theorem -/

variable {env : OpenAiEnv} {upstream : Upstream}

theorem RightStream.shown_eq {shown chunks : List OpenAiChunk}
    {errors others frames : List OpenAiFrame} (h : RightStream env upstream shown errors frames)
    (hframes : frames = relayed env.disclosure chunks ++ others)
    (hothers : ∀ frame ∈ others, frame.isChunk = false) : shown = chunks := by
  have hchunks := congrArg (List.filter OpenAiFrame.isChunk) (h.frames.symm.trans hframes)
  rw [List.append_assoc, chunks_of_frames (others_not_chunk h.single),
    chunks_of_frames hothers] at hchunks
  exact relayed_injective hchunks

theorem streamable_of_raised {exc : String} (hexc : upstream.exc = some exc)
    (h : Right env upstream) : upstream.chunks = [] ∧ env.failureRaises = false := by
  obtain ⟨shown, errors, h⟩ := h
  have hrun := streamOpenai_raised env hexc
  have hshown : shown = upstream.chunks.dropLast := by
    apply h.shown_eq hrun
    split
    · exact List.forall_mem_nil _
    · exact others_not_chunk (Or.inr ⟨exc, rfl⟩)
  have hnone : upstream.chunks = [] := by
    rcases List.eq_nil_or_concat' upstream.chunks with hnil | ⟨before, c, hconcat⟩
    · exact hnil
    · exfalso
      have hbefore : shown = before := by rw [hshown, hconcat, List.dropLast_concat]
      have hreceived := h.received
      have hlast := h.last
      rw [hconcat, List.dropLast_concat, hbefore] at hreceived
      rw [hconcat, hbefore] at hlast
      have hlength := congrArg List.length hreceived
      rw [List.length_dropLast] at hlength
      have hzero : before = [] := List.length_eq_zero_iff.mp (by omega)
      rw [hzero] at hlast
      simp at hlast
  refine ⟨hnone, ?_⟩
  by_contra hraises
  rw [Bool.not_eq_false] at hraises
  have hframes := h.frames
  rw [hrun, hraises, hnone] at hframes
  simp [relayed] at hframes

theorem streamable_of_ended (hexc : upstream.exc = none) (h : Right env upstream) :
    (env.successExc = none ∨ env.failureRaises = true) ∧ FinishFits upstream.chunks := by
  obtain ⟨shown, errors, h⟩ := h
  have hrun := streamOpenai_ended env hexc
  rw [List.append_assoc] at hrun
  have hshown : shown = patched upstream.chunks := by
    apply h.shown_eq hrun
    intro frame hmem
    rcases List.mem_cons.mp hmem with rfl | hrest
    · rfl
    · split at hrest
      · split at hrest
        · cases hrest
        · exact others_not_chunk (Or.inr ⟨_, rfl⟩) frame hrest
      · cases hrest
  constructor
  · cases hsuccess : env.successExc with
    | none => exact Or.inl rfl
    | some exc =>
      refine Or.inr ?_
      by_contra hraises
      rw [Bool.not_eq_true] at hraises
      -- a second `[DONE]` behind the first
      have hframes := h.frames
      rw [hrun, hshown, List.append_assoc, List.append_cancel_left_eq, hsuccess, hraises]
        at hframes
      rcases h.single with rfl | ⟨message, rfl⟩
      · simp at hframes
      · simp at hframes
  · rw [← finish_patched_iff, ← hshown]
    exact h.finish hexc

theorem right_of_raised {exc : String} (hexc : upstream.exc = some exc)
    (hnone : upstream.chunks = []) (hraises : env.failureRaises = false) : Right env upstream := by
  have hframes := streamOpenai_raised env hexc
  rw [hnone, hraises] at hframes
  exact ⟨[], [.error exc],
    { frames := hframes
      received := by rw [hnone]
      last := by rw [hnone]
      single := Or.inr ⟨exc, rfl⟩
      raised := fun e he => by
        rw [hexc] at he
        rw [Option.some.inj he]
      finish := fun he => by
        rw [hexc] at he
        cases he }⟩

theorem right_of_ended (hexc : upstream.exc = none)
    (haccounted : env.successExc = none ∨ env.failureRaises = true)
    (hfits : FinishFits upstream.chunks) : Right env upstream := by
  have hrun := streamOpenai_ended env hexc
  have htail : (match env.successExc with
      | some exc => if env.failureRaises then [] else [OpenAiFrame.error exc, .done]
      | none => []) = [] := by
    rcases haccounted with hnone | hraises
    · rw [hnone]
    · rw [hraises]
      cases env.successExc with
      | none => rfl
      | some exc => rfl
  rw [htail, List.append_nil] at hrun
  exact ⟨patched upstream.chunks, [],
    { frames := by rw [hrun, List.append_nil]
      received := dropLast_patched _
      last := by
        rw [getLast?_patched, Option.map_map]
        cases upstream.chunks.getLast? with
        | none => rfl
        | some c => simp [unfinished_patchFinish]
      single := Or.inl rfl
      raised := fun e he => by
        rw [hexc] at he
        cases he
      finish := fun _ => (finish_patched_iff _).mpr hfits }⟩

/-- **The stream is complete and terminated** exactly when the upstream raises before its first
chunk or not at all, the accounting raises nothing the handler answers, and the last chunk can
show the finish reason. -/
theorem streamOpenai_right_iff (env : OpenAiEnv) (upstream : Upstream) :
    Right env upstream ↔ Streamable env upstream := by
  unfold Streamable
  cases hexc : upstream.exc with
  | some exc =>
    exact ⟨streamable_of_raised hexc, fun ⟨hnone, hraises⟩ => right_of_raised hexc hnone hraises⟩
  | none =>
    exact ⟨streamable_of_ended hexc, fun ⟨haccounted, hfits⟩ =>
      right_of_ended hexc haccounted hfits⟩

/-- A chunk is received, then the connection is reset: the chunk is not emitted. -/
theorem reset_loses_chunk :
    ¬ Right ⟨none, false, none, false⟩ ⟨[⟨[⟨none, some "Hel", []⟩], none, []⟩], some "reset"⟩ :=
  fun h => List.cons_ne_nil _ _ (streamable_of_raised rfl h).1

end LlmProxy.Streaming
