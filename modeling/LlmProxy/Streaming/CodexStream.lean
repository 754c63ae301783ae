import LlmProxy.Streaming.SseFrames

/-! # Codex streams

`responses_sse_to_chat_completions_sse` and `collect_responses_stream_into_completion`
(`app/providers/codex_translate.py`): the events of a Responses-API stream, passed on as chunks of
a chat completion or put together to one.

> `codex_right_iff`: the two agree, and the stream is terminated, exactly when the lines settle:
> they reach a `response.completed`, or an error whose object is a message and a type.

Lines that end early, or with another terminal event, leave the stream without a finish reason
and `[DONE]`, and the completion with the finish reason `stop`.

Mirroring notes.
* An exception of a step ends both; the iterator of the lines can raise behind the last line.
* The items in the text of a dict are a parameter, its braces are not.
-/

namespace LlmProxy.Streaming

/-! ## Events -/

/-- What stands behind `data:`. -/
def dataPayload (line : String) : Option String :=
  if line = "" || PyStr.startsWith line ":" || PyStr.startsWith line "event:" then none
  else if PyStr.startsWith line "data:" then
    some (PyStr.strip (String.ofList (line.toList.drop 5)))
  else none

def codexEvent (line : String) : Option Json :=
  (dataPayload line).bind fun payload => Json.parse payload.toList

structure ReplyUsage where
  promptTokens : Json
  completionTokens : Json
  totalTokens : Json

def zeroTokens : Json := .num ⟨['0'], by decide, by decide⟩

/-- The usage of a completed response; `none` where reading it raises. -/
def completedUsage (evt : Json) : Option (Option ReplyUsage) :=
  (objectField evt "response").map fun response =>
    match response.get? "usage" with
    | some (.obj members) =>
      let usage := Json.obj members
      some
        ⟨(usage.get? "input_tokens").getD zeroTokens,
          (usage.get? "output_tokens").getD zeroTokens,
          (usage.get? "total_tokens").getD zeroTokens⟩
    | _ => none

/-- `str(value)[:300]` of a dict; `inner` writes its items. -/
def dictText (inner : Json → String) (value : Json) : Json :=
  .str (String.ofList (("\x7b" ++ inner value ++ "\x7d").toList.take 300))

/-- `value.get(key) or other`. -/
def getOr (value : Json) (key : String) (other : Json) : Json :=
  match value.get? key with
  | some v => if v.truthy then v else other
  | none => other

inductive CodexStep where
  | raise
  | skip
  | text (content : Json)
  | completed (usage : Option ReplyUsage)
  | failed (error : Json)

def isDeltaEvent (evt : Json) : Bool := isStr (evt.get? "type") "response.output_text.delta"

def isCompletedEvent (evt : Json) : Bool := isStr (evt.get? "type") "response.completed"

def isErrorEvent (evt : Json) : Bool :=
  isStr (evt.get? "type") "response.error" || isStr (evt.get? "type") "error"

/-- The error of the stream; `none` where reading it raises. -/
def streamError (inner : Json → String) (evt : Json) : Option Json :=
  match getOr evt "error" evt with
  | .obj members =>
    let err := Json.obj members
    some (.obj [("message", getOr err "message" (dictText inner err)),
      ("type", getOr err "type" (.str "upstream_error"))])
  | _ => none

def collectError (inner : Json → String) (evt : Json) : Json :=
  getOr evt "error"
    (.obj [("message", dictText inner evt), ("type", .str "upstream_error")])

def streamStep (inner : Json → String) (evt : Json) : CodexStep :=
  match evt with
  | .obj _ =>
    if isDeltaEvent evt then
      match evt.get? "delta" with
      | some delta => if delta.truthy then .text delta else .skip
      | none => .skip
    else if isCompletedEvent evt then
      match completedUsage evt with
      | some usage => .completed usage
      | none => .raise
    else if isErrorEvent evt then
      match streamError inner evt with
      | some error => .failed error
      | none => .raise
    else .skip
  | _ => .raise

def collectStep (inner : Json → String) (evt : Json) : CodexStep :=
  match evt with
  | .obj _ =>
    if isDeltaEvent evt then
      match evt.get? "delta" with
      | some (.str delta) => .text (.str delta)
      | _ => .skip
    else if isCompletedEvent evt then
      match completedUsage evt with
      | some usage => .completed usage
      | none => .raise
    else if isErrorEvent evt then .failed (collectError inner evt)
    else .skip
  | _ => .raise

/-! ## The stream -/

structure ChunkHead where
  id : String
  created : Int
  model : String

structure CodexChunk where
  head : ChunkHead
  role : Option String := none
  content : Option Json := none
  finishReason : Option String := none
  usage : Option ReplyUsage := none
  error : Option Json := none

inductive CodexFrame where
  | chunk (chunk : CodexChunk)
  | done

/-- What a generator yields, and whether it raises. -/
structure CodexRun where
  frames : List CodexFrame
  raised : Bool

/-- `responses_sse_to_chat_completions_sse`, behind the lines read. -/
def codexStreamFrom (inner : Json → String) (head : ChunkHead) (fails : Bool) :
    Bool → List String → CodexRun
  | _, [] => ⟨[], fails⟩
  | sentFirst, line :: rest =>
    match dataPayload line with
    | none => codexStreamFrom inner head fails sentFirst rest
    | some payload =>
      if payload = "" then codexStreamFrom inner head fails sentFirst rest
      else
        match Json.parse payload.toList with
        | none => codexStreamFrom inner head fails sentFirst rest
        | some evt =>
          match streamStep inner evt with
          | .raise => ⟨[], true⟩
          | .skip => codexStreamFrom inner head fails sentFirst rest
          | .text content =>
            let chunk : CodexChunk :=
              { head := head
                role := if sentFirst then none else some "assistant"
                content := some content }
            let run := codexStreamFrom inner head fails true rest
            { run with frames := .chunk chunk :: run.frames }
          | .completed usage =>
            ⟨[.chunk { head := head, finishReason := some "stop", usage := usage }, .done], false⟩
          | .failed error =>
            ⟨[.chunk { head := head, finishReason := some "error", error := some error }, .done],
              false⟩

/-- `responses_sse_to_chat_completions_sse`. -/
def responsesSseToChatCompletionsSse (inner : Json → String) (head : ChunkHead)
    (lines : List String) (fails : Bool) : CodexRun :=
  codexStreamFrom inner head fails false lines

/-! ## The completion -/

structure Collected where
  textParts : List String
  finishReason : String
  usage : Option ReplyUsage
  error : Option Json

structure CodexCompletion where
  head : ChunkHead
  content : String
  finishReason : String
  usage : Option ReplyUsage
  error : Option Json

/-- The loop; `none` where it raises. -/
def collectFrom (inner : Json → String) (fails : Bool) : List String → Option Collected
  | [] => if fails then none else some ⟨[], "stop", none, none⟩
  | line :: rest =>
    match codexEvent line with
    | none => collectFrom inner fails rest
    | some evt =>
      match collectStep inner evt with
      | .raise => none
      | .skip => collectFrom inner fails rest
      | .text (.str delta) =>
        (collectFrom inner fails rest).map fun out =>
          { out with textParts := delta :: out.textParts }
      | .text _ => collectFrom inner fails rest
      | .completed usage => some ⟨[], "stop", usage, none⟩
      | .failed error => some ⟨[], "error", none, some error⟩

/-- `collect_responses_stream_into_completion`. -/
def collectResponsesStreamIntoCompletion (inner : Json → String) (head : ChunkHead)
    (lines : List String) (fails : Bool) : Option CodexCompletion :=
  (collectFrom inner fails lines).map fun out =>
    ⟨head, PyStr.join "" out.textParts, out.finishReason, out.usage, out.error⟩

/-! ## Reading the stream back -/

/-- The text of content values; `none` if one is no string. -/
def joinContents : List Json → Option String
  | [] => some ""
  | .str s :: rest => (joinContents rest).map (s ++ ·)
  | _ :: _ => none

def CodexFrame.chunk? : CodexFrame → Option CodexChunk
  | .chunk c => some c
  | .done => none

def finishChunks (frames : List CodexFrame) : List CodexChunk :=
  (frames.filterMap CodexFrame.chunk?).filter (·.finishReason.isSome)

def streamContents (frames : List CodexFrame) : List Json :=
  (frames.filterMap CodexFrame.chunk?).filterMap (·.content)

/-- One `[DONE]`, at the end. -/
def EndsWithDone : List CodexFrame → Prop
  | [] => False
  | .chunk _ :: rest => EndsWithDone rest
  | .done :: rest => rest = []

/-- Two error objects with the same members. -/
def SameError : Option Json → Option Json → Prop
  | none, none => True
  | some e, some e' => ∀ key, e.get? key = e'.get? key
  | _, _ => False

/-- A line is a `response.completed`. -/
def CompletedReceived (lines : List String) : Prop :=
  ∃ line ∈ lines, (codexEvent line).any isCompletedEvent = true

/-- The stream is terminated and reads back as this answer. -/
structure AgreesWith (frames : List CodexFrame) (text finishReason : String)
    (usage : Option ReplyUsage) (error : Option Json) : Prop where
  done : EndsWithDone frames
  text : joinContents (streamContents frames) = some text
  finish : ∃ chunk, finishChunks frames = [chunk] ∧ chunk.finishReason = some finishReason ∧
    chunk.usage = usage ∧ SameError chunk.error error

/-- What the two functions owe on some lines: the stream is terminated and agrees with the
completion, which says `stop` only of a completed response. -/
def CodexRight (inner : Json → String) (head : ChunkHead) (lines : List String) (fails : Bool) :
    Prop :=
  ∃ out, collectResponsesStreamIntoCompletion inner head lines fails = some out ∧
    AgreesWith (responsesSseToChatCompletionsSse inner head lines fails).frames out.content
      out.finishReason out.usage out.error ∧
    (out.finishReason = "stop" → CompletedReceived lines)

/-! ## The lines that settle -/

/-- A delta that is true is a string. -/
def DeltaFits (evt : Json) : Prop :=
  ∀ delta, evt.get? "delta" = some delta → delta.truthy = true → ∃ s, delta = .str s

/-- The error is an object with a message and a type that are true, and nothing else. -/
def ErrorFits (evt : Json) : Prop :=
  ∃ members, evt.get? "error" = some (.obj members) ∧
    ((Json.obj members).get? "message").any Json.truthy = true ∧
    ((Json.obj members).get? "type").any Json.truthy = true ∧
    ∀ key, (Json.obj members).get? key ≠ none → key = "message" ∨ key = "type"

/-- The lines reach a completed response that can be read, or an error that fits. -/
def Settles : List String → Prop
  | [] => False
  | line :: rest =>
    match codexEvent line with
    | none => Settles rest
    | some evt =>
      (∃ members, evt = .obj members) ∧
        if isDeltaEvent evt then DeltaFits evt ∧ Settles rest
        else if isCompletedEvent evt then (objectField evt "response").isSome = true
        else if isErrorEvent evt then ErrorFits evt
        else Settles rest

/-! ## One line -/

section

variable {inner : Json → String} {head : ChunkHead} {fails sentFirst : Bool} {line : String}
  {rest : List String} {evt : Json}

theorem join_cons (d : String) (parts : List String) :
    PyStr.join "" (d :: parts) = d ++ PyStr.join "" parts := by
  unfold PyStr.join
  cases parts with
  | nil => simp
  | cons e parts => simp

theorem codexStreamFrom_cons :
    codexStreamFrom inner head fails sentFirst (line :: rest) =
      match codexEvent line with
      | none => codexStreamFrom inner head fails sentFirst rest
      | some evt =>
        match streamStep inner evt with
        | .raise => ⟨[], true⟩
        | .skip => codexStreamFrom inner head fails sentFirst rest
        | .text content =>
          let chunk : CodexChunk :=
            { head := head
              role := if sentFirst then none else some "assistant"
              content := some content }
          let run := codexStreamFrom inner head fails true rest
          { run with frames := .chunk chunk :: run.frames }
        | .completed usage =>
          ⟨[.chunk { head := head, finishReason := some "stop", usage := usage }, .done], false⟩
        | .failed error =>
          ⟨[.chunk { head := head, finishReason := some "error", error := some error }, .done],
            false⟩ := by
  rw [codexStreamFrom]
  unfold codexEvent
  cases dataPayload line with
  | none => rfl
  | some payload =>
    by_cases hempty : payload = ""
    · rw [hempty]
      rfl
    · simp only [if_neg hempty, Option.bind_some]

/-- What the two functions make of some lines agrees. -/
def Agree (inner : Json → String) (head : ChunkHead) (fails sentFirst : Bool)
    (lines : List String) : Prop :=
  ∃ out, collectFrom inner fails lines = some out ∧
    AgreesWith (codexStreamFrom inner head fails sentFirst lines).frames
      (PyStr.join "" out.textParts) out.finishReason out.usage out.error

theorem agree_skip (hevent : codexEvent line = none) :
    Agree inner head fails sentFirst (line :: rest) ↔ Agree inner head fails sentFirst rest := by
  unfold Agree
  rw [codexStreamFrom_cons, collectFrom, hevent]

theorem agree_pass (hevent : codexEvent line = some evt) (hstream : streamStep inner evt = .skip)
    (hcollect : collectStep inner evt = .skip) :
    Agree inner head fails sentFirst (line :: rest) ↔ Agree inner head fails sentFirst rest := by
  unfold Agree
  rw [codexStreamFrom_cons, collectFrom, hevent]
  simp only [hstream, hcollect]

theorem not_agree_of_raise (hevent : codexEvent line = some evt)
    (hstream : streamStep inner evt = .raise) :
    ¬ Agree inner head fails sentFirst (line :: rest) := by
  rintro ⟨out, -, h⟩
  have hdone := h.done
  rw [codexStreamFrom_cons, hevent] at hdone
  simp only [hstream] at hdone
  exact hdone

theorem agree_empty (hevent : codexEvent line = some evt) (hstream : streamStep inner evt = .skip)
    (hcollect : collectStep inner evt = .text (.str "")) :
    Agree inner head fails sentFirst (line :: rest) ↔ Agree inner head fails sentFirst rest := by
  unfold Agree
  rw [codexStreamFrom_cons, collectFrom, hevent]
  simp only [hstream, hcollect, Option.map_eq_some_iff]
  constructor
  · rintro ⟨out, ⟨out', hout, rfl⟩, h⟩
    rw [join_cons, String.empty_append] at h
    exact ⟨out', hout, h⟩
  · rintro ⟨out, hout, h⟩
    refine ⟨_, ⟨out, hout, rfl⟩, ?_⟩
    rw [join_cons, String.empty_append]
    exact h

theorem agreesWith_chunk {chunk : CodexChunk} {frames : List CodexFrame} {s text finish : String}
    {usage : Option ReplyUsage} {error : Option Json} (hcontent : chunk.content = some (.str s))
    (hfinish : chunk.finishReason = none) :
    AgreesWith (.chunk chunk :: frames) (s ++ text) finish usage error ↔
      AgreesWith frames text finish usage error := by
  have hcontents : streamContents (.chunk chunk :: frames) = .str s :: streamContents frames := by
    simp [streamContents, CodexFrame.chunk?, hcontent]
  have hchunks : finishChunks (.chunk chunk :: frames) = finishChunks frames := by
    simp [finishChunks, CodexFrame.chunk?, hfinish]
  constructor
  · intro h
    refine ⟨h.done, ?_, ?_⟩
    · have htext := h.text
      rw [hcontents, joinContents] at htext
      obtain ⟨t, ht, heq⟩ := Option.map_eq_some_iff.mp htext
      rw [ht, String.append_right_inj s |>.mp heq]
    · rw [← hchunks]
      exact h.finish
  · intro h
    refine ⟨h.done, ?_, ?_⟩
    · rw [hcontents, joinContents, h.text]
      rfl
    · rw [hchunks]
      exact h.finish

theorem agree_text {s : String} (hevent : codexEvent line = some evt)
    (hstream : streamStep inner evt = .text (.str s))
    (hcollect : collectStep inner evt = .text (.str s)) :
    Agree inner head fails sentFirst (line :: rest) ↔ Agree inner head fails true rest := by
  unfold Agree
  rw [codexStreamFrom_cons, collectFrom, hevent]
  simp only [hstream, hcollect, Option.map_eq_some_iff]
  constructor
  · rintro ⟨out, ⟨out', hout, rfl⟩, h⟩
    rw [join_cons, agreesWith_chunk rfl rfl] at h
    exact ⟨out', hout, h⟩
  · rintro ⟨out, hout, h⟩
    refine ⟨_, ⟨out, hout, rfl⟩, ?_⟩
    rw [join_cons, agreesWith_chunk rfl rfl]
    exact h

theorem not_agree_of_content {content : Json} (hevent : codexEvent line = some evt)
    (hstream : streamStep inner evt = .text content) (hcontent : ∀ s, content ≠ .str s) :
    ¬ Agree inner head fails sentFirst (line :: rest) := by
  rintro ⟨out, -, h⟩
  have htext := h.text
  rw [codexStreamFrom_cons, hevent] at htext
  simp only [hstream] at htext
  have hnone : ∀ rest, joinContents (content :: rest) = none := by
    intro rest
    cases content with
    | str s => exact absurd rfl (hcontent s)
    | _ => rfl
  have hcontents : ∀ (chunk : CodexChunk) (frames : List CodexFrame),
      chunk.content = some content →
        streamContents (.chunk chunk :: frames) = content :: streamContents frames := by
    intro chunk frames h
    simp [streamContents, CodexFrame.chunk?, h]
  rw [hcontents _ _ rfl, hnone] at htext
  cases htext

/-! ## One event -/

theorem agree_delta {members : List (String × Json)}
    (hevent : codexEvent line = some (.obj members)) (hkind : isDeltaEvent (.obj members) = true)
    (ih : ∀ sent, Agree inner head fails sent rest ↔ Settles rest) :
    Agree inner head fails sentFirst (line :: rest) ↔
      DeltaFits (.obj members) ∧ Settles rest := by
  have hstream : streamStep inner (.obj members) =
      match (Json.obj members).get? "delta" with
      | some delta => if delta.truthy then .text delta else .skip
      | none => .skip := by
    rw [streamStep, if_pos hkind]
  have hcollect : collectStep inner (.obj members) =
      match (Json.obj members).get? "delta" with
      | some (.str delta) => .text (.str delta)
      | _ => .skip := by
    rw [collectStep, if_pos hkind]
  unfold DeltaFits
  cases hdelta : (Json.obj members).get? "delta" with
  | none =>
    rw [hdelta] at hstream hcollect
    rw [agree_pass hevent hstream hcollect, ih]
    simp
  | some delta =>
    rw [hdelta] at hstream hcollect
    by_cases htrue : delta.truthy = true
    · have htext : streamStep inner (.obj members) = .text delta := by
        rw [hstream]
        exact if_pos htrue
      by_cases hstr : ∃ s, delta = .str s
      · obtain ⟨s, rfl⟩ := hstr
        rw [agree_text hevent htext hcollect, ih]
        simp
      · have hno : ∀ s, delta ≠ .str s := fun s heq => hstr ⟨s, heq⟩
        constructor
        · intro h
          exact absurd h (not_agree_of_content hevent htext hno)
        · rintro ⟨hfits, -⟩
          exact absurd (hfits delta rfl htrue) hstr
    · have hskip : streamStep inner (.obj members) = .skip := by
        rw [hstream]
        exact if_neg htrue
      have hfits : ∀ d, some delta = some d → d.truthy = true → ∃ s, d = .str s := by
        intro d heq hd
        rw [← Option.some.inj heq] at hd
        exact absurd hd htrue
      have hagree : Agree inner head fails sentFirst (line :: rest) ↔
          Agree inner head fails sentFirst rest := by
        cases delta with
        | str s =>
          have hempty : s = "" := by
            by_contra hne
            exact htrue (by simpa [Json.truthy] using hne)
          rw [hempty] at hcollect
          exact agree_empty hevent hskip hcollect
        | _ => exact agree_pass hevent hskip hcollect
      rw [hagree, ih]
      exact ⟨fun h => ⟨hfits, h⟩, fun h => h.2⟩

theorem agree_completed {members : List (String × Json)}
    (hevent : codexEvent line = some (.obj members))
    (hdelta : isDeltaEvent (.obj members) = false)
    (hkind : isCompletedEvent (.obj members) = true) :
    Agree inner head fails sentFirst (line :: rest) ↔
      (objectField (.obj members) "response").isSome = true := by
  have hsome : (completedUsage (.obj members)).isSome =
      (objectField (.obj members) "response").isSome := by
    unfold completedUsage
    rw [Option.isSome_map]
  rw [← hsome]
  cases husage : completedUsage (.obj members) with
  | none =>
    have hstream : streamStep inner (.obj members) = .raise := by
      simp [streamStep, hdelta, hkind, husage]
    simp [not_agree_of_raise hevent hstream]
  | some usage =>
    have hstream : streamStep inner (.obj members) = .completed usage := by
      simp [streamStep, hdelta, hkind, husage]
    have hcollect : collectStep inner (.obj members) = .completed usage := by
      simp [collectStep, hdelta, hkind, husage]
    simp only [Option.isSome_some, iff_true]
    refine ⟨⟨[], "stop", usage, none⟩, ?_, ?_⟩
    · rw [collectFrom, hevent]
      simp only [hcollect]
    · rw [codexStreamFrom_cons, hevent]
      simp only [hstream]
      exact ⟨rfl, rfl, _, rfl, rfl, rfl, trivial⟩

theorem truthy_getOr {value other : Json} {key : String} (h : other.truthy = true) :
    (getOr value key other).truthy = true := by
  unfold getOr
  cases value.get? key with
  | none => exact h
  | some v =>
    by_cases hv : v.truthy = true
    · simp only [hv, if_true]
    · simp only [hv, Bool.false_eq_true, if_false, h]

theorem truthy_dictText (inner : Json → String) (value : Json) :
    (dictText inner value).truthy = true := by
  simp [dictText, Json.truthy]

theorem get?_getOr {value other : Json} {key : String}
    (h : (value.get? key).any Json.truthy = true) :
    value.get? key = some (getOr value key other) := by
  obtain ⟨v, hget, htrue⟩ := (Option.any_eq_true _ _).mp h
  unfold getOr
  rw [hget]
  simp only [htrue, if_true]

theorem getOr_of_not {value other : Json} {key : String}
    (h : ¬ (value.get? key).any Json.truthy = true) : getOr value key other = other := by
  unfold getOr
  cases hget : value.get? key with
  | none => rfl
  | some v =>
    rw [hget, Option.any_some] at h
    exact if_neg h

theorem eq_str_of_isStr {value : Option Json} {s : String} (h : isStr value s = true) :
    value = some (.str s) := by
  unfold isStr at h
  split at h
  · rw [of_decide_eq_true h]
  · cases h

theorem getOr_type_of_kind {evt other : Json} (h : isErrorEvent evt = true) :
    some (getOr evt "type" other) = evt.get? "type" := by
  refine (get?_getOr ?_).symm
  rcases Bool.or_eq_true_iff.mp h with hname | hname
  · rw [eq_str_of_isStr hname]
    rfl
  · rw [eq_str_of_isStr hname]
    rfl

theorem get?_streamError {m t : Json} (key : String) :
    (Json.obj [("message", m), ("type", t)]).get? key =
      if key = "type" then some t else if key = "message" then some m else none := by
  unfold Json.get?
  by_cases htype : key = "type"
  · subst htype
    rfl
  · by_cases hmessage : key = "message"
    · subst hmessage
      rfl
    · simp [htype, hmessage, Ne.symm htype, Ne.symm hmessage]

theorem sameError_iff (inner : Json → String) (members : List (String × Json)) :
    SameError
        (some (.obj
          [("message", getOr (.obj members) "message" (dictText inner (.obj members))),
            ("type", getOr (.obj members) "type" (.str "upstream_error"))]))
        (some (.obj members)) ↔
      ((Json.obj members).get? "message").any Json.truthy = true ∧
        ((Json.obj members).get? "type").any Json.truthy = true ∧
        ∀ key, (Json.obj members).get? key ≠ none → key = "message" ∨ key = "type" := by
  have hmessage : (getOr (.obj members) "message" (dictText inner (.obj members))).truthy = true :=
    truthy_getOr (truthy_dictText inner _)
  have htype : (getOr (.obj members) "type" (.str "upstream_error")).truthy = true :=
    truthy_getOr rfl
  unfold SameError
  simp only [get?_streamError]
  constructor
  · intro h
    refine ⟨?_, ?_, ?_⟩
    · have hm := h "message"
      simp only [show ("message" : String) ≠ "type" by decide, if_false, if_true] at hm
      rw [← hm]
      exact hmessage
    · have ht := h "type"
      simp only [if_true] at ht
      rw [← ht]
      exact htype
    · intro key hkey
      by_contra hother
      have hk := h key
      rw [if_neg fun heq => hother (Or.inr heq), if_neg fun heq => hother (Or.inl heq)] at hk
      exact hkey hk.symm
  · rintro ⟨hm, ht, hothers⟩ key
    by_cases htypeKey : key = "type"
    · subst htypeKey
      rw [if_pos rfl]
      exact (get?_getOr ht).symm
    · rw [if_neg htypeKey]
      by_cases hmessageKey : key = "message"
      · subst hmessageKey
        rw [if_pos rfl]
        exact (get?_getOr hm).symm
      · rw [if_neg hmessageKey]
        by_contra hother
        rcases hothers key (Ne.symm hother) with hkey | hkey
        · exact hmessageKey hkey
        · exact htypeKey hkey

theorem streamError_agrees_iff (inner : Json → String) (members : List (String × Json))
    (hkind : isErrorEvent (.obj members) = true) :
    (∃ e, streamError inner (.obj members) = some e ∧
        SameError (some e) (some (collectError inner (.obj members)))) ↔
      ErrorFits (.obj members) := by
  by_cases hgiven : ((Json.obj members).get? "error").any Json.truthy = true
  · obtain ⟨err, herr, htrue⟩ := (Option.any_eq_true _ _).mp hgiven
    have hstream : getOr (.obj members) "error" (.obj members) = err := by
      simp [getOr, herr, htrue]
    have hcollect : collectError inner (.obj members) = err := by
      simp [collectError, getOr, herr, htrue]
    unfold ErrorFits
    rw [hcollect, herr]
    cases err with
    | obj errMembers =>
      simp only [streamError, hstream, Option.some.injEq, exists_eq_left', Json.obj.injEq]
      exact sameError_iff inner errMembers
    | _ => simp [streamError, hstream]
  · constructor
    · rintro ⟨e, he, hsame⟩
      exfalso
      have hstream : getOr (.obj members) "error" (.obj members) = .obj members := by
        exact getOr_of_not hgiven
      have hcollect : collectError inner (.obj members) =
          .obj [("message", dictText inner (.obj members)), ("type", .str "upstream_error")] :=
        getOr_of_not hgiven
      simp only [streamError, hstream, Option.some.injEq] at he
      rw [← he, hcollect] at hsame
      have htype := hsame "type"
      rw [get?_streamError, get?_streamError, if_pos rfl, if_pos rfl] at htype
      -- the type of the event itself stands in for that of the error
      rw [getOr_type_of_kind hkind] at htype
      rcases Bool.or_eq_true_iff.mp hkind with hname | hname
      · rw [eq_str_of_isStr hname] at htype
        exact absurd htype (by simp)
      · rw [eq_str_of_isStr hname] at htype
        exact absurd htype (by simp)
    · rintro ⟨errMembers, herr, hm, -⟩
      exfalso
      apply hgiven
      rw [herr]
      cases errMembers with
      | nil => cases hm
      | cons m rest => rfl

theorem agree_error {members : List (String × Json)}
    (hevent : codexEvent line = some (.obj members)) (hdelta : isDeltaEvent (.obj members) = false)
    (hcompleted : isCompletedEvent (.obj members) = false)
    (hkind : isErrorEvent (.obj members) = true) :
    Agree inner head fails sentFirst (line :: rest) ↔ ErrorFits (.obj members) := by
  rw [← streamError_agrees_iff inner members hkind]
  have hcollect : collectStep inner (.obj members) =
      .failed (collectError inner (.obj members)) := by
    simp [collectStep, hdelta, hcompleted, hkind]
  cases herror : streamError inner (.obj members) with
  | none =>
    have hstream : streamStep inner (.obj members) = .raise := by
      simp [streamStep, hdelta, hcompleted, hkind, herror]
    simp [not_agree_of_raise hevent hstream]
  | some e =>
    have hstream : streamStep inner (.obj members) = .failed e := by
      simp [streamStep, hdelta, hcompleted, hkind, herror]
    unfold Agree
    rw [codexStreamFrom_cons, collectFrom, hevent]
    simp only [hstream, hcollect, Option.some.injEq, exists_eq_left']
    constructor
    · intro h
      obtain ⟨chunk, hchunk, -, -, hsame⟩ := h.finish
      have heq := List.cons.inj hchunk |>.1
      rw [← heq] at hsame
      exact hsame
    · intro hsame
      exact ⟨rfl, rfl, _, rfl, rfl, rfl, hsame⟩

/-- **Agreement over all lines**, one case for each kind of line. -/
theorem agree_iff (sentFirst : Bool) (lines : List String) :
    Agree inner head fails sentFirst lines ↔ Settles lines := by
  induction lines generalizing sentFirst with
  | nil =>
    constructor
    · rintro ⟨out, -, h⟩
      exact h.done
    · exact False.elim
  | cons line rest ih =>
    unfold Settles
    cases hevent : codexEvent line with
    | none => rw [agree_skip hevent, ih]
    | some evt =>
      by_cases hobj : ∃ members, evt = .obj members
      · obtain ⟨members, rfl⟩ := hobj
        simp only [Json.obj.injEq, exists_eq', true_and]
        cases hdelta : isDeltaEvent (.obj members) with
        | true => exact agree_delta hevent hdelta ih
        | false =>
          cases hcompleted : isCompletedEvent (.obj members) with
          | true => exact agree_completed hevent hdelta hcompleted
          | false =>
            cases hkind : isErrorEvent (.obj members) with
            | true => exact agree_error hevent hdelta hcompleted hkind
            | false =>
              have hstream : streamStep inner (.obj members) = .skip := by
                simp [streamStep, hdelta, hcompleted, hkind]
              have hcollect : collectStep inner (.obj members) = .skip := by
                simp [collectStep, hdelta, hcompleted, hkind]
              exact (agree_pass hevent hstream hcollect).trans (ih sentFirst)
      · have hstream : streamStep inner evt = .raise := by
          cases evt with
          | obj members => exact absurd ⟨members, rfl⟩ hobj
          | _ => rfl
        constructor
        · intro h
          exact absurd h (not_agree_of_raise hevent hstream)
        · rintro ⟨h, -⟩
          exact absurd h hobj

theorem collectFrom_rest {out : Collected} (hevent : codexEvent line = some evt)
    (hstep : collectStep inner evt = .skip ∨ ∃ content, collectStep inner evt = .text content)
    (hout : collectFrom inner fails (line :: rest) = some out) :
    ∃ out', collectFrom inner fails rest = some out' ∧ out'.finishReason = out.finishReason := by
  rw [collectFrom, hevent] at hout
  rcases hstep with hskip | ⟨content, htext⟩
  · simp only [hskip] at hout
    exact ⟨out, hout, rfl⟩
  · simp only [htext] at hout
    split at hout
    · next heq => cases heq
    · exact ⟨out, hout, rfl⟩
    · obtain ⟨out', hrest, rfl⟩ := Option.map_eq_some_iff.mp hout
      exact ⟨out', hrest, rfl⟩
    · exact ⟨out, hout, rfl⟩
    · next heq => cases heq
    · next heq => cases heq

/-- Lines that settle say `stop` of a completed response only. -/
theorem completedReceived_of_settles {lines : List String} {out : Collected} (h : Settles lines)
    (hout : collectFrom inner fails lines = some out) (hstop : out.finishReason = "stop") :
    CompletedReceived lines := by
  induction lines generalizing out with
  | nil => exact h.elim
  | cons line rest ih =>
    have hlater : CompletedReceived rest → CompletedReceived (line :: rest) :=
      fun ⟨later, hmem, hlater⟩ => ⟨later, List.mem_cons_of_mem _ hmem, hlater⟩
    unfold Settles at h
    cases hevent : codexEvent line with
    | none =>
      rw [hevent] at h
      rw [collectFrom, hevent] at hout
      exact hlater (ih h hout hstop)
    | some evt =>
      rw [hevent] at h
      obtain ⟨⟨members, rfl⟩, h⟩ := h
      cases hcompleted : isCompletedEvent (.obj members) with
      | true => exact ⟨line, List.mem_cons_self, by rw [hevent]; exact hcompleted⟩
      | false =>
        cases hdelta : isDeltaEvent (.obj members) with
        | true =>
          rw [if_pos hdelta] at h
          have hstep : collectStep inner (.obj members) = .skip ∨
              ∃ content, collectStep inner (.obj members) = .text content := by
            rw [collectStep, if_pos hdelta]
            split
            · exact Or.inr ⟨_, rfl⟩
            · exact Or.inl rfl
          obtain ⟨out', hrest, hsame⟩ := collectFrom_rest hevent hstep hout
          exact hlater (ih h.2 hrest (hsame.trans hstop))
        | false =>
          cases hkind : isErrorEvent (.obj members) with
          | true =>
            have hstep : collectStep inner (.obj members) =
                .failed (collectError inner (.obj members)) := by
              simp [collectStep, hdelta, hcompleted, hkind]
            rw [collectFrom, hevent] at hout
            simp only [hstep, Option.some.injEq] at hout
            rw [← hout] at hstop
            simp at hstop
          | false =>
            have hstep : collectStep inner (.obj members) = .skip := by
              simp [collectStep, hdelta, hcompleted, hkind]
            simp only [hdelta, hcompleted, hkind, Bool.false_eq_true, if_false] at h
            obtain ⟨out', hrest, hsame⟩ := collectFrom_rest hevent (Or.inl hstep) hout
            exact hlater (ih h hrest (hsame.trans hstop))

theorem agree_of_codexRight {lines : List String} (h : CodexRight inner head lines fails) :
    Agree inner head fails false lines := by
  obtain ⟨answer, hanswer, hagrees, -⟩ := h
  obtain ⟨out, hout, rfl⟩ := Option.map_eq_some_iff.mp hanswer
  exact ⟨out, hout, hagrees⟩

end

/-- **Agreement and honest termination**: for all lines and whether or not their iterator raises
behind them, the stream is terminated and agrees with the completion, and `stop` is said of a
completed response only, exactly when the lines settle. -/
theorem codex_right_iff (inner : Json → String) (head : ChunkHead) (lines : List String)
    (fails : Bool) : CodexRight inner head lines fails ↔ Settles lines := by
  constructor
  · intro h
    exact (agree_iff false lines).mp (agree_of_codexRight h)
  · intro h
    have hagree : Agree inner head fails false lines := (agree_iff false lines).mpr h
    obtain ⟨out, hout, hagrees⟩ := hagree
    refine ⟨_, Option.map_eq_some_iff.mpr ⟨out, hout, rfl⟩, hagrees, ?_⟩
    exact completedReceived_of_settles h hout

/-- The connection is closed behind the name of the first event: the completion says `stop`, the
stream says nothing. -/
theorem closed_early_not_right :
    ¬ CodexRight (fun _ => "") ⟨"chatcmpl-codex-1", 0, "gpt-5.5"⟩ ["event: response.created"]
      false :=
  fun h => (agree_iff false _).mp (agree_of_codexRight h)

end LlmProxy.Streaming
