import LlmProxy.Streaming.Frames

/-! # What a client sees of a stream

The frames of a stream depend on its *items* only: the tool-call deltas that carry a function
and the texts that are not empty, in the order the streamer meets them. Text and tools have a
flag each and one index between them, so the first item of either kind starts the block of
index 0, and an item of the other kind starts it again.

* `feed_texts`, `feed_tools`: a stream of one kind fills one block.
* `feed_second_start`: a stream of both kinds does not decode.
-/

namespace LlmProxy.Streaming

/-! ## Items -/

inductive Item where
  | tool (d : ToolCallDelta) (fn : Function)
  | text (text : String)
  deriving DecidableEq

def Item.isText : Item → Bool
  | .text _ => true
  | .tool _ _ => false

def Item.isTool : Item → Bool
  | .text _ => false
  | .tool _ _ => true

def toolItems (ds : List ToolCallDelta) : List Item :=
  ds.filterMap fun d => d.function.map (.tool d)

def textItems (content : String) : List Item := if content = "" then [] else [.text content]

def choiceItems (choice : ChunkChoice) : List Item :=
  toolItems choice.delta.toolCalls ++ textItems (choice.delta.content.getD "")

def streamItems (chunks : List Chunk) : List Item := (firstChoices chunks).flatMap choiceItems

def toolId (address : ToolCallDelta → Nat) (d : ToolCallDelta) : String :=
  orText d.id ("toolu_" ++ String.ofList (number (address d)))

def fragmentPayloads (fragment : String) : List (List Char) :=
  if fragment = "" then [] else [inputJsonPayload fragment]

/-- The payloads of the items, from a state of the two flags. -/
def itemPayloads (address : ToolCallDelta → Nat) (textStarted toolStarted : Bool) :
    List Item → List (List Char)
  | [] => []
  | .text text :: rest =>
    (if textStarted then [] else [textStartPayload]) ++
      (textDeltaPayload text :: itemPayloads address true toolStarted rest)
  | .tool d fn :: rest =>
    (if toolStarted then [] else [toolStartPayload (toolId address d) (fn.name.getD "")]) ++
      (fragmentPayloads (fn.arguments.getD "") ++ itemPayloads address textStarted true rest)

theorem itemPayloads_append (address : ToolCallDelta → Nat) :
    ∀ (as bs : List Item) (textStarted toolStarted : Bool),
    itemPayloads address textStarted toolStarted (as ++ bs) =
      itemPayloads address textStarted toolStarted as ++
        itemPayloads address (textStarted || as.any Item.isText)
          (toolStarted || as.any Item.isTool) bs
  | [], bs, _, _ => by simp [itemPayloads]
  | .text text :: as, bs, textStarted, toolStarted => by
    simp [itemPayloads, itemPayloads_append address as bs, Item.isText, Item.isTool]
  | .tool d fn :: as, bs, textStarted, toolStarted => by
    simp [itemPayloads, itemPayloads_append address as bs, Item.isText, Item.isTool]

/-! ## The streamer writes the items -/

/-- From `s` to `s'` the streamer has written the frames of `items`. -/
structure Emits (address : ToolCallDelta → Nat) (s s' : StreamState) (items : List Item) :
    Prop where
  frames : s'.frames =
    s.frames ++ (itemPayloads address s.textStarted s.toolStarted items).map dataFrame
  text : s'.textStarted = (s.textStarted || items.any Item.isText)
  tool : s'.toolStarted = (s.toolStarted || items.any Item.isTool)

variable {address : ToolCallDelta → Nat}

theorem Emits.trans {s s' s'' : StreamState} {as bs : List Item} (h : Emits address s s' as)
    (h' : Emits address s' s'' bs) : Emits address s s'' (as ++ bs) := by
  refine ⟨?_, ?_, ?_⟩
  · rw [h'.frames, h.frames, h.text, h.tool, itemPayloads_append, List.map_append,
      List.append_assoc]
  · rw [h'.text, h.text, List.any_append, Bool.or_assoc]
  · rw [h'.tool, h.tool, List.any_append, Bool.or_assoc]

theorem emits_onToolDelta (s : StreamState) (d : ToolCallDelta) :
    Emits address s (onToolDelta address s d) (toolItems [d]) := by
  unfold onToolDelta
  split
  · next hnone =>
    have hitems : toolItems [d] = [] := by simp [toolItems, hnone]
    rw [hitems]
    exact ⟨by simp [itemPayloads], by simp, by simp⟩
  · next fn hfn =>
    have hitems : toolItems [d] = [.tool d fn] := by simp [toolItems, hfn]
    rw [hitems]
    by_cases hstarted : s.toolStarted = true <;> by_cases hfragment : fn.arguments.getD "" = "" <;>
      refine ⟨?_, ?_, ?_⟩ <;>
      simp [openTool, StreamState.emit, itemPayloads, fragmentPayloads, hstarted, hfragment,
        Item.isText, Item.isTool, toolId]

theorem emits_toolDeltas : ∀ (ds : List ToolCallDelta) (s : StreamState),
    Emits address s (ds.foldl (onToolDelta address) s) (toolItems ds)
  | [], s => ⟨by simp [toolItems, itemPayloads], by simp [toolItems], by simp [toolItems]⟩
  | d :: ds, s => by
    have hfirst : Emits address s (onToolDelta address s d) _ := emits_onToolDelta s d
    have hrest := emits_toolDeltas ds (onToolDelta address s d)
    have hitems : toolItems (d :: ds) = toolItems [d] ++ toolItems ds := by
      simp [toolItems, List.filterMap_cons]
      cases d.function <;> rfl
    rw [hitems]
    exact hfirst.trans hrest

theorem emits_onText (s : StreamState) (content : String) :
    Emits address s (onText s content) (textItems content) := by
  unfold onText textItems
  by_cases hcontent : content = ""
  · rw [if_pos hcontent, if_pos hcontent]
    exact ⟨by simp [itemPayloads], by simp, by simp⟩
  · rw [if_neg hcontent, if_neg hcontent]
    by_cases hstarted : s.textStarted = true <;> refine ⟨?_, ?_, ?_⟩ <;>
      simp [openText, StreamState.emit, itemPayloads, hstarted, Item.isText, Item.isTool]

theorem emits_onChunk (s : StreamState) (chunk : Chunk) :
    Emits address s (onChunk address s chunk) ((chunk.choices.head?.map choiceItems).getD []) := by
  unfold onChunk
  split
  · next hnone =>
    rw [hnone]
    exact ⟨by simp [itemPayloads], by simp, by simp⟩
  · next choice rest hsome =>
    rw [hsome]
    have hhead : Emits address s (onUsage
        { s with finishReason := orText choice.finishReason s.finishReason } chunk.usage) [] := by
      unfold onUsage
      split <;> exact ⟨by simp [itemPayloads], by simp, by simp⟩
    exact hhead.trans ((emits_toolDeltas choice.delta.toolCalls _).trans
      (emits_onText _ (choice.delta.content.getD "")))

theorem emits_chunks : ∀ (chunks : List Chunk) (s : StreamState),
    Emits address s (chunks.foldl (onChunk address) s) (streamItems chunks)
  | [], s => ⟨by simp [streamItems, firstChoices, itemPayloads], by simp [streamItems, firstChoices],
      by simp [streamItems, firstChoices]⟩
  | chunk :: chunks, s => by
    have hfirst : Emits address s (onChunk address s chunk) _ := emits_onChunk s chunk
    have hrest := emits_chunks chunks (onChunk address s chunk)
    have hitems : streamItems (chunk :: chunks) =
        (chunk.choices.head?.map choiceItems).getD [] ++ streamItems chunks := by
      unfold streamItems firstChoices
      rw [List.filterMap_cons]
      cases chunk.choices.head? <;> rfl
    rw [hitems]
    exact hfirst.trans hrest

/-! ## The finish reason -/

theorem onToolDelta_finishReason (s : StreamState) (d : ToolCallDelta) :
    (onToolDelta address s d).finishReason = s.finishReason := by
  unfold onToolDelta
  split
  · rfl
  · next fn _ =>
    by_cases hstarted : s.toolStarted = true <;> by_cases hfragment : fn.arguments.getD "" = "" <;>
      simp [openTool, StreamState.emit, hstarted, hfragment]

theorem toolDeltas_finishReason : ∀ (ds : List ToolCallDelta) (s : StreamState),
    (ds.foldl (onToolDelta address) s).finishReason = s.finishReason
  | [], _ => rfl
  | d :: ds, s => by
    rw [List.foldl_cons, toolDeltas_finishReason ds, onToolDelta_finishReason]

theorem onText_finishReason (s : StreamState) (content : String) :
    (onText s content).finishReason = s.finishReason := by
  unfold onText
  by_cases hcontent : content = ""
  · rw [if_pos hcontent]
  · rw [if_neg hcontent]
    by_cases hstarted : s.textStarted = true <;> simp [openText, StreamState.emit, hstarted]

theorem onUsage_finishReason (s : StreamState) (usage : Option Usage) :
    (onUsage s usage).finishReason = s.finishReason := by
  cases usage <;> rfl

/-- A stream's finish reason, over the one it would have without these choices. -/
def finishFrom (finish : Option String) (choices : List ChunkChoice) : Option String :=
  choices.foldl (fun finish choice =>
    if given choice.finishReason then choice.finishReason else finish) finish

theorem orText_finish (finish earlier : Option String) :
    orText finish (orText earlier "stop") =
      orText (if given finish then finish else earlier) "stop" := by
  cases finish with
  | none => simp [orText, given]
  | some f => by_cases hf : f = "" <;> simp [orText, given, hf]

theorem chunks_finishReason : ∀ (chunks : List Chunk) (finish : Option String) (s : StreamState),
    s.finishReason = orText finish "stop" →
    (chunks.foldl (onChunk address) s).finishReason =
      orText (finishFrom finish (firstChoices chunks)) "stop"
  | [], _, _, h => h
  | chunk :: chunks, finish, s, h => by
    rw [List.foldl_cons]
    match hchoices : chunk.choices with
    | [] =>
      have hskip : onChunk address s chunk = s := by simp [onChunk, hchoices]
      have hfirst : firstChoices (chunk :: chunks) = firstChoices chunks := by
        simp [firstChoices, hchoices]
      rw [hskip, hfirst]
      exact chunks_finishReason chunks finish s h
    | choice :: rest =>
      have hstep : (onChunk address s chunk).finishReason =
          orText (if given choice.finishReason then choice.finishReason else finish) "stop" := by
        simp only [onChunk, hchoices]
        rw [onText_finishReason, toolDeltas_finishReason, onUsage_finishReason]
        show orText choice.finishReason s.finishReason = _
        rw [h, orText_finish]
      have hfirst : firstChoices (chunk :: chunks) = choice :: firstChoices chunks := by
        simp [firstChoices, hchoices]
      rw [chunks_finishReason chunks _ _ hstep, hfirst]
      rfl

/-! ## The client -/

def midway (slots : List Slot) : Client :=
  { started := true, slots := slots, stopReason := none, stopped := false }

theorem feed_of_stopped {c : Client} (h : c.stopped = true) (frames : List (List Char)) :
    c.feed frames = some c := by
  cases frames with
  | nil => rfl
  | cons frame frames => rw [Client.feed, if_pos h]

theorem feed_append : ∀ (as bs : List (List Char)) (c : Client),
    c.feed (as ++ bs) = (c.feed as).bind fun c' => c'.feed bs
  | [], _, _ => rfl
  | frame :: as, bs, c => by
    by_cases hstopped : c.stopped = true
    · rw [feed_of_stopped hstopped, feed_of_stopped hstopped, Option.bind_some,
        feed_of_stopped hstopped]
    · rw [List.cons_append, Client.feed, Client.feed, if_neg hstopped, if_neg hstopped]
      cases (readFrame frame).bind c.step with
      | none => rfl
      | some c' => exact feed_append as bs c'

theorem feed_read {c c' : Client} {frame : List Char} {e : Event} (hopen : c.stopped = false)
    (hread : readFrame frame = some e) (hstep : c.step e = some c') (frames : List (List Char)) :
    c.feed (frame :: frames) = c'.feed frames := by
  rw [Client.feed, if_neg (by simp [hopen]), hread, Option.bind_some, hstep]

theorem feed_fails {c : Client} {frame : List Char} (hopen : c.stopped = false)
    (hfail : ∀ e, readFrame frame = some e → c.step e = none) (frames : List (List Char)) :
    c.feed (frame :: frames) = none := by
  rw [Client.feed, if_neg (by simp [hopen])]
  cases hread : readFrame frame with
  | none => rfl
  | some e => rw [Option.bind_some, hfail e hread]

theorem step_blockStart_none {c : Client} (h : c.slots.length = 1) (draft : Draft) :
    c.step (.blockStart 0 draft) = none := by
  rw [Client.step, if_neg (by omega)]

theorem step_blockDelta_cases {c c' : Client} {delta : BlockDelta}
    (h : c.step (.blockDelta 0 delta) = some c') :
    c'.slots.length = c.slots.length ∧ c'.stopped = c.stopped := by
  simp only [Client.step, Client.onOpen] at h
  split at h
  · obtain ⟨slot, -, rfl⟩ := Option.map_eq_some_iff.mp h
    exact ⟨List.length_set, rfl⟩
  · exact nomatch h

/-! ## Streams of one kind -/

def itemTexts (items : List Item) : List String :=
  items.filterMap fun
    | .text text => some text
    | .tool _ _ => none

def itemFragments (items : List Item) : List String :=
  items.filterMap fun
    | .text _ => none
    | .tool _ fn => some (fn.arguments.getD "")

theorem feed_texts : ∀ (items : List Item) (toolStarted : Bool) (text : String),
    (∀ item ∈ items, item.isText = true) →
    (midway [⟨.text text, true⟩]).feed
      ((itemPayloads address true toolStarted items).map dataFrame) =
    some (midway [⟨.text (text ++ joinTexts (itemTexts items)), true⟩])
  | [], _, text, _ => by simp [itemPayloads, Client.feed, itemTexts, joinTexts]
  | .tool d fn :: items, _, _, h => by
    have habsurd := h (.tool d fn) List.mem_cons_self
    exact absurd habsurd (by simp [Item.isText])
  | .text more :: items, toolStarted, text, h => by
    have hrest := feed_texts items toolStarted (text ++ more)
      (fun item hitem => h item (List.mem_cons_of_mem _ hitem))
    have hstep : (midway [⟨.text text, true⟩]).step (.blockDelta 0 (.text more)) =
        some (midway [⟨.text (text ++ more), true⟩]) := rfl
    simp only [itemPayloads, if_true, List.nil_append, List.map_cons]
    rw [feed_read rfl (readFrame_textDelta more) hstep, hrest]
    simp [itemTexts, joinTexts, String.append_assoc]

theorem feed_fragment (id name json fragment : String) :
    (midway [⟨.toolUse id name json, true⟩]).feed ((fragmentPayloads fragment).map dataFrame) =
      some (midway [⟨.toolUse id name (json ++ fragment), true⟩]) := by
  unfold fragmentPayloads
  by_cases hfragment : fragment = ""
  · rw [if_pos hfragment, hfragment]
    simp [Client.feed]
  · have hstep : (midway [⟨.toolUse id name json, true⟩]).step
        (.blockDelta 0 (.inputJson fragment)) =
        some (midway [⟨.toolUse id name (json ++ fragment), true⟩]) := rfl
    rw [if_neg hfragment, List.map_cons, feed_read rfl (readFrame_inputJson fragment) hstep]
    rfl

theorem feed_tools : ∀ (items : List Item) (textStarted : Bool) (id name json : String),
    (∀ item ∈ items, item.isTool = true) →
    (midway [⟨.toolUse id name json, true⟩]).feed
      ((itemPayloads address textStarted true items).map dataFrame) =
    some (midway [⟨.toolUse id name (json ++ joinTexts (itemFragments items)), true⟩])
  | [], _, _, _, _, _ => by simp [itemPayloads, Client.feed, itemFragments, joinTexts]
  | .text text :: items, _, _, _, _, h => by
    have habsurd := h (.text text) List.mem_cons_self
    exact absurd habsurd (by simp [Item.isTool])
  | .tool d fn :: items, textStarted, id, name, json, h => by
    have hrest := feed_tools items textStarted id name (json ++ fn.arguments.getD "")
      (fun item hitem => h item (List.mem_cons_of_mem _ hitem))
    simp only [itemPayloads, if_true, List.nil_append, List.map_append]
    rw [feed_append, feed_fragment, Option.bind_some, hrest]
    simp [itemFragments, joinTexts, String.append_assoc]

/-! ## Streams of both kinds -/

theorem feed_second_start : ∀ (items : List Item) (textStarted toolStarted : Bool) (c : Client),
    c.stopped = false → c.slots.length = 1 →
    (textStarted = false ∧ items.any Item.isText = true) ∨
      (toolStarted = false ∧ items.any Item.isTool = true) →
    c.feed ((itemPayloads address textStarted toolStarted items).map dataFrame) = none
  | [], _, _, _, _, _, h => by simp at h
  | .text text :: items, textStarted, toolStarted, c, hopen, hlen, h => by
    cases textStarted with
    | false =>
      simp only [itemPayloads, Bool.false_eq_true, if_false, List.cons_append, List.map_cons]
      refine feed_fails hopen ?_ _
      intro e he
      rw [readFrame_textStart] at he
      rw [← Option.some.inj he]
      exact step_blockStart_none hlen _
    | true =>
      have htool : toolStarted = false ∧ items.any Item.isTool = true := by
        simpa [Item.isTool] using h
      simp only [itemPayloads, if_true, List.nil_append, List.map_cons]
      cases hstep : c.step (.blockDelta 0 (.text text)) with
      | none =>
        refine feed_fails hopen ?_ _
        intro e he
        rw [readFrame_textDelta] at he
        rw [← Option.some.inj he, hstep]
      | some c' =>
        obtain ⟨hlen', hopen'⟩ := step_blockDelta_cases hstep
        rw [feed_read hopen (readFrame_textDelta text) hstep]
        exact feed_second_start items true toolStarted c' (by rw [hopen', hopen])
          (by rw [hlen', hlen]) (.inr htool)
  | .tool d fn :: items, textStarted, toolStarted, c, hopen, hlen, h => by
    cases toolStarted with
    | false =>
      simp only [itemPayloads, Bool.false_eq_true, if_false, List.cons_append, List.map_cons]
      refine feed_fails hopen ?_ _
      intro e he
      obtain ⟨id, name, rfl, -⟩ := plain_of_readFrame_toolStart he
      exact step_blockStart_none hlen _
    | true =>
      have htext : textStarted = false ∧ items.any Item.isText = true := by
        simpa [Item.isText] using h
      simp only [itemPayloads, if_true, List.nil_append, List.map_append]
      by_cases hfragment : fn.arguments.getD "" = ""
      · simp only [fragmentPayloads, if_pos hfragment, List.map_nil, List.nil_append]
        exact feed_second_start items textStarted true c hopen hlen (.inl htext)
      · simp only [fragmentPayloads, if_neg hfragment, List.map_cons, List.map_nil,
          List.cons_append, List.nil_append]
        cases hstep : c.step (.blockDelta 0 (.inputJson (fn.arguments.getD ""))) with
        | none =>
          refine feed_fails hopen ?_ _
          intro e he
          rw [readFrame_inputJson] at he
          rw [← Option.some.inj he, hstep]
        | some c' =>
          obtain ⟨hlen', hopen'⟩ := step_blockDelta_cases hstep
          rw [feed_read hopen (readFrame_inputJson _) hstep]
          exact feed_second_start items textStarted true c' (by rw [hopen', hopen])
            (by rw [hlen', hlen]) (.inl htext)

end LlmProxy.Streaming
