import LlmProxy.Streaming.Emission

/-! # Streaming and non-streaming translation

`Agrees` says that decoding the stream gives the blocks and the stop reason
`to_anthropic_response` gives for the completion the stream adds up to. The streamer has one
block index for everything, and writes the model's name, a tool's id and a tool's name without
escaping them, so it does this for streams of one block only: `stream_agrees_iff` is the exact
condition. `parallel_calls_disagree` is a stream with two tool calls.
-/

namespace LlmProxy.Streaming

open Json (plain)

/-- The decoded stream is the translated completion. -/
def Agrees (args : StreamArgs) (tokenHex : Nat → String) (chunks : List Chunk) : Prop :=
  ∃ response, toAnthropicResponse tokenHex (accumulate chunks) = .ok response ∧
    decode (streamAnthropic args chunks) = some ⟨response.content, response.stopReason⟩

/-- The stream holds one block: text without a tool call, or one tool call without text, whose
id and name need no escape. -/
def SingleBlock (chunks : List Chunk) : Prop :=
  match toolDeltas chunks with
  | [] => True
  | d :: ds =>
    textOf (firstChoices chunks) = "" ∧ (∀ d' ∈ ds, d'.index = d.index) ∧
      plain (d.id.getD "") = true ∧ plain ((d.function.bind (·.name)).getD "") = true

/-! ## The items of a stream -/

theorem joinTexts_append : ∀ as bs : List String,
    joinTexts (as ++ bs) = joinTexts as ++ joinTexts bs
  | [], bs => by simp [joinTexts]
  | a :: as, bs => by
    rw [List.cons_append, joinTexts, joinTexts, joinTexts_append as bs, String.append_assoc]

theorem itemTexts_append (as bs : List Item) :
    itemTexts (as ++ bs) = itemTexts as ++ itemTexts bs := List.filterMap_append

theorem toolItems_isTool {ds : List ToolCallDelta} {item : Item} (h : item ∈ toolItems ds) :
    ∃ d ∈ ds, ∃ fn, d.function = some fn ∧ item = .tool d fn := by
  obtain ⟨d, hd, hitem⟩ := List.mem_filterMap.mp h
  obtain ⟨fn, hfn, hitem⟩ := Option.map_eq_some_iff.mp hitem
  exact ⟨d, hd, fn, hfn, hitem.symm⟩

theorem itemTexts_toolItems (ds : List ToolCallDelta) : itemTexts (toolItems ds) = [] := by
  rw [itemTexts, List.filterMap_eq_nil_iff]
  intro item hitem
  obtain ⟨d, -, fn, -, rfl⟩ := toolItems_isTool hitem
  rfl

theorem joinTexts_textItems (content : String) :
    joinTexts (itemTexts (textItems content)) = content := by
  unfold textItems
  by_cases hcontent : content = ""
  · rw [if_pos hcontent, hcontent]
    rfl
  · rw [if_neg hcontent]
    simp [itemTexts, joinTexts]

theorem joinTexts_choices : ∀ choices : List ChunkChoice,
    joinTexts (itemTexts (choices.flatMap choiceItems)) = textOf choices
  | [] => rfl
  | choice :: choices => by
    have hrest := joinTexts_choices choices
    rw [List.flatMap_cons, choiceItems, itemTexts_append, itemTexts_append, itemTexts_toolItems,
      List.nil_append, joinTexts_append, joinTexts_textItems, hrest]
    rfl

theorem joinTexts_streamItems (chunks : List Chunk) :
    joinTexts (itemTexts (streamItems chunks)) = textOf (firstChoices chunks) :=
  joinTexts_choices (firstChoices chunks)

theorem filter_isTool_choices : ∀ choices : List ChunkChoice,
    (choices.flatMap choiceItems).filter Item.isTool =
      toolItems (choices.flatMap fun choice => choice.delta.toolCalls)
  | [] => rfl
  | choice :: choices => by
    have hrest := filter_isTool_choices choices
    have htools : (toolItems choice.delta.toolCalls).filter Item.isTool =
        toolItems choice.delta.toolCalls := by
      rw [List.filter_eq_self]
      intro item hitem
      obtain ⟨d, -, fn, -, rfl⟩ := toolItems_isTool hitem
      rfl
    have htexts : (textItems (choice.delta.content.getD "")).filter Item.isTool = [] := by
      unfold textItems
      by_cases hcontent : choice.delta.content.getD "" = "" <;> simp [hcontent, Item.isTool]
    rw [List.flatMap_cons, List.flatMap_cons, choiceItems, List.filter_append, List.filter_append,
      htools, htexts, hrest, List.append_nil]
    simp [toolItems]

theorem filter_isTool_streamItems (chunks : List Chunk) :
    (streamItems chunks).filter Item.isTool = toolItems (toolDeltas chunks) :=
  filter_isTool_choices (firstChoices chunks)

theorem text_ne_empty {chunks : List Chunk} {text : String}
    (h : .text text ∈ streamItems chunks) : text ≠ "" := by
  obtain ⟨choice, -, hitem⟩ := List.mem_flatMap.mp h
  obtain htool | htext := List.mem_append.mp hitem
  · obtain ⟨_, -, _, -, heq⟩ := toolItems_isTool htool
    exact nomatch heq
  · unfold textItems at htext
    by_cases hcontent : choice.delta.content.getD "" = ""
    · rw [if_pos hcontent] at htext
      exact nomatch htext
    · rw [if_neg hcontent, List.mem_singleton] at htext
      obtain rfl := Item.text.inj htext
      exact hcontent

theorem joinTexts_ne_empty {text : String} (htext : text ≠ "") :
    ∀ {texts : List String}, text ∈ texts → joinTexts texts ≠ ""
  | other :: texts, hmem, hempty => by
    rw [joinTexts, String.append_eq_empty_iff] at hempty
    obtain rfl | hmem := List.mem_cons.mp hmem
    · exact htext hempty.1
    · exact joinTexts_ne_empty htext hmem hempty.2

theorem isText_iff_textOf (chunks : List Chunk) :
    (streamItems chunks).any Item.isText = true ↔ textOf (firstChoices chunks) ≠ "" := by
  rw [← joinTexts_streamItems, List.any_eq_true]
  constructor
  · rintro ⟨item, hitem, htext⟩
    cases item with
    | tool d fn => exact nomatch htext
    | text text =>
      have hmem : text ∈ itemTexts (streamItems chunks) :=
        List.mem_filterMap.mpr ⟨_, hitem, rfl⟩
      exact joinTexts_ne_empty (text_ne_empty hitem) hmem
  · intro hne
    by_contra hnone
    refine hne ?_
    have hempty : itemTexts (streamItems chunks) = [] := by
      rw [itemTexts, List.filterMap_eq_nil_iff]
      intro item hitem
      cases item with
      | tool d fn => rfl
      | text text => exact absurd ⟨_, hitem, rfl⟩ hnone
    rw [hempty]
    rfl

/-! ## The calls of the completion -/

theorem orText_of_given {text : Option String} (h : given text = true) (other : String) :
    orText text other = text.getD "" := by
  cases text with
  | none => exact nomatch h
  | some s =>
    have hs : s ≠ "" := by simpa [given, orText] using h
    simp [orText, hs]

theorem joinArguments_getD (a b : Option String) :
    (joinArguments a b).getD "" = a.getD "" ++ b.getD "" := by
  cases a <;> cases b <;> simp [joinArguments]

theorem foldl_addToolDelta_one : ∀ (ds : List ToolCallDelta) (i : Nat) (call : ToolCall)
    (fn : Function), (∀ d ∈ ds, d.index = i) → given call.id = true → call.function = some fn →
    given fn.name = true →
    ∃ call', ds.foldl addToolDelta [(i, call)] = [(i, call')] ∧ call'.id = call.id ∧
      ∃ f, call'.function = some f ∧ f.name = fn.name ∧
        f.arguments.getD "" = fn.arguments.getD "" ++ joinTexts (itemFragments (toolItems ds))
  | [], i, call, fn, _, _, hfn, _ => by
    refine ⟨call, rfl, rfl, fn, hfn, rfl, ?_⟩
    simp [toolItems, itemFragments, joinTexts]
  | d :: ds, i, call, fn, hindex, hid, hfn, hname => by
    have hd : i = d.index := (hindex d List.mem_cons_self).symm
    have hrest : ∀ d' ∈ ds, d'.index = i := fun d' hd' => hindex d' (List.mem_cons_of_mem _ hd')
    have hadd : addToolDelta [(i, call)] d = [(i, extendCall call d)] := by
      rw [addToolDelta, if_pos hd]
    have hid' : (extendCall call d).id = call.id := by simp [extendCall, hid]
    obtain ⟨f, hf, hfname, hfargs⟩ : ∃ f, (extendCall call d).function = some f ∧
        f.name = fn.name ∧ f.arguments.getD "" = fn.arguments.getD "" ++
          joinTexts (itemFragments (toolItems [d])) := by
      cases hdfn : d.function with
      | none =>
        refine ⟨fn, by simp [extendCall, extendFunction, hfn, hdfn], rfl, ?_⟩
        simp [toolItems, hdfn, itemFragments, joinTexts]
      | some g =>
        refine ⟨⟨fn.name, joinArguments fn.arguments g.arguments⟩, ?_, rfl, ?_⟩
        · simp [extendCall, extendFunction, hfn, hdfn, hname]
        · simp [joinArguments_getD, toolItems, hdfn, itemFragments, joinTexts]
    obtain ⟨call', hfold, hcid, f', hf', hname', hargs'⟩ := foldl_addToolDelta_one ds i
      (extendCall call d) f hrest (by rw [hid', hid]) hf (by rw [hfname, hname])
    refine ⟨call', by rw [List.foldl_cons, hadd, hfold], by rw [hcid, hid'], f', hf',
      by rw [hname', hfname], ?_⟩
    have hitems : toolItems (d :: ds) = toolItems [d] ++ toolItems ds := by
      rw [← List.singleton_append, toolItems, List.filterMap_append]
      rfl
    rw [hargs', hfargs, hitems, String.append_assoc, ← joinTexts_append]
    simp [itemFragments]

theorem addToolDelta_keys (d : ToolCallDelta) : ∀ (calls : List (Nat × ToolCall)) (i : Nat),
    i ∈ (addToolDelta calls d).map Prod.fst ↔ i ∈ calls.map Prod.fst ∨ i = d.index
  | [], i => by simp [addToolDelta]
  | (j, call) :: calls, i => by
    rw [addToolDelta]
    by_cases hj : j = d.index
    · rw [if_pos hj]
      simp only [List.map_cons, List.mem_cons, hj]
      tauto
    · rw [if_neg hj]
      simp only [List.map_cons, List.mem_cons, addToolDelta_keys d calls i]
      tauto

theorem foldl_addToolDelta_keys : ∀ (ds : List ToolCallDelta) (calls : List (Nat × ToolCall))
    (i : Nat), i ∈ (ds.foldl addToolDelta calls).map Prod.fst ↔
      i ∈ calls.map Prod.fst ∨ ∃ d ∈ ds, i = d.index
  | [], calls, i => by simp
  | d :: ds, calls, i => by
    rw [List.foldl_cons, foldl_addToolDelta_keys ds, addToolDelta_keys]
    simp only [List.mem_cons, exists_eq_or_imp, or_assoc]

theorem addToolDelta_function {d : ToolCallDelta} : ∀ {calls : List (Nat × ToolCall)},
    (∀ c ∈ calls, c.2.function.isSome = true) →
    (d.index ∉ calls.map Prod.fst → d.function.isSome = true) →
    ∀ c ∈ addToolDelta calls d, c.2.function.isSome = true
  | [], _, hnew, c, hc => by
    obtain rfl := List.mem_singleton.mp hc
    exact hnew (by simp)
  | (j, call) :: calls, hcalls, hnew, c, hc => by
    rw [addToolDelta] at hc
    have hcall : call.function.isSome = true := hcalls (j, call) List.mem_cons_self
    by_cases hj : j = d.index
    · rw [if_pos hj] at hc
      obtain rfl | hc := List.mem_cons.mp hc
      · obtain ⟨f, hf⟩ := Option.isSome_iff_exists.mp hcall
        cases hd : d.function <;> simp [extendCall, extendFunction, hf, hd]
      · exact hcalls c (List.mem_cons_of_mem _ hc)
    · rw [if_neg hj] at hc
      obtain rfl | hc := List.mem_cons.mp hc
      · exact hcall
      · refine addToolDelta_function (fun c hc => hcalls c (List.mem_cons_of_mem _ hc)) ?_ c hc
        intro hmem
        refine hnew ?_
        rw [List.map_cons, List.mem_cons]
        rintro (heq | hmem')
        · exact hj heq.symm
        · exact hmem hmem'

theorem foldl_addToolDelta_function : ∀ (ds : List ToolCallDelta) (seen : List Nat)
    (calls : List (Nat × ToolCall)), ShapedFrom seen ds →
    (∀ i ∈ seen, i ∈ calls.map Prod.fst) → (∀ c ∈ calls, c.2.function.isSome = true) →
    ∀ c ∈ ds.foldl addToolDelta calls, c.2.function.isSome = true
  | [], _, _, _, _, hcalls, c, hc => hcalls c hc
  | d :: ds, seen, calls, hshaped, hseen, hcalls, c, hc => by
    have hnew : d.index ∉ calls.map Prod.fst → d.function.isSome = true := by
      intro hmem
      obtain ⟨-, fn, hfn, -⟩ := hshaped.1 fun hi => hmem (hseen _ hi)
      simp [hfn]
    refine foldl_addToolDelta_function ds (d.index :: seen) (addToolDelta calls d) hshaped.2 ?_
      (addToolDelta_function hcalls hnew) c hc
    intro i hi
    rw [addToolDelta_keys]
    obtain rfl | hi := List.mem_cons.mp hi
    · exact .inr rfl
    · exact .inl (hseen i hi)

theorem length_toolBlocks (tokenHex : Nat → String) {calls : List ToolCall}
    (h : ∀ call ∈ calls, call.function.isSome = true) :
    (toolBlocks tokenHex calls).length = calls.length := by
  have hlen := List.filterMap_length_eq_length
    (f := fun entry : ToolCall × Nat => toolBlock (tokenHex entry.2) entry.1)
    (l := calls.zipIdx)
  rw [List.length_zipIdx] at hlen
  refine hlen.mpr ?_
  intro entry hentry
  have hcall := h entry.1 (List.fst_mem_of_mem_zipIdx hentry)
  obtain ⟨fn, hfn⟩ := Option.isSome_iff_exists.mp hcall
  simp [toolBlock, hfn]

theorem two_le_toolBlocks {tokenHex : Nat → String} {d d' : ToolCallDelta}
    {ds : List ToolCallDelta} (hshaped : ShapedFrom [] (d :: ds)) (hd' : d' ∈ ds)
    (hne : d'.index ≠ d.index) :
    2 ≤ (toolBlocks tokenHex (((d :: ds).foldl addToolDelta []).map Prod.snd)).length := by
  have hfunctions := foldl_addToolDelta_function (d :: ds) [] [] hshaped (by simp) (by simp)
  have hkeys := foldl_addToolDelta_keys (d :: ds) []
  rw [length_toolBlocks, List.length_map]
  · have hmem : d.index ∈ ((d :: ds).foldl addToolDelta []).map Prod.fst :=
      (hkeys _).mpr (.inr ⟨d, List.mem_cons_self, rfl⟩)
    have hmem' : d'.index ∈ ((d :: ds).foldl addToolDelta []).map Prod.fst :=
      (hkeys _).mpr (.inr ⟨d', List.mem_cons_of_mem _ hd', rfl⟩)
    match hcalls : (d :: ds).foldl addToolDelta [] with
    | [] => simp [hcalls] at hmem
    | [call] =>
      rw [hcalls, List.map_cons, List.map_nil, List.mem_singleton] at hmem hmem'
      exact absurd (hmem'.trans hmem.symm) hne
    | _ :: _ :: _ => simp
  · intro call hcall
    obtain ⟨entry, hentry, rfl⟩ := List.mem_map.mp hcall
    exact hfunctions entry hentry

/-! ## Decoding -/

theorem feed_closing {s : StreamState} (hstarted : (!s.textStarted && !s.toolStarted) = false)
    (draft : Draft) :
    ((midway [⟨draft, true⟩]).feed (closingFrames s)).bind Client.message =
      some ⟨[draft.finish], stopReasonOf s.finishReason⟩ := by
  have hstop : (midway [⟨draft, true⟩]).step (.blockStop 0) = some (midway [⟨draft, false⟩]) := rfl
  have hdelta : (midway [⟨draft, false⟩]).step (.messageDelta (stopReasonOf s.finishReason)) =
      some { midway [⟨draft, false⟩] with stopReason := some (stopReasonOf s.finishReason) } := rfl
  have hend : Client.step
      { midway [⟨draft, false⟩] with stopReason := some (stopReasonOf s.finishReason) }
      .messageStop = some ⟨true, [⟨draft, false⟩], some (stopReasonOf s.finishReason), true⟩ := by
    rw [Client.step, if_pos (by simp [midway])]
    rfl
  simp only [closingFrames, hstarted, Bool.false_eq_true, if_false, List.nil_append]
  rw [feed_read rfl readFrame_blockStop hstop,
    feed_read rfl (readFrame_messageDelta (stopReasonOf_plain _) _ _ _ _) hdelta,
    feed_read rfl readFrame_messageStop hend, feed_of_stopped rfl]
  rfl

theorem feed_closing_empty {s : StreamState} (hstarted : (!s.textStarted && !s.toolStarted) = true) :
    ((midway []).feed (closingFrames s)).bind Client.message =
      some ⟨[.text ""], stopReasonOf s.finishReason⟩ := by
  have hopen : (midway []).step (.blockStart 0 (.text "")) =
      some (midway [⟨.text "", true⟩]) := rfl
  have hclosing : closingFrames s =
      dataFrame textStartPayload :: closingFrames { s with textStarted := true } := by
    simp only [closingFrames, hstarted, if_true]
    rfl
  rw [hclosing, feed_read rfl readFrame_textStart hopen]
  exact feed_closing (by simp) (.text "")

def lastState (args : StreamArgs) (chunks : List Chunk) : StreamState :=
  chunks.foldl (onChunk args.address) initialStream

theorem feed_prelude (args : StreamArgs) :
    Client.initial.feed (preludeFrames args) = some Client.initial := by
  unfold preludeFrames
  split
  · rw [feed_read rfl (readFrame_prelude _) rfl]
    rfl
  · rfl

theorem decode_stream {args : StreamArgs} (hopens : opensMessage args.model = true)
    (chunks : List Chunk) :
    decode (streamAnthropic args chunks) =
      ((midway []).feed
        ((itemPayloads args.address false false (streamItems chunks)).map dataFrame)).bind
        fun c => (c.feed (closingFrames (lastState args chunks))).bind Client.message := by
  have hread : readFrame (dataFrame (messageStartPayload args.model)) = some .messageStart :=
    of_decide_eq_true hopens
  have hstart : Client.initial.step .messageStart = some (midway []) := rfl
  have hframes : (lastState args chunks).frames =
      (itemPayloads args.address false false (streamItems chunks)).map dataFrame :=
    (emits_chunks chunks initialStream).frames
  rw [decode, streamAnthropic, feed_append, feed_prelude, Option.bind_some]
  show (Client.initial.feed (_ :: ((lastState args chunks).frames ++ _))).bind _ = _
  rw [feed_read rfl hread hstart, feed_append, hframes, Option.bind_assoc]
  rfl

theorem decode_unopened {args : StreamArgs} (hopens : opensMessage args.model = false)
    (chunks : List Chunk) : decode (streamAnthropic args chunks) = none := by
  have hfail : ∀ e, readFrame (dataFrame (messageStartPayload args.model)) = some e →
      Client.initial.step e = none := by
    intro e he
    rw [readFrame_messageStart he] at he
    exact absurd he (of_decide_eq_false hopens)
  rw [decode, streamAnthropic, feed_append, feed_prelude, Option.bind_some, feed_fails rfl hfail]
  rfl

def streamStopReason (chunks : List Chunk) : String :=
  stopReasonOf (orText (lastFinish (firstChoices chunks)) "stop")

theorem lastState_finishReason (args : StreamArgs) (chunks : List Chunk) :
    stopReasonOf (lastState args chunks).finishReason = streamStopReason chunks := by
  have hfinish : (lastState args chunks).finishReason =
      orText (finishFrom none (firstChoices chunks)) "stop" :=
    chunks_finishReason chunks none initialStream rfl
  rw [hfinish]
  rfl

theorem lastState_started (args : StreamArgs) (chunks : List Chunk) :
    (!(lastState args chunks).textStarted && !(lastState args chunks).toolStarted) =
      (streamItems chunks).isEmpty := by
  have hemits : Emits args.address initialStream (lastState args chunks) (streamItems chunks) :=
    emits_chunks chunks initialStream
  rw [hemits.text, hemits.tool]
  match streamItems chunks with
  | [] => rfl
  | .text _ :: _ => rfl
  | .tool _ _ :: _ => simp [Item.isTool, initialStream]

theorem decode_of_feed {args : StreamArgs} (hopens : opensMessage args.model = true)
    {chunks : List Chunk} {draft : Draft} (hitems : streamItems chunks ≠ [])
    (hfeed : (midway []).feed
      ((itemPayloads args.address false false (streamItems chunks)).map dataFrame) =
        some (midway [⟨draft, true⟩])) :
    decode (streamAnthropic args chunks) = some ⟨[draft.finish], streamStopReason chunks⟩ := by
  have hstarted : (!(lastState args chunks).textStarted && !(lastState args chunks).toolStarted) =
      false := by
    rw [lastState_started]
    simpa using hitems
  rw [decode_stream hopens, hfeed, Option.bind_some, feed_closing hstarted,
    lastState_finishReason]

theorem decode_texts {args : StreamArgs} (hopens : opensMessage args.model = true)
    {chunks : List Chunk} (h : ∀ item ∈ streamItems chunks, item.isText = true) :
    decode (streamAnthropic args chunks) =
      some ⟨[.text (textOf (firstChoices chunks))], streamStopReason chunks⟩ := by
  rw [← joinTexts_streamItems]
  match hitems : streamItems chunks with
  | [] =>
    have hstarted := lastState_started args chunks
    rw [hitems] at hstarted
    rw [decode_stream hopens, hitems]
    show ((midway []).feed (closingFrames _)).bind Client.message = _
    rw [feed_closing_empty hstarted, lastState_finishReason]
    rfl
  | .tool d fn :: items =>
    have habsurd := h (.tool d fn) (by simp [hitems])
    exact absurd habsurd (by simp [Item.isText])
  | .text text :: items =>
    have hopen : (midway []).step (.blockStart 0 (.text "")) =
        some (midway [⟨.text "", true⟩]) := rfl
    have hfill : (midway [⟨.text "", true⟩]).feed
        ((itemPayloads args.address true false (.text text :: items)).map dataFrame) = _ :=
      feed_texts (.text text :: items) false "" (by rwa [hitems] at h)
    have hfeed : (midway []).feed ((itemPayloads args.address false false
        (streamItems chunks)).map dataFrame) =
        some (midway [⟨.text (joinTexts (itemTexts (.text text :: items))), true⟩]) := by
      rw [hitems]
      show (midway []).feed (dataFrame textStartPayload :: _) = _
      rw [feed_read rfl readFrame_textStart hopen]
      simpa [itemPayloads] using hfill
    exact decode_of_feed hopens (by simp [hitems]) hfeed

theorem decode_mixed {args : StreamArgs} {chunks : List Chunk}
    (htext : (streamItems chunks).any Item.isText = true)
    (htool : (streamItems chunks).any Item.isTool = true) :
    decode (streamAnthropic args chunks) = none := by
  cases hopens : opensMessage args.model with
  | false => exact decode_unopened hopens chunks
  | true =>
    have hfeed : (midway []).feed
        ((itemPayloads args.address false false (streamItems chunks)).map dataFrame) = none := by
      rcases hitems : streamItems chunks with _ | ⟨⟨d, fn⟩ | text, items⟩
      · simp [hitems] at htext
      · rw [hitems] at htext
        show (midway []).feed (dataFrame (toolStartPayload _ _) :: _) = none
        cases hread : readFrame (dataFrame (toolStartPayload (toolId args.address d)
            (fn.name.getD ""))) with
        | none => exact feed_fails rfl (fun e he => by rw [hread] at he; cases he) _
        | some e =>
          obtain ⟨id, name, rfl, -⟩ := plain_of_readFrame_toolStart hread
          have hopen : (midway []).step (.blockStart 0 (.toolUse id name "")) =
              some (midway [⟨.toolUse id name "", true⟩]) := rfl
          have hrest : (midway [⟨.toolUse id name "", true⟩]).feed
              ((itemPayloads args.address false true (.tool d fn :: items)).map dataFrame) = none :=
            feed_second_start _ false true _ rfl rfl (.inl ⟨rfl, htext⟩)
          rw [feed_read rfl hread hopen]
          simpa [itemPayloads] using hrest
      · -- the text block is open when the first tool call starts
        rw [hitems] at htool
        have hopen : (midway []).step (.blockStart 0 (.text "")) =
            some (midway [⟨.text "", true⟩]) := rfl
        have hrest : (midway [⟨.text "", true⟩]).feed
            ((itemPayloads args.address true false (.text text :: items)).map dataFrame) = none :=
          feed_second_start _ true false _ rfl rfl (.inr ⟨rfl, htool⟩)
        show (midway []).feed (dataFrame textStartPayload :: _) = none
        rw [feed_read rfl readFrame_textStart hopen]
        simpa [itemPayloads] using hrest
    rw [decode_stream hopens, hfeed]
    rfl

theorem decode_tools {args : StreamArgs} {chunks : List Chunk} {d : ToolCallDelta}
    {fn : Function} {items : List Item} (hitems : streamItems chunks = .tool d fn :: items)
    (h : ∀ item ∈ streamItems chunks, item.isTool = true) {message : Message} :
    decode (streamAnthropic args chunks) = some message ↔
      opensMessage args.model = true ∧ ∃ id name,
        readFrame (dataFrame (toolStartPayload (toolId args.address d) (fn.name.getD ""))) =
          some (.blockStart 0 (.toolUse id name "")) ∧
        message = ⟨[.toolUse id name (toolInput (joinTexts (itemFragments (.tool d fn :: items))))],
          streamStopReason chunks⟩ := by
  have hfill : ∀ id name,
      readFrame (dataFrame (toolStartPayload (toolId args.address d) (fn.name.getD ""))) =
        some (.blockStart 0 (.toolUse id name "")) →
      (midway []).feed
        ((itemPayloads args.address false false (streamItems chunks)).map dataFrame) =
        some (midway [⟨.toolUse id name (joinTexts (itemFragments (.tool d fn :: items))), true⟩]) := by
    intro id name hread
    have hopen : (midway []).step (.blockStart 0 (.toolUse id name "")) =
        some (midway [⟨.toolUse id name "", true⟩]) := rfl
    have hrest : (midway [⟨.toolUse id name "", true⟩]).feed
        ((itemPayloads args.address false true (.tool d fn :: items)).map dataFrame) = _ :=
      feed_tools (.tool d fn :: items) false id name "" (by rwa [hitems] at h)
    rw [hitems]
    show (midway []).feed (dataFrame (toolStartPayload _ _) :: _) = _
    rw [feed_read rfl hread hopen]
    simpa [itemPayloads] using hrest
  constructor
  · intro hdecode
    cases hopens : opensMessage args.model with
    | false =>
      rw [decode_unopened hopens] at hdecode
      cases hdecode
    | true =>
      refine ⟨rfl, ?_⟩
      cases hread : readFrame (dataFrame (toolStartPayload (toolId args.address d)
          (fn.name.getD ""))) with
      | none =>
        have hnone : (midway []).feed ((itemPayloads args.address false false
            (streamItems chunks)).map dataFrame) = none := by
          rw [hitems]
          exact feed_fails rfl (fun e he => by rw [hread] at he; cases he) _
        rw [decode_stream hopens, hnone] at hdecode
        cases hdecode
      | some e =>
        obtain ⟨id, name, rfl, -⟩ := plain_of_readFrame_toolStart hread
        rw [decode_of_feed hopens (by simp [hitems]) (hfill id name hread)] at hdecode
        exact ⟨id, name, rfl, (Option.some.inj hdecode).symm⟩
  · rintro ⟨hopens, id, name, hread, rfl⟩
    exact decode_of_feed hopens (by simp [hitems]) (hfill id name hread)

/-! ## The two translations -/

theorem agrees_iff_decode (args : StreamArgs) (tokenHex : Nat → String) (chunks : List Chunk) :
    Agrees args tokenHex chunks ↔ firstChoices chunks ≠ [] ∧
      decode (streamAnthropic args chunks) =
        some ⟨contentBlocks tokenHex (accumulatedChoice chunks), streamStopReason chunks⟩ := by
  by_cases hchoices : firstChoices chunks = []
  · have herror : ∀ response,
        toAnthropicResponse tokenHex (accumulate chunks) ≠ .ok response := by
      intro response hresponse
      rw [toAnthropicResponse, accumulate, if_pos hchoices] at hresponse
      exact nomatch hresponse
    constructor
    · rintro ⟨response, hresponse, -⟩
      exact absurd hresponse (herror response)
    · rintro ⟨hne, -⟩
      exact absurd hchoices hne
  · obtain ⟨response, hresponse, hcontent, hreason⟩ : ∃ response,
        toAnthropicResponse tokenHex (accumulate chunks) = .ok response ∧
        response.content = contentBlocks tokenHex (accumulatedChoice chunks) ∧
        response.stopReason = streamStopReason chunks := by
      rw [toAnthropicResponse, accumulate, if_neg hchoices]
      exact ⟨_, rfl, rfl, rfl⟩
    constructor
    · rintro ⟨response', hresponse', hdecode⟩
      rw [hresponse] at hresponse'
      obtain rfl := Except.ok.inj hresponse'
      exact ⟨hchoices, by rw [hdecode, hcontent, hreason]⟩
    · rintro ⟨-, hdecode⟩
      exact ⟨response, hresponse, by rw [hdecode, hcontent, hreason]⟩

theorem contentBlocks_noCalls {tokenHex : Nat → String} {chunks : List Chunk}
    (h : toolDeltas chunks = []) :
    contentBlocks tokenHex (accumulatedChoice chunks) =
      [.text (textOf (firstChoices chunks))] := by
  have hcalls : (accumulatedChoice chunks).toolCalls = [] := by simp [accumulatedChoice, h]
  have htext : (accumulatedChoice chunks).content.getD "" = textOf (firstChoices chunks) := rfl
  rw [contentBlocks, hcalls, htext]
  by_cases hempty : textOf (firstChoices chunks) = "" <;> simp [hempty, toolBlocks]

theorem contentBlocks_noText {tokenHex : Nat → String} {chunks : List Chunk}
    (htext : textOf (firstChoices chunks) = "")
    (hblocks : toolBlocks tokenHex (accumulatedChoice chunks).toolCalls ≠ []) :
    contentBlocks tokenHex (accumulatedChoice chunks) =
      toolBlocks tokenHex (accumulatedChoice chunks).toolCalls := by
  have hcontent : (accumulatedChoice chunks).content.getD "" = "" := htext
  simp [contentBlocks, hcontent, hblocks]

theorem toolBlocks_one {tokenHex : Nat → String} {chunks : List Chunk} {d : ToolCallDelta}
    {ds : List ToolCallDelta} {fn : Function} (hdeltas : toolDeltas chunks = d :: ds)
    (hindex : ∀ d' ∈ ds, d'.index = d.index) (hid : given d.id = true)
    (hfn : d.function = some fn) (hname : given fn.name = true) :
    toolBlocks tokenHex (accumulatedChoice chunks).toolCalls =
      [.toolUse (d.id.getD "") (fn.name.getD "")
        (toolInput (joinTexts (itemFragments (.tool d fn :: toolItems ds))))] := by
  obtain ⟨call, hfold, hcall, f, hf, hfname, hfargs⟩ :=
    foldl_addToolDelta_one ds d.index ⟨d.id, d.function⟩ fn hindex hid hfn hname
  have hcalls : (accumulatedChoice chunks).toolCalls = [call] := by
    simp only [accumulatedChoice, hdeltas, List.foldl_cons, addToolDelta, hfold, List.map_cons,
      List.map_nil]
  have hfragments : joinTexts (itemFragments (.tool d fn :: toolItems ds)) =
      fn.arguments.getD "" ++ joinTexts (itemFragments (toolItems ds)) := by
    simp [itemFragments, joinTexts]
  rw [hcalls, hfragments, ← hfargs]
  simp [toolBlocks, toolBlock, hf, hfname, orText_of_given hid, hcall]

theorem toolItems_cons {d : ToolCallDelta} {fn : Function} (h : d.function = some fn)
    (ds : List ToolCallDelta) : toolItems (d :: ds) = .tool d fn :: toolItems ds := by
  simp [toolItems, h]

/-- A stream that starts a tool call: agreement fails for text beside it, for a second call, and
for an id or a name that cannot stand in the frame as it is. -/
theorem agrees_tools_iff {args : StreamArgs} {tokenHex : Nat → String} {chunks : List Chunk}
    {d : ToolCallDelta} {ds : List ToolCallDelta} (hshaped : OpenAiShaped chunks)
    (hdeltas : toolDeltas chunks = d :: ds) :
    Agrees args tokenHex chunks ↔ opensMessage args.model = true ∧ SingleBlock chunks := by
  have hfirst : ShapedFrom [] (d :: ds) := by
    rw [← hdeltas]
    exact hshaped
  obtain ⟨hid, fn, hfn, hname⟩ := hfirst.1 List.not_mem_nil
  have htools := filter_isTool_streamItems chunks
  rw [hdeltas, toolItems_cons hfn] at htools
  have hanyTool : (streamItems chunks).any Item.isTool = true := by
    have hmem : .tool d fn ∈ (streamItems chunks).filter Item.isTool := by simp [htools]
    exact List.any_eq_true.mpr ⟨_, List.mem_of_mem_filter hmem, rfl⟩
  have hchoices : firstChoices chunks ≠ [] := by
    intro hnone
    simp [toolDeltas, hnone] at hdeltas
  have hsingle : SingleBlock chunks ↔ textOf (firstChoices chunks) = "" ∧
      (∀ d' ∈ ds, d'.index = d.index) ∧ plain (d.id.getD "") = true ∧
      plain (fn.name.getD "") = true := by
    simp only [SingleBlock, hdeltas, hfn, Option.bind_some]
  have htoolId : toolId args.address d = d.id.getD "" := orText_of_given hid _
  rw [agrees_iff_decode, hsingle]
  by_cases htext : textOf (firstChoices chunks) = ""
  · have hall : ∀ item ∈ streamItems chunks, item.isTool = true := by
      intro item hitem
      cases item with
      | tool d fn => rfl
      | text text =>
        have hany : (streamItems chunks).any Item.isText = true :=
          List.any_eq_true.mpr ⟨_, hitem, rfl⟩
        exact absurd htext ((isText_iff_textOf chunks).mp hany)
    have hitems : streamItems chunks = .tool d fn :: toolItems ds := by
      rw [← htools, List.filter_eq_self.mpr hall]
    rw [decode_tools hitems hall, htoolId]
    by_cases hindex : ∀ d' ∈ ds, d'.index = d.index
    · have hblocks : toolBlocks tokenHex (accumulatedChoice chunks).toolCalls = _ :=
        toolBlocks_one hdeltas hindex hid hfn hname
      rw [contentBlocks_noText htext (by simp [hblocks]), hblocks]
      constructor
      · rintro ⟨-, hopens, id, name, hread, hmessage⟩
        obtain ⟨id', name', hevent, hplain⟩ := plain_of_readFrame_toolStart hread
        obtain ⟨rfl, rfl⟩ : d.id.getD "" = id ∧ fn.name.getD "" = name := by
          simpa using hmessage
        obtain ⟨rfl, rfl⟩ : d.id.getD "" = id' ∧ fn.name.getD "" = name' := by
          simpa using hevent
        exact ⟨hopens, htext, hindex, hplain rfl rfl⟩
      · rintro ⟨hopens, -, -, hidPlain, hnamePlain⟩
        exact ⟨hchoices, hopens, _, _, readFrame_toolStart hidPlain hnamePlain, rfl⟩
    · obtain ⟨d', hd', hne⟩ : ∃ d' ∈ ds, d'.index ≠ d.index := by
        simpa using hindex
      -- the stream gives one block, the completion at least two
      have htwo : 2 ≤ (toolBlocks tokenHex (accumulatedChoice chunks).toolCalls).length := by
        have hcalls : (accumulatedChoice chunks).toolCalls =
            ((d :: ds).foldl addToolDelta []).map Prod.snd := by
          rw [← hdeltas]
          rfl
        rw [hcalls]
        exact two_le_toolBlocks hfirst hd' hne
      have hblocks : toolBlocks tokenHex (accumulatedChoice chunks).toolCalls ≠ [] := by
        intro hnil
        simp [hnil] at htwo
      rw [contentBlocks_noText htext hblocks]
      constructor
      · rintro ⟨-, -, id, name, -, hmessage⟩
        rw [(Message.mk.inj hmessage).1] at htwo
        exact absurd htwo (by simp)
      · rintro ⟨-, -, hsame, -⟩
        exact absurd hsame hindex
  · have hany := (isText_iff_textOf chunks).mpr htext
    rw [decode_mixed hany hanyTool]
    simp [htext]

theorem agrees_texts_iff {args : StreamArgs} {tokenHex : Nat → String} {chunks : List Chunk}
    (hdeltas : toolDeltas chunks = []) :
    Agrees args tokenHex chunks ↔ opensMessage args.model = true ∧ firstChoices chunks ≠ [] := by
  have hall : ∀ item ∈ streamItems chunks, item.isText = true := by
    intro item hitem
    cases item with
    | text text => rfl
    | tool d fn =>
      have hmem : .tool d fn ∈ (streamItems chunks).filter Item.isTool :=
        List.mem_filter.mpr ⟨hitem, rfl⟩
      rw [filter_isTool_streamItems, hdeltas] at hmem
      exact nomatch hmem
  rw [agrees_iff_decode, contentBlocks_noCalls hdeltas]
  cases hopens : opensMessage args.model with
  | false => simp [decode_unopened hopens]
  | true => simp [decode_texts hopens hall]

/-- The stream decodes to what `to_anthropic_response` makes of the whole completion exactly when
it holds one block, the first frame can hold the model's name, and some chunk has a choice. -/
theorem stream_agrees_iff (args : StreamArgs) (tokenHex : Nat → String) (chunks : List Chunk)
    (hshaped : OpenAiShaped chunks) :
    Agrees args tokenHex chunks ↔
      opensMessage args.model = true ∧ firstChoices chunks ≠ [] ∧ SingleBlock chunks := by
  match hdeltas : toolDeltas chunks with
  | [] =>
    have hsingle : SingleBlock chunks := by simp [SingleBlock, hdeltas]
    rw [agrees_texts_iff hdeltas]
    simp [hsingle]
  | d :: ds =>
    have hchoices : firstChoices chunks ≠ [] := by
      intro hnone
      simp [toolDeltas, hnone] at hdeltas
    rw [agrees_tools_iff hshaped hdeltas]
    simp [hchoices]

/-! ## Two streams -/

def toolStream (deltas : List ToolCallDelta) : List Chunk :=
  deltas.map fun d =>
    { id := some "chatcmpl-1", model := some "gpt-4o", usage := none
      choices := [{ delta := { content := none, toolCalls := [d] }, finishReason := none }] }

def openingDelta (index : Nat) (id name arguments : String) : ToolCallDelta :=
  { index := index, id := some id, function := some ⟨some name, some arguments⟩ }

def furtherDelta (index : Nat) (arguments : String) : ToolCallDelta :=
  { index := index, id := none, function := some ⟨none, some arguments⟩ }

def gptArgs : StreamArgs :=
  { model := "gpt-4o", complianceDisclosure := [], acceptComplianceEvents := false
    address := fun _ => 0 }

/-- One call, its arguments in two fragments. -/
def oneCall : List Chunk :=
  toolStream [openingDelta 0 "call_1" "get_weather" "[1,", furtherDelta 0 "2]"]

/-- Two parallel calls. -/
def parallelCalls : List Chunk :=
  toolStream [openingDelta 0 "call_1" "get_weather" "[1]", openingDelta 1 "call_2" "get_time" "[2]"]

theorem openAiShaped_oneCall : OpenAiShaped oneCall :=
  ⟨fun _ => ⟨rfl, _, rfl, rfl⟩, fun h => absurd (by decide : (0 : Nat) ∈ [0]) h, trivial⟩

theorem openAiShaped_parallelCalls : OpenAiShaped parallelCalls :=
  ⟨fun _ => ⟨rfl, _, rfl, rfl⟩, fun _ => ⟨rfl, _, rfl, rfl⟩, trivial⟩

theorem one_call_agrees : OpenAiShaped oneCall ∧ Agrees gptArgs (fun _ => "") oneCall :=
  ⟨openAiShaped_oneCall, (stream_agrees_iff _ _ _ openAiShaped_oneCall).mpr
    ⟨opensMessage_of_plain (by decide), by decide, rfl, by decide, by decide, by decide⟩⟩

/-- The second call's fragment goes into the first call's block, and the second call is lost. -/
theorem parallel_calls_disagree :
    OpenAiShaped parallelCalls ∧ ¬ Agrees gptArgs (fun _ => "") parallelCalls := by
  refine ⟨openAiShaped_parallelCalls, ?_⟩
  intro hagrees
  obtain ⟨-, -, hindex, -⟩ := (agrees_tools_iff openAiShaped_parallelCalls rfl).mp hagrees
  exact absurd hindex (by decide)

end LlmProxy.Streaming
