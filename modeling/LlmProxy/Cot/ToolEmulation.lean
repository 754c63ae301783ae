import Mathlib.Data.List.Find
import Mathlib.Data.List.TakeWhile
import LlmProxy.Cot.ToolCalls
import LlmProxy.Lib.JsonQuotes

/-! # Emulated tool calls

`normalize_anthropic_messages` and `normalize_openai_messages` (`app/cot/tool_emulation.py`) write
the tool calls of a conversation as text, and `parse_tool_calls` reads them from a text.

> `parse_blocks`: of the calls in the text of a message those are read whose JSON text holds no
> closing tag behind a brace.

A call whose text does is lost, and none is read in its place: what looks like a call within one of
its strings has its own strings turned inside out, so that it has no name.

Mirroring notes.
* A content that is no string is a list of blocks, and the fields of a block are of their types.
-/

namespace LlmProxy.Cot

open Json (dumps parse QuoteState quoted)
open Json.QuoteState

/-! ## Messages as text -/

inductive AnthropicPart where
  | text (text : String)
  | toolUse (name : String) (input : Json)
  /-- the content: a text, or blocks with their types and texts -/
  | toolResult (toolUseId : String) (content : Sum String (List (String × String)))
  | other

inductive AnthropicContent where
  | text (text : String)
  | blocks (blocks : List AnthropicPart)

structure AnthropicTurn where
  role : String
  content : AnthropicContent

structure OpenaiCall where
  name : String
  arguments : String

structure OpenaiTurn where
  role : String
  content : Option String
  toolCallId : String
  toolCalls : List OpenaiCall

structure TextTurn where
  role : String
  content : String

/-- `sep.join(parts)` for a line feed. -/
def joinLines (parts : List (List Char)) : List Char := ['\n'].intercalate parts

/-- `<tool_call>\n{json.dumps({'name': name, 'input': inp})}\n</tool_call>`. -/
def toolCallText (name : String) (input : Json) : List Char :=
  "<tool_call>\n".toList ++
    (dumps (.obj [("name", .str name), ("input", input)]) ++ "\n</tool_call>".toList)

def toolResultText (key id : String) (result : List Char) : List Char :=
  "<tool_result ".toList ++ key.toList ++ "=\"".toList ++ id.toList ++ "\">\n".toList ++ result ++
    "\n</tool_result>".toList

def partText : AnthropicPart → Option (List Char)
  | .text text => some text.toList
  | .toolUse name input => some (toolCallText name input)
  | .toolResult id content =>
    let result := match content with
      | .inl text => text.toList
      | .inr blocks =>
        [' '].intercalate ((blocks.filter (·.1 == "text")).map fun block => block.2.toList)
    some (toolResultText "tool_use_id" id result)
  | .other => none

/-- `normalize_anthropic_messages`. -/
def normalizeAnthropicMessages (messages : List AnthropicTurn) : List TextTurn :=
  messages.filterMap fun msg =>
    match msg.content with
    | .text text => some ⟨msg.role, text⟩
    | .blocks blocks =>
      let normalized := PyStr.strip (String.ofList (joinLines (blocks.filterMap partText)))
      if normalized = "" then none else some ⟨msg.role, normalized⟩

/-- `json.loads(arguments)`, or `{}`. -/
def argsOf (call : OpenaiCall) : Json := (Json.parse call.arguments.toList).getD (.obj [])

/-- `normalize_openai_messages`. -/
def normalizeOpenaiMessages (messages : List OpenaiTurn) : List TextTurn :=
  messages.map fun msg =>
    let content := msg.content.getD ""
    if msg.role = "tool" then
      ⟨"user", String.ofList (toolResultText "tool_call_id" msg.toolCallId content.toList)⟩
    else if msg.toolCalls.isEmpty then ⟨msg.role, content⟩
    else
      let parts := (if content = "" then [] else [content.toList]) ++
        msg.toolCalls.map fun tc => toolCallText tc.name (argsOf tc)
      ⟨"assistant", PyStr.strip (String.ofList (joinLines parts))⟩

/-! ## Calls -/

structure PlainText where
  text : String
  noTags : ∀ tag ∈ openTags ++ closeTags, ¬ tag.toList <:+: text.toList

structure EmulatedCall where
  name : String
  input : List (String × Json)

/-- `{"name": name, "input": input}`. -/
def EmulatedCall.json (c : EmulatedCall) : Json :=
  .obj [("name", .str c.name), ("input", .obj c.input)]

/-- The text of a call holds a closing tag behind a brace. -/
def EmulatedCall.endsEarly (c : EmulatedCall) : Bool := (toolCallRe.body (dumps c.json)).isSome

inductive EmulatedBlock where
  | text (t : PlainText)
  | call (c : EmulatedCall)

def EmulatedBlock.part : EmulatedBlock → AnthropicPart
  | .text t => .text t.text
  | .call c => .toolUse c.name (.obj c.input)

def EmulatedBlock.call? : EmulatedBlock → Option EmulatedCall
  | .text _ => none
  | .call c => some c

/-! ## Around a call -/

theorem findIter_closeTag (rest : List Char) :
    toolCallRe.findIter ("\n</tool_call>".toList ++ rest) = toolCallRe.findIter rest := by
  refine Delims.findIter_of_suffix (List.suffix_append _ _) fun later hlater hsome => ?_
  obtain ⟨c, tail, rfl, hslash⟩ := openGroup_head hsome
  have hlines : "\n</tool_call>".toList ++ rest =
      ['\n'] ++ ('<' :: ("/tool_call>".toList ++ rest)) := rfl
  rw [hlines] at hlater
  have hbehind := suffix_of_head rfl hlater (by decide)
  rcases List.suffix_cons_iff.mp hbehind with hsame | hbehind
  · exact absurd (List.cons.inj (List.cons.inj hsame).2).1 hslash
  · exact suffix_of_head rfl hbehind (by decide)

theorem parseToolCalls_skip {c : Char} {cs : List Char} (h : openGroup (c :: cs) = none) :
    parseToolCalls (c :: cs) = parseToolCalls cs := by
  unfold parseToolCalls
  rw [Delims.findIter_skip h]

theorem parseToolCalls_closeTag (rest : List Char) :
    parseToolCalls ("\n</tool_call>".toList ++ rest) = parseToolCalls rest := by
  unfold parseToolCalls
  rw [findIter_closeTag]

theorem openGroup_ne {c : Char} {cs : List Char} (h : c ≠ '<') : openGroup (c :: cs) = none := by
  rw [← Option.not_isSome_iff_eq_none]
  intro hsome
  obtain ⟨d, tail, heq, -⟩ := openGroup_head hsome
  exact h (List.cons.inj heq).1

theorem readTag_append {tags : List String} {cs tail : List Char}
    (h : ∀ tag ∈ tags, tag.toList <+: cs ++ tail → tag.toList <+: cs) :
    readTag tags (cs ++ tail) = (readTag tags cs).map (· ++ tail) := by
  have hsame : ∀ tag ∈ tags, tag.toList.isPrefixOf (cs ++ tail) = tag.toList.isPrefixOf cs := by
    intro tag htag
    rw [Bool.eq_iff_iff, List.isPrefixOf_iff_prefix, List.isPrefixOf_iff_prefix]
    exact ⟨h tag htag, fun hprefix => hprefix.trans (List.prefix_append _ _)⟩
  unfold readTag
  rw [List.find?_congr hsame]
  cases hfound : tags.find? fun tag => tag.toList.isPrefixOf cs with
  | none => rfl
  | some tag =>
    have hprefix : tag.toList <+: cs :=
      List.isPrefixOf_iff_prefix.mp (by simpa using List.find?_some hfound)
    simp only [Option.map_some]
    rw [List.drop_append_of_le_length hprefix.length_le]

theorem prefix_append_cases {tag cs tail : List Char} (h : tag <+: cs ++ tail) :
    tag <+: cs ∨ ∃ c more, tail = c :: more ∧ cs ++ [c] <+: tag := by
  rcases List.prefix_or_prefix_of_prefix h (List.prefix_append cs tail) with hin | hout
  · exact .inl hin
  · obtain ⟨more, rfl⟩ := hout
    cases more with
    | nil =>
      rw [List.append_nil]
      exact .inl List.prefix_rfl
    | cons c more =>
      obtain ⟨rest, hrest⟩ := (List.prefix_append_right_inj cs).mp h
      exact .inr ⟨c, more ++ rest, hrest.symm, ⟨more, by simp⟩⟩

theorem tags_tail : ∀ tag ∈ openTags ++ closeTags,
    '}' ∉ tag.toList ∧ '\n' ∉ tag.toList ∧ '<' ∉ tag.toList.tail := by decide

theorem closeGroup_cons (cs : List Char) :
    closeGroup ('}' :: cs) = readTag closeTags (cs.dropWhile PyStr.isSpace) := by
  rw [closeGroup, if_pos rfl]

/-- A text that ends in a brace. -/
def EndsInBrace (cs : List Char) : Prop := ∀ front c, cs = front ++ [c] → c = '}'

theorem EndsInBrace.of_suffix {cs later : List Char} (h : EndsInBrace cs) (hlater : later <:+ cs) :
    EndsInBrace later := by
  obtain ⟨before, rfl⟩ := hlater
  intro front c heq
  exact h (before ++ front) c (by rw [heq, List.append_assoc])

theorem EndsInBrace.ne_append {cs front : List Char} (h : EndsInBrace cs) (hne : front ≠ [])
    (hbrace : '}' ∉ front) : ¬ front <:+ cs := by
  rintro ⟨before, rfl⟩
  obtain ⟨front', c, rfl⟩ := (List.eq_nil_or_concat' front).resolve_left hne
  have hc := h (before ++ front') c (by rw [List.append_assoc])
  exact hbrace (by rw [hc]; simp)

theorem mem_dropWhile_isSpace {c : Char} {cs : List Char} (hc : PyStr.isSpace c = false)
    (h : c ∈ cs) : c ∈ cs.dropWhile PyStr.isSpace := by
  have hsplit := List.takeWhile_append_dropWhile (p := PyStr.isSpace) (l := cs)
  rw [← hsplit, List.mem_append] at h
  refine h.resolve_left fun hmem => ?_
  rw [List.all_eq_true.mp List.all_takeWhile c hmem] at hc
  cases hc

theorem closeGroup_append {cs tail : List Char} (hends : EndsInBrace cs) (hlong : 2 ≤ cs.length) :
    closeGroup (cs ++ tail) = (closeGroup cs).map (· ++ tail) := by
  match cs with
  | [] => cases hlong
  | c :: cs =>
    by_cases hc : c = '}'
    · subst hc
      have hne : cs ≠ [] := by
        rintro rfl
        simp at hlong
      obtain ⟨front, d, hcs⟩ := (List.eq_nil_or_concat' cs).resolve_left hne
      obtain rfl : d = '}' := hends ('}' :: front) d (by rw [hcs]; rfl)
      have hbrace : '}' ∈ cs.dropWhile PyStr.isSpace :=
        mem_dropWhile_isSpace (by decide) (by rw [hcs]; simp)
      have happ : (cs ++ tail).dropWhile PyStr.isSpace = cs.dropWhile PyStr.isSpace ++ tail := by
        rw [List.dropWhile_append, if_neg (by simpa using List.ne_nil_of_mem hbrace)]
      rw [List.cons_append, closeGroup_cons, closeGroup_cons, happ]
      refine readTag_append fun tag htag hprefix => ?_
      rcases prefix_append_cases hprefix with hin | ⟨e, more, -, hout⟩
      · exact hin
      · have hmem := hout.subset (List.mem_append_left _ hbrace)
        exact absurd hmem (tags_tail tag (List.mem_append_right _ htag)).1
    · rw [List.cons_append, closeGroup, closeGroup, if_neg hc, if_neg hc]
      rfl

/-! ## What is read within a string -/

theorem normalizeToolPayload_turned {group back : List Char} {payload : List (String × Json)}
    (hparse : parse group = some (.obj payload))
    (hquoted : quoted .within (group ++ back) = true) :
    normalizeToolPayload (.obj payload) = none := by
  have hkeys := Json.keys_of_turned hparse hquoted
  have hnone : ∀ key ∈ ["function_name", "tool_name", "name"], hasKey key payload = false := by
    intro key hkey
    unfold hasKey
    rw [List.any_eq_false]
    intro m hmem hsame
    obtain ⟨c, tail, htext, hfollows⟩ := hkeys m hmem
    rw [beq_iff_eq.mp hsame] at htext
    simp only [List.mem_cons, List.not_mem_nil, or_false] at hkey
    rcases hkey with rfl | rfl | rfl
    · rw [← htext] at hfollows
      exact absurd hfollows (by decide)
    · rw [← htext] at hfollows
      exact absurd hfollows (by decide)
    · rw [← htext] at hfollows
      exact absurd hfollows (by decide)
  have hfun := hnone "function_name" (by simp)
  have htool := hnone "tool_name" (by simp)
  have hname := hnone "name" (by simp)
  simp [normalizeToolPayload, hfun, htool, hname]

theorem callOf_turned {group back : List Char} (start rest : Nat)
    (hquoted : quoted .within (group ++ back) = true) : callOf ⟨group, start, rest⟩ = none := by
  unfold callOf
  cases hparse : parse group with
  | none => rfl
  | some j =>
    cases j with
    | obj payload => exact normalizeToolPayload_turned hparse hquoted
    | _ => rfl

theorem step_ne_dead {s : QuoteState} {c : Char} {cs : List Char} (hs : s ≠ .dead)
    (hquoted : quoted s (c :: cs) = true) : s.step c ≠ .dead ∧ quoted (s.step c) cs = true := by
  cases s with
  | out =>
    rw [quoted, Bool.and_eq_true, Bool.and_eq_true, bne_iff_ne] at hquoted
    refine ⟨?_, hquoted.2⟩
    simp only [step]
    split
    · decide
    · rw [if_neg hquoted.1.1]
      decide
  | within =>
    rw [quoted, Bool.and_eq_true] at hquoted
    refine ⟨?_, hquoted.2⟩
    simp only [step]
    split
    · decide
    · split
      · decide
      · decide
  | escaped => exact ⟨QuoteState.noConfusion, hquoted⟩
  | dead => exact absurd rfl hs

theorem run_ne_dead {s : QuoteState} {cs ds : List Char} (hs : s ≠ .dead)
    (hquoted : quoted s (cs ++ ds) = true) : s.run cs ≠ .dead := by
  induction cs generalizing s with
  | nil => exact hs
  | cons c cs ih =>
    obtain ⟨hstep, hrest⟩ := step_ne_dead hs hquoted
    exact ih hstep hrest

theorem run_tag {s : QuoteState} {mid rest : List Char} (hs : s ≠ .dead)
    (hmid : ∀ c ∈ mid, c ≠ '"' ∧ c ≠ '\\') (hquoted : quoted s ('<' :: (mid ++ rest)) = true) :
    s ≠ .out ∧ s.run ('<' :: mid) = .within := by
  cases s with
  | out => cases hquoted
  | within =>
    refine ⟨QuoteState.noConfusion, ?_⟩
    rw [run_cons]
    exact run_within hmid
  | escaped =>
    refine ⟨QuoteState.noConfusion, ?_⟩
    rw [run_cons]
    exact run_within hmid
  | dead => exact absurd rfl hs

theorem tags_plain : ∀ tag ∈ openTags ++ closeTags, ∀ c ∈ tag.toList, c ≠ '"' ∧ c ≠ '\\' := by
  simp [openTags, closeTags]

theorem space_plain {space : List Char} (hspace : ∀ c ∈ space, PyStr.isSpace c = true) :
    ∀ c ∈ space, c ≠ '"' ∧ c ≠ '\\' := by
  intro c hmem
  have hc := hspace c hmem
  constructor
  · rintro rfl
    cases hc
  · rintro rfl
    cases hc

theorem body_split {cs b rest : List Char} (h : toolCallRe.body cs = some (b, rest)) :
    ∃ tag ∈ closeTags, ∃ space, cs = b ++ (space ++ (tag.toList ++ rest)) ∧
      ∀ c ∈ space, PyStr.isSpace c = true := by
  induction cs generalizing b with
  | nil => cases h
  | cons c cs ih =>
    unfold Delims.body at h
    split at h
    · next rest' hclose =>
      obtain ⟨rfl, rfl⟩ : [c] = b ∧ rest' = rest := by simpa using h
      have hgroup : closeGroup (c :: cs) = some rest' := hclose
      obtain ⟨tag, htag, space, heq, hspace⟩ := closeGroup_some hgroup
      refine ⟨tag, htag, space, ?_, hspace⟩
      rw [heq, (List.cons.inj heq).1]
      rfl
    · obtain ⟨⟨b', rest'⟩, hbody, hpair⟩ := Option.map_eq_some_iff.mp h
      obtain ⟨rfl, rfl⟩ : c :: b' = b ∧ rest' = rest := by simpa using hpair
      obtain ⟨tag, htag, space, rfl, hspace⟩ := ih hbody
      exact ⟨tag, htag, space, rfl, hspace⟩

/-- Where a closing tag stands in a text, the body before it breaks off within a string, and the
text goes on within it. -/
theorem run_body {s : QuoteState} {cs b rest : List Char} (hs : s ≠ .dead)
    (hquoted : quoted s cs = true) (h : toolCallRe.body cs = some (b, rest)) :
    s.run b ≠ .out ∧ quoted .within rest = true ∧ ∃ front, cs = front ++ rest ∧
      s.run front = .within := by
  obtain ⟨tag, htag, space, rfl, hspace⟩ := body_split h
  obtain ⟨tail, htext, -, -⟩ := closeTags_shape tag htag
  have hplain : ∀ c ∈ '/' :: tail, c ≠ '"' ∧ c ≠ '\\' := by
    have hall := tags_plain tag (List.mem_append_right _ htag)
    rw [htext] at hall
    exact (List.forall_mem_cons.mp hall).2
  have hbody := run_ne_dead hs hquoted
  have hquoted' := Json.quoted_of_append hquoted
  have hspaced := run_ne_dead hbody hquoted'
  have htagged := Json.quoted_of_append hquoted'
  rw [htext] at htagged
  obtain ⟨hout, hwithin⟩ := run_tag hspaced hplain htagged
  have hfront : s.run (b ++ (space ++ tag.toList)) = .within := by
    rw [run_append, run_append, htext, hwithin]
  refine ⟨fun heq => ?_, ?_, b ++ (space ++ tag.toList), by simp, hfront⟩
  · rw [heq, run_out (space_plain hspace)] at hout
    exact hout rfl
  · rw [← hfront]
    apply Json.quoted_of_append
    simpa using hquoted

/-! ## The text of a call -/

def closed (rest : List Char) : List Char := "\n</tool_call>".toList ++ rest

theorem closeGroup_closed (rest : List Char) : closeGroup ('}' :: closed rest) = some rest := by
  rw [closeGroup_cons]
  show readTag closeTags ("</tool_call>".toList ++ rest) = some rest
  unfold readTag closeTags
  rw [List.find?_cons_of_pos (by simp)]
  rfl

theorem body_closed {cs : List Char} (hends : EndsInBrace cs) (hne : cs ≠ [])
    (rest : List Char) : toolCallRe.body (cs ++ closed rest) =
      match toolCallRe.body cs with
      | some (b, left) => some (b, left ++ closed rest)
      | none => some (cs, rest) := by
  cases hbody : toolCallRe.body cs with
  | some found =>
    obtain ⟨b, left⟩ := found
    refine Delims.body_keep hbody fun later hlater hlong => ?_
    have hleft : left ≠ [] := by
      rintro rfl
      obtain ⟨tag, htag, space, heq, -⟩ := body_split hbody
      obtain ⟨tail, htext, -, -⟩ := closeTags_shape tag htag
      rw [List.append_nil, ← List.append_assoc] at heq
      refine hends.ne_append ?_ (tags_tail tag (List.mem_append_right _ htag)).1
        ⟨b ++ space, heq.symm⟩
      rw [htext]
      exact List.cons_ne_nil _ _
    have hpos := List.length_pos_iff.mpr hleft
    exact closeGroup_append (hends.of_suffix hlater) (by omega)
  | none =>
    induction cs with
    | nil => exact absurd rfl hne
    | cons c cs ih =>
      have hnone := Delims.body_none_iff.mp hbody
      cases cs with
      | nil =>
        obtain rfl : c = '}' := hends [] c rfl
        have hclose : toolCallRe.closes ('}' :: closed rest) = some rest := closeGroup_closed rest
        rw [List.cons_append, List.nil_append, Delims.body, hclose]
      | cons d cs =>
        have hclose : toolCallRe.closes (c :: (d :: cs ++ closed rest)) = none := by
          have happ := @closeGroup_append (c :: d :: cs) (closed rest) hends (by simp)
          have hhere : closeGroup (c :: d :: cs) = none := hnone _ List.suffix_rfl
          rw [hhere] at happ
          exact happ
        have hrest := ih (hends.of_suffix (List.suffix_cons _ _)) (List.cons_ne_nil _ _)
          (Delims.body_none_iff.mpr fun later hlater =>
            hnone later (hlater.trans (List.suffix_cons _ _)))
        rw [List.cons_append, Delims.body, hclose, hrest]
        rfl

theorem parseToolCalls_found {c : Char} {cs inner b rest : List Char}
    (hopen : openGroup (c :: cs) = some inner) (hbody : toolCallRe.body inner = some (b, rest)) :
    parseToolCalls (c :: cs) =
      (callOf ⟨b, cs.length + 1, rest.length⟩).toList ++ parseToolCalls rest := by
  unfold parseToolCalls
  rw [Delims.findIter_found hopen hbody, List.filterMap_cons]
  cases callOf ⟨b, cs.length + 1, rest.length⟩ with
  | none => rfl
  | some j => rfl

theorem run_plain {s : QuoteState} {cs : List Char} (hs : s ≠ .dead)
    (hplain : ∀ c ∈ cs, c ≠ '"' ∧ c ≠ '\\') (hquoted : quoted s ('<' :: cs) = true) :
    s.run ('<' :: cs) ≠ .out := by
  have hrun := (@run_tag s cs [] hs hplain (by rwa [List.append_nil])).2
  rw [hrun]
  exact QuoteState.noConfusion

theorem openGroup_within {s : QuoteState} {c : Char} {cs inner rest : List Char} (hs : s ≠ .dead)
    (hquoted : quoted s (c :: cs) = true) (hrun : s.run (c :: cs) = .out)
    (hopen : openGroup (c :: (cs ++ rest)) = some inner) :
    ∃ body, body <:+ cs ∧ inner = body ++ rest ∧ body ≠ [] ∧ quoted .within body = true ∧
      within.run body = .out := by
  obtain ⟨tag, htag, space, heq, hspace, -⟩ := openGroup_some hopen
  obtain ⟨d, tail, htext, -, -, -⟩ := openTags_shape tag htag
  rw [htext, List.cons_append, List.cons.injEq, ← List.append_assoc] at heq
  obtain ⟨rfl, heq⟩ := heq
  have hplain : ∀ e ∈ d :: tail ++ space, e ≠ '"' ∧ e ≠ '\\' := by
    have hall := tags_plain tag (List.mem_append_left _ htag)
    rw [htext] at hall
    intro e hmem
    rcases List.mem_append.mp hmem with htail | hin
    · exact hall e (List.mem_cons_of_mem _ htail)
    · exact space_plain hspace e hin
  rcases List.append_eq_append_iff.mp heq with ⟨more, hmore, -⟩ | ⟨body, rfl, rfl⟩
  · refine absurd hrun (run_plain hs (fun e hmem => hplain e ?_) hquoted)
    rw [hmore]
    exact List.mem_append_left _ hmem
  · have hwithin := (run_tag hs hplain hquoted).2
    have hbody : quoted .within body = true := by
      rw [← hwithin]
      exact @Json.quoted_of_append _ ('<' :: (d :: tail ++ space)) _ hquoted
    have hbodyRun : within.run body = .out := by
      rw [← hwithin, ← run_append]
      exact hrun
    refine ⟨body, List.suffix_append _ _, rfl, ?_, hbody, hbodyRun⟩
    rintro rfl
    cases hbodyRun

theorem parseToolCalls_within (rest : List Char) (n : Nat) {s : QuoteState} {cs : List Char}
    (hlength : cs.length ≤ n) (hs : s ≠ .dead) (hquoted : quoted s cs = true)
    (hrun : s.run cs = .out) (hends : EndsInBrace cs) :
    parseToolCalls (cs ++ closed rest) = parseToolCalls rest := by
  induction n generalizing s cs with
  | zero =>
    rw [List.length_eq_zero_iff.mp (Nat.le_zero.mp hlength)]
    exact parseToolCalls_closeTag rest
  | succ n ih =>
    cases cs with
    | nil => exact parseToolCalls_closeTag rest
    | cons c cs =>
      cases hopen : openGroup (c :: (cs ++ closed rest)) with
      | none =>
        obtain ⟨hstep, hquoted'⟩ := step_ne_dead hs hquoted
        rw [List.cons_append, parseToolCalls_skip hopen]
        exact ih (Nat.le_of_succ_le_succ hlength) hstep hquoted' hrun
          (hends.of_suffix (List.suffix_cons c cs))
      | some inner =>
        obtain ⟨body, hsuffix, rfl, hne, hbodyQuoted, hbodyRun⟩ :=
          openGroup_within hs hquoted hrun hopen
        have hbodyEnds := (hends.of_suffix (List.suffix_cons c cs)).of_suffix hsuffix
        have hclosed := body_closed hbodyEnds hne rest
        cases hbody : toolCallRe.body body with
        | none =>
          rw [hbody] at hclosed
          rw [List.cons_append, parseToolCalls_found hopen hclosed]
          rw [@callOf_turned _ [] _ _ (by rwa [List.append_nil])]
          rfl
        | some found =>
          obtain ⟨b, left⟩ := found
          rw [hbody] at hclosed
          obtain ⟨tag, -, space, hsplit, -⟩ := body_split hbody
          obtain ⟨-, hleft, front, hfront, hfrontRun⟩ :=
            run_body QuoteState.noConfusion hbodyQuoted hbody
          rw [List.cons_append, parseToolCalls_found hopen hclosed,
            callOf_turned _ _ (hsplit ▸ hbodyQuoted)]
          have hshort : left.length ≤ n := by
            have hbound := ((Delims.body_suffix hbody).1.trans hsuffix).length_le
            simp only [List.length_cons] at hlength
            omega
          rw [hfront, run_append, hfrontRun] at hbodyRun
          exact ih hshort QuoteState.noConfusion hleft hbodyRun
            (hbodyEnds.of_suffix (Delims.body_suffix hbody).1)

/-! ### Reading it back -/

section

variable (c : EmulatedCall)

theorem dumps_call : ∃ front, dumps c.json = '{' :: (front ++ ['}']) := by
  obtain ⟨front, hfront⟩ := Json.dumpsMembers_end [("input", .obj c.input)]
  refine ⟨Json.quote "name" ++ ':' :: ' ' :: (Json.quote c.name ++ front), ?_⟩
  simp only [EmulatedCall.json, dumps, hfront, List.append_assoc, List.cons_append]

theorem endsInBrace_dumps : EndsInBrace (dumps c.json) := by
  obtain ⟨front, hfront⟩ := dumps_call c
  intro front' d heq
  rw [hfront, ← List.cons_append] at heq
  exact (List.append_inj_right' heq rfl ▸ rfl : [d] = ['}']) |> List.cons.inj |>.1

theorem callOf_dumps (start rest : Nat) : callOf ⟨dumps c.json, start, rest⟩ = some c.json := by
  unfold callOf
  rw [Json.parse_dumps]
  rfl

theorem toolCallText_append (rest : List Char) : toolCallText c.name (.obj c.input) ++ rest =
    "<tool_call>\n".toList ++ (dumps c.json ++ closed rest) := by
  unfold toolCallText closed EmulatedCall.json
  rw [List.append_assoc, List.append_assoc]

theorem openLine (cs : List Char) :
    "<tool_call>\n".toList ++ cs = '<' :: ("tool_call>\n".toList ++ cs) := rfl

theorem openGroup_call (cs : List Char) :
    openGroup ("<tool_call>\n".toList ++ '{' :: cs) = some ('{' :: cs) := by
  unfold openGroup readTag openTags
  rw [List.find?_cons_of_pos (by simp)]
  rfl

theorem parseToolCalls_call (rest : List Char) :
    parseToolCalls (toolCallText c.name (.obj c.input) ++ rest) =
      (if c.endsEarly then [] else [c.json]) ++ parseToolCalls rest := by
  obtain ⟨front, hfront⟩ := dumps_call c
  have htext : toolCallText c.name (.obj c.input) ++ rest =
      '<' :: ("tool_call>\n".toList ++ (dumps c.json ++ closed rest)) := by
    rw [toolCallText_append, openLine]
  have hopen : openGroup ('<' :: ("tool_call>\n".toList ++ (dumps c.json ++ closed rest))) =
      some (dumps c.json ++ closed rest) := by
    rw [hfront]
    exact openGroup_call _
  have hne : dumps c.json ≠ [] := by
    rw [hfront]
    exact List.cons_ne_nil _ _
  have hquoted : quoted .out (dumps c.json) = true := by
    have h := Json.quoted_dumps c.json [] rfl rfl
    rwa [List.append_nil] at h
  have hclosed := body_closed (endsInBrace_dumps c) hne rest
  unfold EmulatedCall.endsEarly
  rw [htext]
  cases hbody : toolCallRe.body (dumps c.json) with
  | none =>
    rw [hbody] at hclosed
    rw [parseToolCalls_found hopen hclosed, callOf_dumps]
    rfl
  | some found =>
    obtain ⟨b, left⟩ := found
    rw [hbody] at hclosed
    obtain ⟨hcut, hleft, before, hbefore, hrun⟩ :=
      run_body QuoteState.noConfusion hquoted hbody
    have hnone : callOf ⟨b, ("tool_call>\n".toList ++ (dumps c.json ++ closed rest)).length + 1,
        (left ++ closed rest).length⟩ = none := by
      unfold callOf
      rw [Json.parse_of_cut hcut]
      rfl
    have hwhole := Json.run_of_parse (Json.parse_dumps c.json)
    rw [hbefore, run_append, hrun] at hwhole
    rw [parseToolCalls_found hopen hclosed, hnone,
      parseToolCalls_within rest left.length le_rfl QuoteState.noConfusion hleft hwhole
        ((endsInBrace_dumps c).of_suffix (Delims.body_suffix hbody).1)]
    rfl

end

/-! ## The text of a message -/

theorem tags_chars : ∀ tag ∈ openTags ++ closeTags, ∀ c ∈ tag.toList,
    PyStr.isSpace c = false ∧ c ≠ '\n' := by
  have hall : ((openTags ++ closeTags).all fun tag =>
      tag.toList.all fun c => !PyStr.isSpace c && c != '\n') = true := by decide
  intro tag htag c hmem
  simpa using List.all_eq_true.mp (List.all_eq_true.mp hall tag htag) c hmem

/-- What starts with no inner character of a tag, and behind its spaces with no brace and no
closing tag, may follow any text. -/
theorem splits_of {tail : List Char}
    (hhead : ∀ c cs, tail = c :: cs → ∀ tag ∈ openTags ++ closeTags, c ∉ tag.toList.tail)
    (hbrace : (tail.dropWhile PyStr.isSpace).head? ≠ some '{')
    (hclose : readTag closeTags (tail.dropWhile PyStr.isSpace) = none) :
    toolCallRe.Splits tail := by
  have hread : ∀ (tags : List String) (cs : List Char), tags ⊆ openTags ++ closeTags → cs ≠ [] →
      readTag tags (cs ++ tail) = (readTag tags cs).map (· ++ tail) := by
    intro tags cs hsub hne
    refine readTag_append fun tag htag hprefix => ?_
    rcases prefix_append_cases hprefix with hin | ⟨c, more, htail, hout⟩
    · exact hin
    · obtain ⟨d, cs', rfl⟩ := List.exists_cons_of_ne_nil hne
      obtain ⟨rest, hrest⟩ := hout
      refine absurd ?_ (hhead c more htail tag (hsub htag))
      rw [← hrest]
      simp
  have hdrop : ∀ cs : List Char, (cs ++ tail).dropWhile PyStr.isSpace =
      if cs.dropWhile PyStr.isSpace = [] then tail.dropWhile PyStr.isSpace
      else cs.dropWhile PyStr.isSpace ++ tail := by
    intro cs
    rw [List.dropWhile_append]
    simp
  intro c cs
  constructor
  · show openGroup (c :: cs ++ tail) = (openGroup (c :: cs)).map (· ++ tail)
    unfold openGroup
    rw [hread openTags (c :: cs) (List.subset_append_left _ _) (List.cons_ne_nil _ _)]
    cases readTag openTags (c :: cs) with
    | none => rfl
    | some rest =>
      simp only [Option.map_some, Option.bind_some, hdrop]
      by_cases hspace : rest.dropWhile PyStr.isSpace = []
      · rw [if_pos hspace, if_neg hbrace, hspace]
        rfl
      · rw [if_neg hspace, List.head?_append_of_ne_nil _ hspace]
        split
        · rfl
        · rfl
  · show closeGroup (c :: (cs ++ tail)) = (closeGroup (c :: cs)).map (· ++ tail)
    by_cases hc : c = '}'
    · rw [hc, closeGroup_cons, closeGroup_cons, hdrop]
      by_cases hspace : cs.dropWhile PyStr.isSpace = []
      · rw [if_pos hspace, hclose, hspace]
        rfl
      · rw [if_neg hspace]
        exact hread closeTags _ (List.subset_append_right _ _) hspace
    · rw [closeGroup, closeGroup, if_neg hc, if_neg hc]
      rfl

theorem splits_space {space : List Char} (hspace : ∀ c ∈ space, PyStr.isSpace c = true) :
    toolCallRe.Splits space := by
  have hnil : space.dropWhile PyStr.isSpace = [] := List.dropWhile_eq_nil_iff.mpr hspace
  refine splits_of (fun c cs heq tag htag hmem => ?_) ?_ ?_
  · have hc := (tags_chars tag htag c (List.mem_of_mem_tail hmem)).1
    rw [hspace c (by rw [heq]; exact List.mem_cons_self)] at hc
    cases hc
  · rw [hnil]
    simp
  · rw [hnil]
    rfl

theorem body_space {space : List Char} (hspace : ∀ c ∈ space, PyStr.isSpace c = true) :
    toolCallRe.body space = none := by
  rw [Delims.body_none_iff]
  intro later hlater
  rw [← Option.not_isSome_iff_eq_none]
  intro hsome
  have hbrace := List.mem_of_mem_head? (closeGroup_head hsome)
  have hc := hspace '}' (hlater.subset hbrace)
  cases hc

theorem callOf_shift (n : Nat) (m : Delims.Match Char) : callOf (m.shift n) = callOf m := rfl

theorem parseToolCalls_strip (cs : List Char) :
    parseToolCalls (PyStr.strip (String.ofList cs)).toList = parseToolCalls cs := by
  obtain ⟨core, hcore⟩ : ∃ core, core = cs.dropWhile PyStr.isSpace := ⟨_, rfl⟩
  have hfront : parseToolCalls core = parseToolCalls cs := by
    unfold parseToolCalls
    rw [hcore]
    refine congrArg (List.filterMap callOf) (Eq.symm ?_)
    refine Delims.findIter_of_suffix (List.dropWhile_suffix _) fun later hlater hsome => ?_
    obtain ⟨c, tail, rfl, -⟩ := openGroup_head hsome
    rw [← List.takeWhile_append_dropWhile (p := PyStr.isSpace) (l := cs)] at hlater
    exact suffix_of_head rfl hlater (notMem_space
      (fun c hmem => List.all_eq_true.mp List.all_takeWhile c hmem) (by decide))
  have hsplit : core = (core.reverse.dropWhile PyStr.isSpace).reverse ++
      (core.reverse.takeWhile PyStr.isSpace).reverse := by
    rw [← List.reverse_append, List.takeWhile_append_dropWhile, List.reverse_reverse]
  have hspace : ∀ c ∈ (core.reverse.takeWhile PyStr.isSpace).reverse, PyStr.isSpace c = true := by
    intro c hmem
    exact List.all_eq_true.mp List.all_takeWhile c (List.mem_reverse.mp hmem)
  have hback : parseToolCalls core =
      parseToolCalls (core.reverse.dropWhile PyStr.isSpace).reverse := by
    conv_lhs => rw [hsplit]
    unfold parseToolCalls
    rw [Delims.findIter_append (splits_space hspace), List.filterMap_append,
      Delims.findIter_hanging (splits_space hspace) (body_space hspace), List.filterMap_nil,
      List.append_nil, List.filterMap_map]
    rfl
  rw [← hfront, hback, hcore]
  unfold PyStr.strip
  rw [String.toList_ofList, String.toList_ofList]

theorem parseToolCalls_text (t : PlainText) {tail : List Char}
    (htail : tail = [] ∨ ∃ cs, tail = '\n' :: cs) :
    parseToolCalls (t.text.toList ++ tail) = parseToolCalls tail := by
  unfold parseToolCalls
  refine congrArg (List.filterMap callOf) ?_
  refine Delims.findIter_of_suffix (List.suffix_append _ _) fun later hlater hsome => ?_
  rcases List.suffix_or_suffix_of_suffix hlater (List.suffix_append t.text.toList tail) with
    hin | ⟨front, rfl⟩
  · exact hin
  · obtain ⟨body, hbody⟩ := Option.isSome_iff_exists.mp hsome
    obtain ⟨tag, htag, space, heq, -, -⟩ := openGroup_some hbody
    obtain ⟨before, hbefore⟩ := hlater
    rw [← List.append_assoc, List.append_cancel_right_eq] at hbefore
    rcases prefix_append_cases ⟨space ++ body, heq.symm⟩ with hin | ⟨c, more, hmore, hout⟩
    · refine absurd ?_ (t.noTags tag (List.mem_append_left _ htag))
      rw [← hbefore]
      exact (hin.isInfix).trans (List.suffix_append _ _).isInfix
    · rcases htail with rfl | ⟨cs, rfl⟩
      · cases hmore
      · obtain ⟨rfl, -⟩ := List.cons.inj hmore
        have hmem := hout.subset (List.mem_append_right _ List.mem_cons_self)
        exact absurd rfl (tags_chars tag (List.mem_append_left _ htag) _ hmem).2

def EmulatedBlock.chars : EmulatedBlock → List Char
  | .text t => t.text.toList
  | .call c => toolCallText c.name (.obj c.input)

def EmulatedBlock.read : EmulatedBlock → List Json
  | .text _ => []
  | .call c => if c.endsEarly then [] else [c.json]

theorem parseToolCalls_block (b : EmulatedBlock) {tail : List Char}
    (htail : tail = [] ∨ ∃ cs, tail = '\n' :: cs) :
    parseToolCalls (b.chars ++ tail) = b.read ++ parseToolCalls tail := by
  cases b with
  | text t => exact parseToolCalls_text t htail
  | call c => exact parseToolCalls_call c tail

theorem parse_blocks (blocks : List EmulatedBlock) :
    parseToolCalls (joinLines (blocks.map EmulatedBlock.chars)) =
      blocks.flatMap EmulatedBlock.read := by
  induction blocks with
  | nil =>
    show parseToolCalls [] = []
    unfold parseToolCalls
    rw [Delims.findIter_nil]
    rfl
  | cons b blocks ih =>
    cases blocks with
    | nil =>
      have htext : joinLines ([b].map EmulatedBlock.chars) = b.chars ++ [] := by
        simp [joinLines, List.intercalate]
      have hnil : parseToolCalls [] = [] := ih
      rw [htext, parseToolCalls_block b (.inl rfl), hnil]
      rfl
    | cons next blocks =>
      have htext : joinLines ((b :: next :: blocks).map EmulatedBlock.chars) =
          b.chars ++ '\n' :: joinLines ((next :: blocks).map EmulatedBlock.chars) := by
        simp [joinLines, List.intercalate]
      rw [htext, parseToolCalls_block b (.inr ⟨_, rfl⟩),
        parseToolCalls_skip (openGroup_ne (by decide)), ih]
      rfl

theorem read_eq_iff (blocks : List EmulatedBlock) :
    blocks.flatMap EmulatedBlock.read = (blocks.filterMap EmulatedBlock.call?).map EmulatedCall.json ↔
      ∀ c ∈ blocks.filterMap EmulatedBlock.call?, c.endsEarly = false := by
  have hread : blocks.flatMap EmulatedBlock.read =
      ((blocks.filterMap EmulatedBlock.call?).filter fun c => !c.endsEarly).map
        EmulatedCall.json := by
    induction blocks with
    | nil => rfl
    | cons b blocks ih =>
      rw [List.flatMap_cons, ih]
      cases b with
      | text t => rfl
      | call c =>
        rw [List.filterMap_cons]
        simp only [EmulatedBlock.call?, EmulatedBlock.read]
        cases hearly : c.endsEarly with
        | true => simp [hearly]
        | false => simp [hearly]
  rw [hread]
  constructor
  · intro h c hmem
    have hlength := congrArg List.length h
    rw [List.length_map, List.length_map, List.length_filter_eq_length_iff] at hlength
    simpa using hlength c hmem
  · intro h
    rw [List.filter_eq_self.mpr fun c hmem => by rw [h c hmem]; rfl]

def callsIn (turns : List TextTurn) : List Json :=
  turns.flatMap fun turn => parseToolCalls turn.content.toList

theorem parts_chars (blocks : List EmulatedBlock) :
    (blocks.map EmulatedBlock.part).filterMap partText = blocks.map EmulatedBlock.chars := by
  induction blocks with
  | nil => rfl
  | cons b blocks ih =>
    rw [List.map_cons, List.map_cons, List.filterMap_cons, ih]
    cases b with
    | text t => rfl
    | call c => rfl

theorem parseToolCalls_empty : parseToolCalls "".toList = [] := by
  show parseToolCalls [] = []
  unfold parseToolCalls
  rw [Delims.findIter_nil]
  rfl

/-- What is read of a message in the shape of `/v1/messages`. -/
theorem callsIn_anthropic (role : String) (blocks : List EmulatedBlock) :
    callsIn (normalizeAnthropicMessages [⟨role, .blocks (blocks.map EmulatedBlock.part)⟩]) =
      blocks.flatMap EmulatedBlock.read := by
  have hread := parseToolCalls_strip (joinLines (blocks.map EmulatedBlock.chars))
  rw [parse_blocks] at hread
  simp only [normalizeAnthropicMessages, List.filterMap_cons, List.filterMap_nil, parts_chars]
  split
  · next hnone =>
    split at hnone
    · next hempty =>
      rw [hempty, parseToolCalls_empty] at hread
      exact hread
    · cases hnone
  · next turn hsome =>
    split at hsome
    · cases hsome
    · obtain rfl := Option.some.inj hsome
      simpa [callsIn] using hread

/-- A call of an OpenAI message: its arguments read as its input. -/
structure SentCall extends EmulatedCall where
  arguments : String
  reads : parse arguments.toList = some (.obj input)

def SentCall.openai (c : SentCall) : OpenaiCall := ⟨c.name, c.arguments⟩

def openaiTurn (content : Option PlainText) (calls : List SentCall) : OpenaiTurn :=
  ⟨"assistant", content.map (·.text), "", calls.map SentCall.openai⟩

theorem toolCallText_openai (c : SentCall) :
    toolCallText c.openai.name (argsOf c.openai) =
      (EmulatedBlock.call c.toEmulatedCall).chars := by
  have hargs : argsOf c.openai = .obj c.input := by
    unfold argsOf SentCall.openai
    rw [c.reads]
    rfl
  rw [hargs]
  rfl

/-- What is read of a message in the shape of `/v1/chat/completions`. -/
theorem callsIn_openai (content : Option PlainText) (calls : List SentCall) :
    callsIn (normalizeOpenaiMessages [openaiTurn content calls]) =
      (calls.map fun c => EmulatedBlock.call c.toEmulatedCall).flatMap EmulatedBlock.read := by
  obtain ⟨lead, hlead, hread⟩ : ∃ lead : List EmulatedBlock,
      (if ((content.map (·.text)).getD "") = "" then [] else
        [((content.map (·.text)).getD "").toList]) = lead.map EmulatedBlock.chars ∧
      lead.flatMap EmulatedBlock.read = [] := by
    cases content with
    | none => exact ⟨[], rfl, rfl⟩
    | some t =>
      by_cases hempty : t.text = ""
      · exact ⟨[], if_pos hempty, rfl⟩
      · exact ⟨[.text t], if_neg hempty, rfl⟩
  have hrole : ¬ "assistant" = "tool" := by decide
  cases calls with
  | nil =>
    have hplain : parseToolCalls ((content.map (·.text)).getD "").toList = [] := by
      cases content with
      | none => exact parseToolCalls_empty
      | some t =>
        have htext := @parseToolCalls_text t [] (.inl rfl)
        rw [List.append_nil] at htext
        exact htext.trans parseToolCalls_empty
    simp [normalizeOpenaiMessages, openaiTurn, callsIn, hplain]
  | cons c calls =>
    have hparse := parse_blocks
      (lead ++ (c :: calls).map fun c => EmulatedBlock.call c.toEmulatedCall)
    rw [List.map_append, ← hlead, List.flatMap_append, hread, List.nil_append,
      ← parseToolCalls_strip, List.map_map] at hparse
    simp only [normalizeOpenaiMessages, openaiTurn, List.map_cons, List.map_nil, if_neg hrole,
      callsIn, List.flatMap_cons, List.flatMap_nil, List.append_nil, List.isEmpty_cons,
      Bool.false_eq_true, if_false, toolCallText_openai] at hparse ⊢
    rw [← hparse]
    simp only [List.map_map, Function.comp_def, toolCallText_openai]

end LlmProxy.Cot
