import LlmProxy.Lib.Delimited
import LlmProxy.Lib.JsonSpaced
import LlmProxy.Lib.PyStr

/-! # Tool calls in a text

`_TOOL_CALL_RE` and `parse_tool_calls` (`app/cot/tool_emulation.py`): a call is an opening tag, a
text in braces and a closing tag, found lazily; one whose text is no JSON object with a name is
dropped. `toolCallRe` says that the tags keep apart, so that the rules for delimited groups apply.
-/

namespace LlmProxy.Cot

/-! ## The tags -/

def openTags : List String := ["<tool_call>", "<tool_code>", "<function_call>", "<tool_use>"]

def closeTags : List String := ["</tool_call>", "</tool_code>", "</function_call>", "</tool_use>"]

def readTag (tags : List String) (cs : List Char) : Option (List Char) :=
  (tags.find? fun tag => tag.toList.isPrefixOf cs).map fun tag => cs.drop tag.toList.length

/-- `<(?:tool_call|tool_code|function_call|tool_use)>\s*` before a brace. -/
def openGroup (cs : List Char) : Option (List Char) :=
  (readTag openTags cs).bind fun rest =>
    if (rest.dropWhile PyStr.isSpace).head? = some '{' then some (rest.dropWhile PyStr.isSpace)
    else none

/-- A brace, `\s*` and `</(?:tool_call|tool_code|function_call|tool_use)>`. -/
def closeGroup : List Char → Option (List Char)
  | [] => none
  | c :: cs => if c = '}' then readTag closeTags (cs.dropWhile PyStr.isSpace) else none

theorem readTag_some {tags : List String} {cs rest : List Char} (h : readTag tags cs = some rest) :
    ∃ tag ∈ tags, cs = tag.toList ++ rest := by
  obtain ⟨tag, hfind, hrest⟩ := Option.map_eq_some_iff.mp h
  obtain ⟨tail, htail⟩ : tag.toList <+: cs :=
    List.isPrefixOf_iff_prefix.mp (by simpa using List.find?_some hfind)
  refine ⟨tag, List.mem_of_find?_eq_some hfind, ?_⟩
  rw [← hrest, ← htail, List.drop_left]

theorem openGroup_some {cs body : List Char} (h : openGroup cs = some body) :
    ∃ tag ∈ openTags, ∃ space, cs = tag.toList ++ (space ++ body) ∧
      (∀ c ∈ space, PyStr.isSpace c = true) ∧ body.head? = some '{' := by
  obtain ⟨rest, hread, hbody⟩ := Option.bind_eq_some_iff.mp h
  obtain ⟨tag, htag, rfl⟩ := readTag_some hread
  split at hbody
  · next hbrace =>
    obtain rfl := Option.some.inj hbody
    refine ⟨tag, htag, rest.takeWhile PyStr.isSpace, ?_,
      fun c hmem => List.all_eq_true.mp List.all_takeWhile c hmem, hbrace⟩
    rw [List.takeWhile_append_dropWhile]
  · cases hbody

theorem closeGroup_some {cs rest : List Char} (h : closeGroup cs = some rest) :
    ∃ tag ∈ closeTags, ∃ space, cs = '}' :: (space ++ (tag.toList ++ rest)) ∧
      (∀ c ∈ space, PyStr.isSpace c = true) := by
  cases cs with
  | nil => cases h
  | cons c cs =>
    rw [closeGroup] at h
    split at h
    · next hbrace =>
      obtain ⟨tag, htag, hcs⟩ := readTag_some h
      refine ⟨tag, htag, cs.takeWhile PyStr.isSpace, ?_,
        fun c hmem => List.all_eq_true.mp List.all_takeWhile c hmem⟩
      rw [← hcs, List.takeWhile_append_dropWhile, hbrace]
    · cases h

theorem suffix_of_head {front back later : List Char} {c : Char} (hhead : later.head? = some c)
    (hsuffix : later <:+ front ++ back) (hfront : c ∉ front) : later <:+ back := by
  induction front with
  | nil => exact hsuffix
  | cons d front ih =>
    rw [List.mem_cons, not_or] at hfront
    rcases List.suffix_cons_iff.mp hsuffix with rfl | hsuffix
    · exact absurd (Option.some.inj hhead).symm hfront.1
    · exact ih hsuffix hfront.2

theorem openTags_shape : ∀ tag ∈ openTags, ∃ c tail, tag.toList = '<' :: c :: tail ∧ c ≠ '/' ∧
    '<' ∉ c :: tail ∧ '}' ∉ '<' :: c :: tail := by
  simp only [openTags, List.forall_mem_cons]
  exact ⟨⟨_, _, rfl, by decide, by decide, by decide⟩, ⟨_, _, rfl, by decide, by decide, by decide⟩,
    ⟨_, _, rfl, by decide, by decide, by decide⟩, ⟨_, _, rfl, by decide, by decide, by decide⟩,
    fun _ hmem => absurd hmem List.not_mem_nil⟩

theorem closeTags_shape : ∀ tag ∈ closeTags, ∃ tail, tag.toList = '<' :: '/' :: tail ∧
    '<' ∉ '/' :: tail ∧ '}' ∉ tail := by
  simp only [closeTags, List.forall_mem_cons]
  exact ⟨⟨_, rfl, by decide, by decide⟩, ⟨_, rfl, by decide, by decide⟩,
    ⟨_, rfl, by decide, by decide⟩, ⟨_, rfl, by decide, by decide⟩,
    fun _ hmem => absurd hmem List.not_mem_nil⟩

theorem notMem_space {c : Char} {space : List Char} (hspace : ∀ d ∈ space, PyStr.isSpace d = true)
    (hc : PyStr.isSpace c = false) : c ∉ space := by
  intro hmem
  rw [hspace c hmem] at hc
  cases hc

theorem openGroup_head {later : List Char} (h : (openGroup later).isSome = true) :
    ∃ c tail, later = '<' :: c :: tail ∧ c ≠ '/' := by
  obtain ⟨body, hbody⟩ := Option.isSome_iff_exists.mp h
  obtain ⟨tag, htag, space, rfl, -, -⟩ := openGroup_some hbody
  obtain ⟨c, tail, heq, hslash, -, -⟩ := openTags_shape tag htag
  exact ⟨c, tail ++ (space ++ body), by rw [heq]; rfl, hslash⟩

theorem closeGroup_head {later : List Char} (h : (closeGroup later).isSome = true) :
    later.head? = some '}' := by
  obtain ⟨rest, hrest⟩ := Option.isSome_iff_exists.mp h
  obtain ⟨tag, -, space, rfl, -⟩ := closeGroup_some hrest
  rfl

/-- `_TOOL_CALL_RE`. -/
def toolCallRe : Delims Char where
  opens := openGroup
  closes := closeGroup
  opens_nil := rfl
  closes_nil := rfl
  opens_suffix := by
    intro c cs body h
    obtain ⟨tag, htag, space, heq, -, -⟩ := openGroup_some h
    obtain ⟨d, tail, htext, -⟩ := openTags_shape tag htag
    rw [htext, List.cons_append] at heq
    rw [(List.cons.inj heq).2, ← List.append_assoc]
    exact List.suffix_append _ _
  closes_suffix := by
    intro c cs rest h
    obtain ⟨tag, -, space, heq, -⟩ := closeGroup_some h
    rw [(List.cons.inj heq).2, ← List.append_assoc]
    exact List.suffix_append _ _
  opens_apart := by
    intro c cs body later h hlater hsome
    obtain ⟨tag, htag, space, heq, hspace, -⟩ := openGroup_some h
    obtain ⟨d, tail, htext, -, hangle, -⟩ := openTags_shape tag htag
    obtain ⟨e, more, rfl, -⟩ := openGroup_head hsome
    rw [htext, List.cons_append] at heq
    rw [(List.cons.inj heq).2, ← List.append_assoc] at hlater
    refine suffix_of_head rfl hlater ?_
    rw [List.mem_append, not_or]
    exact ⟨hangle, notMem_space hspace (by decide)⟩
  closes_apart := by
    intro c cs body later h hlater hsome
    obtain ⟨tag, htag, space, heq, hspace, -⟩ := openGroup_some h
    obtain ⟨d, tail, htext, -, -, hbrace⟩ := openTags_shape tag htag
    rw [heq, htext, ← List.append_assoc] at hlater
    refine suffix_of_head (closeGroup_head hsome) hlater ?_
    rw [List.mem_append, not_or]
    exact ⟨hbrace, notMem_space hspace (by decide)⟩
  opens_behind := by
    intro c cs rest later h hlater hsome
    obtain ⟨tag, htag, space, heq, hspace⟩ := closeGroup_some h
    obtain ⟨tail, htext, hangle, -⟩ := closeTags_shape tag htag
    obtain ⟨e, more, rfl, hslash⟩ := openGroup_head hsome
    rw [heq, htext, ← List.cons_append] at hlater
    have hbehind := suffix_of_head rfl hlater (by
      rw [List.mem_cons, not_or]
      exact ⟨by decide, notMem_space hspace (by decide)⟩)
    rw [List.cons_append] at hbehind
    rcases List.suffix_cons_iff.mp hbehind with hsame | hbehind
    · rw [List.cons_append] at hsame
      exact absurd (List.cons.inj (List.cons.inj hsame).2).1 hslash
    · exact suffix_of_head rfl hbehind hangle

/-! ## `parse_tool_calls` -/

def hasKey (key : String) (payload : List (String × Json)) : Bool := payload.any (·.1 == key)

/-- `payload[key] = payload.pop(alt)`. -/
def moveKey (alt key : String) (payload : List (String × Json)) : List (String × Json) :=
  payload.filter (·.1 != alt) ++ [(key, ((Json.obj payload).get? alt).getD .null)]

/-- `_normalize_tool_payload`. -/
def normalizeToolPayload : Json → Option Json
  | .obj payload =>
    let named := ["function_name", "tool_name"].foldl
      (fun payload alt =>
        if hasKey alt payload && !hasKey "name" payload then moveKey alt "name" payload
        else payload) payload
    if !hasKey "name" named then none
    else if hasKey "input" named then some (.obj named)
    else match ["parameters", "arguments", "args", "kwargs"].find? (hasKey · named) with
      | some alt => some (.obj (moveKey alt "input" named))
      | none => some (.obj (named ++ [("input", .obj [])]))
  | _ => none

/-- The call a match is, if its text can be read and has a name. -/
def callOf (m : Delims.Match Char) : Option Json :=
  (Json.parse m.group).bind normalizeToolPayload

/-- `parse_tool_calls`. -/
def parseToolCalls (text : List Char) : List Json := (toolCallRe.findIter text).filterMap callOf

end LlmProxy.Cot
