import LlmProxy.Lib.Dict
import LlmProxy.Lib.Json
import LlmProxy.Lib.PyStr

/-! # Cache markers of a request

`inject_cache_control` (`app/api/_cache_inject.py`) marks the last system block and the last tool,
and `_prepare_claude_oauth_request` (`app/api/_messages_streaming_oauth.py`) puts the Claude Code
block in front of the system. The upstream takes four markers in all.

> `prepared_right_iff`: the two keep to the four markers, and to themselves when they are applied
> again, exactly when what they add fits and the system is not left unmarked just below the
> threshold.

What they add can always be taken off again, and the first text is always an allowed one
(`prepared_restores`, `prepared_identified`).

Mirroring notes.
* The text of a block without one is empty; a tool definition has no blocks of its own.
* `len(json.dumps(tool))` is a parameter.
-/

namespace LlmProxy.Dispatch

/-! ## Requests -/

structure BlockHead where
  type : String
  text : String
  /-- the key `cache_control`, where it is there -/
  cacheControl : Option Json
  fields : List (String × Json)

/-- A block with the blocks of its `content`. -/
inductive PromptBlock where
  | mk (head : BlockHead) (content : List PromptBlock)

def PromptBlock.head : PromptBlock → BlockHead
  | .mk head _ => head

inductive SystemField where
  | text (text : String)
  | blocks (blocks : List PromptBlock)

inductive MessageContent where
  | text (text : String)
  | blocks (blocks : List PromptBlock)

structure PromptMessage where
  role : String
  content : MessageContent

structure PromptBody where
  system : Option SystemField
  tools : Option (List (Dict String Json))
  messages : List PromptMessage
  maxTokens : Option Json
  stream : Option Json
  rest : List (String × Json)

/-- `{"type": "ephemeral"}`. -/
def ephemeral : Json := .obj [("type", .str "ephemeral")]

def BlockHead.marked (head : BlockHead) : Bool := head.cacheControl.any Json.truthy

/-- `{**blk, "cache_control": {"type": "ephemeral"}}`. -/
def PromptBlock.mark : PromptBlock → PromptBlock
  | .mk head content => .mk { head with cacheControl := some ephemeral } content

def markTool (tool : Dict String Json) : Dict String Json := tool.set "cache_control" ephemeral

/-- `_string_to_text_block`. -/
def stringToTextBlock (s : String) : PromptBlock := .mk ⟨"text", s, none, []⟩ []

mutual

/-- `_has_cache_control`. -/
def PromptBlock.hasCacheControl : PromptBlock → Bool
  | .mk head content => head.cacheControl.isSome || anyCacheControl content

def anyCacheControl : List PromptBlock → Bool
  | [] => false
  | b :: bs => b.hasCacheControl || anyCacheControl bs

end

def toolHasCacheControl (tool : Dict String Json) : Bool := (tool.get? "cache_control").isSome

/-! ## `inject_cache_control` -/

def totalChars : List PromptBlock → Int
  | [] => 0
  | b :: bs => (if b.head.type = "text" then (b.head.text.length : Int) else 0) + totalChars bs

/-- The blocks with the last text block marked, if there is one. -/
def markLastText : List PromptBlock → Option (List PromptBlock)
  | [] => none
  | b :: bs =>
    match markLastText bs with
    | some bs' => some (b :: bs')
    | none => if b.head.type = "text" then some (b.mark :: bs) else none

def injectSystem (minChars : Int) : Option SystemField → Option (Option SystemField)
  | some (.text s) =>
    if minChars ≤ s.length then some (some (.blocks [(stringToTextBlock s).mark])) else none
  | some (.blocks bs) =>
    if bs.isEmpty || anyCacheControl bs then none
    else if minChars ≤ totalChars bs then (markLastText bs).map fun bs' => some (.blocks bs')
    else none
  | none => none

def markLastTool : List (Dict String Json) → List (Dict String Json)
  | [] => []
  | [tool] => [markTool tool]
  | tool :: tools => tool :: markLastTool tools

def markTools (dumpsLength : Dict String Json → Nat) (minChars : Int) :
    Option (List (Dict String Json)) → Option (List (Dict String Json))
  | some tools =>
    if tools.isEmpty || tools.any toolHasCacheControl then none
    else if minChars ≤ ((tools.map dumpsLength).sum : Int) then some (markLastTool tools)
    else none
  | none => none

def anthropicShapeTypes : List String :=
  ["anthropic", "anthropic-direct", "anthropic-oauth", "claude-oauth"]

/-- `inject_cache_control`. -/
def injectCacheControl (dumpsLength : Dict String Json → Nat) (body : PromptBody)
    (providerType : String) (minChars : Int) : PromptBody × Bool :=
  if providerType ∈ anthropicShapeTypes then
    let system := injectSystem minChars body.system
    let tools := markTools dumpsLength minChars body.tools
    ({ body with
        system := system.getD body.system
        tools := (tools.map some).getD body.tools },
      system.isSome || tools.isSome)
  else (body, false)

/-! ## `_prepare_claude_oauth_request` -/

def claudeCodeSysMarker : String := "You are Claude Code, Anthropic's official CLI for Claude."

def allowedSysMarkers : List String :=
  [claudeCodeSysMarker, claudeCodeSysMarker ++ ", running within the Claude Agent SDK.",
    "You are a Claude agent, built on Anthropic's Claude Agent SDK."]

def countMarked (bs : List PromptBlock) : Nat := bs.countP fun b => b.head.marked

def toolMarked (tool : Dict String Json) : Bool := (tool.get? "cache_control").any Json.truthy

def SystemField.count : SystemField → Nat
  | .text _ => 0
  | .blocks bs => countMarked bs

def MessageContent.count : MessageContent → Nat
  | .text _ => 0
  | .blocks bs => countMarked bs

/-- `_count_cache_control_markers`. -/
def countCacheControlMarkers (body : PromptBody) : Nat :=
  (body.system.map SystemField.count).getD 0 + (body.messages.map (·.content.count)).sum +
    (body.tools.getD []).countP toolMarked

def firstText : Option SystemField → String
  | some (.text s) => s
  | some (.blocks (b :: _)) => if b.head.type = "text" then b.head.text else ""
  | _ => ""

def lstrip (s : String) : String := String.ofList (s.toList.dropWhile PyStr.isSpace)

def identified (system : Option SystemField) : Bool :=
  allowedSysMarkers.any fun m => PyStr.startsWith (lstrip (firstText system)) m

def systemBlocks : Option SystemField → List PromptBlock
  | some (.text s) => [stringToTextBlock s]
  | some (.blocks bs) => bs
  | none => []

/-- `sys_already_cached`. -/
def sysAlreadyCached : Option SystemField → Bool
  | some (.blocks bs) => bs.any fun b => b.head.cacheControl.isSome
  | _ => false

/-- `_inject_claude_code_system`. -/
def injectClaudeCodeSystem (body : PromptBody) : PromptBody :=
  if identified body.system then body
  else
    let plain := stringToTextBlock claudeCodeSysMarker
    let marker :=
      if !sysAlreadyCached body.system && countCacheControlMarkers body < 4 then plain.mark
      else plain
    { body with system := some (.blocks (marker :: systemBlocks body.system)) }

def platformBaseUrl : String := "https://platform.claude.com"

def defaultMaxTokens : Json := .num ⟨['4', '0', '9', '6'], by decide, by decide⟩

/-- `_prepare_claude_oauth_request`. -/
def prepareClaudeOauthRequest (body : PromptBody) (stream : Bool) : String × PromptBody :=
  let prepared := if stream then { body with stream := some (.bool true) } else body
  let prepared := { prepared with maxTokens := some (prepared.maxTokens.getD defaultMaxTokens) }
  (platformBaseUrl ++ "/v1/messages?beta=true", injectClaudeCodeSystem prepared)

def prepared (dumpsLength : Dict String Json → Nat) (minChars : Int) (stream : Bool)
    (body : PromptBody) : PromptBody :=
  (prepareClaudeOauthRequest (injectCacheControl dumpsLength body "claude-oauth" minChars).1
    stream).2

/-! ## What is owed -/

mutual

def PromptBlock.markers : PromptBlock → Nat
  | .mk head content => (if head.marked then 1 else 0) + markersIn content

def markersIn : List PromptBlock → Nat
  | [] => 0
  | b :: bs => b.markers + markersIn bs

end

def MessageContent.markers : MessageContent → Nat
  | .text _ => 0
  | .blocks bs => markersIn bs

def PromptBody.markers (body : PromptBody) : Nat :=
  markersIn (systemBlocks body.system) + (body.messages.map (·.content.markers)).sum +
    (body.tools.getD []).countP toolMarked

/-- The list with one element marked that was not. -/
def MarksOne {α : Type} (has : α → Bool) (mark : α → α) (old new : List α) : Prop :=
  ∃ front a back, old = front ++ a :: back ∧ has a = false ∧ new = front ++ mark a :: back

/-- What is left of a list when a marker that was added is taken off again. -/
def Unmarks {α : Type} (has : α → Bool) (mark : α → α) (old new : List α) : Prop :=
  new = old ∨ MarksOne has mark old new

/-- The block the proxy puts in front. -/
def IsMarkerBlock (b : PromptBlock) : Prop :=
  b = stringToTextBlock claudeCodeSysMarker ∨ b = (stringToTextBlock claudeCodeSysMarker).mark

/-- Without the marker block, the keys that were added and the array form of the system, the
request is the one that came in. -/
structure Restores (old new : PromptBody) : Prop where
  system : ∃ lead bs, (lead = [] ∨ ∃ b, IsMarkerBlock b ∧ lead = [b]) ∧
    systemBlocks new.system = lead ++ bs ∧
    Unmarks PromptBlock.hasCacheControl PromptBlock.mark (systemBlocks old.system) bs
  tools : new.tools.isSome = old.tools.isSome ∧
    Unmarks toolHasCacheControl markTool (old.tools.getD []) (new.tools.getD [])
  messages : new.messages = old.messages
  rest : new.rest = old.rest

structure PreparedRight (dumpsLength : Dict String Json → Nat) (minChars : Int) (stream : Bool)
    (body : PromptBody) : Prop where
  budget : (prepared dumpsLength minChars stream body).markers ≤ 4
  claudeCode : (prepared dumpsLength minChars stream body).system.isSome = true ∧
    identified (prepared dumpsLength minChars stream body).system = true
  restores : Restores body (prepared dumpsLength minChars stream body)
  stable : prepared dumpsLength minChars stream (prepared dumpsLength minChars stream body) =
    prepared dumpsLength minChars stream body

/-! ## The condition -/

/-- The system is marked: nothing in it is, it has a text block, and it is long enough. -/
def longSystem (minChars : Int) (system : Option SystemField) : Bool :=
  !anyCacheControl (systemBlocks system) && (systemBlocks system).any (·.head.type = "text") &&
    decide (minChars ≤ totalChars (systemBlocks system))

/-- The tools are marked: none of them is, and they are long enough. -/
def longTools (dumpsLength : Dict String Json → Nat) (minChars : Int)
    (tools : Option (List (Dict String Json))) : Bool :=
  !(tools.getD []).isEmpty && !(tools.getD []).any toolHasCacheControl &&
    decide (minChars ≤ (((tools.getD []).map dumpsLength).sum : Int))

/-- The markers counted at the top level, with that of the tools. -/
def countedMarkers (dumpsLength : Dict String Json → Nat) (minChars : Int) (body : PromptBody) :
    Nat :=
  countCacheControlMarkers body + (longTools dumpsLength minChars body.tools).toNat

/-- The marker block is put in front with a marker of its own. -/
def marksPrefix (dumpsLength : Dict String Json → Nat) (minChars : Int) (body : PromptBody) :
    Bool :=
  !identified body.system && !longSystem minChars body.system && !sysAlreadyCached body.system &&
    decide (countedMarkers dumpsLength minChars body < 4)

/-- The system is left without any marker, and the block in front makes it long enough for one. -/
def growsLong (dumpsLength : Dict String Json → Nat) (minChars : Int) (body : PromptBody) : Bool :=
  !identified body.system && !longSystem minChars body.system &&
    !anyCacheControl (systemBlocks body.system) &&
    decide (4 ≤ countedMarkers dumpsLength minChars body) &&
    decide (minChars ≤ claudeCodeSysMarker.length + totalChars (systemBlocks body.system))

/-- The markers there are and those to be added are at most four, and the system does not grow
long. -/
def Fits4 (dumpsLength : Dict String Json → Nat) (minChars : Int) (body : PromptBody) : Prop :=
  body.markers + (longSystem minChars body.system).toNat +
      (longTools dumpsLength minChars body.tools).toNat +
      (marksPrefix dumpsLength minChars body).toNat ≤ 4 ∧
    growsLong dumpsLength minChars body = false

/-! ## Marking -/

theorem anyCacheControl_append (xs ys : List PromptBlock) :
    anyCacheControl (xs ++ ys) = (anyCacheControl xs || anyCacheControl ys) := by
  induction xs with
  | nil => rfl
  | cons x xs ih => simp only [List.cons_append, anyCacheControl, ih, Bool.or_assoc]

theorem markersIn_append (xs ys : List PromptBlock) :
    markersIn (xs ++ ys) = markersIn xs + markersIn ys := by
  induction xs with
  | nil => simp [markersIn]
  | cons x xs ih => simp only [List.cons_append, markersIn, ih, Nat.add_assoc]

theorem markers_mark {b : PromptBlock} (h : b.hasCacheControl = false) :
    b.mark.markers = b.markers + 1 := by
  obtain ⟨head, content⟩ := b
  unfold PromptBlock.hasCacheControl at h
  have hnone : head.cacheControl = none :=
    Option.isSome_eq_false_iff.mp (Bool.or_eq_false_iff.mp h).1 |> Option.isNone_iff_eq_none.mp
  have hplain : head.marked = false := by
    unfold BlockHead.marked
    rw [hnone]
    rfl
  have hmarked : BlockHead.marked { head with cacheControl := some ephemeral } = true := rfl
  simp only [PromptBlock.mark, PromptBlock.markers, hplain, hmarked, Bool.false_eq_true, if_true,
    if_false]
  omega

theorem hasCacheControl_mark (b : PromptBlock) : b.mark.hasCacheControl = true := by
  obtain ⟨head, content⟩ := b
  rfl

theorem marked_mark (b : PromptBlock) : b.mark.head.marked = true := by
  obtain ⟨head, content⟩ := b
  rfl

@[simp] theorem type_mark (b : PromptBlock) : b.mark.head.type = b.head.type := by
  obtain ⟨head, content⟩ := b
  rfl

@[simp] theorem text_mark (b : PromptBlock) : b.mark.head.text = b.head.text := by
  obtain ⟨head, content⟩ := b
  rfl

theorem marked_of_not_has {b : PromptBlock} (h : b.hasCacheControl = false) :
    b.head.marked = false := by
  obtain ⟨head, content⟩ := b
  unfold PromptBlock.hasCacheControl at h
  have hnone := (Bool.or_eq_false_iff.mp h).1
  unfold PromptBlock.head BlockHead.marked
  cases hkey : head.cacheControl with
  | none => rfl
  | some value =>
    rw [hkey] at hnone
    cases hnone

section

variable {old new : List PromptBlock}

theorem MarksOne.markersIn_eq
    (h : MarksOne PromptBlock.hasCacheControl PromptBlock.mark old new) :
    markersIn new = markersIn old + 1 := by
  obtain ⟨front, b, back, rfl, hplain, rfl⟩ := h
  rw [markersIn_append, markersIn_append, markersIn, markersIn, markers_mark hplain]
  omega

theorem MarksOne.countMarked_eq
    (h : MarksOne PromptBlock.hasCacheControl PromptBlock.mark old new) :
    countMarked new = countMarked old + 1 := by
  obtain ⟨front, b, back, rfl, hplain, rfl⟩ := h
  simp only [countMarked, List.countP_append, List.countP_cons, marked_mark,
    marked_of_not_has hplain, Bool.false_eq_true, if_true, if_false]
  omega

theorem MarksOne.anyCacheControl_eq
    (h : MarksOne PromptBlock.hasCacheControl PromptBlock.mark old new) :
    anyCacheControl new = true := by
  obtain ⟨front, b, back, -, -, rfl⟩ := h
  rw [anyCacheControl_append, anyCacheControl, hasCacheControl_mark]
  simp

theorem MarksOne.firstText_eq
    (h : MarksOne PromptBlock.hasCacheControl PromptBlock.mark old new) :
    firstText (some (.blocks new)) = firstText (some (.blocks old)) := by
  obtain ⟨front, b, back, rfl, -, rfl⟩ := h
  cases front with
  | nil => simp [firstText]
  | cons c front => rfl

end

theorem markLastText_some {bs bs' : List PromptBlock} (h : markLastText bs = some bs')
    (hplain : anyCacheControl bs = false) :
    MarksOne PromptBlock.hasCacheControl PromptBlock.mark bs bs' := by
  induction bs generalizing bs' with
  | nil => cases h
  | cons b bs ih =>
    rw [anyCacheControl, Bool.or_eq_false_iff] at hplain
    unfold markLastText at h
    split at h
    · next rest hrest =>
      obtain ⟨front, a, back, hbs, ha, hrest⟩ := ih hrest hplain.2
      exact ⟨b :: front, a, back, by rw [hbs]; rfl, ha, by rw [← Option.some.inj h, hrest]; rfl⟩
    · split at h
      · exact ⟨[], b, bs, rfl, hplain.1, (Option.some.inj h).symm⟩
      · cases h

theorem isSome_markLastText (bs : List PromptBlock) :
    (markLastText bs).isSome = bs.any (·.head.type = "text") := by
  induction bs with
  | nil => rfl
  | cons b bs ih =>
    rw [List.any_cons, ← ih, markLastText]
    cases markLastText bs with
    | some bs' => simp
    | none =>
      by_cases htext : b.head.type = "text"
      · simp [htext]
      · simp [htext]

theorem markLastTool_eq {tools : List (Dict String Json)} (h : tools ≠ []) :
    ∃ front tool, tools = front ++ [tool] ∧ markLastTool tools = front ++ [markTool tool] := by
  induction tools with
  | nil => exact absurd rfl h
  | cons tool tools ih =>
    cases tools with
    | nil => exact ⟨[], tool, rfl, rfl⟩
    | cons next tools =>
      obtain ⟨front, last, htools, hmarked⟩ := ih (List.cons_ne_nil _ _)
      have hstep : markLastTool (tool :: next :: tools) = tool :: markLastTool (next :: tools) := rfl
      exact ⟨tool :: front, last, by rw [htools]; rfl, by rw [hstep, hmarked]; rfl⟩

/-! ## The marked system and the marked tools -/

/-- The system `inject_cache_control` leaves. -/
def markedSystem (minChars : Int) (system : Option SystemField) : Option SystemField :=
  (injectSystem minChars system).getD system

def markedTools (dumpsLength : Dict String Json → Nat) (minChars : Int)
    (tools : Option (List (Dict String Json))) : Option (List (Dict String Json)) :=
  ((markTools dumpsLength minChars tools).map some).getD tools

section

variable {minChars : Int} {system : Option SystemField}

theorem injectSystem_some {system' : Option SystemField}
    (h : injectSystem minChars system = some system') :
    ∃ bs, system' = some (.blocks bs) ∧
      MarksOne PromptBlock.hasCacheControl PromptBlock.mark (systemBlocks system) bs := by
  match system with
  | none => cases h
  | some (.text s) =>
    rw [injectSystem] at h
    split at h
    · exact ⟨_, (Option.some.inj h).symm, [], _, [], rfl, rfl, rfl⟩
    · cases h
  | some (.blocks bs) =>
    rw [injectSystem] at h
    split at h
    · cases h
    · next hplain =>
      rw [Bool.not_eq_true, Bool.or_eq_false_iff] at hplain
      split at h
      · obtain ⟨bs', hmarked, rfl⟩ := Option.map_eq_some_iff.mp h
        exact ⟨bs', rfl, markLastText_some hmarked hplain.2⟩
      · cases h

theorem isSome_injectSystem :
    (injectSystem minChars system).isSome = longSystem minChars system := by
  match system with
  | none => rfl
  | some (.text s) =>
    have hchars : totalChars [stringToTextBlock s] = s.length := by
      simp [totalChars, stringToTextBlock, PromptBlock.head]
    rw [injectSystem, longSystem, systemBlocks, hchars]
    by_cases hlong : minChars ≤ s.length
    · simp [hlong, anyCacheControl, PromptBlock.hasCacheControl, stringToTextBlock,
        PromptBlock.head]
    · simp [hlong]
  | some (.blocks bs) =>
    rw [injectSystem, longSystem, systemBlocks]
    cases hbs : bs with
    | nil => simp
    | cons b rest =>
      rw [← hbs]
      have hne : bs.isEmpty = false := by rw [hbs]; rfl
      rw [hne, Bool.false_or]
      cases hcc : anyCacheControl bs with
      | true => simp
      | false =>
        by_cases hlong : minChars ≤ totalChars bs
        · simp [hlong, isSome_markLastText]
        · simp [hlong]

theorem markedSystem_cases :
    (longSystem minChars system = false ∧ markedSystem minChars system = system) ∨
      (longSystem minChars system = true ∧
        ∃ bs, markedSystem minChars system = some (.blocks bs) ∧
          MarksOne PromptBlock.hasCacheControl PromptBlock.mark (systemBlocks system) bs) := by
  rw [← isSome_injectSystem]
  unfold markedSystem
  cases hinject : injectSystem minChars system with
  | none => exact .inl ⟨rfl, rfl⟩
  | some system' =>
    obtain ⟨bs, rfl, hone⟩ := injectSystem_some hinject
    exact .inr ⟨rfl, bs, rfl, hone⟩

theorem firstText_systemBlocks :
    firstText (some (.blocks (systemBlocks system))) = firstText system := by
  match system with
  | none => rfl
  | some (.text s) => rfl
  | some (.blocks bs) => rfl

theorem identified_markedSystem :
    identified (markedSystem minChars system) = identified system := by
  obtain ⟨-, heq⟩ | ⟨-, bs, heq, hone⟩ := @markedSystem_cases minChars system
  · rw [heq]
  · unfold identified
    rw [heq, hone.firstText_eq, firstText_systemBlocks]

theorem markersIn_markedSystem :
    markersIn (systemBlocks (markedSystem minChars system)) =
      markersIn (systemBlocks system) + (longSystem minChars system).toNat := by
  obtain ⟨hlong, heq⟩ | ⟨hlong, bs, heq, hone⟩ := @markedSystem_cases minChars system
  · rw [heq, hlong]
    rfl
  · rw [heq, hlong, systemBlocks, hone.markersIn_eq]
    rfl

theorem count_systemBlocks : (system.map SystemField.count).getD 0 =
    countMarked (systemBlocks system) := by
  match system with
  | none => rfl
  | some (.text s) => rfl
  | some (.blocks bs) => rfl

theorem countMarked_markedSystem :
    countMarked (systemBlocks (markedSystem minChars system)) =
      countMarked (systemBlocks system) + (longSystem minChars system).toNat := by
  obtain ⟨hlong, heq⟩ | ⟨hlong, bs, heq, hone⟩ := @markedSystem_cases minChars system
  · rw [heq, hlong]
    rfl
  · rw [heq, hlong, systemBlocks, hone.countMarked_eq]
    rfl

theorem anyCacheControl_markedSystem :
    anyCacheControl (systemBlocks (markedSystem minChars system)) =
      (anyCacheControl (systemBlocks system) || longSystem minChars system) := by
  obtain ⟨hlong, heq⟩ | ⟨hlong, bs, heq, hone⟩ := @markedSystem_cases minChars system
  · rw [heq, hlong, Bool.or_false]
  · rw [heq, hlong, systemBlocks, hone.anyCacheControl_eq, Bool.or_true]

theorem sysAlreadyCached_markedSystem :
    sysAlreadyCached (markedSystem minChars system) =
      (sysAlreadyCached system || longSystem minChars system) := by
  obtain ⟨hlong, heq⟩ | ⟨hlong, bs, heq, front, b, back, -, -, hbs⟩ :=
    @markedSystem_cases minChars system
  · rw [heq, hlong, Bool.or_false]
  · have hkey : b.mark.head.cacheControl.isSome = true := by
      obtain ⟨head, content⟩ := b
      rfl
    rw [heq, hlong, Bool.or_true, sysAlreadyCached, hbs]
    simp [hkey]

theorem unmarks_markedSystem :
    Unmarks PromptBlock.hasCacheControl PromptBlock.mark (systemBlocks system)
      (systemBlocks (markedSystem minChars system)) := by
  obtain ⟨-, heq⟩ | ⟨-, bs, heq, hone⟩ := @markedSystem_cases minChars system
  · rw [heq]
    exact .inl rfl
  · rw [heq]
    exact .inr hone

theorem sysAlreadyCached_of_plain (h : anyCacheControl (systemBlocks system) = false) :
    sysAlreadyCached system = false := by
  match system with
  | none => rfl
  | some (.text s) => rfl
  | some (.blocks bs) =>
    rw [systemBlocks] at h
    rw [sysAlreadyCached]
    induction bs with
    | nil => rfl
    | cons b bs ih =>
      obtain ⟨head, content⟩ := b
      rw [anyCacheControl, Bool.or_eq_false_iff, PromptBlock.hasCacheControl,
        Bool.or_eq_false_iff] at h
      rw [List.any_cons, ih h.2, Bool.or_false]
      exact h.1.1

theorem longSystem_markedSystem : longSystem minChars (markedSystem minChars system) = false := by
  obtain ⟨hlong, heq⟩ | ⟨-, bs, heq, hone⟩ := @markedSystem_cases minChars system
  · rw [heq, hlong]
  · rw [heq, longSystem, systemBlocks, hone.anyCacheControl_eq]
    rfl

theorem markedSystem_eq_iff :
    markedSystem minChars system = system ↔ longSystem minChars system = false := by
  obtain ⟨hlong, heq⟩ | ⟨hlong, bs, heq, hone⟩ := @markedSystem_cases minChars system
  · exact ⟨fun _ => hlong, fun _ => heq⟩
  · refine ⟨fun h => ?_, fun h => absurd (hlong.symm.trans h) Bool.true_eq_false.mp⟩
    rw [← h]
    exact longSystem_markedSystem

end

section

variable {dumpsLength : Dict String Json → Nat} {minChars : Int}
  {tools : Option (List (Dict String Json))}

theorem markTools_some {tools' : List (Dict String Json)}
    (h : markTools dumpsLength minChars tools = some tools') :
    tools.isSome = true ∧ MarksOne toolHasCacheControl markTool (tools.getD []) tools' := by
  cases tools with
  | none => cases h
  | some tools =>
    rw [markTools] at h
    split at h
    · cases h
    · next hplain =>
      rw [Bool.not_eq_true, Bool.or_eq_false_iff] at hplain
      split at h
      · have hne : tools ≠ [] := by
          rintro rfl
          cases hplain.1
        obtain ⟨front, tool, htools, hmarked⟩ := markLastTool_eq hne
        have htool : toolHasCacheControl tool = false := by
          have hall := List.any_eq_false.mp hplain.2 tool (by rw [htools]; simp)
          exact Bool.eq_false_iff.mpr hall
        refine ⟨rfl, front, tool, [], htools, htool, ?_⟩
        rw [← Option.some.inj h, hmarked]
      · cases h

theorem isSome_markTools :
    (markTools dumpsLength minChars tools).isSome = longTools dumpsLength minChars tools := by
  cases tools with
  | none => rfl
  | some tools =>
    rw [markTools, longTools, Option.getD_some]
    cases tools.isEmpty with
    | true => rfl
    | false =>
      rw [Bool.false_or]
      cases tools.any toolHasCacheControl with
      | true => rfl
      | false =>
        by_cases hlong : minChars ≤ ((tools.map dumpsLength).sum : Int)
        · rw [if_neg Bool.false_ne_true, if_pos hlong, decide_eq_true hlong]
          rfl
        · rw [if_neg Bool.false_ne_true, if_neg hlong, decide_eq_false hlong]
          rfl

theorem markedTools_cases :
    (longTools dumpsLength minChars tools = false ∧
        markedTools dumpsLength minChars tools = tools) ∨
      (longTools dumpsLength minChars tools = true ∧ tools.isSome = true ∧
        ∃ tools', markedTools dumpsLength minChars tools = some tools' ∧
          MarksOne toolHasCacheControl markTool (tools.getD []) tools') := by
  rw [← isSome_markTools]
  unfold markedTools
  cases hinject : markTools dumpsLength minChars tools with
  | none => exact .inl ⟨rfl, rfl⟩
  | some tools' => exact .inr ⟨rfl, (markTools_some hinject).1, tools', rfl,
      (markTools_some hinject).2⟩

theorem toolMarked_markTool (tool : Dict String Json) : toolMarked (markTool tool) = true := by
  unfold toolMarked markTool
  rw [Dict.get?_set_self]
  rfl

theorem toolHasCacheControl_markTool (tool : Dict String Json) :
    toolHasCacheControl (markTool tool) = true := by
  unfold toolHasCacheControl markTool
  rw [Dict.get?_set_self]
  rfl

theorem toolMarked_of_not_has {tool : Dict String Json} (h : toolHasCacheControl tool = false) :
    toolMarked tool = false := by
  unfold toolHasCacheControl at h
  unfold toolMarked
  rw [Option.isSome_eq_false_iff, Option.isNone_iff_eq_none] at h
  rw [h]
  rfl

theorem countP_markedTools :
    ((markedTools dumpsLength minChars tools).getD []).countP toolMarked =
      (tools.getD []).countP toolMarked + (longTools dumpsLength minChars tools).toNat := by
  obtain ⟨hlong, heq⟩ | ⟨hlong, -, tools', heq, front, tool, back, hold, hplain, hnew⟩ :=
    @markedTools_cases dumpsLength minChars tools
  · rw [heq, hlong]
    rfl
  · rw [heq, hlong, Option.getD_some, hold, hnew]
    simp only [List.countP_append, List.countP_cons, toolMarked_markTool,
      toolMarked_of_not_has hplain, Bool.toNat_true, Bool.false_eq_true, if_true, if_false]
    omega

theorem unmarks_markedTools :
    (markedTools dumpsLength minChars tools).isSome = tools.isSome ∧
      Unmarks toolHasCacheControl markTool (tools.getD [])
        ((markedTools dumpsLength minChars tools).getD []) := by
  obtain ⟨-, heq⟩ | ⟨-, hsome, tools', heq, hone⟩ :=
    @markedTools_cases dumpsLength minChars tools
  · rw [heq]
    exact ⟨rfl, .inl rfl⟩
  · rw [heq, hsome]
    exact ⟨rfl, .inr hone⟩

theorem markedTools_markedTools :
    markedTools dumpsLength minChars (markedTools dumpsLength minChars tools) =
      markedTools dumpsLength minChars tools := by
  obtain ⟨-, heq⟩ | ⟨-, -, tools', heq, front, tool, back, -, -, hnew⟩ :=
    @markedTools_cases dumpsLength minChars tools
  · rw [heq, heq]
  · have hkeyed : tools'.any toolHasCacheControl = true := by
      rw [hnew]
      simp [toolHasCacheControl_markTool]
    rw [heq]
    unfold markedTools markTools
    simp [hkeyed]

end

/-! ## The prepared request -/

/-- The block in front of the system, with a marker of its own or without. -/
def markerBlock (mark : Bool) : PromptBlock :=
  if mark then (stringToTextBlock claudeCodeSysMarker).mark
  else stringToTextBlock claudeCodeSysMarker

def preparedSystem (dumpsLength : Dict String Json → Nat) (minChars : Int) (body : PromptBody) :
    Option SystemField :=
  if identified body.system then markedSystem minChars body.system
  else some (.blocks (markerBlock (marksPrefix dumpsLength minChars body) ::
    systemBlocks (markedSystem minChars body.system)))

theorem isMarkerBlock_markerBlock (mark : Bool) : IsMarkerBlock (markerBlock mark) := by
  cases mark with
  | false => exact .inl rfl
  | true => exact .inr rfl

theorem markers_markerBlock (mark : Bool) : (markerBlock mark).markers = mark.toNat := by
  cases mark with
  | false => rfl
  | true => rfl

theorem hasCacheControl_markerBlock (mark : Bool) : (markerBlock mark).hasCacheControl = mark := by
  cases mark with
  | false => rfl
  | true => rfl

theorem identified_markerBlock (mark : Bool) (bs : List PromptBlock) :
    identified (some (.blocks (markerBlock mark :: bs))) = true := by
  have htext : firstText (some (.blocks (markerBlock mark :: bs))) = claudeCodeSysMarker := by
    cases mark with
    | false => rfl
    | true => rfl
  unfold identified
  rw [htext]
  decide +kernel

section

variable {dumpsLength : Dict String Json → Nat} {minChars : Int} {stream : Bool}
  {body : PromptBody}

theorem injectCacheControl_eq :
    (injectCacheControl dumpsLength body "claude-oauth" minChars).1 =
      { body with
        system := markedSystem minChars body.system
        tools := markedTools dumpsLength minChars body.tools } := by
  unfold injectCacheControl
  rw [if_pos (by decide)]
  rfl

theorem countCacheControlMarkers_eq : countCacheControlMarkers body =
    countMarked (systemBlocks body.system) + (body.messages.map (·.content.count)).sum +
      (body.tools.getD []).countP toolMarked := by
  unfold countCacheControlMarkers
  rw [count_systemBlocks]

section

variable (maxTokens streamKey : Option Json)

def markedBody (dumpsLength : Dict String Json → Nat) (minChars : Int) (body : PromptBody)
    (maxTokens streamKey : Option Json) : PromptBody :=
  { body with
    system := markedSystem minChars body.system
    tools := markedTools dumpsLength minChars body.tools
    maxTokens := maxTokens
    stream := streamKey }

theorem count_markedBody (hlong : longSystem minChars body.system = false) :
    countCacheControlMarkers (markedBody dumpsLength minChars body maxTokens streamKey) =
      countedMarkers dumpsLength minChars body := by
  rw [countedMarkers, countCacheControlMarkers_eq, countCacheControlMarkers_eq]
  simp only [markedBody, countMarked_markedSystem, countP_markedTools, hlong, Bool.toNat_false]
  omega

theorem injectClaudeCodeSystem_markedBody :
    injectClaudeCodeSystem (markedBody dumpsLength minChars body maxTokens streamKey) =
      { markedBody dumpsLength minChars body maxTokens streamKey with
        system := preparedSystem dumpsLength minChars body } := by
  have hsystem : (markedBody dumpsLength minChars body maxTokens streamKey).system =
      markedSystem minChars body.system := rfl
  unfold injectClaudeCodeSystem preparedSystem
  rw [hsystem, identified_markedSystem]
  cases hid : identified body.system with
  | true =>
    rw [if_pos rfl, if_pos rfl]
    rfl
  | false =>
    have hmark : (!sysAlreadyCached (markedSystem minChars body.system) &&
        countCacheControlMarkers (markedBody dumpsLength minChars body maxTokens streamKey) < 4) =
          marksPrefix dumpsLength minChars body := by
      unfold marksPrefix
      rw [sysAlreadyCached_markedSystem, hid]
      cases hlong : longSystem minChars body.system with
      | true => simp
      | false =>
        rw [count_markedBody _ _ hlong]
        simp
    simp only [hmark]
    rfl

end

theorem prepared_eq : prepared dumpsLength minChars stream body =
    { body with
      system := preparedSystem dumpsLength minChars body
      tools := markedTools dumpsLength minChars body.tools
      maxTokens := some (body.maxTokens.getD defaultMaxTokens)
      stream := if stream then some (.bool true) else body.stream } := by
  have hsent : (prepared dumpsLength minChars stream body) =
      injectClaudeCodeSystem (markedBody dumpsLength minChars body
        (some (body.maxTokens.getD defaultMaxTokens))
        (if stream then some (.bool true) else body.stream)) := by
    unfold prepared prepareClaudeOauthRequest
    rw [injectCacheControl_eq]
    cases stream with
    | false => rfl
    | true => rfl
  rw [hsent]
  exact injectClaudeCodeSystem_markedBody (some (body.maxTokens.getD defaultMaxTokens))
    (if stream then some (.bool true) else body.stream)

theorem markers_prepared : (prepared dumpsLength minChars stream body).markers =
    body.markers + (longSystem minChars body.system).toNat +
      (longTools dumpsLength minChars body.tools).toNat +
      (marksPrefix dumpsLength minChars body).toNat := by
  have hsystem : markersIn (systemBlocks (preparedSystem dumpsLength minChars body)) =
      markersIn (systemBlocks body.system) + (longSystem minChars body.system).toNat +
        (marksPrefix dumpsLength minChars body).toNat := by
    unfold preparedSystem
    cases hid : identified body.system with
    | true =>
      have hnone : marksPrefix dumpsLength minChars body = false := by
        unfold marksPrefix
        rw [hid]
        rfl
      rw [if_pos rfl, markersIn_markedSystem, hnone]
      rfl
    | false =>
      rw [if_neg Bool.false_ne_true, systemBlocks, markersIn, markers_markerBlock,
        markersIn_markedSystem]
      omega
  rw [prepared_eq, PromptBody.markers, PromptBody.markers, hsystem, countP_markedTools]
  simp only
  omega

theorem isSome_preparedSystem :
    (preparedSystem dumpsLength minChars body).isSome = true := by
  unfold preparedSystem
  split
  · next hid =>
    rw [← @identified_markedSystem minChars] at hid
    cases hsystem : markedSystem minChars body.system with
    | none =>
      rw [hsystem] at hid
      exact absurd hid (by decide +kernel)
    | some system => rfl
  · rfl

theorem prepared_identified :
    (prepared dumpsLength minChars stream body).system.isSome = true ∧
      identified (prepared dumpsLength minChars stream body).system = true := by
  rw [prepared_eq]
  refine ⟨isSome_preparedSystem, ?_⟩
  show identified (preparedSystem dumpsLength minChars body) = true
  unfold preparedSystem
  split
  · next hid => rw [identified_markedSystem, hid]
  · exact identified_markerBlock _ _

theorem prepared_restores : Restores body (prepared dumpsLength minChars stream body) := by
  rw [prepared_eq]
  refine ⟨?_, unmarks_markedTools, rfl, rfl⟩
  show ∃ lead bs, _ ∧ systemBlocks (preparedSystem dumpsLength minChars body) = lead ++ bs ∧ _
  unfold preparedSystem
  split
  · exact ⟨[], _, .inl rfl, rfl, unmarks_markedSystem⟩
  · exact ⟨[_], _, .inr ⟨_, isMarkerBlock_markerBlock _, rfl⟩, rfl, unmarks_markedSystem⟩

theorem longSystem_preparedSystem :
    longSystem minChars (preparedSystem dumpsLength minChars body) =
      growsLong dumpsLength minChars body := by
  unfold preparedSystem growsLong
  cases hid : identified body.system with
  | true =>
    rw [if_pos rfl, longSystem_markedSystem]
    rfl
  | false =>
    have htype : (markerBlock (marksPrefix dumpsLength minChars body)).head.type = "text" := by
      unfold markerBlock
      split
      · rfl
      · rfl
    have htext : (markerBlock (marksPrefix dumpsLength minChars body)).head.text =
        claudeCodeSysMarker := by
      unfold markerBlock
      split
      · rfl
      · rfl
    rw [if_neg Bool.false_ne_true, longSystem, systemBlocks, anyCacheControl,
      hasCacheControl_markerBlock, anyCacheControl_markedSystem, List.any_cons, totalChars, htype,
      htext, if_pos rfl]
    cases hlong : longSystem minChars body.system with
    | true => simp
    | false =>
      have hsame : markedSystem minChars body.system = body.system :=
        markedSystem_eq_iff.mpr hlong
      cases hplain : anyCacheControl (systemBlocks body.system) with
      | true => simp
      | false =>
        have hnot : sysAlreadyCached body.system = false := sysAlreadyCached_of_plain hplain
        have hmarks : marksPrefix dumpsLength minChars body =
            decide (countedMarkers dumpsLength minChars body < 4) := by
          unfold marksPrefix
          rw [hid, hlong, hnot]
          simp
        have hfour : decide (4 ≤ countedMarkers dumpsLength minChars body) =
            !decide (countedMarkers dumpsLength minChars body < 4) := by
          rw [← decide_not, decide_eq_decide]
          omega
        rw [hsame, hmarks, hfour]
        simp

/-- A second preparation leaves the request as it is exactly when the system has not grown long. -/
theorem prepared_stable_iff :
    prepared dumpsLength minChars stream (prepared dumpsLength minChars stream body) =
        prepared dumpsLength minChars stream body ↔
      growsLong dumpsLength minChars body = false := by
  rw [← longSystem_preparedSystem, ← markedSystem_eq_iff]
  have hid : identified (preparedSystem dumpsLength minChars body) = true := by
    have h := (@prepared_identified dumpsLength minChars stream body).2
    rwa [prepared_eq] at h
  have hsystem : preparedSystem dumpsLength minChars (prepared dumpsLength minChars stream body) =
      markedSystem minChars (preparedSystem dumpsLength minChars body) := by
    rw [prepared_eq]
    unfold preparedSystem
    exact if_pos hid
  rw [@prepared_eq _ _ _ (prepared dumpsLength minChars stream body), hsystem]
  rw [prepared_eq]
  simp only [PromptBody.mk.injEq, markedTools_markedTools, Option.getD_some, true_and, and_true]
  refine and_iff_left ?_
  split
  · rfl
  · rfl

theorem preparedRight_of_fits (h : Fits4 dumpsLength minChars body) :
    PreparedRight dumpsLength minChars stream body where
  budget := by
    rw [markers_prepared]
    exact h.1
  claudeCode := prepared_identified
  restores := prepared_restores
  stable := prepared_stable_iff.mpr h.2

theorem fits_of_preparedRight (h : PreparedRight dumpsLength minChars stream body) :
    Fits4 dumpsLength minChars body := by
  have hbudget := h.budget
  rw [markers_prepared] at hbudget
  exact ⟨hbudget, prepared_stable_iff.mp h.stable⟩

end

/-- For every request, threshold and stream flag. -/
theorem prepared_right_iff (dumpsLength : Dict String Json → Nat) (minChars : Int) (stream : Bool)
    (body : PromptBody) :
    PreparedRight dumpsLength minChars stream body ↔ Fits4 dumpsLength minChars body :=
  ⟨fits_of_preparedRight, preparedRight_of_fits⟩

/-! ## A request that has four -/

def keptBlock : PromptBlock := .mk ⟨"text", "kept", some ephemeral, []⟩ []

/-- Four markers in the messages, and a system of a few words. -/
def fourMarked : PromptBody where
  system := some (.text "Answer in French.")
  tools := none
  messages := [⟨"user", .blocks [keptBlock, keptBlock, keptBlock, keptBlock]⟩]
  maxTokens := none
  stream := none
  rest := []

/-- The system gets a fifth. -/
theorem fourMarked_overflows :
    fourMarked.markers ≤ 4 ∧ ¬ PreparedRight (fun _ => 0) 0 false fourMarked := by
  refine ⟨by decide +kernel, fun h => ?_⟩
  have hfits := fits_of_preparedRight h
  exact absurd hfits.1 (by decide +kernel)

end LlmProxy.Dispatch
