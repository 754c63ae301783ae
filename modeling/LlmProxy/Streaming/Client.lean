import LlmProxy.Streaming.Anthropic

/-! # A client of Anthropic's event protocol

What the streamed frames mean, stated apart from how the proxy writes them: a frame is one
server-sent event whose data is a JSON object with a `type`; a content block is started once,
under the next free index, takes deltas of its own kind while it is open, and is stopped once;
`message_delta` carries the stop reason; `message_stop` ends the message, whose blocks are all
stopped by then. A stream that breaks any of this decodes to nothing.

A block's `partial_json` fragments are parsed as the proxy parses the arguments of a finished
call (`toolInput`): the comparison is of the blocks, not of two JSON parsers.
-/

namespace LlmProxy.Streaming

/-! ## Reading one event -/

def jsonMember (key : String) : Json → Option Json
  | .obj members =>
    match members.filter (·.1 = key) with
    | [m] => some m.2
    | _ => none
  | _ => none

def jsonString : Json → Option String
  | .str s => some s
  | _ => none

def jsonNat : Json → Option Nat
  | .num n => if n.text.all Char.isDigit then some (Nat.ofDigitChars 10 n.text 0) else none
  | _ => none

def stringMember (key : String) (j : Json) : Option String := (jsonMember key j).bind jsonString

inductive Draft where
  | text (text : String)
  | toolUse (id name partialJson : String)
  deriving DecidableEq

inductive BlockDelta where
  | text (text : String)
  | inputJson (fragment : String)
  deriving DecidableEq

inductive Event where
  | messageStart
  | blockStart (index : Nat) (block : Draft)
  | blockDelta (index : Nat) (delta : BlockDelta)
  | blockStop (index : Nat)
  | messageDelta (stopReason : String)
  | messageStop
  /-- An event of a type the protocol does not name: it is passed over. -/
  | other
  deriving DecidableEq

def readDraft (j : Json) : Option Draft :=
  match stringMember "type" j with
  | some "text" => (stringMember "text" j).map .text
  | some "tool_use" =>
    match stringMember "id" j, stringMember "name" j with
    | some id, some name => some (.toolUse id name "")
    | _, _ => none
  | _ => none

def readDelta (j : Json) : Option BlockDelta :=
  match stringMember "type" j with
  | some "text_delta" => (stringMember "text" j).map .text
  | some "input_json_delta" => (stringMember "partial_json" j).map .inputJson
  | _ => none

def readBlockStart (j : Json) : Option Event :=
  match (jsonMember "index" j).bind jsonNat, (jsonMember "content_block" j).bind readDraft with
  | some index, some block => some (.blockStart index block)
  | _, _ => none

def readBlockDelta (j : Json) : Option Event :=
  match (jsonMember "index" j).bind jsonNat, (jsonMember "delta" j).bind readDelta with
  | some index, some delta => some (.blockDelta index delta)
  | _, _ => none

def readMessageDelta (j : Json) : Option Event :=
  ((jsonMember "delta" j).bind (stringMember "stop_reason")).map .messageDelta

def readEvent (j : Json) : Option Event :=
  match stringMember "type" j with
  | none => none
  | some "message_start" => (jsonMember "message" j).map fun _ => .messageStart
  | some "content_block_start" => readBlockStart j
  | some "content_block_delta" => readBlockDelta j
  | some "content_block_stop" => ((jsonMember "index" j).bind jsonNat).map .blockStop
  | some "message_delta" => readMessageDelta j
  | some "message_stop" => some .messageStop
  | some _ => some .other

def frameData (frame : List Char) : Option (List Char) :=
  match frame with
  | 'd' :: 'a' :: 't' :: 'a' :: ':' :: ' ' :: rest =>
    let payload := rest.takeWhile (· ≠ '\n')
    if rest = payload ++ ['\n', '\n'] then some payload else none
  | _ => none

/-- An event named by an `event:` line is none of the protocol's own when it is the compliance
prelude; every other one is told by its data. -/
def readFrame (frame : List Char) : Option Event :=
  if "event: compliance_substitution\n".toList.isPrefixOf frame then some .other
  else ((frameData frame).bind Json.parse).bind readEvent

/-! ## Putting the message together -/

structure Slot where
  draft : Draft
  isOpen : Bool
  deriving DecidableEq

structure Client where
  started : Bool
  slots : List Slot
  stopReason : Option String
  stopped : Bool
  deriving DecidableEq

def Client.initial : Client :=
  { started := false, slots := [], stopReason := none, stopped := false }

def Draft.extend : Draft → BlockDelta → Option Draft
  | .text t, .text more => some (.text (t ++ more))
  | .toolUse id name json, .inputJson more => some (.toolUse id name (json ++ more))
  | _, _ => none

def Client.onOpen (c : Client) (index : Nat) (change : Draft → Option Slot) : Option Client :=
  match c.slots[index]? with
  | some ⟨draft, true⟩ => (change draft).map fun slot => { c with slots := c.slots.set index slot }
  | _ => none

def Client.step (c : Client) : Event → Option Client
  | .messageStart => if c.started then none else some { c with started := true }
  | .blockStart index block =>
    if c.started ∧ index = c.slots.length then
      some { c with slots := c.slots ++ [⟨block, true⟩] }
    else none
  | .blockDelta index delta => c.onOpen index fun draft => (draft.extend delta).map (⟨·, true⟩)
  | .blockStop index => c.onOpen index fun draft => some ⟨draft, false⟩
  | .messageDelta reason => if c.started then some { c with stopReason := some reason } else none
  | .messageStop =>
    if c.started ∧ ∀ slot ∈ c.slots, slot.isOpen = false then some { c with stopped := true }
    else none
  | .other => some c

def Client.feed (c : Client) : List (List Char) → Option Client
  | [] => some c
  | frame :: frames =>
    if c.stopped then some c
    else match (readFrame frame).bind c.step with
      | none => none
      | some c => c.feed frames

def Draft.finish : Draft → Block
  | .text t => .text t
  | .toolUse id name json => .toolUse id name (toolInput json)

/-- The blocks and the stop reason of a message. -/
structure Message where
  content : List Block
  stopReason : String

def Client.message (c : Client) : Option Message :=
  if c.stopped then c.stopReason.map fun reason => ⟨c.slots.map (·.draft.finish), reason⟩ else none

def decode (frames : List (List Char)) : Option Message :=
  (Client.initial.feed frames).bind Client.message

end LlmProxy.Streaming
