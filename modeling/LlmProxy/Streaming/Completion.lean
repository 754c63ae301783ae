import Mathlib.Data.List.Basic

/-! # Chunks and completions

The OpenAI-shaped objects `_stream_anthropic` and `to_anthropic_response` read: the chunks of a
streamed completion and the completion they add up to. `accumulate` is what the OpenAI protocol
says a stream stands for: the texts of the deltas put together, the tool calls told apart by
their `index`, the fragments of their arguments put together, the last finish reason.
-/

namespace LlmProxy.Streaming

/-- `text or other`. -/
def orText (text : Option String) (other : String) : String :=
  match text with
  | some s => if s = "" then other else s
  | none => other

/-- `bool(text)`. -/
def given (text : Option String) : Bool := orText text "" != ""

structure Function where
  name : Option String
  arguments : Option String
  deriving DecidableEq

structure ToolCallDelta where
  index : Nat
  id : Option String
  function : Option Function
  deriving DecidableEq

structure Delta where
  content : Option String
  toolCalls : List ToolCallDelta
  deriving DecidableEq

structure ChunkChoice where
  delta : Delta
  finishReason : Option String
  deriving DecidableEq

structure Usage where
  promptTokens : Nat
  completionTokens : Nat
  cacheCreationInputTokens : Option Nat
  cacheReadInputTokens : Option Nat
  /-- `prompt_tokens_details.cached_tokens`. -/
  cachedTokens : Option Nat
  deriving DecidableEq

structure Chunk where
  id : Option String
  model : Option String
  choices : List ChunkChoice
  usage : Option Usage
  deriving DecidableEq

structure ToolCall where
  id : Option String
  function : Option Function
  deriving DecidableEq

structure Choice where
  content : Option String
  toolCalls : List ToolCall
  finishReason : Option String
  deriving DecidableEq

structure Completion where
  id : Option String
  model : Option String
  choices : List Choice
  usage : Option Usage
  deriving DecidableEq

/-! ## What a stream adds up to -/

def joinArguments (a b : Option String) : Option String :=
  match a, b with
  | some a, some b => some (a ++ b)
  | some a, none => some a
  | none, b => b

/-- A further delta of a call: the first name stands, the arguments grow. -/
def extendFunction (f : Option Function) (g : Option Function) : Option Function :=
  match f, g with
  | some f, some g =>
    some ⟨if given f.name then f.name else g.name, joinArguments f.arguments g.arguments⟩
  | some f, none => some f
  | none, g => g

def extendCall (call : ToolCall) (d : ToolCallDelta) : ToolCall :=
  ⟨if given call.id then call.id else d.id, extendFunction call.function d.function⟩

/-- A tool-call delta goes to the call of its index, or opens it. -/
def addToolDelta : List (Nat × ToolCall) → ToolCallDelta → List (Nat × ToolCall)
  | [], d => [(d.index, ⟨d.id, d.function⟩)]
  | (i, call) :: rest, d =>
    if i = d.index then (i, extendCall call d) :: rest else (i, call) :: addToolDelta rest d

/-- The choices the streamer reads: the first of every chunk that has one. -/
def firstChoices (chunks : List Chunk) : List ChunkChoice :=
  chunks.filterMap fun chunk => chunk.choices.head?

def toolDeltas (chunks : List Chunk) : List ToolCallDelta :=
  (firstChoices chunks).flatMap fun choice => choice.delta.toolCalls

def joinTexts : List String → String
  | [] => ""
  | text :: rest => text ++ joinTexts rest

def textOf (choices : List ChunkChoice) : String :=
  joinTexts (choices.map fun choice => choice.delta.content.getD "")

def lastFinish (choices : List ChunkChoice) : Option String :=
  choices.foldl (fun finish choice =>
    if given choice.finishReason then choice.finishReason else finish) none

def accumulatedChoice (chunks : List Chunk) : Choice :=
  { content := some (textOf (firstChoices chunks))
    toolCalls := ((toolDeltas chunks).foldl addToolDelta []).map Prod.snd
    finishReason := lastFinish (firstChoices chunks) }

/-- The completion a stream stands for. Without any choice in the stream there is none in it. -/
def accumulate (chunks : List Chunk) : Completion :=
  { id := chunks.head?.bind (·.id)
    model := chunks.head?.bind (·.model)
    choices := if firstChoices chunks = [] then [] else [accumulatedChoice chunks]
    usage := chunks.foldl (fun usage chunk => chunk.usage <|> usage) none }

/-- The deltas from here on are OpenAI-shaped: the first delta of a call, that is of an index
not `seen` before, carries the call's id, its function and the function's name. -/
def ShapedFrom (seen : List Nat) : List ToolCallDelta → Prop
  | [] => True
  | d :: ds =>
    (d.index ∉ seen → given d.id = true ∧ ∃ fn, d.function = some fn ∧ given fn.name = true) ∧
      ShapedFrom (d.index :: seen) ds

/-- An OpenAI-shaped stream. -/
def OpenAiShaped (chunks : List Chunk) : Prop := ShapedFrom [] (toolDeltas chunks)

end LlmProxy.Streaming
