import LlmProxy.Lib.JsonText
import LlmProxy.Streaming.Completion

/-! # The two translations to Anthropic's format

`to_anthropic_response` of `app/cot/sse.py` and `_stream_anthropic` of
`app/api/_messages_streaming.py`.

The streamer writes its frames as text, with `json.dumps(..)[1:-1]` around text and argument
fragments only: `raw` below is a value put between quotes as it is, `Json.quote` an escaped one.
The last `yield` of the source writes two events at once; here every element of the list is one
server-sent event. What the streamer records elsewhere (timing, memory extraction, the response
cache, the provider's outcome) is left out.
-/

namespace LlmProxy.Streaming

open Json (raw objectText)

inductive Block where
  | text (text : String)
  | toolUse (id name : String) (input : Json)

/-- `FINISH_TO_STOP`. -/
def finishToStop : List (String × String) :=
  [("stop", "end_turn"), ("length", "max_tokens"), ("tool_calls", "tool_use"),
    ("function_call", "tool_use"), ("content_filter", "end_turn"), ("end_turn", "end_turn"),
    ("max_tokens", "max_tokens"), ("tool_use", "tool_use"), ("stop_sequence", "stop_sequence"),
    ("MAX_TOKENS", "max_tokens"), ("STOP", "end_turn"), ("SAFETY", "end_turn"),
    ("RECITATION", "end_turn")]

/-- `FINISH_TO_STOP.get(finish, "end_turn")`. -/
def stopReasonOf (finish : String) : String :=
  match finishToStop.find? (·.1 = finish) with
  | some entry => entry.2
  | none => "end_turn"

/-- `(cache_creation, cache_read)` of a usage object. -/
def extractCacheTokens (usage : Usage) : Nat × Nat :=
  let creation := usage.cacheCreationInputTokens.getD 0
  let read := usage.cacheReadInputTokens.getD 0
  (creation, if read = 0 then usage.cachedTokens.getD 0 else read)

/-! ## The whole completion at once -/

structure Response where
  id : String
  content : List Block
  model : String
  stopReason : String
  inputTokens : Nat
  outputTokens : Nat
  cacheCreation : Nat
  cacheRead : Nat

/-- `json.loads(arguments or "{}")`, and `{}` where the text is no JSON. -/
def toolInput (arguments : String) : Json :=
  match Json.parse (if arguments = "" then ['{', '}'] else arguments.toList) with
  | some input => input
  | none => .obj []

/-- The `tool_use` block of a call; a call without a function has none. `tokenHex` is
`secrets.token_hex(8)`, for a call without an id. -/
def toolBlock (tokenHex : String) (call : ToolCall) : Option Block :=
  call.function.map fun fn =>
    .toolUse (orText call.id ("toolu_" ++ tokenHex)) (fn.name.getD "")
      (toolInput (fn.arguments.getD ""))

/-- The draws of `secrets.token_hex` are told apart by the position of the call. -/
def toolBlocks (tokenHex : Nat → String) (calls : List ToolCall) : List Block :=
  calls.zipIdx.filterMap fun (call, position) => toolBlock (tokenHex position) call

def contentBlocks (tokenHex : Nat → String) (choice : Choice) : List Block :=
  let text := choice.content.getD ""
  let content := (if text = "" then [] else [Block.text text]) ++
    toolBlocks tokenHex choice.toolCalls
  if content.isEmpty then [.text ""] else content

/-- `to_anthropic_response`. -/
def toAnthropicResponse (tokenHex : Nat → String) (response : Completion) : Except String Response :=
  match response.choices with
  | [] => .error ("upstream returned no choices — likely safety-block or refusal " ++
      "(no content generated)")
  | choice :: _ =>
    let cache := (response.usage.map extractCacheTokens).getD (0, 0)
    .ok
      { id := orText response.id "msg_proxy"
        content := contentBlocks tokenHex choice
        model := orText response.model "unknown"
        stopReason := stopReasonOf (orText choice.finishReason "stop")
        inputTokens := (response.usage.map (·.promptTokens)).getD 0
        outputTokens := (response.usage.map (·.completionTokens)).getD 0
        cacheCreation := cache.1
        cacheRead := cache.2 }

/-! ## The frames of the stream -/

def number (n : Nat) : List Char := Nat.toDigits 10 n

def dataFrame (payload : List Char) : List Char := "data: ".toList ++ (payload ++ ['\n', '\n'])

def messageStartPayload (model : String) : List Char :=
  objectText
    [("type", raw "message_start"),
      ("message", objectText
        [("id", raw "msg_proxy"), ("type", raw "message"), ("role", raw "assistant"),
          ("content", "[]".toList), ("model", raw model), ("stop_reason", "null".toList),
          ("stop_sequence", "null".toList),
          ("usage", objectText [("input_tokens", number 0), ("output_tokens", number 0)])])]

def toolStartPayload (id name : String) : List Char :=
  objectText
    [("type", raw "content_block_start"), ("index", number 0),
      ("content_block", objectText
        [("type", raw "tool_use"), ("id", raw id), ("name", raw name), ("input", objectText [])])]

def inputJsonPayload (fragment : String) : List Char :=
  objectText
    [("type", raw "content_block_delta"), ("index", number 0),
      ("delta", objectText
        [("type", raw "input_json_delta"), ("partial_json", Json.quote fragment)])]

def textStartPayload : List Char :=
  objectText
    [("type", raw "content_block_start"), ("index", number 0),
      ("content_block", objectText [("type", raw "text"), ("text", raw "")])]

def textDeltaPayload (text : String) : List Char :=
  objectText
    [("type", raw "content_block_delta"), ("index", number 0),
      ("delta", objectText [("type", raw "text_delta"), ("text", Json.quote text)])]

def blockStopPayload : List Char :=
  objectText [("type", raw "content_block_stop"), ("index", number 0)]

/-- A counter of the closing frame that is written only when it is not zero. -/
def counted (key : String) (n : Nat) : List (String × List Char) :=
  if n = 0 then [] else [(key, number n)]

def messageDeltaPayload (stopReason : String) (inputTokens outputTokens cacheCreation
    cacheRead : Nat) : List Char :=
  objectText
    [("type", raw "message_delta"),
      ("delta", objectText [("stop_reason", raw stopReason), ("stop_sequence", "null".toList)]),
      ("usage", objectText (("output_tokens", number outputTokens) ::
        (counted "input_tokens" inputTokens ++
          (counted "cache_creation_input_tokens" cacheCreation ++
            counted "cache_read_input_tokens" cacheRead))))]

def messageStopPayload : List Char := objectText [("type", raw "message_stop")]

/-- `sse_prelude_anthropic`. -/
def ssePreludeAnthropic (disclosure : List (String × Json)) : List Char :=
  "event: compliance_substitution\ndata: ".toList ++
    ((Json.obj disclosure).render ++ ['\n', '\n'])

/-! ## The streamer -/

structure StreamState where
  textStarted : Bool
  toolStarted : Bool
  finishReason : String
  inputTokens : Nat
  outputTokens : Nat
  cacheCreation : Nat
  cacheRead : Nat
  streamedChars : Nat
  frames : List (List Char)

def StreamState.emit (s : StreamState) (payload : List Char) : StreamState :=
  { s with frames := s.frames ++ [dataFrame payload] }

/-- The first tool-call delta opens the block of index 0 with its own id and name. `address` is
the number `id(tc_delta)` stands for. -/
def openTool (address : ToolCallDelta → Nat) (s : StreamState) (d : ToolCallDelta)
    (fn : Function) : StreamState :=
  if s.toolStarted then s
  else
    { s.emit (toolStartPayload
        (orText d.id ("toolu_" ++ String.ofList (number (address d)))) (fn.name.getD "")) with
      toolStarted := true }

def onToolDelta (address : ToolCallDelta → Nat) (s : StreamState) (d : ToolCallDelta) :
    StreamState :=
  match d.function with
  | none => s
  | some fn =>
    let s := openTool address s d fn
    let fragment := fn.arguments.getD ""
    if fragment = "" then s else s.emit (inputJsonPayload fragment)

def openText (s : StreamState) : StreamState :=
  if s.textStarted then s else { s.emit textStartPayload with textStarted := true }

def onText (s : StreamState) (content : String) : StreamState :=
  if content = "" then s
  else
    let s := (openText s).emit (textDeltaPayload content)
    { s with streamedChars := s.streamedChars + content.length }

def onUsage (s : StreamState) (usage : Option Usage) : StreamState :=
  match usage with
  | none => s
  | some usage =>
    let cache := extractCacheTokens usage
    { s with
      inputTokens := usage.promptTokens
      outputTokens := usage.completionTokens
      cacheCreation := if cache.1 = 0 then s.cacheCreation else cache.1
      cacheRead := if cache.2 = 0 then s.cacheRead else cache.2 }

/-- One chunk; one without choices is passed over, its usage with it. -/
def onChunk (address : ToolCallDelta → Nat) (s : StreamState) (chunk : Chunk) : StreamState :=
  match chunk.choices with
  | [] => s
  | choice :: _ =>
    let s := { s with finishReason := orText choice.finishReason s.finishReason }
    let s := onUsage s chunk.usage
    let s := choice.delta.toolCalls.foldl (onToolDelta address) s
    onText s (choice.delta.content.getD "")

def initialStream : StreamState :=
  { textStarted := false
    toolStarted := false
    finishReason := "stop"
    inputTokens := 0
    outputTokens := 0
    cacheCreation := 0
    cacheRead := 0
    streamedChars := 0
    frames := [] }

def closingFrames (s : StreamState) : List (List Char) :=
  let outputTokens :=
    if s.outputTokens = 0 ∧ 0 < s.streamedChars then max 1 (s.streamedChars / 4)
    else s.outputTokens
  (if !s.textStarted && !s.toolStarted then [dataFrame textStartPayload] else []) ++
    [dataFrame blockStopPayload,
      dataFrame (messageDeltaPayload (stopReasonOf s.finishReason) s.inputTokens outputTokens
        s.cacheCreation s.cacheRead),
      dataFrame messageStopPayload, dataFrame "[DONE]".toList]

/-- What `_stream_anthropic` is given besides the upstream's chunks. -/
structure StreamArgs where
  model : String
  complianceDisclosure : List (String × Json)
  acceptComplianceEvents : Bool
  /-- `id(..)` of a delta object. -/
  address : ToolCallDelta → Nat

def preludeFrames (args : StreamArgs) : List (List Char) :=
  if !args.complianceDisclosure.isEmpty && args.acceptComplianceEvents then
    [ssePreludeAnthropic args.complianceDisclosure]
  else []

/-- `_stream_anthropic`, on an upstream that yields `chunks` and ends. -/
def streamAnthropic (args : StreamArgs) (chunks : List Chunk) : List (List Char) :=
  let s := chunks.foldl (onChunk args.address) initialStream
  preludeFrames args ++ dataFrame (messageStartPayload args.model) :: (s.frames ++ closingFrames s)

end LlmProxy.Streaming
