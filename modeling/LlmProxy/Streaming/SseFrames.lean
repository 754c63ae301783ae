import LlmProxy.Lib.Json
import LlmProxy.Lib.PyStr

/-! # What a frame of a stream says

`_sse_frame_error`, `_sse_frame_has_content` and `http_status_for_stream_error`
(`app/api/_sse_guard.py`), and `_chunk_ok` (`app/routing/hedging.py`).

Mirroring notes.
* A frame is the UTF-8 text of its bytes.
* `json.dumps` of an error object is a parameter: the text it writes is only searched.
-/

namespace LlmProxy.Streaming

/-- A frame. -/
abbrev SseFrame := List Char

def dataMark : List Char := "data:".toList

/-- `frame.split(b"data:", 1)[1]`, of a frame with a `data:`. -/
def behindData : SseFrame → Option (List Char)
  | [] => none
  | c :: cs =>
    if dataMark.isPrefixOf (c :: cs) then some ((c :: cs).drop dataMark.length) else behindData cs

/-- A space to `bytes.strip`. -/
def isByteSpace (c : Char) : Bool := c == ' ' || (9 ≤ c.toNat && c.toNat ≤ 13)

def stripBytes (cs : List Char) : List Char :=
  ((cs.dropWhile isByteSpace).reverse.dropWhile isByteSpace).reverse

def framePayload (frame : SseFrame) : Option (List (String × Json)) :=
  match (behindData frame).bind fun rest => Json.parse (stripBytes rest) with
  | some (.obj members) => some members
  | _ => none

/-! ## Errors -/

inductive StreamError where
  /-- the text of the event, or the value its `message` has -/
  | message (value : Json)
  /-- `json.dumps(err)` -/
  | dumped (err : Json)
  | upstream

def isStr (value : Option Json) (s : String) : Bool :=
  match value with
  | some (.str t) => t = s
  | _ => false

/-- `_sse_frame_error`. -/
def sseFrameError (frame : SseFrame) : Option StreamError :=
  match framePayload frame with
  | none => none
  | some members =>
    let payload := Json.obj members
    if isStr (payload.get? "type") "error" ||
        ((payload.get? "error").isSome && !(payload.get? "choices").isSome) then
      match payload.get? "error" with
      | some (.obj err) =>
        match (Json.obj err).get? "message" with
        | some value => if value.truthy then some (.message value) else some (.dumped (.obj err))
        | none => some (.dumped (.obj err))
      | some (.str s) => some (.message (.str s))
      | _ => some .upstream
    else none

/-- `_chunk_ok`. -/
def chunkOk : Option SseFrame → Bool
  | none => false
  | some chunk => (sseFrameError chunk).isNone

/-- `(msg or "").lower()`; `none` where it raises. -/
def StreamError.lowered (dumps : Json → String) : StreamError → Option String
  | .message value =>
    if value.truthy then
      match value with
      | .str s => some (PyStr.lower s)
      | _ => none
    else some ""
  | .dumped err => some (PyStr.lower (dumps err))
  | .upstream => some "upstream error"

def authMarks : List String :=
  ["x-api-key", "api key", "api-key", "unauthor", "invalid_grant", "authenticationerror",
    "permissiondenied", " 401", " 403"]

def rateMarks : List String := ["rate limit", "rate_limit", "429"]

def statusForText (low : String) : Nat :=
  if authMarks.any (PyStr.contains low) then 401
  else if rateMarks.any (PyStr.contains low) then 429
  else 502

/-- `http_status_for_stream_error`. -/
def httpStatusForStreamError (dumps : Json → String) (err : StreamError) : Option Nat :=
  (err.lowered dumps).map statusForText

example : statusForText "upstream produced an empty stream" = 502 := by decide +kernel

/-! ## Content -/

/-- `payload.get(key) or {}`, on which `.get` is called: `none` where that raises. -/
def objectField (payload : Json) (key : String) : Option Json :=
  match payload.get? key with
  | none => some (.obj [])
  | some value =>
    if value.truthy then
      match value with
      | .obj _ => some value
      | _ => none
    else some (.obj [])

/-- `bool(value.get(a) or value.get(b) or ..)`. -/
def anyTruthy (value : Json) (keys : List String) : Bool :=
  keys.any fun key => (value.get? key).any Json.truthy

/-- `choices[0] or {}`, as far as its `delta`. -/
def firstDelta : Json → Option Json
  | .obj members => objectField (.obj members) "delta"
  | first => if first.truthy then none else some (.obj [])

/-- `_sse_frame_has_content`; `none` where it raises. -/
def sseFrameHasContent (frame : SseFrame) : Option Bool :=
  match framePayload frame with
  | none => some false
  | some members =>
    let payload := Json.obj members
    if isStr (payload.get? "type") "content_block_delta" then
      (objectField payload "delta").map fun delta =>
        anyTruthy delta ["text", "partial_json", "thinking"]
    else if isStr (payload.get? "type") "content_block_start" then
      (objectField payload "content_block").map fun block => isStr (block.get? "type") "tool_use"
    else
      match payload.get? "choices" with
      | some (.arr (first :: _)) =>
        (firstDelta first).map fun delta =>
          anyTruthy delta ["content", "tool_calls", "function_call", "reasoning_content"]
      | _ => some false

end LlmProxy.Streaming
