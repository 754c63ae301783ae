import Mathlib.Data.List.Forall2
import Mathlib.Data.List.TakeWhile
import LlmProxy.Streaming.Client

/-! # What a client reads in each frame

Every frame the streamer writes reads as the event it is meant to be, with one exception: the
two frames that carry a raw string, `message_start` with the model's name and the
`content_block_start` of a tool with the tool's id and name. `readFrame_toolStart` and
`plain_of_readFrame_toolStart` say that the second reads as meant exactly when both texts are
plain.
-/

namespace LlmProxy.Streaming

open Json (raw objectText IsText IsMember isMember isText_render isText_raw isText_objectText plain)

/-! ## The data of a frame -/

theorem frameData_dataFrame {payload : List Char} (h : '\n' ∉ payload) :
    frameData (dataFrame payload) = some payload := by
  have htake : (payload ++ ['\n', '\n']).takeWhile (· ≠ '\n') = payload := by
    rw [List.takeWhile_append_of_pos]
    · simp
    · intro c hc
      have hne : c ≠ '\n' := by
        rintro rfl
        exact h hc
      simpa using hne
  show (let payload' := (payload ++ ['\n', '\n']).takeWhile (· ≠ '\n')
    if payload ++ ['\n', '\n'] = payload' ++ ['\n', '\n'] then some payload' else none) = _
  simp only [htake, if_true]

theorem eq_of_frameData {payload data : List Char}
    (h : frameData (dataFrame payload) = some data) : data = payload := by
  have hdata : (if payload ++ ['\n', '\n'] =
        (payload ++ ['\n', '\n']).takeWhile (· ≠ '\n') ++ ['\n', '\n'] then
      some ((payload ++ ['\n', '\n']).takeWhile (· ≠ '\n')) else none) = some data := h
  split at hdata
  · next heq =>
    rw [Option.some.inj hdata] at heq
    exact (List.append_cancel_right heq).symm
  · exact nomatch hdata

theorem readFrame_dataFrame (payload : List Char) :
    readFrame (dataFrame payload) =
      ((frameData (dataFrame payload)).bind Json.parse).bind readEvent :=
  rfl

theorem readFrame_isText {t : List Char} {j : Json} (h : IsText t j) :
    readFrame (dataFrame t) = readEvent j := by
  rw [readFrame_dataFrame, frameData_dataFrame h.oneLine, Option.bind_some, h.parse,
    Option.bind_some]

/-! ## Numbers -/

theorem isDigit_number {n : Nat} {c : Char} (h : c ∈ number n) : c.isDigit = true :=
  Nat.isDigit_of_mem_toDigits (by decide) (by decide) h

theorem head_number {n : Nat} (h : 0 < n) : (number n).head? ≠ some '0' := by
  induction n using Nat.strongRecOn with
  | ind n ih =>
    by_cases hn : n < 10
    · have hdigit : ∀ m, m < 10 → 0 < m → m.digitChar ≠ '0' := by decide
      rw [number, Nat.toDigits_of_lt_base hn]
      simpa using hdigit n hn h
    · have hhead := ih (n / 10) (by omega) (by omega)
      have hne : number (n / 10) ≠ [] := Nat.toDigits_ne_nil
      rw [number, Nat.toDigits_of_base_le (by decide) (by omega)]
      rw [number] at hhead hne
      rwa [List.head?_append_of_ne_nil _ hne]

theorem isInteger_number (n : Nat) : Json.isInteger (number n) = true := by
  have hne : (number n).isEmpty = false := by simp [number, Nat.toDigits_ne_nil]
  by_cases hn : n < 10
  · have hlen : (number n).length = 1 := by simp [number, Nat.toDigits_of_lt_base hn]
    simp [Json.isInteger, hne, hlen]
  · have hhead := head_number (n := n) (by omega)
    simp [Json.isInteger, hne, hhead]

theorem isNumber_number (n : Nat) : Json.isNumber (number n) = true := by
  have htake : (number n).takeWhile Char.isDigit = number n :=
    List.takeWhile_eq_self_iff.mpr fun c hc => isDigit_number hc
  have hdrop : (number n).dropWhile Char.isDigit = [] :=
    List.dropWhile_eq_nil_iff.mpr fun c hc => isDigit_number hc
  have hunsigned : Json.isUnsigned (number n) = true := by
    rw [Json.isUnsigned, htake, hdrop, isInteger_number]
    rfl
  unfold Json.isNumber
  split
  · next cs heq =>
    have hminus : '-' ∈ number n := by simp [heq]
    exact absurd (isDigit_number hminus) (by decide)
  · exact hunsigned

theorem numChar_number (n : Nat) : (number n).all Json.numChar = true := by
  rw [List.all_eq_true]
  intro c hc
  simp [Json.numChar, isDigit_number hc]

def numeral (n : Nat) : Json.Numeral := ⟨number n, isNumber_number n, numChar_number n⟩

theorem isText_number (n : Nat) : IsText (number n) (.num (numeral n)) := by
  have h := isText_render (.num (numeral n))
  rwa [Json.render] at h

theorem isText_null : IsText "null".toList .null := by
  have h := isText_render .null
  rwa [Json.render] at h

theorem isText_quote (s : String) : IsText (Json.quote s) (.str s) := by
  have h := isText_render (.str s)
  rwa [Json.render] at h

/-! ## The frames without a raw string of the upstream's -/

theorem isMember_raw {key s : String} (hkey : plain key = true) (hs : plain s = true) :
    IsMember (key, raw s) (key, .str s) :=
  isMember hkey (isText_raw hs)

theorem forall₂_blockHead {kind : String} (hkind : plain kind = true)
    {ts : List (String × List Char)} {ms : List (String × Json)}
    (h : List.Forall₂ IsMember ts ms) :
    List.Forall₂ IsMember (("type", raw kind) :: ("index", number 0) :: ts)
      (("type", .str kind) :: ("index", .num (numeral 0)) :: ms) :=
  .cons (isMember_raw (by decide) hkind) (.cons (isMember (by decide) (isText_number 0)) h)

theorem readFrame_textStart :
    readFrame (dataFrame textStartPayload) = some (.blockStart 0 (.text "")) := by
  have hblock : IsText (objectText [("type", raw "text"), ("text", raw "")]) _ :=
    isText_objectText (.cons (isMember_raw (by decide) (by decide))
      (.cons (isMember_raw (by decide) (by decide)) .nil))
  have htext : IsText textStartPayload _ :=
    isText_objectText (forall₂_blockHead (by decide) (.cons (isMember (by decide) hblock) .nil))
  exact readFrame_isText htext

theorem readFrame_textDelta (text : String) :
    readFrame (dataFrame (textDeltaPayload text)) = some (.blockDelta 0 (.text text)) := by
  have hdelta : IsText (objectText [("type", raw "text_delta"), ("text", Json.quote text)]) _ :=
    isText_objectText (.cons (isMember_raw (by decide) (by decide))
      (.cons (isMember (by decide) (isText_quote text)) .nil))
  have htext : IsText (textDeltaPayload text) _ :=
    isText_objectText (forall₂_blockHead (by decide) (.cons (isMember (by decide) hdelta) .nil))
  exact readFrame_isText htext

theorem readFrame_inputJson (fragment : String) :
    readFrame (dataFrame (inputJsonPayload fragment)) =
      some (.blockDelta 0 (.inputJson fragment)) := by
  have hdelta : IsText (objectText [("type", raw "input_json_delta"),
      ("partial_json", Json.quote fragment)]) _ :=
    isText_objectText (.cons (isMember_raw (by decide) (by decide))
      (.cons (isMember (by decide) (isText_quote fragment)) .nil))
  have htext : IsText (inputJsonPayload fragment) _ :=
    isText_objectText (forall₂_blockHead (by decide) (.cons (isMember (by decide) hdelta) .nil))
  exact readFrame_isText htext

theorem readFrame_blockStop : readFrame (dataFrame blockStopPayload) = some (.blockStop 0) := by
  have htext : IsText blockStopPayload _ :=
    isText_objectText (forall₂_blockHead (by decide) .nil)
  exact readFrame_isText htext

theorem readFrame_messageStop : readFrame (dataFrame messageStopPayload) = some .messageStop := by
  have htext : IsText messageStopPayload _ :=
    isText_objectText (.cons (isMember_raw (by decide) (by decide)) .nil)
  exact readFrame_isText htext

theorem stopReasonOf_plain (finish : String) : plain (stopReasonOf finish) = true := by
  have htable : ∀ entry ∈ finishToStop, plain entry.2 = true := by decide
  unfold stopReasonOf
  split
  · next entry hfind => exact htable entry (List.mem_of_find?_eq_some hfind)
  · decide

theorem forall₂_counted {key : String} (hkey : plain key = true) (n : Nat) :
    List.Forall₂ IsMember (counted key n)
      (if n = 0 then [] else [(key, .num (numeral n))]) := by
  unfold counted
  by_cases hn : n = 0
  · rw [if_pos hn, if_pos hn]
    exact .nil
  · rw [if_neg hn, if_neg hn]
    exact .cons (isMember hkey (isText_number n)) .nil

theorem readFrame_messageDelta {stopReason : String} (h : plain stopReason = true)
    (inputTokens outputTokens cacheCreation cacheRead : Nat) :
    readFrame (dataFrame (messageDeltaPayload stopReason inputTokens outputTokens cacheCreation
      cacheRead)) = some (.messageDelta stopReason) := by
  have hdelta : IsText (objectText [("stop_reason", raw stopReason),
      ("stop_sequence", "null".toList)]) _ :=
    isText_objectText (.cons (isMember_raw (by decide) h)
      (.cons (isMember (by decide) isText_null) .nil))
  have husage : IsText (objectText (("output_tokens", number outputTokens) ::
      (counted "input_tokens" inputTokens ++ (counted "cache_creation_input_tokens" cacheCreation ++
        counted "cache_read_input_tokens" cacheRead)))) _ :=
    isText_objectText (.cons (isMember (by decide) (isText_number outputTokens))
      (List.rel_append (forall₂_counted (by decide) inputTokens)
        (List.rel_append (forall₂_counted (by decide) cacheCreation)
          (forall₂_counted (by decide) cacheRead))))
  have htext : IsText (messageDeltaPayload stopReason inputTokens outputTokens cacheCreation
      cacheRead) _ :=
    isText_objectText (.cons (isMember_raw (by decide) (by decide))
      (.cons (isMember (by decide) hdelta) (.cons (isMember (by decide) husage) .nil)))
  exact readFrame_isText htext

/-! ## The frames with a raw string -/

/-- The first frame reads as the start of a message with this model's name in it. -/
def opensMessage (model : String) : Bool :=
  decide (readFrame (dataFrame (messageStartPayload model)) = some .messageStart)

theorem opensMessage_of_plain {model : String} (h : plain model = true) :
    opensMessage model = true := by
  have harr : IsText "[]".toList (.arr []) := by
    have h := isText_render (.arr [])
    rwa [Json.render] at h
  have husage : IsText (objectText [("input_tokens", number 0), ("output_tokens", number 0)]) _ :=
    isText_objectText (.cons (isMember (by decide) (isText_number 0))
      (.cons (isMember (by decide) (isText_number 0)) .nil))
  have hmessage : IsText (objectText
      [("id", raw "msg_proxy"), ("type", raw "message"), ("role", raw "assistant"),
        ("content", "[]".toList), ("model", raw model), ("stop_reason", "null".toList),
        ("stop_sequence", "null".toList),
        ("usage", objectText [("input_tokens", number 0), ("output_tokens", number 0)])]) _ :=
    isText_objectText (.cons (isMember_raw (by decide) (by decide))
      (.cons (isMember_raw (by decide) (by decide)) (.cons (isMember_raw (by decide) (by decide))
        (.cons (isMember (by decide) harr) (.cons (isMember_raw (by decide) h)
          (.cons (isMember (by decide) isText_null) (.cons (isMember (by decide) isText_null)
            (.cons (isMember (by decide) husage) .nil))))))))
  have htext : IsText (messageStartPayload model) _ :=
    isText_objectText (.cons (isMember_raw (by decide) (by decide))
      (.cons (isMember (by decide) hmessage) .nil))
  rw [opensMessage, decide_eq_true_iff]
  exact readFrame_isText htext

theorem readFrame_toolStart {id name : String} (hid : plain id = true) (hname : plain name = true) :
    readFrame (dataFrame (toolStartPayload id name)) =
      some (.blockStart 0 (.toolUse id name "")) := by
  have hblock : IsText (objectText [("type", raw "tool_use"), ("id", raw id), ("name", raw name),
      ("input", objectText [])]) _ :=
    isText_objectText (.cons (isMember_raw (by decide) (by decide))
      (.cons (isMember_raw (by decide) hid) (.cons (isMember_raw (by decide) hname)
        (.cons (isMember (by decide) (isText_objectText .nil)) .nil))))
  have htext : IsText (toolStartPayload id name) _ :=
    isText_objectText (forall₂_blockHead (by decide) (.cons (isMember (by decide) hblock) .nil))
  exact readFrame_isText htext

theorem jsonMember_skip {key k : String} (h : k ≠ key) (v : Json) (ms : List (String × Json)) :
    jsonMember key (.obj ((k, v) :: ms)) = jsonMember key (.obj ms) := by
  simp [jsonMember, h]

theorem jsonMember_head {key : String} {v w : Json} {ms : List (String × Json)}
    (h : jsonMember key (.obj ((key, v) :: ms)) = some w) : w = v := by
  have hfilter : ((key, v) :: ms).filter (·.1 = key) =
      (key, v) :: ms.filter (·.1 = key) := by
    simp
  rw [jsonMember, hfilter] at h
  split at h
  · next m heq =>
    obtain ⟨rfl, -⟩ := List.cons.inj heq
    exact (Option.some.inj h).symm
  · exact nomatch h

theorem stringMember_head {key s t : String} {ms : List (String × Json)}
    (h : stringMember key (.obj ((key, .str s) :: ms)) = some t) : t = s := by
  obtain ⟨w, hw, hstring⟩ := Option.bind_eq_some_iff.mp h
  rw [jsonMember_head hw] at hstring
  exact (Option.some.inj hstring).symm

theorem parse_toolStart {id name : String} {j : Json}
    (h : Json.parse (toolStartPayload id name) = some j) :
    ∃ id' rest fuel ms ms' tail, Json.readLiteral (id.toList ++ '"' :: (Json.membersText
        [("name", raw name), ("input", objectText [])] ++ ['}'])) = some (id', rest) ∧
      Json.readMembers (fuel + 3) rest = some (ms, tail) ∧
      j = .obj (("type", .str "content_block_start") :: ("index", .num (numeral 0)) ::
        ("content_block", .obj (("type", .str "tool_use") :: ("id", .str id') :: ms)) :: ms') := by
  obtain ⟨n, hn⟩ : ∃ n, (toolStartPayload id name).length + 1 = n + 40 :=
    ⟨(toolStartPayload id name).length + 1 - 40, by
      simp [toolStartPayload, objectText, Json.membersText, raw]
      omega⟩
  have hread : ∃ tail, Json.readValue (n + 40) (toolStartPayload id name ++ []) =
      some (j, tail) := by
    rw [Json.parse, hn] at h
    rw [List.append_nil]
    split at h
    · next j' tail heq =>
      split at h
      · exact ⟨tail, by rw [heq, Option.some.inj h]⟩
      · cases h
    · cases h
  obtain ⟨tail, hread⟩ := hread
  rw [toolStartPayload, Json.readValue_isText (by decide) (isText_raw (by decide)) _ _
      (by simp [raw])] at hread
  obtain ⟨⟨ms₁, _⟩, hread, hj⟩ := Option.map_eq_some_iff.mp hread
  rw [Json.readMembers_isText (by decide) (isText_number 0) _ _ (by simp [number])] at hread
  obtain ⟨⟨ms₂, _⟩, hread, hms₁⟩ := Option.map_eq_some_iff.mp hread
  -- the block itself, whose object is open to what the id makes of the text
  simp only [Json.membersText, List.cons_append, List.append_assoc] at hread
  rw [Json.readMembers_raw (by decide)] at hread
  obtain ⟨⟨block, rest₃⟩, hblock, hread⟩ := Option.bind_eq_some_iff.mp hread
  obtain ⟨⟨ms₃, _⟩, -, hms₂⟩ := Option.map_eq_some_iff.mp hread
  rw [Json.readValue_isText (by decide) (isText_raw (by decide)) _ _ (by simp [raw])] at hblock
  obtain ⟨⟨ms₄, _⟩, hblock, hobj⟩ := Option.map_eq_some_iff.mp hblock
  rw [Json.readMembers_rawValue (by decide)] at hblock
  obtain ⟨⟨id', rest⟩, hliteral, hblock⟩ := Option.bind_eq_some_iff.mp hblock
  obtain ⟨⟨ms, tail'⟩, hms, hms₄⟩ := Option.map_eq_some_iff.mp hblock
  refine ⟨id', rest, n + 31, ms, ms₃, tail', hliteral, hms, ?_⟩
  simp only [Prod.mk.injEq] at hj hms₁ hms₂ hobj hms₄
  rw [← hj.1, ← hms₁.1, ← hms₂.1, ← hobj.1, ← hms₄.1]

theorem readDraft_toolUse {id : String} {ms : List (String × Json)} {draft : Draft}
    (h : readDraft (.obj (("type", .str "tool_use") :: ("id", .str id) :: ms)) = some draft) :
    ∃ name, draft = .toolUse id name "" ∧ stringMember "name" (.obj ms) = some name := by
  unfold readDraft at h
  split at h
  · next htype => exact absurd (stringMember_head htype) (by decide)
  · split at h
    · next id' name hid hname =>
      rw [stringMember, jsonMember_skip (by decide), ← stringMember] at hid
      rw [stringMember, jsonMember_skip (by decide), jsonMember_skip (by decide),
        ← stringMember] at hname
      refine ⟨name, ?_, hname⟩
      rw [← Option.some.inj h, stringMember_head hid]
    · exact nomatch h
  · exact nomatch h

theorem readBlockStart_toolUse {id : String} {ms ms' : List (String × Json)} {e : Event}
    (h : readEvent (.obj (("type", .str "content_block_start") ::
      ("index", .num (numeral 0)) :: ("content_block",
        .obj (("type", .str "tool_use") :: ("id", .str id) :: ms)) :: ms')) = some e) :
    ∃ name, e = .blockStart 0 (.toolUse id name "") ∧
      stringMember "name" (.obj ms) = some name := by
  unfold readEvent at h
  split at h
  · exact nomatch h
  · next htype => exact absurd (stringMember_head htype) (by decide)
  · unfold readBlockStart at h
    split at h
    · next index block hindex hblock =>
      obtain ⟨v, hv, hindex⟩ := Option.bind_eq_some_iff.mp hindex
      obtain ⟨w, hw, hblock⟩ := Option.bind_eq_some_iff.mp hblock
      rw [jsonMember_skip (by decide)] at hv
      rw [jsonMember_skip (by decide), jsonMember_skip (by decide)] at hw
      rw [jsonMember_head hv] at hindex
      rw [jsonMember_head hw] at hblock
      obtain ⟨name, rfl, hname⟩ := readDraft_toolUse hblock
      have hzero : jsonNat (.num (numeral 0)) = some 0 := by decide
      rw [hzero] at hindex
      exact ⟨name, by rw [← Option.some.inj h, ← Option.some.inj hindex], hname⟩
    · exact nomatch h
  · next htype => exact absurd (stringMember_head htype) (by decide)
  · next htype => exact absurd (stringMember_head htype) (by decide)
  · next htype => exact absurd (stringMember_head htype) (by decide)
  · next htype => exact absurd (stringMember_head htype) (by decide)
  · next _ hstart _ _ _ _ htype => exact absurd (stringMember_head htype) hstart

/-- The start of a tool block never reads as anything but the start of a tool block of index 0,
and where it reads as the id and the name it was written with, both are plain. -/
theorem plain_of_readFrame_toolStart {id name : String} {e : Event}
    (h : readFrame (dataFrame (toolStartPayload id name)) = some e) :
    ∃ id' name', e = .blockStart 0 (.toolUse id' name' "") ∧
      (id' = id → name' = name → plain id = true ∧ plain name = true) := by
  rw [readFrame_dataFrame] at h
  obtain ⟨j, hparse, hevent⟩ := Option.bind_eq_some_iff.mp h
  obtain ⟨data, hdata, hparse⟩ := Option.bind_eq_some_iff.mp hparse
  rw [eq_of_frameData hdata] at hparse
  obtain ⟨id', rest, fuel, ms, ms', tail, hliteral, hms, rfl⟩ := parse_toolStart hparse
  obtain ⟨name', rfl, hname⟩ := readBlockStart_toolUse hevent
  refine ⟨id', name', rfl, ?_⟩
  rintro rfl rfl
  -- a plain id leaves the text behind it untouched, so the next literal is the name's
  obtain ⟨hid, rfl⟩ := Json.plain_of_readLiteral hliteral
  rw [Json.readMembers_rawValue (by decide)] at hms
  obtain ⟨⟨name, rest⟩, hliteral, hms⟩ := Option.bind_eq_some_iff.mp hms
  obtain ⟨more, -, hmore⟩ := Option.map_eq_some_iff.mp hms
  obtain ⟨rfl, -⟩ := Prod.mk.inj hmore
  obtain rfl : name' = name := stringMember_head hname
  exact ⟨hid, (Json.plain_of_readLiteral hliteral).1⟩

theorem readFrame_messageStart {model : String} {e : Event}
    (h : readFrame (dataFrame (messageStartPayload model)) = some e) : e = .messageStart := by
  rw [readFrame_dataFrame] at h
  obtain ⟨j, hparse, hevent⟩ := Option.bind_eq_some_iff.mp h
  obtain ⟨data, hdata, hparse⟩ := Option.bind_eq_some_iff.mp hparse
  rw [eq_of_frameData hdata] at hparse
  obtain ⟨ms, rfl⟩ := Json.parse_objectText_head (by decide) (isText_raw (by decide)) hparse
  unfold readEvent at hevent
  split at hevent
  · exact nomatch hevent
  · obtain ⟨message, -, hstart⟩ := Option.map_eq_some_iff.mp hevent
    exact hstart.symm
  · next htype => exact absurd (stringMember_head htype) (by decide)
  · next htype => exact absurd (stringMember_head htype) (by decide)
  · next htype => exact absurd (stringMember_head htype) (by decide)
  · next htype => exact absurd (stringMember_head htype) (by decide)
  · next htype => exact absurd (stringMember_head htype) (by decide)
  · next hstart _ _ _ _ _ htype => exact absurd (stringMember_head htype) hstart

theorem readFrame_prelude (disclosure : List (String × Json)) :
    readFrame (ssePreludeAnthropic disclosure) = some .other :=
  rfl

end LlmProxy.Streaming
