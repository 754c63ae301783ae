import LlmProxy.Lib.Json
import LlmProxy.Monitoring.Masked

/-! # Bodies in the activity log

`_serialize_body`, `_extract_preview`, `_attach_bodies` and `_maybe_sample_4xx_body` of
`app/monitoring/helpers.py`: what of a request and its response is written beside the event.

> `bodies_redacted`: no body that is written shows a token, nor a key or a header other than masked.
> `key_shown`: what the value of a key says may also stand where no key is.

Mirroring notes.
* A number stands in the text `json.dumps` gives it, which is also its `str`.
* `repr` is `str` of a list, which only a preview uses, and stays a parameter.
* Of the event's metadata the model keeps what these functions write.
-/

namespace LlmProxy.Monitoring

/-! ## Texts of a body -/

/-- `json.dumps` of a character, with `ensure_ascii=False`. -/
def plainEscape (c : Char) : List Char :=
  match Json.shortEscapes.find? (·.1 = c) with
  | some (_, e) => ['\\', e]
  | none => if c.toNat < 0x20 then Json.unicodeEscape c.toNat else [c]

def plainQuote (s : String) : List Char := '"' :: (s.toList.flatMap plainEscape ++ ['"'])

mutual

/-- `json.dumps(value, ensure_ascii=False)`. -/
def dumps : Json → List Char
  | .null => "null".toList
  | .bool true => "true".toList
  | .bool false => "false".toList
  | .num n => n.text
  | .constant c => c.text
  | .str s => plainQuote s
  | .arr [] => ['[', ']']
  | .arr (x :: xs) => '[' :: (dumps x ++ dumpsItems xs)
  | .obj [] => ['\x7b', '\x7d']
  | .obj ((k, v) :: ms) => '\x7b' :: (plainQuote k ++ ':' :: ' ' :: (dumps v ++ dumpsMembers ms))

def dumpsItems : List Json → List Char
  | [] => [']']
  | x :: xs => ',' :: ' ' :: (dumps x ++ dumpsItems xs)

def dumpsMembers : List (String × Json) → List Char
  | [] => ['\x7d']
  | (k, v) :: ms => ',' :: ' ' :: (plainQuote k ++ ':' :: ' ' :: (dumps v ++ dumpsMembers ms))

end

/-- `str(value)`. -/
def strOf (repr : Json → String) : Json → String
  | .null => "None"
  | .bool true => "True"
  | .bool false => "False"
  | .num n => String.ofList n.text
  | .constant .nan => "nan"
  | .constant .infinity => "inf"
  | .constant .negInfinity => "-inf"
  | .str s => s
  | value => repr value

/-- `…[TRUNCATED]`. -/
def truncated : List Char := '…' :: "[TRUNCATED]".toList

/-- `text[:n]`. -/
def clip (n : Nat) (text : String) : String := String.ofList (text.toList.take n)

/-- The text of a body before it is redacted: JSON for a dict or a list, else its `str`. -/
def bodyText (repr : Json → String) : Json → String
  | .obj members => String.ofList (dumps (.obj members))
  | .arr items => String.ofList (dumps (.arr items))
  | body => strOf repr body

/-- `_serialize_body`. -/
def serializeBody (tables : CharTables) (repr : Json → String) (body : Json) (maxChars : Nat) :
    Option String :=
  match body with
  | .null => none
  | _ =>
    let text := redact tables (bodyText repr body)
    if maxChars < text.toList.length then
      some (String.ofList (text.toList.take (maxChars - 20) ++ truncated))
    else some text

/-! ## Previews -/

/-- `" ".join(..)` of the text blocks; a text that is no string raises. -/
def joinTexts (items : List Json) : Except Unit String := do
  let texts ← (items.filter (·.hasType "text")).mapM fun block =>
    match block.get? "text" with
    | none => .ok ""
    | some (.str s) => .ok s
    | some _ => .error ()
  .ok (PyStr.join " " texts)

/-- What a block of a user message adds to its preview. -/
def blockPart (block : Json) : Except Unit (Option String) :=
  if block.hasType "text" then
    match block.get? "text" with
    | some (.str s) => .ok (some s)
    | _ => .ok none
  else if block.hasType "tool_result" then
    match block.get? "content" with
    | some (.str s) => .ok (some ("[tool_result] " ++ s))
    | some (.arr items) => do
      let inner ← joinTexts items
      .ok (if inner = "" then none else some ("[tool_result] " ++ inner))
    | _ => .ok none
  else .ok none

/-- The preview a message gives; `none` for one that is no user's, or has no text. -/
def messagePreview (maxChars : Nat) (m : Json) : Except Unit (Option String) :=
  match m.get? "role" with
  | some (.str "user") =>
    match m.get? "content" with
    | some (.str s) => .ok (if PyStr.strip s = "" then none else some (clip maxChars s))
    | some (.arr blocks) => do
      let parts ← blocks.mapM blockPart
      let text := PyStr.strip (PyStr.join " " ((parts.filterMap id).filter (· ≠ "")))
      .ok (if text = "" then none else some (clip maxChars text))
    | _ => .ok none
  | _ => .ok none

def firstOf : List (Except Unit (Option String)) → Except Unit (Option String)
  | [] => .ok none
  | .error e :: _ => .error e
  | .ok (some preview) :: _ => .ok (some preview)
  | .ok none :: rest => firstOf rest

/-- `message.content` of the first choice. -/
def choiceContent (choice : Json) : Except Unit (Option Json) :=
  if !choice.truthy then .ok none
  else match choice with
    | .obj _ =>
      match choice.get? "message" with
      | none => .ok none
      | some (.obj members) => .ok ((Json.obj members).get? "content")
      | some _ => .error ()
    | _ => .error ()

def contentPreview (maxChars : Nat) (body : Json) : Except Unit (Option String) :=
  match body.get? "content" with
  | some (.arr items) => do
    let text := PyStr.strip (← joinTexts items)
    .ok (if text = "" then none else some (clip maxChars text))
  | _ => .ok none

def choicePreview (maxChars : Nat) (body : Json) : Except Unit (Option String) :=
  match body.get? "choices" with
  | some (.arr (choice :: _)) => do
    match ← choiceContent choice with
    | some (.str s) => .ok (if PyStr.strip s = "" then none else some (clip maxChars s))
    | _ => .ok none
  | _ => .ok none

def systemPreview (maxChars : Nat) (body : Json) : Except Unit (Option String) :=
  match body.get? "system" with
  | some (.str s) =>
    .ok (if PyStr.strip s = "" then none else some ("[system] " ++ clip (maxChars - 9) s))
  | some (.arr items) => do
    let text := PyStr.strip (← joinTexts items)
    .ok (if text = "" then none else some ("[system] " ++ clip (maxChars - 9) text))
  | _ => .ok none

/-- `_extract_preview`. -/
def extractPreview (repr : Json → String) (body : Json) (maxChars : Nat := 240) : Option String :=
  match body with
  | .null => none
  | .obj _ =>
    let messages := match body.get? "messages" with
      | some (.arr items) => items.reverse.map (messagePreview maxChars)
      | _ => []
    let found := firstOf (messages ++
      [contentPreview maxChars body, choicePreview maxChars body, systemPreview maxChars body])
    found.toOption.getD none
  | _ => some (clip maxChars (strOf repr body))

/-! ## The event -/

structure Capture where
  previews : Bool := true
  bodies : Bool := false
  maxBodyChars : Int := 4000
  sampleRate4xx : Rat := 1 / 100

structure EventMeta where
  requestPreview : Option String := none
  responsePreview : Option String := none
  requestBody : Option String := none
  responseBody : Option String := none
  bodySampled : Bool := false
  deriving DecidableEq, Repr

/-- `max(1000, int(settings.activity_log_max_body_chars or 4000))`. -/
def Capture.cap (c : Capture) : Nat :=
  (max 1000 (if c.maxBodyChars = 0 then 4000 else c.maxBodyChars)).toNat

variable (tables : CharTables) (repr : Json → String) (c : Capture)

/-- `_attach_bodies`. -/
def attachBodies (m : EventMeta) (requestBody responseBody : Json) : EventMeta :=
  let previewed := fun (old : Option String) (body : Json) =>
    ((extractPreview repr body).filter (· ≠ "")).or old
  let m := if c.previews then
      { m with requestPreview := previewed m.requestPreview requestBody
               responsePreview := previewed m.responsePreview responseBody }
    else m
  if c.bodies then
    { m with requestBody := (serializeBody tables repr requestBody c.cap).or m.requestBody
             responseBody := (serializeBody tables repr responseBody c.cap).or m.responseBody }
  else m

/-- `_maybe_sample_4xx_body`; `draw` is `random.random()`. -/
def maybeSample4xxBody (m : EventMeta) (requestBody : Json) (errorClass : Option String)
    (draw : Rat) : EventMeta :=
  if errorClass ≠ some "bad_request" then m
  else if c.sampleRate4xx ≤ 0 then m
  else if c.sampleRate4xx < 1 ∧ c.sampleRate4xx ≤ draw then m
  else match requestBody with
    | .null => m
    | _ =>
      if m.requestBody.isSome then { m with bodySampled := true }
      else match serializeBody tables repr requestBody c.cap with
        | none => m
        | some text => { m with requestBody := some text, bodySampled := true }

/-- What an outcome writes of its bodies; only a failed one has an error class. -/
def eventMeta (requestBody responseBody : Json) (errorClass : Option String) (draw : Rat) :
    EventMeta :=
  maybeSample4xxBody tables repr c (attachBodies tables repr c {} requestBody responseBody)
    requestBody errorClass draw

/-! ## What a body shows -/

/-- A text that shows no token, and keys and headers as masked only. -/
structure Redacted (text : List Char) : Prop where
  noToken : ∀ w, IsToken tables w → ¬ w <:+: text
  keys : ∀ before w rest, text = before ++ w ++ rest → apiKeyRe.Reads w → KeyMasked before w
  headers : ∀ before w rest g blank gap value, text = before ++ w ++ rest →
    HeaderParts w g blank gap value → ∃ k, value <+: mark.take k ++ truncated

variable {tables repr c}

theorem prefix_of_mark {value : List Char} (h : value <+: mark) :
    ∃ k, value <+: mark.take k ++ truncated :=
  ⟨mark.length, by rw [List.take_length]; exact h.trans (List.prefix_append _ _)⟩

theorem Passes.redacted {text t₁ t₂ t₃ t₄ out : List Char}
    (h : Passes tables text t₁ t₂ t₃ t₄ out) : Redacted tables out where
  noToken _ hw := h.no_token hw
  keys _ _ _ heq hw := h.key_masked heq hw
  headers _ _ _ _ _ _ _ heq hw := prefix_of_mark (h.header_masked heq hw)

/-- **A redacted text stays redacted when it is cut.** -/
theorem Passes.redacted_truncated {text t₁ t₂ t₃ t₄ out : List Char}
    (h : Passes tables text t₁ t₂ t₃ t₄ out) (n : Nat) :
    Redacted tables (out.take n ++ truncated) := by
  have htake : ∀ {before w rest : List Char}, out.take n = before ++ w ++ rest →
      out = before ++ w ++ (rest ++ out.drop n) := by
    intro before w rest hcut
    rw [← List.append_assoc, ← hcut, List.take_append_drop]
  refine ⟨?_, ?_, ?_⟩
  · rintro w hw ⟨before, rest, hinside⟩
    have hshape := hw.shape
    have hellipsis : '…' ∉ w := fun hmem => absurd (hshape.chars '…' hmem) (by decide)
    have hsplit : out.take n ++ '…' :: "[TRUNCATED]".toList = before ++ w ++ rest := hinside.symm
    rcases Separated.infix_or_behind hellipsis hsplit with hkept | ⟨before', -, hbehind⟩
    · exact h.no_token hw (hkept.trans (List.take_prefix n out).isInfix)
    · have hshort : Regex.longestRun tokenChar "[TRUNCATED]".toList < 12 := by decide
      exact hshape.not_infix hshort ⟨before', rest, hbehind.symm⟩
  · intro before w rest heq hw
    obtain ⟨name, blank, gap, value, hparts⟩ := apiKeyRe_reads.mp hw
    obtain ⟨front, rfl⟩ : ∃ front, w = front ++ ['"'] := by
      refine ⟨'"' :: (name ++ '"' :: ((blank ++ ':' :: gap) ++ '"' :: value)), ?_⟩
      rw [hparts.text]
      simp
    -- the closing quote stands before the cut
    rcases List.append_eq_append_iff.mp heq with ⟨a, hbefore, htail⟩ | ⟨a, hkept, -⟩
    · rcases List.eq_nil_or_concat a with rfl | ⟨a', d, rfl⟩
      · have hin : out.take n = before ++ (front ++ ['"']) ++ [] := by
          rw [List.append_nil, hbefore, List.append_nil]
        exact h.key_masked (htake hin) hw
      · have hd : d = '"' := by
          have hlast := congrArg List.getLast? hbefore
          simpa using hlast.symm
        have hmem : '"' ∈ truncated := by
          rw [htail, hd]
          simp
        exact absurd hmem (by decide)
    · exact h.key_masked (htake hkept) hw
  · intro before w rest g blank gap value heq hw
    rcases List.append_eq_append_iff.mp heq with ⟨a, hbefore, htail⟩ | ⟨a, hkept, -⟩
    · rcases List.append_eq_append_iff.mp hbefore with ⟨b, hkept, hsplit⟩ | ⟨b, -, hbehind⟩
      · cases a with
        | nil =>
          have hin : out.take n = before ++ w ++ [] := by
            rw [hkept, hsplit]
            simp
          exact prefix_of_mark (h.header_masked (htake hin) hw)
        | cons d a =>
          obtain ⟨rfl, -⟩ := List.cons.inj htail
          rcases hw.place (by decide) (by decide) hsplit with ⟨s, hname⟩ | ⟨u, hu, hvalue⟩
          · exact absurd (hw.name.tokenChars '…' (by rw [hname]; simp)) (by decide)
          · -- the value goes on in what the cut leaves
            have hcut : '…' :: a <+: truncated := ⟨rest, htail.symm⟩
            cases u with
            | nil => exact ⟨0, by rw [hvalue]; exact hcut⟩
            | cons e u =>
              have hread : HeaderParts b g blank gap (e :: u) := by
                refine ⟨hu, hw.name, hw.blank, hw.gap, List.cons_ne_nil e u, ?_⟩
                intro x hx
                exact hw.value x (by rw [hvalue]; exact List.mem_append_left _ hx)
              have hin : out.take n = before ++ b ++ [] := by
                rw [hkept, List.append_nil]
              have hmark : e :: u <+: mark := h.header_masked (htake hin) hread
              refine ⟨(e :: u).length, ?_⟩
              rw [hvalue, ← List.prefix_iff_eq_take.mp hmark]
              exact (List.prefix_append_right_inj _).mpr hcut
      · have hcolon : ':' ∈ truncated := by
          rw [htail, hbehind, hw.text]
          simp
        exact absurd hcolon (by decide)
    · exact prefix_of_mark (h.header_masked (htake hkept) hw)

/-- **Every text that is serialised is redacted**, whatever the body. -/
theorem serializeBody_redacted {body : Json} {maxChars : Nat} {text : String}
    (h : serializeBody tables repr body maxChars = some text) : Redacted tables text.toList := by
  unfold serializeBody at h
  split at h
  · cases h
  · obtain ⟨t₁, t₂, t₃, t₄, hpasses⟩ : ∃ t₁ t₂ t₃ t₄, Passes tables (bodyText repr body).toList
        t₁ t₂ t₃ t₄ (redact tables (bodyText repr body)).toList := redact_passes _
    dsimp only at h
    split at h
    · obtain rfl := Option.some.inj h
      rw [String.toList_ofList]
      exact hpasses.redacted_truncated _
    · obtain rfl := Option.some.inj h
      exact hpasses.redacted

theorem attachBodies_bodies (m : EventMeta) (requestBody responseBody : Json) :
    (∀ text ∈ (attachBodies tables repr c m requestBody responseBody).requestBody,
      text ∈ m.requestBody ∨ Redacted tables text.toList) ∧
    (∀ text ∈ (attachBodies tables repr c m requestBody responseBody).responseBody,
      text ∈ m.responseBody ∨ Redacted tables text.toList) := by
  have hor : ∀ (old : Option String) (body : Json),
      ∀ text ∈ (serializeBody tables repr body c.cap).or old,
        text ∈ old ∨ Redacted tables text.toList := by
    intro old body text htext
    rcases Option.or_eq_some_iff.mp htext with hnew | ⟨-, hold⟩
    · exact Or.inr (serializeBody_redacted hnew)
    · exact Or.inl hold
  unfold attachBodies
  cases c.previews <;> cases c.bodies <;>
    first
    | exact ⟨fun _ h => Or.inl h, fun _ h => Or.inl h⟩
    | exact ⟨hor _ _, hor _ _⟩

theorem maybeSample_bodies (m : EventMeta) (requestBody : Json) (errorClass : Option String)
    (draw : Rat) :
    (∀ text ∈ (maybeSample4xxBody tables repr c m requestBody errorClass draw).requestBody,
      text ∈ m.requestBody ∨ Redacted tables text.toList) ∧
    (maybeSample4xxBody tables repr c m requestBody errorClass draw).responseBody =
      m.responseBody := by
  have hold : (∀ text ∈ m.requestBody, text ∈ m.requestBody ∨ Redacted tables text.toList) ∧
      m.responseBody = m.responseBody := ⟨fun _ h => Or.inl h, rfl⟩
  unfold maybeSample4xxBody
  split
  · exact hold
  split
  · exact hold
  split
  · exact hold
  split
  · exact hold
  split
  · exact hold
  split
  · exact hold
  · next htext =>
    refine ⟨?_, rfl⟩
    intro t ht
    obtain rfl := Option.some.inj ht
    exact Or.inr (serializeBody_redacted htext)

/-- **No body in the log shows a token, nor a key or a header other than masked**, for every
request and response, every setting and every draw. -/
theorem bodies_redacted (tables : CharTables) (repr : Json → String) (c : Capture)
    (requestBody responseBody : Json) (errorClass : Option String) (draw : Rat) :
    let m := eventMeta tables repr c requestBody responseBody errorClass draw
    ∀ text, text ∈ m.requestBody ∨ text ∈ m.responseBody → Redacted tables text.toList := by
  rintro m text (htext | htext)
  · rcases (maybeSample_bodies _ requestBody errorClass draw).1 text htext with hbefore | hnew
    · rcases (attachBodies_bodies {} requestBody responseBody).1 text hbefore with hnone | hnew
      · cases hnone
      · exact hnew
    · exact hnew
  · have hbefore : text ∈ (attachBodies tables repr c {} requestBody responseBody).responseBody :=
      (maybeSample_bodies _ requestBody errorClass draw).2 ▸ htext
    rcases (attachBodies_bodies {} requestBody responseBody).2 text hbefore with hnone | hnew
    · cases hnone
    · exact hnew

/-- `isalnum` and `isdecimal` of the ASCII characters. -/
def asciiTables : CharTables where
  isalnum := Char.isAlphanum
  isdecimal := Char.isDigit
  isalnum_ascii _ _ := rfl
  isalnum_ellipsis := by decide
  isalnum_of_isdecimal _ h := by simp [Char.isAlphanum, h]

mutual

/-- The values of the `"api_key"` members of a body. -/
def keyValues : Json → List String
  | .arr items => itemKeyValues items
  | .obj members => memberKeyValues members
  | _ => []

def itemKeyValues : List Json → List String
  | [] => []
  | x :: xs => keyValues x ++ itemKeyValues xs

def memberKeyValues : List (String × Json) → List String
  | [] => []
  | (k, v) :: ms =>
    (match v with
      | .str s => if k = "api_key" then [s] else []
      | _ => []) ++ keyValues v ++ memberKeyValues ms

end

/-- A user who writes the key of the request into the message as well. -/
def chattyBody : Json :=
  .obj [("api_key", .str "hunter2"),
    ("messages", .arr [.obj [("role", .str "user"), ("content", .str "is it hunter2?")]])]

def wireDebugging : Capture := { previews := false, bodies := true }

theorem bodies_redacted_chatty : ∃ text,
    (eventMeta asciiTables (fun _ => "") wireDebugging chattyBody .null none 0).requestBody =
      some text ∧ Redacted asciiTables text.toList := by
  have hsome : ∃ text,
      (eventMeta asciiTables (fun _ => "") wireDebugging chattyBody .null none 0).requestBody =
        some text := Option.isSome_iff_exists.mp (by decide +kernel)
  obtain ⟨text, htext⟩ := hsome
  exact ⟨text, htext, bodies_redacted asciiTables (fun _ => "") wireDebugging chattyBody .null none 0
    text (Or.inl htext)⟩

/-- The member is masked, but the message shows the key. -/
theorem key_shown : ¬ ∀ secret ∈ keyValues chattyBody, ∀ text,
    (eventMeta asciiTables (fun _ => "") wireDebugging chattyBody .null none 0).requestBody =
      some text → ¬ secret.toList <:+: text.toList := by
  have hlogged :
      (eventMeta asciiTables (fun _ => "") wireDebugging chattyBody .null none 0).requestBody = some
        ("\x7b\"api_key\": \"***REDACTED***\", \"messages\": [\x7b\"role\": \"user\", " ++
          "\"content\": \"is it hunter2?\"\x7d]\x7d") := by decide +kernel
  intro h
  exact h "hunter2" (by decide) _ hlogged (by decide +kernel)

end LlmProxy.Monitoring
