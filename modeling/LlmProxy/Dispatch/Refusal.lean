import LlmProxy.Lib.Regex
import LlmProxy.Dispatch.Calls
import LlmProxy.Routing.Exclusion

/-! # Refusals and the cascade on them

`app/refusal_detection.py` finds a refusal in the text of a response;
`maybe_cascade_on_refusal` of `app/api/_refusal_cascade.py` then walks other providers until one
answers without refusing.

Mirroring notes.
* The key is the `ApiKeyRecord` of `app/auth/keys.py`. It has no field
  `refusal_retry_max_attempts`, so the `getattr` for it always falls back to the default.
* Activity rows and response headers are left out; the audit trail they report is kept.

Main result: `cascadeFrom_ensures`, the rule for the calls of a cascade.
-/

namespace LlmProxy.Dispatch

open LlmProxy.Providers
open LlmProxy.Routing
open LlmProxy.Streaming (Completion Block Response toAnthropicResponse)
open Logged

/-! ## Detection -/

section Patterns

open Regex

def space : Char → Bool := PyStr.isSpace

def notDot (c : Char) : Bool := c != '.'

/-- `REFUSAL_PATTERNS`: name, category and pattern, in the order they are tried. An optional
apostrophe is written as two alternatives. -/
def refusalPatterns : List (String × String × Regex) :=
  [("explicit_refused_marker", "explicit_refused",
      concat [lineStart, many space, text "REFUSED", many space, text ":", many space]),
    ("cant_but_here_is", "task_substitution",
      concat [boundary,
        oneOf ["can't", "cant", "cannot", "won't", "wont", "unable to", "not able to"],
        many1 space,
        oneOf ["write", "create", "generate", "produce", "reproduce", "provide", "give you",
          "help with"],
        upTo 60 notDot, one (fun c => c = ',' || c = '.'), many space,
        oneOf ["but", "however", "instead"], upTo 20 notDot, boundary,
        oneOf ["here", "let me", "i can", "i'll", "ill", "here's", "heres"]]),
    ("not_that_but_similar", "task_substitution",
      concat [boundary, oneOf ["i can't", "i cant", "i won't", "i wont", "cannot"], many1 space,
        oneOf ["write", "create", "generate"], many1 space, oneOf ["that", "the", "those"],
        many1 space, oneOf ["specific", "particular", "exact"], upTo 40 notDot, boundary,
        oneOf ["but", "however", "instead", "here's", "heres"]]),
    ("copyright_style_deflect", "task_substitution",
      concat [boundary,
        oneOf ["copyrighted", "copyright-protected", "copyright protected", "owned by"],
        upTo 80 notDot, boundary,
        oneOf ["but", "however", "instead", "let me", "here's", "heres"], many1 space,
        oneOf ["i can", "write", "provide", "create", "give"]]),
    ("here_is_original_or_alternative", "task_substitution",
      concat [boundary, oneOf ["here's", "heres"], many1 space, oneOf ["an", "a", "some"],
        many1 space,
        oneOf ["original", "alternative", "different", "similar", "inspired-by", "inspired by",
          "in-the-style", "in-the style", "in the-style", "in the style"]]),
    ("as_an_ai_language_model", "capability_deny",
      concat [boundary, text "as an ai ", optional "language ", text "model", boundary,
        upTo 60 notDot, boundary,
        oneOf ["i can't", "i cant", "i cannot", "i don't have", "i dont have", "i am not able",
          "i'm not able", "im not able"]]),
    ("im_not_able_to", "capability_deny",
      concat [boundary, oneOf ["i'm ", "im "], oneOf ["not able", "unable"], text " to ",
        oneOf ["write", "create", "generate", "reproduce", "provide", "share", "help"]]),
    ("outside_my_capabilities", "capability_deny",
      concat [boundary, alt (oneOf ["that's", "thats", "this is"]) empty, many space,
        oneOf ["outside", "beyond", "not within"], many1 space,
        oneOf ["my", "the ai's", "the ais"], many1 space, text "capabilities", boundary])]

end Patterns

structure RefusalMatch where
  patternName : String
  category : String
  matchedSnippet : String
  span : Nat × Nat
  deriving DecidableEq, Repr

/-- `_window`: forty characters around the match, with an ellipsis where the text goes on. -/
def refusalWindow (text : String) (span : Nat × Nat) : String :=
  let chars := text.toList
  let lo := span.1 - 40
  let hi := min chars.length (span.2 + 40)
  (if 0 < lo then "…" else "") ++ PyStr.strip (String.ofList ((chars.take hi).drop lo)) ++
    (if hi < chars.length then "…" else "")

/-- `detect_refusal`: the first pattern that matches. -/
def detectRefusal (isalnum : Char → Bool) (text : String) : Option RefusalMatch :=
  if text = "" then none
  else
    refusalPatterns.findSome? fun (name, category, pattern) =>
      (pattern.search isalnum text).map fun span =>
        ⟨name, category, refusalWindow text span, span⟩

/-- `extract_text_from_anthropic_response`. -/
def extractText (content : List Block) : String :=
  PyStr.join "\n" (content.filterMap fun block =>
    match block with
    | .text text => some text
    | .toolUse _ _ _ => none)

/-! ## The cascade -/

/-- `ApiKeyRecord`, the fields dispatch reads. -/
structure ApiKeyRecord where
  id : String
  /-- the id of a key is drawn by `secrets.token_hex(8)` -/
  nonempty : id ≠ "" := by decide
  keyType : String := "standard"
  refusalRetryEnabled : Bool := false
  refusalRetryStreamingHeartbeat : Bool := false

/-- `DEFAULT_MAX_ATTEMPTS`. -/
def defaultMaxAttempts : Nat := 3

/-- A response with the route and the completion it came from. -/
structure Served where
  route : RouteResult
  result : Completion
  anthropic : Response

/-- `CascadeResult`. -/
structure CascadeResult where
  swapped : Bool
  final : Served
  attemptedProviderIds : List String

structure CascadeEnv where
  worlds : Nat → World
  isalnum : Char → Bool
  /-- `secrets.token_hex` in the conversion of the n-th answer -/
  tokenHex : Nat → Nat → String

def CascadeEnv.refuses (env : CascadeEnv) (response : Response) : Bool :=
  (detectRefusal env.isalnum (extractText response.content)).isSome

def cascadeRequest (hint : Option LMRHHint) (hasImages : Bool) (key : ApiKeyRecord) :
    RouteRequest where
  hint := hint
  hasImages := hasImages
  keyType := key.keyType
  apiKeyId := some key.id

/-- The loop of the cascade: `left` attempts to go, the n-th next; `attempted` is the audit
trail, the initial provider first. -/
def cascadeFrom (env : CascadeEnv) (req : RouteRequest)
    (dispatch : Nat → RouteResult → Run Completion) (initial : Served) :
    Nat → Nat → List String → Run CascadeResult
  | 0, _, attempted => pure ⟨false, initial, attempted⟩
  | left + 1, n, attempted =>
    match selectRoute (env.worlds n) (req.around attempted) with
    | .error _ => pure ⟨false, initial, attempted⟩
    | .ok alt => do
      let attempted := attempted ++ [alt.provider.id]
      match ← attempt (dispatch n alt) with
      | .error _ => cascadeFrom env req dispatch initial left (n + 1) attempted
      | .ok result =>
        match toAnthropicResponse (env.tokenHex n) result with
        | .error _ => cascadeFrom env req dispatch initial left (n + 1) attempted
        | .ok response =>
          if env.refuses response then
            cascadeFrom env req dispatch initial left (n + 1) attempted
          else pure ⟨true, ⟨alt, result, response⟩, attempted⟩

/-- `maybe_cascade_on_refusal`. -/
def maybeCascadeOnRefusal (env : CascadeEnv) (key : ApiKeyRecord) (req : RouteRequest)
    (dispatch : Nat → RouteResult → Run Completion) (initial : Served) : Run CascadeResult :=
  let unchanged : CascadeResult := ⟨false, initial, [initial.route.provider.id]⟩
  if !key.refusalRetryEnabled then pure unchanged
  else if !env.refuses initial.anthropic then pure unchanged
  else cascadeFrom env req dispatch initial defaultMaxAttempts 0 [initial.route.provider.id]

/-- **The rule of the cascade**: a property of the calls on every route the cascade can be
offered around the provider that refused holds of all its calls. -/
theorem cascadeFrom_ensures {env : CascadeEnv} {req : RouteRequest}
    {dispatch : Nat → RouteResult → Run Completion} {initial : Served} {P : Call → Prop}
    {first : String}
    (hcall : ∀ n ids r, first ∈ ids → selectRoute (env.worlds n) (req.around ids) = .ok r →
      Ensures P (fun _ => True) (dispatch n r))
    (left n : Nat) (attempted : List String) (hfirst : first ∈ attempted) :
    Ensures P (fun _ => True) (cascadeFrom env req dispatch initial left n attempted) := by
  induction left generalizing n attempted with
  | zero => exact ensures_pure trivial
  | succ left ih =>
    unfold cascadeFrom
    split
    · exact ensures_pure trivial
    · next alt hselect =>
      have hrest : first ∈ attempted ++ [alt.provider.id] := List.mem_append_left _ hfirst
      apply ((hcall n attempted alt hfirst hselect).attempt).bind
      intro outcome _
      cases outcome with
      | error exc => exact ih (n + 1) _ hrest
      | ok result =>
        dsimp only
        split
        · exact ih (n + 1) _ hrest
        · split
          · exact ih (n + 1) _ hrest
          · exact ensures_pure trivial

theorem mem_log_maybeCascadeOnRefusal {env : CascadeEnv} {key : ApiKeyRecord} {req : RouteRequest}
    {dispatch : Nat → RouteResult → Run Completion} {initial : Served} {alt : RouteResult}
    {call : Call} (hon : key.refusalRetryEnabled = true)
    (hrefuses : env.refuses initial.anthropic = true)
    (hselect : selectRoute (env.worlds 0) (req.around [initial.route.provider.id]) = .ok alt)
    (hmem : call ∈ (dispatch 0 alt).log) :
    call ∈ (maybeCascadeOnRefusal env key req dispatch initial).log := by
  have hfirst : call ∈ (cascadeFrom env req dispatch initial (2 + 1) 0
      [initial.route.provider.id]).log := by
    rw [cascadeFrom, hselect]
    exact mem_log_bind_left hmem
  unfold maybeCascadeOnRefusal
  rw [hon, hrefuses]
  exact hfirst

end LlmProxy.Dispatch
