import LlmProxy.Lib.PyList
import LlmProxy.Cache.Decision

/-! # What a cache key says of its request

The namespace holds the hashes of the system prompt, the tools and the messages before the last user
turn; beside it stands the text of that turn. What else the turn holds, and what follows it, is in
neither.

> `same_key_same_question`.

Mirroring notes.
* `json.dumps(..., sort_keys=True)` is the same for two values iff they differ at most in the order
  of object members, so the hash is compared up to that order (`Json.sortKeys`).
* A number stands in the text `json.dumps` gives it, and no object repeats a key.
-/

namespace Json

def sortMembers (members : List (String × Json)) : List (String × Json) :=
  PyList.sortBy (fun a b => a.1 ≤ b.1) members

mutual

/-- The value with the members of every object in the order of their keys. -/
def sortKeys : Json → Json
  | .arr items => .arr (sortItems items)
  | .obj members => .obj (sortMembers (sortValues members))
  | value => value

def sortItems : List Json → List Json
  | [] => []
  | x :: xs => sortKeys x :: sortItems xs

def sortValues : List (String × Json) → List (String × Json)
  | [] => []
  | (k, v) :: ms => (k, sortKeys v) :: sortValues ms

end

end Json

namespace LlmProxy.Cache

open LlmProxy.Dispatch (message)
open Separated

/-- The values that are hashed for a request: the system prompt, the tools and what stands before
the last user turn. -/
def systemPart (q : CacheQuestion) : Json := if q.system.truthy then q.system else .str ""

def toolsPart (q : CacheQuestion) : Json := if q.tools.truthy then q.tools else .arr []

def priorPart (q : CacheQuestion) : Json :=
  .arr (((splitPriorMessages q.messages).map Prod.fst).getD [])

def hashedParts (q : CacheQuestion) : List Json := [systemPart q, toolsPart q, priorPart q]

/-- `turn` is the last user turn, and `prior` stands before it. -/
def LastTurn (messages prior : List Json) (turn : Json) : Prop :=
  isUserTurn turn = true ∧
    ∃ rest, messages = prior ++ turn :: rest ∧ ∀ m ∈ rest, isUserTurn m = false

/-! ## One request -/

theorem splitPriorMessages_lastTurn {messages prior : List Json} {query : String}
    (h : splitPriorMessages messages = some (prior, query)) (hquery : query ≠ "") :
    ∃ turn text, LastTurn messages prior turn ∧ turnText turn = some text ∧
      query = PyStr.strip text := by
  unfold splitPriorMessages at h
  split at h
  · cases h
    exact absurd rfl hquery
  · next turn before hdrop =>
    obtain ⟨text, htext, hpair⟩ := Option.map_eq_some_iff.mp h
    obtain ⟨rfl, rfl⟩ := Prod.mk.inj hpair
    have hall := List.takeWhile_append_dropWhile (p := fun m => !isUserTurn m) (l := messages.reverse)
    rw [hdrop] at hall
    refine ⟨turn, text, ⟨?_, (messages.reverse.takeWhile (!isUserTurn ·)).reverse, ?_, ?_⟩, htext,
      rfl⟩
    · have hhead := List.head?_dropWhile_not (fun m => !isUserTurn m) messages.reverse
      rw [hdrop] at hhead
      simpa using hhead
    · rw [← List.reverse_inj, List.reverse_append, List.reverse_cons, List.reverse_reverse,
        List.reverse_reverse, List.append_assoc]
      exact hall.symm
    · intro m hm
      have := List.mem_takeWhile_imp (List.mem_reverse.mp hm)
      simpa using this

theorem decideCacheable_parts {env : KeyEnv} {settings : CacheSettings} {q : CacheQuestion}
    {decision : CacheDecision} (h : decideCacheable env settings q = some decision)
    (heligible : decision.eligible = true) :
    ∃ prior, splitPriorMessages q.messages = some (prior, decision.query) ∧ decision.query ≠ "" ∧
      decision.cacheNamespace =
        buildNamespace env q.tenantId q.model q.system q.tools q.temperature prior := by
  unfold decideCacheable at h
  split at h
  · cases h
    cases heligible
  split at h
  · cases h
  · next prior query hsplit =>
    split at h
    · cases h
      cases heligible
    · next hquery =>
      split at h
      · cases h
        cases heligible
      · cases h
        exact ⟨prior, hsplit, hquery, rfl⟩

/-! ## Two requests -/

section

variable {env : KeyEnv} {tenant model model' : String} {system system' tools tools' : Json}
  {temperature temperature' : Option Rat} {prior prior' : List Json}

/-- **A namespace** of a tenant names the model and the three hashes. -/
theorem buildNamespace_parts (hhash : ∀ value, ':' ∉ (env.hash value).toList)
    (h : buildNamespace env tenant model system tools temperature prior =
      buildNamespace env tenant model' system' tools' temperature' prior') :
    model = model' ∧
      env.hash (if system.truthy then system else .str "") =
        env.hash (if system'.truthy then system' else .str "") ∧
      env.hash (if tools.truthy then tools else .arr []) =
        env.hash (if tools'.truthy then tools' else .arr []) ∧
      env.hash (.arr prior) = env.hash (.arr prior') := by
  have hchars := congrArg String.toList h
  rw [toList_buildNamespace, toList_buildNamespace] at hchars
  obtain ⟨-, hchars⟩ := append_sep_inj (by decide) (by decide) hchars
  obtain ⟨-, hchars⟩ := List.cons.inj (List.append_cancel_left hchars)
  obtain ⟨hchars, hprior⟩ := sep_append_inj (hhash _) (hhash _) hchars
  obtain ⟨hchars, htools⟩ := sep_append_inj (hhash _) (hhash _) hchars
  obtain ⟨hchars, hsystem⟩ := sep_append_inj (hhash _) (hhash _) hchars
  obtain ⟨hmodel, -⟩ := sep_append_inj (temperatureBucket_plain _) (temperatureBucket_plain _) hchars
  exact ⟨String.toList_inj.mp hmodel, String.toList_inj.mp hsystem, String.toList_inj.mp htools,
    String.toList_inj.mp hprior⟩

end

/-- What two requests with one key have in common. -/
structure SameQuestion (q q' : CacheQuestion) : Prop where
  model : q.model = q'.model
  system : (systemPart q).sortKeys = (systemPart q').sortKeys
  tools : (toolsPart q).sortKeys = (toolsPart q').sortKeys
  turns : ∃ prior turn text prior' turn' text',
    (LastTurn q.messages prior turn ∧ turnText turn = some text) ∧
      (LastTurn q'.messages prior' turn' ∧ turnText turn' = some text') ∧
      (Json.arr prior).sortKeys = (Json.arr prior').sortKeys ∧ PyStr.strip text = PyStr.strip text'

/-- **One key, one question.** Two eligible requests of a tenant with the same namespace and the
same query agree on the model, the system prompt, the tools, the messages before the last user turn
and the text of that turn. -/
theorem same_key_same_question {env : KeyEnv} {settings settings' : CacheSettings}
    {q q' : CacheQuestion} {d d' : CacheDecision}
    (hhash : ∀ value, ':' ∉ (env.hash value).toList)
    (hinj : ∀ x ∈ hashedParts q, ∀ y ∈ hashedParts q', env.hash x = env.hash y →
      x.sortKeys = y.sortKeys)
    (hd : decideCacheable env settings q = some d) (heligible : d.eligible = true)
    (hd' : decideCacheable env settings' q' = some d') (heligible' : d'.eligible = true)
    (htenant : q.tenantId = q'.tenantId) (hspace : d.cacheNamespace = d'.cacheNamespace)
    (hquery : d.query = d'.query) : SameQuestion q q' := by
  obtain ⟨prior, hsplit, hne, hname⟩ := decideCacheable_parts hd heligible
  obtain ⟨prior', hsplit', hne', hname'⟩ := decideCacheable_parts hd' heligible'
  rw [hname, hname', htenant] at hspace
  obtain ⟨hmodel, hsystem, htools, hprior⟩ := buildNamespace_parts hhash hspace
  have hpart : priorPart q = .arr prior := by
    unfold priorPart
    rw [hsplit]
    rfl
  have hpart' : priorPart q' = .arr prior' := by
    unfold priorPart
    rw [hsplit']
    rfl
  obtain ⟨turn, text, hlast, htext, hstrip⟩ := splitPriorMessages_lastTurn hsplit hne
  obtain ⟨turn', text', hlast', htext', hstrip'⟩ := splitPriorMessages_lastTurn hsplit' hne'
  refine ⟨hmodel, hinj _ (by simp [hashedParts]) _ (by simp [hashedParts]) hsystem,
    hinj _ (by simp [hashedParts]) _ (by simp [hashedParts]) htools,
    prior, turn, text, prior', turn', text', ⟨hlast, htext⟩, ⟨hlast', htext'⟩, ?_, ?_⟩
  · exact hinj _ (by simp [hashedParts, hpart]) _ (by simp [hashedParts, hpart']) hprior
  · rw [← hstrip, ← hstrip', hquery]

/-! ### A question and its picture -/

/-- `_hash` of a text, of the empty list and of another one. -/
def fixedHash : Json → String
  | .str _ => "12ae32cb1ec02d01"
  | .arr [] => "4f53cda18c2baa0c"
  | .arr _ => "9c1185a5c5e9fc54"
  | _ => "0000000000000000"

def fixedKeys : KeyEnv := ⟨fixedHash, Char.isAlphanum, Char.isDigit⟩

def textBlock (text : String) : Json := .obj [("type", .str "text"), ("text", .str text)]

def imageBlock (data : String) : Json := .obj [("type", .str "image"), ("data", .str data)]

/-- A request of the tenant `k1` that forces the cache on. -/
def ask (messages : List Json) : CacheQuestion :=
  { xCacheHeader := some "on", messages, model := "m", tenantId := "k1" }

/-- The last turn of a dialogue under a system prompt. -/
def askedAgain (content : Json) : CacheQuestion :=
  { ask [message "user" (.str "Hello"), message "assistant" (.str "Hi."), message "user" content] with
    system := .str "Be brief.", tools := .arr [] }

def askedText : CacheQuestion := askedAgain (.str "What is it?")

def askedBlock : CacheQuestion := askedAgain (.arr [textBlock "What is it? "])

def askedPicture (data : String) : CacheQuestion :=
  ask [message "user" (.arr [textBlock "What is it?", imageBlock data])]

def answerStarted (text : String) : CacheQuestion :=
  ask [message "user" (.str "What is it?"), message "assistant" (.str text)]

/-- The one decision on the pictures and the answers that are started. -/
def asked : CacheDecision :=
  { eligible := true, reason := "eligible", query := "What is it?", ttlSec := 86400
    cacheNamespace := "smc:k1:m:0:12ae32cb1ec02d01:4f53cda18c2baa0c:4f53cda18c2baa0c" }

/-- The one on the dialogues. -/
def askedTurn : CacheDecision :=
  { asked with cacheNamespace := "smc:k1:m:0:12ae32cb1ec02d01:4f53cda18c2baa0c:9c1185a5c5e9fc54" }

theorem fixedHash_plain (value : Json) : ':' ∉ (fixedHash value).toList := by
  unfold fixedHash
  split <;> decide

theorem fixedHash_inj : ∀ x ∈ hashedParts askedText, ∀ y ∈ hashedParts askedBlock,
    fixedHash x = fixedHash y → x.sortKeys = y.sortKeys := by
  intro x hx y hy hsame
  have hparts : hashedParts askedBlock = hashedParts askedText := by rfl
  have hnodup : ((hashedParts askedText).map fixedHash).Nodup := by decide +kernel
  exact congrArg Json.sortKeys (List.inj_on_of_nodup_map hnodup hx (hparts ▸ hy) hsame)

/-- A text and a block that holds it. -/
theorem same_key_same_question_asked : SameQuestion askedText askedBlock :=
  @same_key_same_question fixedKeys {} {} askedText askedBlock askedTurn askedTurn fixedHash_plain
    fixedHash_inj (by decide +kernel) rfl (by decide +kernel) rfl rfl rfl rfl

/-- **The picture is not in the key**, nor is the start of an answer. -/
theorem picture_not_in_key :
    decideCacheable fixedKeys {} (askedPicture "cat") = some asked ∧
      decideCacheable fixedKeys {} (askedPicture "dog") = some asked ∧
      decideCacheable fixedKeys {} (answerStarted "A cat") = some asked ∧
      decideCacheable fixedKeys {} (answerStarted "A dog") = some asked ∧
      (askedPicture "cat").messages ≠ (askedPicture "dog").messages ∧
      (answerStarted "A cat").messages ≠ (answerStarted "A dog").messages := by
  refine ⟨?_, ?_, ?_, ?_, ?_, ?_⟩
  · decide +kernel
  · decide +kernel
  · decide +kernel
  · decide +kernel
  · simp [askedPicture, ask, message, imageBlock]
  · simp [answerStarted, ask, message]

end LlmProxy.Cache
