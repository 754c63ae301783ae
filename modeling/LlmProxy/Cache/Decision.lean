import LlmProxy.Lib.PyList
import LlmProxy.Lib.PyNum
import LlmProxy.Lib.Regex
import LlmProxy.Lib.Separated
import LlmProxy.Dispatch.NonStreaming

/-! # What the semantic cache is asked and told

`app/cache/keys.py` and `app/cache/middleware.py`: whether a request is cacheable, the namespace
its answer is stored under, and the gate of a store.

> `buildNamespace_inj`: a namespace determines the tenant and the model it is built for.

Mirroring notes.
* `hash` is `_hash`: sixteen hexadecimal digits of a SHA-256.
* `isalnum` and `isdecimal` are Python's tables of characters, for `\w`, `\b` and `\d`.
* A request whose messages make `split_prior_messages` raise has no decision.
-/

namespace LlmProxy.Cache

open LlmProxy.Dispatch (blockTexts)
open Separated

/-- `CacheDecision`. -/
structure CacheDecision where
  eligible : Bool
  reason : String
  cacheNamespace : String := ""
  query : String := ""
  ttlSec : Int := 0
  deriving DecidableEq

structure CacheSettings where
  semanticCacheEnabled : Bool := true
  semanticCacheTtlSec : Int := 86400
  semanticCacheMinResponseChars : Int := 200
  deriving DecidableEq

/-- What the decisions read besides a request. -/
structure KeyEnv where
  hash : Json → String
  isalnum : Char → Bool
  isdecimal : Char → Bool

/-! ## Personal data -/

section

variable (env : KeyEnv)

def word (c : Char) : Bool := c = '_' || env.isalnum c

/-- `p{n}`. -/
def exactly (n : Nat) (p : Char → Bool) : Regex := Regex.concat (List.replicate n (.one p))

/-- `(?:a)?`. -/
def maybe (a : Regex) : Regex := .alt a .empty

def among (chars : String) (c : Char) : Bool := chars.toList.contains c

/-- `a{n,n+extra}`. -/
def between (n : Nat) (a : Regex) : Nat → Regex
  | 0 => Regex.concat (List.replicate n a)
  | extra + 1 => .seq (between n a extra) (maybe a)

/-- `_PII_PATTERNS`: a mail address, a social security number, a card number, a phone number. -/
def piiPatterns : List Regex :=
  let digit := env.isdecimal
  let gap := maybe (.one (among "-. "))
  [ Regex.concat [.boundary, Regex.many1 (fun c => word env c || among ".+-" c), .text "@",
      Regex.many1 (fun c => word env c || c = '-'), .text ".",
      Regex.many1 (fun c => word env c || among ".-" c), .boundary],
    Regex.concat [.boundary, exactly 3 digit, gap, exactly 2 digit, gap, exactly 4 digit, .boundary],
    Regex.concat [.boundary, between 13 (.seq (.one digit) (.many (among " -"))) 6, .boundary],
    Regex.concat [Regex.optional "+", between 1 (.one digit) 2, gap, Regex.optional "(",
      exactly 3 digit, Regex.optional ")", gap, exactly 3 digit, gap, exactly 4 digit] ]

/-- `contains_pii`. -/
def containsPii (text : String) : Bool :=
  text ≠ "" && (piiPatterns env).any fun pattern => (pattern.search env.isalnum text).isSome

end

/-! ## Keys -/

/-- The float `0.3`. -/
def lowTemperature : Rat := 5404319552844595 / 18014398509481984

/-- `is_cacheable_temperature`. -/
def isCacheableTemperature (temperature : Option Rat) : Bool :=
  temperature.all (· ≤ lowTemperature)

def temperatureBucket (temperature : Option Rat) : String :=
  if temperature.getD 0 = 0 then "0"
  else if temperature.getD 0 ≤ lowTemperature then "low"
  else "high"

def isUserTurn (m : Json) : Bool :=
  match m.get? "role" with
  | some (.str role) => role = "user"
  | _ => false

def turnText (turn : Json) : Option String :=
  match turn.get? "content" with
  | none => some ""
  | some (.str text) => some text
  | some (.arr blocks) => (blockTexts blocks).map (PyStr.join "\n")
  | some (.obj _) => some ""
  | some _ => none

/-- `split_prior_messages`: what stands before the last user turn, and its text. -/
def splitPriorMessages (messages : List Json) : Option (List Json × String) :=
  match messages.reverse.dropWhile (!isUserTurn ·) with
  | [] => some (messages, "")
  | turn :: before => (turnText turn).map fun text => (before.reverse, PyStr.strip text)

/-- `build_namespace`. -/
def buildNamespace (env : KeyEnv) (tenantId model : String) (system tools : Json)
    (temperature : Option Rat) (priorMessages : List Json) : String :=
  PyStr.join ":" ["smc", tenantId, model, temperatureBucket temperature,
    env.hash (if system.truthy then system else .str ""),
    env.hash (if tools.truthy then tools else .arr []), env.hash (.arr priorMessages)]

/-! ## The decision -/

/-- `resolve_ttl`. -/
def resolveTtl (settings : CacheSettings) (headerValue : Option String) : Int :=
  match (headerValue.filter (· ≠ "")).bind PyNum.int? with
  | some ttl => max 60 (min 86400 ttl)
  | none => settings.semanticCacheTtlSec

/-- The arguments of `decide_cacheable`. -/
structure CacheQuestion where
  xCacheHeader : Option String := none
  apiKeyOptIn : Bool := false
  keyType : String := "standard"
  cotEngaged : Bool := false
  toolEmulation : Bool := false
  hasTools : Bool := false
  /-- a `webhook_url` is given -/
  webhook : Bool := false
  temperature : Option Rat := none
  messages : List Json := []
  model : String
  tenantId : String
  system : Json := .null
  tools : Json := .null
  xCacheTtlHeader : Option String := none

/-- The reason to bypass the cache that comes before the messages are read. -/
def bypassReason (settings : CacheSettings) (q : CacheQuestion) : Option String :=
  let header := PyStr.lower (q.xCacheHeader.getD "")
  let forceOn := ["semantic", "on", "true"].contains header
  if !settings.semanticCacheEnabled then some "globally_disabled"
  else if ["none", "off", "false"].contains header then some "header_opt_out"
  else if !(forceOn || q.apiKeyOptIn) then some "not_opted_in"
  else if q.keyType = "claude-code" && !forceOn then some "claude_code_default_off"
  else if q.cotEngaged then some "cot_engaged"
  else if q.toolEmulation || q.hasTools then some "tools_present"
  else if q.webhook then some "webhook_async"
  else if !isCacheableTemperature q.temperature then some "temperature_too_high"
  else none

/-- `decide_cacheable`. -/
def decideCacheable (env : KeyEnv) (settings : CacheSettings) (q : CacheQuestion) :
    Option CacheDecision :=
  match bypassReason settings q with
  | some reason => some { eligible := false, reason }
  | none =>
    match splitPriorMessages q.messages with
    | none => none
    | some (prior, query) =>
      if query = "" then some { eligible := false, reason := "empty_query" }
      else if containsPii env query then some { eligible := false, reason := "pii_detected" }
      else some
        { eligible := true
          reason := "eligible"
          cacheNamespace := buildNamespace env q.tenantId q.model q.system q.tools q.temperature prior
          query
          ttlSec := resolveTtl settings q.xCacheTtlHeader }

/-- The gate of `maybe_store`. -/
def storable (settings : CacheSettings) (decision : CacheDecision) (responseText : String) : Bool :=
  decision.eligible && responseText ≠ "" &&
    settings.semanticCacheMinResponseChars ≤ (responseText.length : Int)

theorem decideCacheable_eligible {env : KeyEnv} {settings : CacheSettings} {q : CacheQuestion}
    {decision : CacheDecision} (h : decideCacheable env settings q = some decision)
    (heligible : decision.eligible = true) :
    q.cotEngaged = false ∧ q.toolEmulation = false ∧ q.hasTools = false ∧ q.webhook = false ∧
      ∃ prior, decision.cacheNamespace =
        buildNamespace env q.tenantId q.model q.system q.tools q.temperature prior := by
  unfold decideCacheable at h
  split at h
  · cases h
    cases heligible
  · next hnone =>
    have hgates : q.cotEngaged = false ∧ (q.toolEmulation || q.hasTools) = false ∧
        q.webhook = false := by
      unfold bypassReason at hnone
      dsimp only at hnone
      simp only [ite_eq_iff, reduceCtorEq, and_false, false_or, Bool.not_eq_true] at hnone
      exact ⟨hnone.2.2.2.2.1, hnone.2.2.2.2.2.1, hnone.2.2.2.2.2.2.1⟩
    obtain ⟨hcot, htools, hwebhook⟩ := hgates
    obtain ⟨hemulation, htools⟩ := Bool.or_eq_false_iff.mp htools
    split at h
    · cases h
    · next prior query hsplit =>
      split at h
      · cases h
        cases heligible
      split at h
      · cases h
        cases heligible
      · cases h
        exact ⟨hcot, hemulation, htools, hwebhook, prior, rfl⟩

/-! ## Namespaces -/

theorem temperatureBucket_plain (temperature : Option Rat) :
    ':' ∉ (temperatureBucket temperature).toList := by
  unfold temperatureBucket
  split
  · decide
  split
  · decide
  · decide

section

variable {env : KeyEnv} {tenant tenant' model model' : String} {system system' tools tools' : Json}
  {temperature temperature' : Option Rat} {prior prior' : List Json}

theorem toList_buildNamespace :
    (buildNamespace env tenant model system tools temperature prior).toList =
      "smc".toList ++ ':' :: (tenant.toList ++ ':' :: ((((model.toList ++
        ':' :: (temperatureBucket temperature).toList) ++
        ':' :: (env.hash (if system.truthy then system else .str "")).toList) ++
        ':' :: (env.hash (if tools.truthy then tools else .arr [])).toList) ++
        ':' :: (env.hash (.arr prior)).toList)) := by
  simp [buildNamespace, PyStr.join]

/-- **A namespace** is that of one tenant and one model. -/
theorem buildNamespace_inj (hhash : ∀ value, ':' ∉ (env.hash value).toList)
    (htenant : ':' ∉ tenant.toList) (htenant' : ':' ∉ tenant'.toList)
    (h : buildNamespace env tenant model system tools temperature prior =
      buildNamespace env tenant' model' system' tools' temperature' prior') :
    tenant = tenant' ∧ model = model' := by
  have hchars := congrArg String.toList h
  rw [toList_buildNamespace, toList_buildNamespace] at hchars
  obtain ⟨-, hchars⟩ := append_sep_inj (by decide) (by decide) hchars
  obtain ⟨hsame, hchars⟩ := append_sep_inj htenant htenant' hchars
  -- behind the model stand four fields without a colon
  obtain ⟨hchars, -⟩ := sep_append_inj (hhash _) (hhash _) hchars
  obtain ⟨hchars, -⟩ := sep_append_inj (hhash _) (hhash _) hchars
  obtain ⟨hchars, -⟩ := sep_append_inj (hhash _) (hhash _) hchars
  obtain ⟨hmodel, -⟩ :=
    sep_append_inj (temperatureBucket_plain _) (temperatureBucket_plain _) hchars
  exact ⟨String.toList_inj.mp hsame, String.toList_inj.mp hmodel⟩

end

end LlmProxy.Cache
