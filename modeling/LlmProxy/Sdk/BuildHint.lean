import LlmProxy.Lib.PyStr
import Mathlib.Data.Rat.Defs

/-! # Hints from the client library

`sdk/python/lmrh_client.py`: `LmrhClient.build_hint` writes the `LLM-Hint` header of a call from a
task, a preference, a model family, a region, capabilities and a cache mode.

Mirroring notes.
* `parts` is a dict of texts; a part here is a key with its value and whether `;require` is put
  behind it, as for the region.
* `extra` is left out, and of the snapshot what the choice of a provider does not read.
* A rate and its score are floats in the source and exact rationals here.
-/

namespace LlmProxy.Sdk

/-! ## The snapshot -/

structure ModelEntry where
  successRate : Option Rat
  samples : Int
  deriving DecidableEq, Repr

structure ProviderEntry where
  type : String
  circuit : String
  models : List ModelEntry
  deriving DecidableEq, Repr

abbrev Snapshot := List ProviderEntry

/-! ## Families -/

/-- `_family_provider_types`. -/
def familyProviderTypes (family : String) : Option (List String) :=
  match PyStr.searchLower family with
  | "claude" => some ["anthropic", "claude-oauth", "anthropic-oauth"]
  | "anthropic" => some ["anthropic", "claude-oauth", "anthropic-oauth"]
  | "openai" => some ["openai", "codex-oauth"]
  | "gpt" => some ["openai", "codex-oauth"]
  | "gemini" => some ["google", "vertex"]
  | "google" => some ["google", "vertex"]
  | "grok" => some ["grok", "grok-web"]
  | "cohere" => some ["cohere"]
  | "embed" => some ["cohere"]
  | _ => none

/-- `_provider_hint_for_family`. -/
def providerHintForFamily (family : String) : Option String :=
  (familyProviderTypes family).map (PyStr.join "|")

/-! ## The most reliable provider -/

/-- What a model is worth; nothing with fewer than five samples. -/
def ModelEntry.reliability (m : ModelEntry) : Option Rat :=
  match m.successRate with
  | none => none
  | some rate => if m.samples < 5 then none else some (rate * (1 + (min m.samples 1000 : Int) / 1000))

structure Best where
  provider : Option ProviderEntry := none
  score : Rat := -1
  deriving DecidableEq, Repr

def Best.seeModel (p : ProviderEntry) (best : Best) (m : ModelEntry) : Best :=
  match m.reliability with
  | none => best
  | some score => if best.score < score then ⟨some p, score⟩ else best

def Best.seeProvider (familyTypes : Option (List String)) (best : Best) (p : ProviderEntry) : Best :=
  if p.circuit ≠ "closed" then best
  else if familyTypes.any (fun types => !types.contains (PyStr.lower p.type)) then best
  else p.models.foldl (Best.seeModel p) best

/-- `_most_reliable_provider`. -/
def mostReliableProvider (snap : Option Snapshot) (familyTypes : Option (List String)) :
    Option ProviderEntry :=
  ((snap.getD []).foldl (Best.seeProvider familyTypes) {}).provider

/-! ## The hint -/

structure HintArgs where
  task : Option String := none
  prefer : Option String := none
  modelFamily : Option String := none
  region : Option String := none
  requireTools : Bool := false
  requireVision : Bool := false
  cache : Option String := none
  deriving DecidableEq, Repr

structure Part where
  key : String
  value : String
  required : Bool := false
  deriving DecidableEq, Repr

def Part.written (p : Part) : String := if p.required then p.value ++ ";require" else p.value

def given (arg : Option String) : Option String := arg.filter (· ≠ "")

def HintArgs.familyTypes (args : HintArgs) : Option (List String) :=
  (given args.modelFamily).bind familyProviderTypes

/-- The type of the most reliable provider, where that is preferred. -/
def reliableType (args : HintArgs) (snap : Option Snapshot) : Option String :=
  if args.prefer = some "most_reliable" then
    given ((mostReliableProvider snap args.familyTypes).map (·.type))
  else none

/-- The value of `parts["provider-hint"]`. -/
def providerHint (args : HintArgs) (snap : Option Snapshot) : Option String :=
  (reliableType args snap).or ((given args.modelFamily).bind providerHintForFamily)

/-- `parts`, in the order they are put there. -/
def hintParts (args : HintArgs) (snap : Option Snapshot) : List Part :=
  ((given args.task).toList.map fun v => { key := "task", value := v }) ++
    (if args.prefer = some "cheapest" then [{ key := "cost", value := "economy" }]
      else if args.prefer = some "fastest" then [{ key := "latency", value := "interactive" }]
      else []) ++
    ((providerHint args snap).toList.map fun v => { key := "provider-hint", value := v }) ++
    ((given args.region).toList.map fun v => { key := "region", value := v, required := true }) ++
    (if args.requireTools then [{ key := "tools", value := "required" }] else []) ++
    (if args.requireVision then [{ key := "vision", value := "required" }] else []) ++
    ((given args.cache).toList.map fun v => { key := "cache", value := v })

/-- `_format_hint`. -/
def formatHint (parts : List Part) : String :=
  PyStr.join ", " ((parts.filter fun p => p.written ≠ "").map fun p => p.key ++ "=" ++ p.written)

/-- `LmrhClient.build_hint`. -/
def buildHint (args : HintArgs) (snap : Option Snapshot) : String := formatHint (hintParts args snap)

example : buildHint { task := some "chat", modelFamily := some "Grok", region := some "eu" } none =
    "task=chat, provider-hint=grok|grok-web, region=eu;require" := by decide +kernel

end LlmProxy.Sdk
