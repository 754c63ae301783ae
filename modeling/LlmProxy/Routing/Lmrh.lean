import LlmProxy.Lib.PyNum
import LlmProxy.Lib.PyList

/-! # LMRH hints: scoring and ranking

`app/routing/lmrh/{types,score,headers}.py`. A hint is a list of dimensions; every candidate
profile is scored dimension by dimension, a `;require`d dimension that is missed fails the
candidate, and the survivors are ranked by descending score.

Mirroring notes.
* Scores are floats in the source and exact rationals here; `float("-inf")`, the score of a
  failed candidate, is `Score.negInf`.
* `int(dim.value)` raises `ValueError` on a value that is no integer, and the exception leaves
  the scorer: `scoreCandidate` returns it as an `Except.error`.
* Region sets are lists in the order the header gives them.
-/

namespace LlmProxy.Routing

/-! ## Hints and profiles -/

structure HintDimension where
  key : String
  value : String
  required : Bool := false
  sovereign : Bool := false
  deriving DecidableEq, Repr

structure LMRHHint where
  raw : String
  dimensions : List HintDimension := []
  deriving DecidableEq, Repr

/-- `LMRHHint.get`: the first dimension of that key. -/
def LMRHHint.get (hint : LMRHHint) (key : String) : Option HintDimension :=
  hint.dimensions.find? (·.key = key)

structure CapabilityProfile where
  providerId : String
  providerType : String
  modelId : String
  providerName : String := ""
  tasks : List String := ["chat"]
  latency : String := "medium"
  costTier : String := "standard"
  safety : Int := 3
  contextLength : Int := 128000
  maxOutputTokens : Option Int := none
  regions : List String := []
  modalities : List String := ["text"]
  nativeReasoning : Bool := false
  nativeTools : Bool := true
  nativeVision : Bool := false
  priority : Int := 10
  avgTtftMs : Rat := 0
  overDailyBudget : Bool := false
  toolCallSuccessRate : Option Rat := none
  deriving DecidableEq

/-! ## Weights and lookup tables -/

/-- `WEIGHTS`. -/
def weight : String → Rat
  | "task" => 10
  | "safety-min" => 8
  | "safety-max" => 8
  | "modality" => 5
  | "region" => 6
  | "latency" => 4
  | "cost" => 3
  | "context-length" => 2
  | "provider-hint" => 5
  | "exclude" => 5
  | "refuse-tolerance" => 8
  | _ => 0

/-- `TASK_ALIASES.get(value, [value])`. -/
def taskAliases : String → List String
  | "chat" => ["chat"]
  | "reasoning" => ["reasoning", "analysis", "code"]
  | "analysis" => ["analysis", "reasoning"]
  | "code" => ["code", "reasoning"]
  | "creative" => ["creative", "chat"]
  | "audio" => ["audio"]
  | "vision" => ["vision"]
  | value => [value]

/-- `LATENCY_RANK.get(value, 1)`. -/
def latencyRank : String → Nat
  | "low" => 0
  | "medium" => 1
  | "high" => 2
  | _ => 1

/-- `COST_RANK.get(value, 1)`. -/
def costRank : String → Nat
  | "economy" => 0
  | "standard" => 1
  | "premium" => 2
  | _ => 1

/-- `_TIER_USD.get(tier, 0.01)`. -/
def tierUsd : String → Rat
  | "economy" => 2 / 1000
  | "standard" => 1 / 100
  | "premium" => 5 / 100
  | _ => 1 / 100

/-- `_REFUSAL_RATE_TO_SAFETY_CEIL`. -/
def refusalRateCeil : String → Option Int
  | "permissive" => some 2
  | "standard" => some 3
  | "strict" => some 4
  | "maximum" => some 5
  | _ => none

/-- `_REFUSE_TOLERANCE_TO_SAFETY_FLOOR` and `_CEIL`. -/
def refuseTolerance : String → Option (Int × Int)
  | "strict" => some (4, 5)
  | "default" => some (2, 4)
  | "lenient" => some (1, 2)
  | _ => none

/-- `_PROVIDER_FAMILY_TYPES`. -/
def providerFamilyTypes : String → List String
  | "anthropic" => ["anthropic", "anthropic-direct", "anthropic-oauth", "claude-oauth"]
  | "openai" => ["openai", "openai-direct", "chatgpt-oauth-plan"]
  | "google" => ["vertex_ai", "google-genai", "gemini"]
  | "microsoft" => ["azure"]
  | "azure" => ["azure"]
  | "cohere" => ["cohere"]
  | "grok" => ["grok"]
  | _ => []

/-- `_provider_hint_match`. -/
def providerHintMatch (token providerName providerType : String) : Bool :=
  let t := PyStr.lower (PyStr.strip token)
  let pn := PyStr.lower providerName
  let pt := PyStr.lower providerType
  t ≠ "" && (t = pn || t = pt || (providerFamilyTypes t).contains pt)

/-- The non-blank entries of a comma-separated value, stripped. -/
def listValue (value : String) : List String :=
  ((PyStr.split value ',').map PyStr.strip).filter (· ≠ "")

/-- The regions a `region=` value asks for; `any` and `*` ask for nothing. -/
def wantedRegions (value : String) : List String :=
  ((listValue value).map PyStr.lower).filter fun v => v ≠ "any" && v ≠ "*"

/-- A region of the profile is one of the wanted ones or lies below one of them. -/
def regionMatches (wanted regions : List String) : Bool :=
  let have_ := regions.map PyStr.lower
  wanted.any have_.contains || wanted.any fun w => have_.any fun r => PyStr.startsWith r (w ++ "-")

/-! ## Scoring -/

inductive DimVerdict where
  | met (points : Rat)
  | missed
  | penalised (points : Rat)
  | ignored
  | failed
  | invalid (message : String)
  deriving DecidableEq

/-- The common tail of the dimensions: points when satisfied, failure when required. -/
def judge (dim : HintDimension) (satisfied : Bool) (points : Rat) : DimVerdict :=
  if satisfied then .met points else if dim.required then .failed else .missed

def judgeInt (dim : HintDimension) (satisfied : Int → Bool) (points : Rat) : DimVerdict :=
  match PyNum.int? dim.value with
  | some n => judge dim (satisfied n) points
  | none => .invalid ("invalid literal for int() with base 10: '" ++ dim.value ++ "'")

/-- A float value with the default the source falls back to. -/
def floatOrZero (value : String) : PyNum.Float := (PyNum.float? value).getD (.fin 0)

/-- The `match` of `score_candidate`. -/
def scoreDim (profile : CapabilityProfile) (dim : HintDimension) : DimVerdict :=
  match dim.key with
  | "task" =>
    judge dim ((taskAliases dim.value).any profile.tasks.contains) (weight "task")
  | "safety-min" => judgeInt dim (fun n => n ≤ profile.safety) (weight "safety-min")
  | "safety-max" => judgeInt dim (fun n => profile.safety ≤ n) (weight "safety-max")
  | "latency" => judge dim (latencyRank profile.latency ≤ latencyRank dim.value) (weight "latency")
  | "cost" => judge dim (costRank profile.costTier ≤ costRank dim.value) (weight "cost")
  | "region" =>
    if profile.regions.isEmpty then
      if dim.sovereign then .failed else .met (weight "region")
    else
      let wanted := wantedRegions dim.value
      judge dim (wanted.isEmpty || regionMatches wanted profile.regions) (weight "region")
  | "context-length" =>
    judgeInt dim (fun n => n ≤ profile.contextLength) (weight "context-length")
  | "modality" =>
    judge dim (profile.modalities.contains dim.value || profile.modalities.contains "multimodal")
      (weight "modality")
  | "max-ttft" =>
    judge dim (profile.avgTtftMs = 0 || PyNum.leFloat profile.avgTtftMs (floatOrZero dim.value))
      (weight "latency")
  | "max-cost-per-1k" =>
    judge dim (PyNum.leFloat (tierUsd profile.costTier) (floatOrZero dim.value)) (weight "cost")
  | "exclude" =>
    let excluded := (listValue dim.value).map PyStr.lower
    if excluded.contains (PyStr.lower profile.providerName) ||
        excluded.contains (PyStr.lower profile.providerType) then
      if dim.required then .failed else .penalised (weight "exclude")
    else .ignored
  | "provider-hint" | "fallback-chain" =>
    judge dim ((listValue dim.value).any fun w =>
      providerHintMatch w profile.providerName profile.providerType) (weight "provider-hint")
  | "refusal-rate" =>
    -- an unknown value is unmet even when required
    match refusalRateCeil (PyStr.lower dim.value) with
    | none => .missed
    | some ceil => judge dim (profile.safety ≤ ceil) (weight "safety-max")
  | "refuse-tolerance" =>
    match refuseTolerance (PyStr.lower dim.value) with
    | none => .missed
    | some (floor, ceil) =>
      judge dim (floor ≤ profile.safety && profile.safety ≤ ceil) (weight "refuse-tolerance")
  | _ => .ignored

/-- A score: a finite value, or the `-inf` of a candidate that failed a hard constraint. -/
inductive Score where
  | negInf
  | fin (q : Rat)
  deriving DecidableEq

/-- `a <= b`. -/
def Score.le : Score → Score → Bool
  | .negInf, _ => true
  | .fin _, .negInf => false
  | .fin a, .fin b => a ≤ b

/-- The loop of `score_candidate` over the dimensions, with its early return. -/
def scoreDims (profile : CapabilityProfile) :
    List HintDimension → Rat → List String → Except String (Score × List String)
  | [], score, unmet => .ok (.fin score, unmet)
  | dim :: rest, score, unmet =>
    match scoreDim profile dim with
    | .met points => scoreDims profile rest (score + points) unmet
    | .missed => scoreDims profile rest score (unmet ++ [dim.key])
    | .penalised points => scoreDims profile rest (score - points) (unmet ++ [dim.key])
    | .ignored => scoreDims profile rest score unmet
    | .failed => .ok (.negInf, [dim.key])
    | .invalid message => .error message

/-- What a profile scores before any hint: speed, budget and priority. -/
def baseScore (profile : CapabilityProfile) : Rat :=
  (if 0 < profile.avgTtftMs then 5 * max 0 (1 - profile.avgTtftMs / 3000) else 0) +
    (if profile.overDailyBudget then -50 else 0) + ((max 0 (100 - profile.priority) : Int) : Rat)

/-- `score_candidate`. -/
def scoreCandidate (profile : CapabilityProfile) (hint : LMRHHint) :
    Except String (Score × List String) :=
  match scoreDims profile hint.dimensions 0 [] with
  | .ok (.fin q, unmet) => .ok (.fin (q + baseScore profile), unmet)
  | .ok (.negInf, unmet) => .ok (.negInf, unmet)
  | .error message => .error message

structure Ranked where
  profile : CapabilityProfile
  unmet : List String
  score : Score
  deriving DecidableEq

/-- Score the profiles, dropping those that fail a hard constraint. -/
def scoreAll (hint : LMRHHint) : List CapabilityProfile → Except String (List Ranked)
  | [] => .ok []
  | p :: rest =>
    match scoreCandidate p hint with
    | .error message => .error message
    | .ok (score, unmet) =>
      match scoreAll hint rest with
      | .error message => .error message
      | .ok ranked => .ok (if score = .negInf then ranked else ⟨p, unmet, score⟩ :: ranked)

def byScore (ranked : List Ranked) : List Ranked :=
  PyList.sortBy (fun a b => b.score.le a.score) ranked

/-- `rank_candidates_with_scores`. -/
def rankCandidatesWithScores (profiles : List CapabilityProfile) (hint : Option LMRHHint) :
    Except String (List Ranked) :=
  match hint with
  | none =>
    .ok ((PyList.sortBy (fun a b => a.priority ≤ b.priority) profiles).map fun p =>
      ⟨p, [], .fin ((1000 - p.priority : Int) : Rat)⟩)
  | some h =>
    match scoreAll h profiles with
    | .error message => .error message
    | .ok ranked => .ok (byScore ranked)

/-! ## The capability header -/

/-- `build_capability_header`, with `chosen-because=score`. -/
def buildCapabilityHeader (profile : CapabilityProfile) (unmet : List String)
    (cotEngaged toolEmulation : Bool) (modelOverride : String) (hint : Option LMRHHint) : String :=
  let modelStr := if modelOverride ≠ "" then modelOverride else profile.modelId
  let parts :=
    ["v=1", "provider=" ++ profile.providerId, "model=" ++ modelStr,
     "task=" ++ PyStr.join "," profile.tasks, "safety=" ++ toString profile.safety,
     "latency=" ++ profile.latency, "cost=" ++ profile.costTier,
     "region=" ++ (if profile.regions.isEmpty then "any" else PyStr.join "," profile.regions),
     "chosen-because=score"]
  let unmetPart := if unmet.isEmpty then [] else ["unmet=" ++ PyStr.join " " unmet]
  let regionPart :=
    match hint.bind (·.get "region"), profile.regions.map PyStr.lower with
    | some dim, served :: more =>
      let wanted := wantedRegions dim.value
      let regions := served :: more
      if unmet.contains "region" || wanted.isEmpty then []
      else match PyList.sortBy (fun a b => decide (a ≤ b)) (wanted.filter regions.contains) with
        | exact :: _ => ["served-region=" ++ exact, "region-honored=strict"]
        | [] =>
          let below := wanted.flatMap fun w => regions.filter fun r => PyStr.startsWith r (w ++ "-")
          ["served-region=" ++ below.headD served, "region-honored=loose"]
    | _, _ => []
  let flags := (if cotEngaged then ["cot-engaged=?1"] else []) ++
    (if toolEmulation then ["tool-emulation=?1"] else [])
  PyStr.join ", " (parts ++ unmetPart ++ regionPart ++ flags)

/-! ## What ranking keeps -/

theorem scoreAll_mem {hint : LMRHHint} {profiles : List CapabilityProfile} {ranked : List Ranked}
    (h : scoreAll hint profiles = .ok ranked) {t : Ranked} (ht : t ∈ ranked) :
    t.profile ∈ profiles := by
  induction profiles generalizing ranked with
  | nil =>
    have hnil : ranked = [] := (Except.ok.inj h).symm
    rw [hnil] at ht
    cases ht
  | cons p rest ih =>
    unfold scoreAll at h
    split at h
    · cases h
    · split at h
      · cases h
      · next more hrest =>
        have hranked := (Except.ok.inj h).symm
        rw [hranked] at ht
        split at ht
        · exact List.mem_cons_of_mem p (ih hrest ht)
        · rcases List.mem_cons.mp ht with heq | hmore
          · rw [heq]
            exact List.mem_cons_self
          · exact List.mem_cons_of_mem p (ih hrest hmore)

theorem rankCandidatesWithScores_mem {profiles : List CapabilityProfile} {hint : Option LMRHHint}
    {ranked : List Ranked} (h : rankCandidatesWithScores profiles hint = .ok ranked) {t : Ranked}
    (ht : t ∈ ranked) : t.profile ∈ profiles := by
  unfold rankCandidatesWithScores at h
  split at h
  · have hranked := (Except.ok.inj h).symm
    rw [hranked] at ht
    obtain ⟨p, hp, hpt⟩ := List.mem_map.mp ht
    rw [← hpt]
    exact PyList.mem_sortBy.mp hp
  · split at h
    · cases h
    · next scored hscored =>
      have hranked := (Except.ok.inj h).symm
      rw [hranked] at ht
      exact scoreAll_mem hscored (PyList.mem_sortBy.mp ht)

end LlmProxy.Routing
