import LlmProxy.Lib.Dict
import LlmProxy.Lib.PyNum
import LlmProxy.Lib.PyList
import LlmProxy.Lib.PyStr
import LlmProxy.Cluster.Stamp

/-! # The LMRH snapshot

`app/routing/lmrh/snapshot.py`: what the background task holds of every provider, the rows its
ETag is a digest of, the providers a caller sees, and the public aggregate.

Mirroring notes.
* Rates, costs and latencies are floats in the source and exact rationals here.
* The ETag is the digest of `etagRows`: SHA-1 of their JSON text, cut to 16 digits, in quotes. It
  is a function `digest` into any type of tags.
* A set that is sorted before anyone reads it is a list without duplicates.
-/

namespace LlmProxy.Lmrh

open LlmProxy.Cluster (Stamp)

/-! ## Snapshots -/

/-- `_ModelSnap`. -/
structure ModelSnap where
  modelId : String
  kind : String
  contextLength : Option Int
  nativeTools : Bool
  nativeReasoning : Bool
  costPer1mInputUsd : Option Rat
  costPer1mOutputUsd : Option Rat
  ratedQuotaPer1mInputUsd : Option Rat
  latencyP50Ms : Option Rat
  latencyP95Ms : Option Rat
  ttftP50Ms : Option Rat
  ttftP95Ms : Option Rat
  successRate : Option Rat
  samples : Int
  probeSuccessRate : Option Rat := none
  probeSamples : Int := 0
  aliases : List String := []
  family : Option String := none
  variant : Option String := none
  deriving DecidableEq

/-- `_SubQuota`. -/
structure SubQuota where
  sessionUsedPct : Option Rat
  weeklyUsedPct : Option Rat
  sessionResetsAt : Option String
  weeklyResetsAt : Option String
  deriving DecidableEq

/-- `_ProviderSnap`. -/
structure ProviderSnap where
  id : String
  name : String
  type : String
  priority : Int
  costClass : String
  circuit : String
  regions : List String
  ownedByKeyId : Option String
  models : List ModelSnap
  subscriptionQuota : Option SubQuota
  deriving DecidableEq

/-- `LmrhSnapshot`, less the ETag, which `etagRows` gives. -/
structure LmrhSnapshot where
  asOf : Stamp
  windowSec : Int
  providers : List ProviderSnap
  deriving DecidableEq

def ProviderSnap.visibleTo (keyId : String) (p : ProviderSnap) : Bool :=
  p.ownedByKeyId = none || p.ownedByKeyId = some keyId

/-- `for_caller`. -/
def LmrhSnapshot.forCaller (s : LmrhSnapshot) (keyId : String) : List ProviderSnap :=
  s.providers.filter (·.visibleTo keyId)

/-! ## The rows of the ETag -/

/-- `round(x, n) if x else None`. -/
def roundTruthy (n : Nat) (x : Option Rat) : Option Rat :=
  x.bind fun q => if q = 0 then none else some (PyFormat.round n q)

structure EtagModel where
  modelId : String
  kind : String
  contextLength : Option Int
  nativeTools : Bool
  nativeReasoning : Bool
  latencyP50Ms : Option Rat
  latencyP95Ms : Option Rat
  samples : Int
  successRate : Option Rat
  probeSamples : Int
  probeSuccessRate : Option Rat
  deriving DecidableEq

structure EtagProvider where
  id : String
  name : String
  type : String
  priority : Int
  costClass : String
  circuit : String
  regions : List String
  ownedByKeyId : Option String
  models : List EtagModel
  deriving DecidableEq

def ModelSnap.etagRow (m : ModelSnap) : EtagModel where
  modelId := m.modelId
  kind := m.kind
  contextLength := m.contextLength
  nativeTools := m.nativeTools
  nativeReasoning := m.nativeReasoning
  latencyP50Ms := roundTruthy 0 m.latencyP50Ms
  latencyP95Ms := roundTruthy 0 m.latencyP95Ms
  samples := m.samples
  successRate := roundTruthy 3 m.successRate
  probeSamples := m.probeSamples
  probeSuccessRate := roundTruthy 3 m.probeSuccessRate

def ProviderSnap.etagRow (p : ProviderSnap) : EtagProvider where
  id := p.id
  name := p.name
  type := p.type
  priority := p.priority
  costClass := p.costClass
  circuit := p.circuit
  regions := p.regions
  ownedByKeyId := p.ownedByKeyId
  models := p.models.map ModelSnap.etagRow

/-- `digest_input`. -/
def LmrhSnapshot.etagRows (s : LmrhSnapshot) : List EtagProvider :=
  s.providers.map ProviderSnap.etagRow

/-! ## The public view -/

/-- `s.update(xs)`. -/
def update (s xs : List String) : List String :=
  xs.foldl (fun s x => if s.contains x then s else s ++ [x]) s

/-- One entry of `by_model`. -/
structure PublicEntry where
  modelId : String
  family : Option String
  aliases : List String := []
  variants : List String := []
  contextLength : Option Int
  nativeTools : Bool
  nativeReasoning : Bool
  regions : List String := []
  costTiers : List String := []
  availableRoutes : Nat := 0
  totalRoutes : Nat := 0
  subscriptionRoutes : Nat := 0

def costTier (p : ProviderSnap) (m : ModelSnap) : String :=
  if p.costClass = "subscription" then "subscription"
  else match m.costPer1mInputUsd with
    | none => "unknown"
    | some cost => if cost < 1 then "economy" else if cost < 10 then "standard" else "premium"

def countModel (p : ProviderSnap) (byModel : Dict (Option String × String) PublicEntry)
    (m : ModelSnap) : Dict (Option String × String) PublicEntry :=
  let key := (m.family, m.modelId)
  let entry := (byModel.get? key).getD
    { modelId := m.modelId, family := m.family, contextLength := m.contextLength,
      nativeTools := m.nativeTools, nativeReasoning := m.nativeReasoning }
  byModel.set key
    { entry with
      aliases := update entry.aliases m.aliases
      variants := update entry.variants (m.variant.toList.filter (· ≠ ""))
      regions := update entry.regions p.regions
      costTiers := update entry.costTiers [costTier p m]
      subscriptionRoutes := entry.subscriptionRoutes + if p.costClass = "subscription" then 1 else 0
      totalRoutes := entry.totalRoutes + 1
      availableRoutes := entry.availableRoutes + if p.circuit ≠ "open" then 1 else 0 }

def countProvider (byModel : Dict (Option String × String) PublicEntry) (p : ProviderSnap) :
    Dict (Option String × String) PublicEntry :=
  p.models.foldl (countModel p) byModel

structure PublicModel where
  modelId : String
  family : Option String
  aliases : List String
  variants : List String
  contextLength : Option Int
  nativeTools : Bool
  nativeReasoning : Bool
  regions : List String
  costTiers : List String
  available : Bool
  redundancy : String
  deriving DecidableEq

def sortedTexts (s : List String) : List String := PyList.sortBy (fun a b => decide (a ≤ b)) s

def PublicEntry.render (e : PublicEntry) : PublicModel where
  modelId := e.modelId
  family := e.family
  aliases := sortedTexts e.aliases
  variants := sortedTexts e.variants
  contextLength := e.contextLength
  nativeTools := e.nativeTools
  nativeReasoning := e.nativeReasoning
  regions := sortedTexts e.regions
  costTiers := sortedTexts e.costTiers
  available := decide (0 < e.availableRoutes)
  redundancy :=
    if 3 ≤ e.availableRoutes then "many"
    else if 2 ≤ e.availableRoutes then "few"
    else if e.availableRoutes = 1 then "single"
    else "none"

/-- The order of `(family or "", model_id)`. -/
def publicOrder (a b : PublicModel) : Bool :=
  let fa := a.family.getD ""
  let fb := b.family.getD ""
  decide (fa < fb) || (fa == fb && decide (a.modelId ≤ b.modelId))

structure PublicBody where
  version : String := "2.0"
  asOf : Stamp
  scope : String := "public"
  modelsCount : Nat
  models : List PublicModel
  authRequiredForFullView : Bool := true
  authEndpoint : String := "/lmrh/providers"
  deriving DecidableEq

def publicModels (providers : List ProviderSnap) : List PublicModel :=
  PyList.sortBy publicOrder
    ((providers.foldl countProvider Dict.empty).items.map (·.2.render))

/-- `to_public_view`. -/
def LmrhSnapshot.toPublicView (s : LmrhSnapshot) : PublicBody where
  asOf := s.asOf
  modelsCount := (publicModels s.providers).length
  models := publicModels s.providers

end LlmProxy.Lmrh
