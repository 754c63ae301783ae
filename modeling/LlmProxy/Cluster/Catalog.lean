import LlmProxy.Lib.Copied
import LlmProxy.Cluster.ClusterPeers

/-! # Merges of unlike stamps

Four sections of `apply_sync` whose rows carry a stamp or none: `model_capabilities` and
`model_aliases` and `lmrh_proposals` (`app/cluster/sync.py`), and
`_apply_provider_node_auth_states` (`app/cluster/sync_handlers.py`), each as the branch for a local
row.

Mirroring notes.
* A null list or text column of a capability reads as the empty one.
* The `id` of a proposal and the `created_at` of an alias are sent and never read.
-/

namespace LlmProxy.Cluster

open Copied

/-- A peer row, the providers the node knows when it comes, and the database's clock. -/
structure Arrival (β : Type) where
  row : β
  known : List String := []
  now : Stamp := 0

def always {α : Type} (_ : α) : Bool := true

def filled {α : Type} (xs : List α) : Bool := !xs.isEmpty

def written (text : String) : Bool := text ≠ ""

/-! ## Model capabilities -/

structure ModelCapability where
  providerId : String
  modelId : String
  tasks : List String := []
  latency : String := "medium"
  costTier : String := "standard"
  safety : Option Int := some 3
  contextLength : Option Int := some 128000
  regions : List String := []
  modalities : List String := []
  nativeReasoning : Option Bool := some false
  nativeTools : Option Bool := some true
  nativeVision : Option Bool := some true
  source : String := "inferred"
  aliases : List String := []
  modelFamily : Option String := none
  modelVariant : Option String := none
  updatedAt : Option Stamp := none
  deriving DecidableEq, Repr

/-- A capability of a payload; a field may be left out, and the inner `Option` is a null. -/
structure PeerCapability where
  providerId : String
  modelId : String
  tasks : Option (List String) := none
  latency : Option String := none
  costTier : Option String := none
  safety : Option (Option Int) := none
  contextLength : Option (Option Int) := none
  regions : Option (List String) := none
  modalities : Option (List String) := none
  nativeReasoning : Option (Option Bool) := none
  nativeTools : Option (Option Bool) := none
  nativeVision : Option (Option Bool) := none
  source : Option String := none
  aliases : Option (List String) := none
  modelFamily : Option (Option String) := none
  modelVariant : Option (Option String) := none
  updatedAt : Option Stamp := none
  deriving DecidableEq, Repr

/-- The capabilities section of `_build_sync_payload`. -/
def buildPeerCapability (c : ModelCapability) : PeerCapability :=
  { providerId := c.providerId
    modelId := c.modelId
    tasks := some c.tasks
    latency := some (if c.latency = "" then "medium" else c.latency)
    costTier := some (if c.costTier = "" then "standard" else c.costTier)
    safety := some (if c.safety.getD 0 = 0 then some 3 else c.safety)
    contextLength := some (if c.contextLength.getD 0 = 0 then some 128000 else c.contextLength)
    regions := some c.regions
    modalities := some c.modalities
    nativeReasoning := some (some (c.nativeReasoning.getD false))
    nativeTools := some (some (c.nativeTools.getD true))
    nativeVision := some (some (c.nativeVision.getD false))
    source := some (if c.source = "" then "inferred" else c.source)
    aliases := some c.aliases
    modelFamily := some c.modelFamily
    modelVariant := some c.modelVariant
    updatedAt := c.updatedAt }

/-- The row is left for a later sync: its provider has not come yet. -/
def deferredCapability (d : Arrival PeerCapability) : Bool :=
  d.row.providerId = "" || d.row.modelId = "" || !d.known.contains d.row.providerId

/-- Both sides have a stamp, and the peer's is not newer. -/
def notNewer (peer existing : Option Stamp) : Bool :=
  match peer, existing with
  | some p, some l => p ≤ l
  | _, _ => false

def takeCapability (r : PeerCapability) (existing : ModelCapability) : ModelCapability :=
  { existing with
    tasks := copyIf filled r.tasks existing.tasks
    latency := copyIf written r.latency existing.latency
    costTier := copyIf written r.costTier existing.costTier
    safety := copyIf Option.isSome r.safety existing.safety
    contextLength := copyIf Option.isSome r.contextLength existing.contextLength
    regions := copyIf filled r.regions existing.regions
    modalities := copyIf filled r.modalities existing.modalities
    nativeReasoning := copyIf Option.isSome r.nativeReasoning existing.nativeReasoning
    nativeTools := copyIf Option.isSome r.nativeTools existing.nativeTools
    nativeVision := copyIf Option.isSome r.nativeVision existing.nativeVision
    source := copyIf written r.source existing.source
    aliases := copyIf always r.aliases existing.aliases
    modelFamily := copyIf always r.modelFamily existing.modelFamily
    modelVariant := copyIf always r.modelVariant existing.modelVariant
    updatedAt := copyIf always (r.updatedAt.map some) existing.updatedAt }

/-- The column's `onupdate`: a row that is written without a stamp of its own is stamped. -/
def flushCapability (now : Stamp) (old new : ModelCapability) : ModelCapability :=
  if new = old then old
  else if new.updatedAt = old.updatedAt then { new with updatedAt := some (serverNow now) }
  else new

def mergeCapability (d : Arrival PeerCapability) (existing : ModelCapability) : ModelCapability :=
  if deferredCapability d then existing
  else if notNewer d.row.updatedAt existing.updatedAt then existing
  else flushCapability d.now existing (takeCapability d.row existing)

/-! ## The auth states of the nodes -/

structure ProviderNodeAuthState where
  providerId : String
  nodeId : String
  authState : String := "never_authed"
  lastOkAt : Option Stamp := none
  lastCheckAt : Option Stamp := none
  reauthUrl : Option String := none
  lastError : Option String := none
  deriving DecidableEq, Repr

/-- An observation of a payload; what is left out reads as null. -/
structure PeerAuthState where
  authState : Option String
  lastOkAt : Option Stamp := none
  lastCheckAt : Option Stamp := none
  reauthUrl : Option String := none
  lastError : Option String := none
  deriving DecidableEq, Repr

/-- The auth states section of `_build_sync_payload`. -/
def buildPeerAuthState (s : ProviderNodeAuthState) : PeerAuthState :=
  { authState := some s.authState
    lastOkAt := s.lastOkAt
    lastCheckAt := s.lastCheckAt
    reauthUrl := s.reauthUrl
    lastError := s.lastError }

def takeAuthState (r : PeerAuthState) (existing : ProviderNodeAuthState) : ProviderNodeAuthState :=
  { existing with
    authState := if r.authState.getD "" = "" then "never_authed" else r.authState.getD ""
    lastOkAt := r.lastOkAt
    lastCheckAt := r.lastCheckAt
    reauthUrl := r.reauthUrl
    lastError := if r.lastError = some "" then none else r.lastError }

def mergeAuthState (r : PeerAuthState) (existing : ProviderNodeAuthState) : ProviderNodeAuthState :=
  if notNewer r.lastCheckAt existing.lastCheckAt then existing else takeAuthState r existing

/-! ## Proposals -/

structure LmrhProposal where
  proposedName : String
  proposedAt : EditStamp
  rationale : Option String := none
  proposerApp : Option String := none
  proposerKeyId : Option String := none
  status : Option String := some "pending"
  reviewNote : Option String := none
  deletedAt : Option EditStamp := none
  deriving DecidableEq, Repr

structure PeerProposal where
  rationale : Option (Option String) := none
  proposerApp : Option (Option String) := none
  proposerKeyId : Option (Option String) := none
  status : Option (Option String) := none
  reviewNote : Option (Option String) := none
  deletedAt : Option EditStamp := none
  deriving DecidableEq, Repr

/-- The proposals section of `_build_sync_payload`. -/
def buildPeerProposal (p : LmrhProposal) : PeerProposal :=
  { rationale := some p.rationale
    proposerApp := some p.proposerApp
    proposerKeyId := some p.proposerKeyId
    status := some p.status
    reviewNote := some p.reviewNote
    deletedAt := p.deletedAt }

def adoptsProposalTombstone (peer existing : Option EditStamp) : Bool :=
  match peer, existing with
  | none, _ => false
  | some _, none => true
  | some p, some l => l ≤ p

def takeProposal (r : PeerProposal) (existing : LmrhProposal) : LmrhProposal :=
  { existing with
    status := copyIf always r.status existing.status
    reviewNote := copyIf always r.reviewNote existing.reviewNote }

def mergeProposal (r : PeerProposal) (existing : LmrhProposal) : LmrhProposal :=
  if adoptsProposalTombstone r.deletedAt existing.deletedAt then { existing with deletedAt := r.deletedAt }
  else if existing.deletedAt.isSome && r.deletedAt.isNone then existing
  else takeProposal r existing

/-! ## Model aliases -/

structure ModelAlias where
  aliasName : String
  providerId : Option String := none
  modelId : String
  description : Option String := none
  deriving DecidableEq, Repr

structure PeerAlias where
  aliasName : String
  providerId : Option String := none
  modelId : Option String := none
  description : Option String := none
  deriving DecidableEq, Repr

/-- The aliases section of `_build_sync_payload`. -/
def buildPeerAlias (a : ModelAlias) : PeerAlias :=
  { aliasName := a.aliasName
    providerId := a.providerId
    modelId := some a.modelId
    description := a.description }

/-- The row is left for a later sync: it names a provider that has not come yet. -/
def deferredAlias (d : Arrival PeerAlias) : Bool :=
  d.row.aliasName = "" || d.row.providerId.any fun p => p ≠ "" && !d.known.contains p

def takeAlias (r : PeerAlias) (existing : ModelAlias) : ModelAlias :=
  { existing with
    providerId := r.providerId
    modelId := copyIf written r.modelId existing.modelId
    description := r.description }

def mergeAlias (d : Arrival PeerAlias) (existing : ModelAlias) : ModelAlias :=
  if deferredAlias d then existing else takeAlias d.row existing

end LlmProxy.Cluster
