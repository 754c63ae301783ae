import LlmProxy.Lmrh.Snapshot

/-! # The LMRH endpoints

`GET /lmrh/providers` and `GET /lmrh/public` (`app/api/lmrh_v2.py`) over a snapshot.

> `never_stale_iff`: which 304s a poller may rely on. The ETag and the body list the fields of a
> provider independently, so an answer is stale where only fields the ETag leaves out have changed.

Mirroring notes.
* `limited` is what `_check_rate_limit` answers: the seconds of its `Retry-After`, if any.
* The absence of a snapshot at boot is repaired by a build before anything is read, so a snapshot
  is always there.
-/

namespace LlmProxy.Lmrh

open LlmProxy.Cluster (Stamp)

/-! ## `_render_provider` -/

structure WireMetrics where
  costPer1mInputUsd : Option Rat
  costPer1mOutputUsd : Option Rat
  ratedQuotaPer1mInputUsd : Option Rat
  latencyP50Ms : Option Rat
  latencyP95Ms : Option Rat
  ttftP50Ms : Option Rat
  ttftP95Ms : Option Rat
  successRate : Option Rat
  samples : Int
  probeSuccessRate : Option Rat
  probeSamples : Int
  deriving DecidableEq

structure WireModel where
  modelId : String
  kind : String
  contextLength : Option Int
  nativeTools : Bool
  nativeReasoning : Bool
  aliases : List String
  family : Option String
  variant : Option String
  metrics : WireMetrics
  deriving DecidableEq

structure WireProvider where
  id : String
  name : String
  type : String
  priority : Int
  costClass : String
  circuit : String
  regions : List String
  models : List WireModel
  subscriptionQuota : Option SubQuota
  deriving DecidableEq

def renderModel (m : ModelSnap) : WireModel where
  modelId := m.modelId
  kind := m.kind
  contextLength := m.contextLength
  nativeTools := m.nativeTools
  nativeReasoning := m.nativeReasoning
  aliases := m.aliases
  family := m.family
  variant := m.variant
  metrics :=
    { costPer1mInputUsd := m.costPer1mInputUsd
      costPer1mOutputUsd := m.costPer1mOutputUsd
      ratedQuotaPer1mInputUsd := m.ratedQuotaPer1mInputUsd
      latencyP50Ms := m.latencyP50Ms
      latencyP95Ms := m.latencyP95Ms
      ttftP50Ms := m.ttftP50Ms
      ttftP95Ms := m.ttftP95Ms
      successRate := m.successRate
      samples := m.samples
      probeSuccessRate := m.probeSuccessRate
      probeSamples := m.probeSamples }

/-- `_render_provider`. -/
def renderProvider (p : ProviderSnap) : WireProvider where
  id := p.id
  name := p.name
  type := p.type
  priority := p.priority
  costClass := p.costClass
  circuit := p.circuit
  regions := p.regions
  models := p.models.map renderModel
  subscriptionQuota := p.subscriptionQuota

/-! ## `GET /lmrh/providers` -/

structure ProvidersBody where
  version : String := "2.1"
  asOf : Stamp
  windowSec : Int
  providers : List WireProvider
  deriving DecidableEq

/-- What a caller asks with; an empty filter is no filter. -/
structure ProvidersQuery where
  keyId : String
  type : Option String := none
  capability : Option String := none

/-- The optional filter of a query parameter: `if type: …`. -/
def queryFilter (param : Option String) (test : String → ProviderSnap → Bool)
    (visible : List ProviderSnap) : List ProviderSnap :=
  match param with
  | none => visible
  | some value => if value = "" then visible else visible.filter (test value)

def shown (q : ProvidersQuery) (s : LmrhSnapshot) : List ProviderSnap :=
  queryFilter q.capability (fun capability p => p.models.any (·.kind = capability))
    (queryFilter q.type (fun type p => p.type = type) (s.forCaller q.keyId))

def providersBody (q : ProvidersQuery) (s : LmrhSnapshot) : ProvidersBody where
  asOf := s.asOf
  windowSec := s.windowSec
  providers := (shown q s).map renderProvider

variable {Tag : Type} [DecidableEq Tag]

structure Answer (Tag : Type) where
  status : Nat
  etag : Option Tag := none
  retryAfter : Option Nat := none
  body : Option ProvidersBody := none

/-- `get_providers`. -/
def getProviders (digest : List EtagProvider → Tag) (enabled : Bool) (limited : Option Nat)
    (ifNoneMatch : Option Tag) (q : ProvidersQuery) (current : LmrhSnapshot) : Answer Tag :=
  if !enabled then { status := 404 }
  else match limited with
    | some seconds => { status := 429, retryAfter := some seconds }
    | none =>
      let etag := digest current.etagRows
      if ifNoneMatch = some etag then { status := 304, etag := some etag }
      else { status := 200, etag := some etag, body := some (providersBody q current) }

/-- `get_public_view`. -/
def getPublicView (enabled : Bool) (current : LmrhSnapshot) : Option PublicBody :=
  if enabled then some current.toPublicView else none

/-! ## What the ETag leaves out -/

/-- A latency or a rate, up to the rounding the ETag applies. -/
def coarse (n : Nat) (x : Option Rat) : Option Rat := x.map (PyFormat.round n)

def WireModel.coarse (m : WireModel) : WireModel :=
  { m with
    metrics :=
      { m.metrics with
        latencyP50Ms := Lmrh.coarse 0 m.metrics.latencyP50Ms
        latencyP95Ms := Lmrh.coarse 0 m.metrics.latencyP95Ms
        successRate := Lmrh.coarse 3 m.metrics.successRate
        probeSuccessRate := Lmrh.coarse 3 m.metrics.probeSuccessRate } }

def WireProvider.coarse (p : WireProvider) : WireProvider :=
  { p with models := p.models.map WireModel.coarse }

/-- A body up to `as_of` and the rounding of latencies and success rates. -/
def ProvidersBody.coarse (b : ProvidersBody) : ProvidersBody :=
  { b with asOf := 0, providers := b.providers.map WireProvider.coarse }

/-- What a model shows and its ETag row has not. -/
structure UndigestedModel where
  costPer1mInputUsd : Option Rat
  costPer1mOutputUsd : Option Rat
  ratedQuotaPer1mInputUsd : Option Rat
  ttftP50Ms : Option Rat
  ttftP95Ms : Option Rat
  aliases : List String
  family : Option String
  variant : Option String
  /-- whether a number is known at all, which the ETag does not tell from a zero -/
  latencyP50Known : Bool
  latencyP95Known : Bool
  successKnown : Bool
  probeSuccessKnown : Bool
  deriving DecidableEq

structure UndigestedProvider where
  models : List UndigestedModel
  subscriptionQuota : Option SubQuota
  deriving DecidableEq

def ModelSnap.undigested (m : ModelSnap) : UndigestedModel where
  costPer1mInputUsd := m.costPer1mInputUsd
  costPer1mOutputUsd := m.costPer1mOutputUsd
  ratedQuotaPer1mInputUsd := m.ratedQuotaPer1mInputUsd
  ttftP50Ms := m.ttftP50Ms
  ttftP95Ms := m.ttftP95Ms
  aliases := m.aliases
  family := m.family
  variant := m.variant
  latencyP50Known := m.latencyP50Ms.isSome
  latencyP95Known := m.latencyP95Ms.isSome
  successKnown := m.successRate.isSome
  probeSuccessKnown := m.probeSuccessRate.isSome

def ProviderSnap.undigested (p : ProviderSnap) : UndigestedProvider where
  models := p.models.map ModelSnap.undigested
  subscriptionQuota := p.subscriptionQuota

/-! ## A shown model is its ETag row and what the row leaves out -/

def known (present : Bool) (x : Option Rat) : Option Rat := if present then some (x.getD 0) else none

@[simp] theorem round_zero (n : Nat) : PyFormat.round n 0 = 0 := by
  simp [PyFormat.round]

theorem known_roundTruthy (n : Nat) (x : Option Rat) :
    known x.isSome (roundTruthy n x) = coarse n x := by
  cases x with
  | none => rfl
  | some q =>
    by_cases hq : q = 0
    · simp [known, roundTruthy, coarse, hq]
    · simp [known, roundTruthy, coarse, hq]

def assembleModel (row : EtagModel) (rest : UndigestedModel) : WireModel where
  modelId := row.modelId
  kind := row.kind
  contextLength := row.contextLength
  nativeTools := row.nativeTools
  nativeReasoning := row.nativeReasoning
  aliases := rest.aliases
  family := rest.family
  variant := rest.variant
  metrics :=
    { costPer1mInputUsd := rest.costPer1mInputUsd
      costPer1mOutputUsd := rest.costPer1mOutputUsd
      ratedQuotaPer1mInputUsd := rest.ratedQuotaPer1mInputUsd
      latencyP50Ms := known rest.latencyP50Known row.latencyP50Ms
      latencyP95Ms := known rest.latencyP95Known row.latencyP95Ms
      ttftP50Ms := rest.ttftP50Ms
      ttftP95Ms := rest.ttftP95Ms
      successRate := known rest.successKnown row.successRate
      samples := row.samples
      probeSuccessRate := known rest.probeSuccessKnown row.probeSuccessRate
      probeSamples := row.probeSamples }

theorem coarse_renderModel (m : ModelSnap) :
    (renderModel m).coarse = assembleModel m.etagRow m.undigested := by
  simp only [assembleModel, ModelSnap.etagRow, ModelSnap.undigested, known_roundTruthy]
  rfl

def assembleProvider (row : EtagProvider) (rest : UndigestedProvider) : WireProvider where
  id := row.id
  name := row.name
  type := row.type
  priority := row.priority
  costClass := row.costClass
  circuit := row.circuit
  regions := row.regions
  models := List.zipWith assembleModel row.models rest.models
  subscriptionQuota := rest.subscriptionQuota

theorem map_eq_zipWith {α β γ δ : Type _} {f : α → δ} {g : α → β} {h : α → γ} {join : β → γ → δ}
    (heq : ∀ a, f a = join (g a) (h a)) (l : List α) :
    l.map f = List.zipWith join (l.map g) (l.map h) := by
  induction l with
  | nil => rfl
  | cons a l ih => simp only [List.map_cons, List.zipWith_cons_cons, ih, heq]

theorem coarse_renderProvider (p : ProviderSnap) :
    (renderProvider p).coarse = assembleProvider p.etagRow p.undigested := by
  have hmodels : ((p.models.map renderModel).map WireModel.coarse) =
      List.zipWith assembleModel (p.models.map ModelSnap.etagRow)
        (p.models.map ModelSnap.undigested) := by
    rw [List.map_map]
    exact map_eq_zipWith coarse_renderModel p.models
  simp only [WireProvider.coarse, renderProvider, hmodels]
  rfl

/-- What the rows leave out is read back from what is shown. -/
def WireModel.undigested (m : WireModel) : UndigestedModel where
  costPer1mInputUsd := m.metrics.costPer1mInputUsd
  costPer1mOutputUsd := m.metrics.costPer1mOutputUsd
  ratedQuotaPer1mInputUsd := m.metrics.ratedQuotaPer1mInputUsd
  ttftP50Ms := m.metrics.ttftP50Ms
  ttftP95Ms := m.metrics.ttftP95Ms
  aliases := m.aliases
  family := m.family
  variant := m.variant
  latencyP50Known := m.metrics.latencyP50Ms.isSome
  latencyP95Known := m.metrics.latencyP95Ms.isSome
  successKnown := m.metrics.successRate.isSome
  probeSuccessKnown := m.metrics.probeSuccessRate.isSome

def WireProvider.undigested (p : WireProvider) : UndigestedProvider where
  models := p.models.map WireModel.undigested
  subscriptionQuota := p.subscriptionQuota

theorem undigested_coarse_renderModel (m : ModelSnap) :
    (renderModel m).coarse.undigested = m.undigested := by
  simp [WireModel.undigested, WireModel.coarse, renderModel, ModelSnap.undigested, Lmrh.coarse]

theorem undigested_coarse_renderProvider (p : ProviderSnap) :
    (renderProvider p).coarse.undigested = p.undigested := by
  simp only [WireProvider.undigested, WireProvider.coarse, renderProvider, ProviderSnap.undigested,
    List.map_map]
  congr 1
  exact List.map_congr_left fun m _ => undigested_coarse_renderModel m

/-! ## Which providers are shown -/

def passes (param : Option String) (test : String → Bool) : Bool :=
  param.all fun value => value = "" || test value

def ProvidersQuery.shows (q : ProvidersQuery) (row : EtagProvider) : Bool :=
  (row.ownedByKeyId = none || row.ownedByKeyId = some q.keyId) &&
    (passes q.type (fun type => row.type = type) &&
      passes q.capability (fun capability => row.models.any (·.kind = capability)))

theorem queryFilter_eq (param : Option String) (test : String → ProviderSnap → Bool)
    (visible : List ProviderSnap) :
    queryFilter param test visible = visible.filter fun p => passes param (test · p) := by
  cases param with
  | none => simp [queryFilter, passes]
  | some value =>
    by_cases hvalue : value = ""
    · simp [queryFilter, passes, hvalue]
    · simp [queryFilter, passes, hvalue]

theorem shown_eq_filter (q : ProvidersQuery) (s : LmrhSnapshot) :
    shown q s = s.providers.filter fun p => q.shows p.etagRow := by
  unfold shown
  rw [queryFilter_eq, queryFilter_eq, LmrhSnapshot.forCaller, List.filter_filter,
    List.filter_filter]
  refine List.filter_congr fun p _ => ?_
  have hkinds : (fun capability => p.etagRow.models.any (·.kind = capability)) =
      fun capability => p.models.any (·.kind = capability) := by
    funext capability
    exact List.any_map
  rw [ProvidersQuery.shows, hkinds]
  exact (Bool.and_comm _ _).trans (congrArg (p.visibleTo q.keyId && ·) (Bool.and_comm _ _))

theorem map_etagRow_shown (q : ProvidersQuery) (s : LmrhSnapshot) :
    (shown q s).map ProviderSnap.etagRow = s.etagRows.filter q.shows := by
  rw [shown_eq_filter, LmrhSnapshot.etagRows, List.filter_map]
  rfl

/-! ## Fresh and stale answers -/

/-- **A body, up to its rounding,** is the shown rows of the ETag and what these leave out. -/
theorem coarse_providersBody (q : ProvidersQuery) (s : LmrhSnapshot) :
    ((providersBody q s).coarse).providers =
      List.zipWith assembleProvider (s.etagRows.filter q.shows)
        ((shown q s).map ProviderSnap.undigested) := by
  have hmap : ((shown q s).map renderProvider).map WireProvider.coarse =
      List.zipWith assembleProvider ((shown q s).map ProviderSnap.etagRow)
        ((shown q s).map ProviderSnap.undigested) := by
    rw [List.map_map]
    exact map_eq_zipWith coarse_renderProvider (shown q s)
  rw [← map_etagRow_shown]
  exact hmap

theorem undigested_providersBody (q : ProvidersQuery) (s : LmrhSnapshot) :
    ((providersBody q s).coarse).providers.map WireProvider.undigested =
      (shown q s).map ProviderSnap.undigested := by
  have hmap : (((shown q s).map renderProvider).map WireProvider.coarse).map
      WireProvider.undigested = (shown q s).map ProviderSnap.undigested := by
    rw [List.map_map, List.map_map]
    exact List.map_congr_left fun p _ => undigested_coarse_renderProvider p
  exact hmap

/-- A 304 to the ETag of an earlier answer means the body of that answer, with its filters. The
conditional request may carry other filters. -/
def NeverStale (digest : List EtagProvider → Tag) (q q' : ProvidersQuery)
    (s₁ s₂ : LmrhSnapshot) : Prop :=
  let first := getProviders digest true none none q s₁
  (getProviders digest true none first.etag q' s₂).status = 304 →
    (getProviders digest true none none q s₂).body.map ProvidersBody.coarse =
      first.body.map ProvidersBody.coarse

theorem status_304_iff {digest : List EtagProvider → Tag} (hdigest : Function.Injective digest)
    (q : ProvidersQuery) (s₁ s₂ : LmrhSnapshot) :
    (getProviders digest true none (some (digest s₁.etagRows)) q s₂).status = 304 ↔
      s₁.etagRows = s₂.etagRows := by
  simp only [getProviders, Bool.not_true, Bool.false_eq_true, ↓reduceIte, Option.some.injEq]
  constructor
  · intro h
    split at h
    · next heq => exact hdigest heq
    · exact absurd h (by simp)
  · intro h
    rw [if_pos (congrArg digest h)]

/-- **A 304 is fresh** where the digested rows have changed, or else the shown providers agree in
what the rows leave out. -/
theorem never_stale_iff (digest : List EtagProvider → Tag) (hdigest : Function.Injective digest)
    (q q' : ProvidersQuery) (s₁ s₂ : LmrhSnapshot) :
    NeverStale digest q q' s₁ s₂ ↔
      (s₁.etagRows = s₂.etagRows →
        s₁.windowSec = s₂.windowSec ∧
          (shown q s₁).map ProviderSnap.undigested = (shown q s₂).map ProviderSnap.undigested) := by
  have hfirst : NeverStale digest q q' s₁ s₂ ↔
      (s₁.etagRows = s₂.etagRows → (providersBody q s₂).coarse = (providersBody q s₁).coarse) := by
    rw [← status_304_iff hdigest q' s₁ s₂]
    simp only [NeverStale]
    exact imp_congr_right fun _ => Option.some_inj
  rw [hfirst]
  refine forall_congr' fun hrows => ?_
  constructor
  · intro hbody
    refine ⟨(congrArg ProvidersBody.windowSec hbody).symm, ?_⟩
    rw [← undigested_providersBody, ← undigested_providersBody, hbody]
  · rintro ⟨hwindow, hundigested⟩
    have hproviders : ((providersBody q s₂).coarse).providers =
        ((providersBody q s₁).coarse).providers := by
      rw [coarse_providersBody, coarse_providersBody, hrows, hundigested]
    have hbody : ∀ s, (providersBody q s).coarse =
        { version := "2.1", asOf := 0, windowSec := s.windowSec,
          providers := ((providersBody q s).coarse).providers } := fun _ => rfl
    rw [hbody s₂, hbody s₁, hproviders, hwindow]

/-- A provider with one model, of which the operator edits the aliases. -/
def aliasedSnapshot (aliases : List String) : LmrhSnapshot where
  asOf := 0
  windowSec := 3600
  providers :=
    [{ id := "p1", name := "xai", type := "grok", priority := 10, costClass := "per_call",
       circuit := "closed", regions := ["us"], ownedByKeyId := none, subscriptionQuota := none,
       models :=
        [{ modelId := "grok-3", kind := "chat", contextLength := some 131072, nativeTools := true,
           nativeReasoning := false, costPer1mInputUsd := some 3, costPer1mOutputUsd := some 15,
           ratedQuotaPer1mInputUsd := none, latencyP50Ms := some 812, latencyP95Ms := some 2210,
           ttftP50Ms := some 300, ttftP95Ms := some 700, successRate := some (99 / 100),
           samples := 120, aliases, family := some "grok-3" }] }]

/-- The same provider, of another tenant. -/
def ownedSnapshot (aliases : List String) : LmrhSnapshot :=
  { aliasedSnapshot aliases with
    providers := (aliasedSnapshot aliases).providers.map fun p =>
      { p with ownedByKeyId := some "k2" } }

/-- Its aliases are not shown to `k1`. -/
theorem never_stale_unchanged :
    NeverStale (fun rows => rows) { keyId := "k1" } { keyId := "k1", type := some "grok" }
      (ownedSnapshot []) (ownedSnapshot ["x-ai/grok-3"]) :=
  (never_stale_iff (fun rows => rows) Function.injective_id { keyId := "k1" }
    { keyId := "k1", type := some "grok" } (ownedSnapshot [])
    (ownedSnapshot ["x-ai/grok-3"])).mpr fun _ => ⟨rfl, rfl⟩

/-- The poller keeps the old aliases. -/
theorem stale_after_alias_edit :
    ¬ NeverStale (fun rows => rows) { keyId := "k1" } { keyId := "k1" }
      (aliasedSnapshot []) (aliasedSnapshot ["x-ai/grok-3"]) := by
  intro h
  have hbody := h ((status_304_iff Function.injective_id { keyId := "k1" } (aliasedSnapshot [])
    (aliasedSnapshot ["x-ai/grok-3"])).mpr rfl)
  exact absurd (congrArg (Option.map fun b => b.providers.map fun p => p.models.map (·.aliases))
    hbody) (by decide)

end LlmProxy.Lmrh
