import LlmProxy.Lmrh.Build
import LlmProxy.Lmrh.Views

/-! # What a tenant learns of the others

Two runs over inputs that differ in the providers of other tenants.

> `SameFor.snapshot`: a provider is built from its own rows, so a body never tells of the others;
> `publicModels_congr`: the public view reads of a provider what `PublishedProvider` has.

The ETag is one for all callers: it is taken over every provider.
-/

namespace LlmProxy.Lmrh

open LlmProxy.Cluster (Stamp)

def seenBy (keyId : String) (owner : Option String) : Bool :=
  owner = none || owner = some keyId

def unowned (owner : Option String) : Bool := owner = none

/-- Inputs that differ only in providers of owners outside `keep`. -/
structure SameFor (keep : Option String → Bool) (t t' : Tables) : Prop where
  providers : t.providers.filter (keep ·.ownedByKeyId) = t'.providers.filter (keep ·.ownedByKeyId)
  rows : ∀ p ∈ t.providers, keep p.ownedByKeyId = true → t.rowsOf p.id = t'.rowsOf p.id

/-! ## The providers of a snapshot -/

theorem filter_buildSnapshot (now : Stamp) (t : Tables) (keep : Option String → Bool) :
    (buildSnapshot now t).providers.filter (keep ·.ownedByKeyId) =
      (servedProviders (t.providers.filter (keep ·.ownedByKeyId))).map fun p =>
        providerSnap now defaultWindowSec p (t.rowsOf p.id) := by
  rw [buildSnapshot, List.filter_map, ← servedProviders_filter]
  rfl

/-- **The providers of the same owners are built the same.** -/
theorem SameFor.snapshot {keep : Option String → Bool} {t t' : Tables} (h : SameFor keep t t')
    (now : Stamp) :
    (buildSnapshot now t).providers.filter (keep ·.ownedByKeyId) =
      (buildSnapshot now t').providers.filter (keep ·.ownedByKeyId) := by
  rw [filter_buildSnapshot, filter_buildSnapshot, ← h.providers]
  refine List.map_congr_left fun p hp => ?_
  obtain ⟨hmem, hkeep⟩ := List.mem_filter.mp (mem_servedProviders hp)
  rw [h.rows p hmem hkeep]

/-! ## The body of a caller -/

theorem shown_congr {q : ProvidersQuery} {t t' : Tables} (h : SameFor (seenBy q.keyId) t t')
    (now : Stamp) : shown q (buildSnapshot now t) = shown q (buildSnapshot now t') := by
  have hcaller : (buildSnapshot now t).forCaller q.keyId =
      (buildSnapshot now t').forCaller q.keyId := h.snapshot now
  rw [shown, shown, hcaller]

theorem providersBody_congr {q : ProvidersQuery} {t t' : Tables}
    (h : SameFor (seenBy q.keyId) t t') (now : Stamp) :
    providersBody q (buildSnapshot now t) = providersBody q (buildSnapshot now t') := by
  rw [providersBody, providersBody, shown_congr h now]
  rfl

/-! ## The public view -/

structure PublishedModel where
  modelId : String
  family : Option String
  aliases : List String
  variants : List String
  contextLength : Option Int
  nativeTools : Bool
  nativeReasoning : Bool
  costTier : String
  deriving DecidableEq

/-- What the public view reads of a provider. -/
structure PublishedProvider where
  regions : List String
  subscription : Bool
  reachable : Bool
  models : List PublishedModel
  deriving DecidableEq

def ProviderSnap.publish (p : ProviderSnap) (m : ModelSnap) : PublishedModel where
  modelId := m.modelId
  family := m.family
  aliases := m.aliases
  variants := m.variant.toList.filter (· ≠ "")
  contextLength := m.contextLength
  nativeTools := m.nativeTools
  nativeReasoning := m.nativeReasoning
  costTier := costTier p m

def ProviderSnap.published (p : ProviderSnap) : PublishedProvider where
  regions := p.regions
  subscription := p.costClass = "subscription"
  reachable := p.circuit ≠ "open"
  models := p.models.map p.publish

/-- `countModel`, from what is published. -/
def countPublished (p : PublishedProvider)
    (byModel : Dict (Option String × String) PublicEntry) (m : PublishedModel) :
    Dict (Option String × String) PublicEntry :=
  let key := (m.family, m.modelId)
  let entry := (byModel.get? key).getD
    { modelId := m.modelId, family := m.family, contextLength := m.contextLength,
      nativeTools := m.nativeTools, nativeReasoning := m.nativeReasoning }
  byModel.set key
    { entry with
      aliases := update entry.aliases m.aliases
      variants := update entry.variants m.variants
      regions := update entry.regions p.regions
      costTiers := update entry.costTiers [m.costTier]
      subscriptionRoutes := entry.subscriptionRoutes + if p.subscription then 1 else 0
      totalRoutes := entry.totalRoutes + 1
      availableRoutes := entry.availableRoutes + if p.reachable then 1 else 0 }

theorem countModel_eq (p : ProviderSnap) (byModel : Dict (Option String × String) PublicEntry)
    (m : ModelSnap) : countModel p byModel m = countPublished p.published byModel (p.publish m) := by
  simp only [countModel, countPublished, ProviderSnap.published, ProviderSnap.publish,
    decide_eq_true_eq]

theorem countProvider_eq (byModel : Dict (Option String × String) PublicEntry)
    (p : ProviderSnap) :
    countProvider byModel p = p.published.models.foldl (countPublished p.published) byModel := by
  have hmodels : p.published.models = p.models.map p.publish := rfl
  rw [hmodels, List.foldl_map, countProvider]
  congr 1
  funext byModel m
  exact countModel_eq p byModel m

/-- **The public view is a function of what is published.** -/
theorem publicModels_congr {ps ps' : List ProviderSnap}
    (h : ps.map ProviderSnap.published = ps'.map ProviderSnap.published) :
    publicModels ps = publicModels ps' := by
  have hfold : ∀ (l : List ProviderSnap) (byModel : Dict (Option String × String) PublicEntry),
      l.foldl countProvider byModel = (l.map ProviderSnap.published).foldl
        (fun byModel p => p.models.foldl (countPublished p) byModel) byModel := by
    intro l byModel
    rw [List.foldl_map]
    congr 1
    funext byModel p
    exact countProvider_eq byModel p
  rw [publicModels, publicModels, hfold, hfold, h]

/-! ## Tenants -/

variable {Tag : Type} [DecidableEq Tag]

/-- The whole answer to a key is the same. -/
def ProvidersNoninterference (digest : List EtagProvider → Tag) : Prop :=
  ∀ (now : Stamp) (enabled : Bool) (limited : Option Nat) (ifNoneMatch : Option Tag)
    (q : ProvidersQuery) (t t' : Tables), SameFor (seenBy q.keyId) t t' →
    getProviders digest enabled limited ifNoneMatch q (buildSnapshot now t) =
      getProviders digest enabled limited ifNoneMatch q (buildSnapshot now t')

/-- The public view is the same. -/
def PublicNoninterference : Prop :=
  ∀ (now : Stamp) (enabled : Bool) (t t' : Tables), SameFor unowned t t' →
    getPublicView enabled (buildSnapshot now t) = getPublicView enabled (buildSnapshot now t')

/-- An owned provider, by what it publishes; of a shared one, nothing but its place. -/
def ProviderSnap.publishedOwned (p : ProviderSnap) : Option PublishedProvider :=
  if unowned p.ownedByKeyId then none else some p.published

theorem published_of_owned {ps ps' : List ProviderSnap}
    (hshared : ps.filter (unowned ·.ownedByKeyId) = ps'.filter (unowned ·.ownedByKeyId))
    (howned : ps.map ProviderSnap.publishedOwned = ps'.map ProviderSnap.publishedOwned) :
    ps.map ProviderSnap.published = ps'.map ProviderSnap.published := by
  induction ps generalizing ps' with
  | nil =>
    rw [List.map_eq_nil_iff.mp howned.symm]
  | cons p ps ih =>
    cases ps' with
    | nil => exact absurd howned (by simp)
    | cons p' ps' =>
      obtain ⟨hhead, htail⟩ := List.cons.inj howned
      simp only [ProviderSnap.publishedOwned] at hhead
      by_cases hp : unowned p.ownedByKeyId
      · by_cases hp' : unowned p'.ownedByKeyId
        · simp only [List.filter_cons, hp, hp', ↓reduceIte] at hshared
          obtain ⟨rfl, hrest⟩ := List.cons.inj hshared
          rw [List.map_cons, List.map_cons, ih hrest htail]
        · rw [if_pos hp, if_neg hp'] at hhead
          exact absurd hhead nofun
      · by_cases hp' : unowned p'.ownedByKeyId
        · rw [if_neg hp, if_pos hp'] at hhead
          exact absurd hhead nofun
        · rw [if_neg hp, if_neg hp'] at hhead
          simp only [List.filter_cons, hp, hp'] at hshared
          rw [List.map_cons, List.map_cons, ih hshared htail, Option.some.inj hhead]

theorem getProviders_body {digest : List EtagProvider → Tag} {enabled : Bool} {limited : Option Nat}
    {ifNoneMatch : Option Tag} {q : ProvidersQuery} {s : LmrhSnapshot} {body : ProvidersBody}
    (h : (getProviders digest enabled limited ifNoneMatch q s).body = some body) :
    body = providersBody q s := by
  unfold getProviders at h
  split at h
  · exact absurd h nofun
  · split at h
    · exact absurd h nofun
    · dsimp only at h
      split at h
      · exact absurd h nofun
      · exact (Option.some.inj h).symm

/-- **A body tells a key nothing of the providers of others;** the status and the ETag tell no more
than that some digested field of some provider has changed. The public view tells of an owned
provider what it publishes of any. -/
theorem tenants_sound (digest : List EtagProvider → Tag) (now : Stamp) :
    (∀ (enabled : Bool) (limited : Option Nat) (ifNoneMatch : Option Tag)
        (q : ProvidersQuery) (t t' : Tables), SameFor (seenBy q.keyId) t t' →
      (∀ body body',
        (getProviders digest enabled limited ifNoneMatch q (buildSnapshot now t)).body =
          some body →
        (getProviders digest enabled limited ifNoneMatch q (buildSnapshot now t')).body =
          some body' → body = body') ∧
      ((buildSnapshot now t).etagRows = (buildSnapshot now t').etagRows →
        getProviders digest enabled limited ifNoneMatch q (buildSnapshot now t) =
          getProviders digest enabled limited ifNoneMatch q (buildSnapshot now t'))) ∧
    ∀ (enabled : Bool) (t t' : Tables), SameFor unowned t t' →
      (buildSnapshot now t).providers.map ProviderSnap.publishedOwned =
        (buildSnapshot now t').providers.map ProviderSnap.publishedOwned →
      getPublicView enabled (buildSnapshot now t) =
        getPublicView enabled (buildSnapshot now t') := by
  constructor
  · intro enabled limited ifNoneMatch q t t' hsame
    have hbody := providersBody_congr hsame now
    constructor
    · intro body body' h h'
      rw [getProviders_body h, getProviders_body h', hbody]
    · intro hrows
      simp only [getProviders, hrows, hbody]
  · intro enabled t t' hsame howned
    have hmodels := publicModels_congr (published_of_owned (hsame.snapshot now) howned)
    unfold getPublicView LmrhSnapshot.toPublicView
    rw [hmodels]
    rfl

/-- A shared provider and one of the key `owner`, with the aliases of its one model. -/
def tenantTables (owner : String) (aliases : List String) : Tables where
  providers :=
    [{ id := "p1", name := "openai", providerType := "openai", defaultModel := some "gpt-4o" },
     { id := "p2", name := "team-x", providerType := "grok", ownedByKeyId := some owner }]
  capabilities := [{ providerId := "p2", modelId := "grok-3", aliases }]

/-- The shared provider alone. -/
def sharedTables : Tables where
  providers :=
    [{ id := "p1", name := "openai", providerType := "openai", defaultModel := some "gpt-4o" }]

theorem tenants_sound_alias_edit :
    getProviders (fun rows => rows) true none none { keyId := "k1" }
        (buildSnapshot 0 (tenantTables "k2" [])) =
      getProviders (fun rows => rows) true none none { keyId := "k1" }
        (buildSnapshot 0 (tenantTables "k2" ["x-ai/grok-3"])) :=
  ((tenants_sound (fun rows => rows) 0).1 true none none { keyId := "k1" } (tenantTables "k2" [])
    (tenantTables "k2" ["x-ai/grok-3"])
    ⟨rfl, by
      intro p hp hkeep
      rcases List.mem_cons.mp hp with rfl | hp
      · rfl
      · obtain rfl := List.mem_singleton.mp hp
        exact absurd hkeep (by decide)⟩).2 rfl

/-- A provider of `k2` shows in the ETag that `k1` gets, and its model in the public view. -/
theorem tenants_visible :
    ¬ ProvidersNoninterference (fun rows => rows) ∧ ¬ PublicNoninterference := by
  have hsame : ∀ keep, keep none = true → keep (some "k2") = false →
      SameFor keep sharedTables (tenantTables "k2" []) := by
    intro keep hnone hother
    refine ⟨by simp [sharedTables, tenantTables, hnone, hother], ?_⟩
    intro p hp _
    obtain rfl := List.mem_singleton.mp hp
    rfl
  constructor
  · intro h
    have hanswer := h 0 true none none { keyId := "k1" } _ _ (hsame (seenBy "k1") rfl rfl)
    exact absurd (congrArg (fun a => a.etag.map List.length) hanswer) (by decide +kernel)
  · intro h
    have hview := h 0 true _ _ (hsame unowned rfl rfl)
    exact absurd (congrArg (Option.map PublicBody.modelsCount) hview) (by decide +kernel)

end LlmProxy.Lmrh
