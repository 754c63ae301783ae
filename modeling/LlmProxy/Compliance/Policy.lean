import LlmProxy.Compliance.CompanyMap
import LlmProxy.Providers.Row
import LlmProxy.Cluster.ApiKeys

/-! # Key policies and the provider filter

`app/compliance/policy.py`. A policy is the union of a key's own lists and the system-wide
ones; `evaluate_policy` decides one provider, looking at its owner, its default model and the
requested model; `filter_providers_v2` keeps the accepted ones and raises when none of a
non-empty list is left.

Mirroring notes.
* Company sets are lists used through membership only.
* The 30-second cache in front of `get_effective_blocklist` is not part of
  `get_effective_policy` and is left out.
-/

namespace LlmProxy.Compliance

open LlmProxy.Providers

structure Policy where
  blockedCompanies : List String := []
  allowedCompanies : List String := []
  blockedModels : List String := []
  allowedModels : List String := []
  deriving DecidableEq, Repr

def Policy.isEmpty (p : Policy) : Bool :=
  p.blockedCompanies.isEmpty && p.allowedCompanies.isEmpty && p.blockedModels.isEmpty &&
    p.allowedModels.isEmpty

/-- `_model_matches_any`: case-insensitive glob match; an empty model never matches. -/
def modelMatchesAny (model : Option String) (patterns : List String) : Bool :=
  match model with
  | none => false
  | some m =>
    if m = "" then false
    else patterns.any fun pat => PyStr.fnmatchcase (PyStr.lower m) (PyStr.lower pat)

/-- `owner and owner in companies`. -/
def ownerIn (owner : Option String) (companies : List String) : Bool :=
  owner.any fun o => o ≠ "" && companies.contains o

def meets (a b : List String) : Bool := a.any b.contains

/-- `evaluate_policy`: the verdict and the reason code, empty on allow. -/
def evaluatePolicy (policy : Policy) (provider : Provider) (requestedModel : Option String) :
    Bool × String :=
  if policy.isEmpty then (true, "")
  else
    let families := modelFamilyCompanies provider.defaultModel
    if ownerIn provider.ownerCompany policy.blockedCompanies then (false, "blocked-company")
    else if meets families policy.blockedCompanies then (false, "blocked-model-family")
    else if modelMatchesAny provider.defaultModel policy.blockedModels ||
        modelMatchesAny requestedModel policy.blockedModels then (false, "blocked-model")
    else if !policy.allowedCompanies.isEmpty &&
        !(ownerIn provider.ownerCompany policy.allowedCompanies ||
          meets families policy.allowedCompanies) then (false, "company-not-in-allowlist")
    else if !policy.allowedModels.isEmpty &&
        !(modelMatchesAny provider.defaultModel policy.allowedModels ||
          modelMatchesAny requestedModel policy.allowedModels) then
      (false, "model-not-in-allowlist")
    else (true, "")

/-- The policy accepts the provider for the requested model. -/
def accepts (policy : Policy) (provider : Provider) (requestedModel : Option String) : Bool :=
  (evaluatePolicy policy provider requestedModel).1

/-- `ComplianceNoSubstituteError`, with the data its handlers read. -/
structure ComplianceNoSubstituteError where
  blockedCompanies : List String
  nDropped : Nat
  deriving DecidableEq, Repr

/-- `filter_providers_v2`. -/
def filterProvidersV2 (providers : List Provider) (policy : Policy)
    (requestedModel : Option String) : Except ComplianceNoSubstituteError (List Provider) :=
  if policy.isEmpty then .ok providers
  else
    let out := providers.filter (accepts policy · requestedModel)
    if out.isEmpty && !providers.isEmpty then
      .error ⟨policy.blockedCompanies, providers.length⟩
    else .ok out

/-- `filter_providers`, the company blocklist of v5.0: the requested model is not used. -/
def filterProviders (providers : List Provider) (blocklist : List String) :
    Except ComplianceNoSubstituteError (List Provider) :=
  if blocklist.isEmpty then .ok providers
  else
    let out := providers.filter fun p =>
      !ownerIn p.ownerCompany blocklist && !meets (modelFamilyCompanies p.defaultModel) blocklist
    if out.isEmpty && !providers.isEmpty then .error ⟨blocklist, providers.length⟩
    else .ok out

/-- `get_effective_policy`: the key's lists and the system's, empty entries dropped. -/
def getEffectivePolicy (keys : List Cluster.ApiKey) (system : Policy) (apiKeyId : Option String) :
    Policy :=
  let key := (apiKeyId.filter (· ≠ "")).bind fun id => keys.find? (·.id = id)
  let column (get : Cluster.ApiKey → Option (List String)) : List String :=
    ((key.bind get).getD []).filter (· ≠ "")
  { blockedCompanies := column (·.blockedCompanies) ++ system.blockedCompanies
    allowedCompanies := column (·.allowedCompanies) ++ system.allowedCompanies
    blockedModels := column (·.blockedModels) ++ system.blockedModels
    allowedModels := column (·.allowedModels) ++ system.allowedModels }

/-! ## What the filters guarantee -/

theorem accepts_of_isEmpty {policy : Policy} (h : policy.isEmpty = true) (p : Provider)
    (m : Option String) : accepts policy p m = true := by
  unfold accepts evaluatePolicy
  rw [if_pos h]

/-- The requested model adds one test of its own: it is not blocked. A provider that is accepted
without a model is accepted for every model another provider is accepted for. -/
theorem accepts_of_accepts_none {policy : Policy} {s p : Provider} {m : Option String}
    (hs : accepts policy s m = true) (hp : accepts policy p none = true) :
    accepts policy p m = true := by
  have hblocked : policy.isEmpty = false → modelMatchesAny m policy.blockedModels = false := by
    intro hne
    cases hmatch : modelMatchesAny m policy.blockedModels with
    | false => rfl
    | true =>
      simp only [accepts, evaluatePolicy, hne, hmatch, Bool.or_true, Bool.false_eq_true, if_true,
        if_false] at hs
      split at hs
      · cases hs
      · split at hs <;> cases hs
  unfold accepts evaluatePolicy at hp ⊢
  split at hp
  · next hempty => rw [if_pos hempty]
  · next hne =>
    rw [if_neg hne]
    have hfree := hblocked (by simpa using hne)
    have hnone : ∀ patterns, modelMatchesAny none patterns = false := fun _ => rfl
    simp only [hnone, hfree, Bool.or_false] at hp ⊢
    split at hp
    · cases hp
    split at hp
    · cases hp
    split at hp
    · cases hp
    split at hp
    · cases hp
    split at hp
    · cases hp
    next howner hfamily hmodel hcompany hallowed =>
      rw [if_neg howner, if_neg hfamily, if_neg hmodel, if_neg hcompany, if_neg]
      intro hcontra
      apply hallowed
      simp only [Bool.and_eq_true, Bool.not_eq_true', Bool.or_eq_false_iff] at hcontra ⊢
      exact ⟨hcontra.1, hcontra.2.1⟩

theorem filterProvidersV2_ok {providers out : List Provider} {policy : Policy}
    {m : Option String} (h : filterProvidersV2 providers policy m = .ok out) :
    out = providers.filter (accepts policy · m) := by
  unfold filterProvidersV2 at h
  split at h
  · next hempty =>
    have hall : providers.filter (accepts policy · m) = providers :=
      List.filter_eq_self.mpr fun p _ => accepts_of_isEmpty hempty p m
    rw [hall]
    exact (Except.ok.inj h).symm
  · dsimp only at h
    split at h
    · cases h
    · exact (Except.ok.inj h).symm

theorem filterProvidersV2_passes {providers : List Provider} {policy : Policy} {m : Option String}
    {p : Provider} (hp : p ∈ providers) (hacc : accepts policy p m = true) :
    ∃ out, filterProvidersV2 providers policy m = .ok out ∧ out.Sublist providers ∧ p ∈ out := by
  have hmem : p ∈ providers.filter (accepts policy · m) := List.mem_filter.mpr ⟨hp, hacc⟩
  have hne : ¬ (providers.filter (accepts policy · m)).isEmpty = true := fun hempty =>
    List.ne_nil_of_mem hmem (List.isEmpty_iff.mp hempty)
  unfold filterProvidersV2
  split
  · exact ⟨providers, rfl, List.Sublist.refl providers, hp⟩
  · refine ⟨providers.filter (accepts policy · m), ?_, List.filter_sublist, hmem⟩
    dsimp only
    rw [if_neg]
    intro hboth
    exact hne (Bool.and_eq_true_iff.mp hboth).1

end LlmProxy.Compliance
