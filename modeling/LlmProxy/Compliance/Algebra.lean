import LlmProxy.Compliance.Policy

/-! # The algebra of policies

`evaluate_policy` is a cascade of returns over four dimensions; read as a predicate it is the
conjunction of three tests, nothing denied and both allow-lists met (`accepts_eq`), and what a
deployment relies on is a law about that conjunction: the v5.0 company filter is the new one at a
policy that has only a blocklist, a stricter policy accepts no more, a denied provider is
rejected whatever it is allowed, and neither filter reorders, copies or drops an accepted row.

> `policy_algebra`.
-/

namespace LlmProxy.Compliance

open LlmProxy.Providers

variable {policy p q : Policy} {provider : Provider} {requestedModel : Option String}
  {providers : List Provider}

/-! ## The verdict as a conjunction -/

/-- The deny side: the owner, the family of the default model, the default and the requested
model. -/
def denies (policy : Policy) (provider : Provider) (requestedModel : Option String) : Bool :=
  ownerIn provider.ownerCompany policy.blockedCompanies ||
    meets (modelFamilyCompanies provider.defaultModel) policy.blockedCompanies ||
    modelMatchesAny provider.defaultModel policy.blockedModels ||
    modelMatchesAny requestedModel policy.blockedModels

def allowsCompany (policy : Policy) (provider : Provider) : Bool :=
  policy.allowedCompanies.isEmpty || ownerIn provider.ownerCompany policy.allowedCompanies ||
    meets (modelFamilyCompanies provider.defaultModel) policy.allowedCompanies

def allowsModel (policy : Policy) (provider : Provider) (requestedModel : Option String) : Bool :=
  policy.allowedModels.isEmpty || modelMatchesAny provider.defaultModel policy.allowedModels ||
    modelMatchesAny requestedModel policy.allowedModels

theorem ownerIn_iff {owner : Option String} {companies : List String} :
    ownerIn owner companies = true ↔ ∃ o, owner = some o ∧ o ≠ "" ∧ o ∈ companies := by
  cases owner <;> simp [ownerIn]

theorem meets_iff {a b : List String} : meets a b = true ↔ ∃ c ∈ a, c ∈ b := by
  simp [meets]

theorem modelMatchesAny_iff {model : Option String} {patterns : List String} :
    modelMatchesAny model patterns = true ↔ ∃ m, model = some m ∧ m ≠ "" ∧
      ∃ pat ∈ patterns, PyStr.fnmatchcase (PyStr.lower m) (PyStr.lower pat) = true := by
  cases model with
  | none => simp [modelMatchesAny]
  | some m =>
    by_cases hm : m = "" <;> simp [modelMatchesAny, hm]

@[simp] theorem ownerIn_nil (owner : Option String) : ownerIn owner [] = false := by
  cases owner <;> simp [ownerIn]

@[simp] theorem meets_nil (families : List String) : meets families [] = false := by
  simp [meets]

@[simp] theorem modelMatchesAny_nil (model : Option String) : modelMatchesAny model [] = false := by
  cases model <;> simp [modelMatchesAny]

/-- The cascade of `evaluate_policy`: deny first, then the two allow-lists. -/
theorem accepts_eq (policy : Policy) (provider : Provider) (requestedModel : Option String) :
    accepts policy provider requestedModel =
      (!denies policy provider requestedModel && allowsCompany policy provider &&
        allowsModel policy provider requestedModel) := by
  by_cases hempty : policy.isEmpty = true
  · rw [accepts_of_isEmpty hempty]
    simp only [Policy.isEmpty, Bool.and_eq_true, List.isEmpty_iff] at hempty
    obtain ⟨⟨⟨hbc, hac⟩, hbm⟩, ham⟩ := hempty
    simp [denies, allowsCompany, allowsModel, hbc, hac, hbm, ham]
  · unfold accepts evaluatePolicy denies allowsCompany allowsModel
    rw [if_neg hempty]
    dsimp only
    generalize ownerIn provider.ownerCompany policy.blockedCompanies = b₁
    generalize meets (modelFamilyCompanies provider.defaultModel) policy.blockedCompanies = b₂
    generalize modelMatchesAny provider.defaultModel policy.blockedModels = b₃
    generalize modelMatchesAny requestedModel policy.blockedModels = b₄
    generalize ownerIn provider.ownerCompany policy.allowedCompanies = a₁
    generalize meets (modelFamilyCompanies provider.defaultModel) policy.allowedCompanies = a₂
    generalize modelMatchesAny provider.defaultModel policy.allowedModels = a₃
    generalize modelMatchesAny requestedModel policy.allowedModels = a₄
    cases b₁ <;> cases b₂ <;> cases b₃ <;> cases b₄ <;>
      cases policy.allowedCompanies.isEmpty <;> cases a₁ <;> cases a₂ <;>
      cases policy.allowedModels.isEmpty <;> cases a₃ <;> cases a₄ <;> rfl

theorem accepts_iff : accepts policy provider requestedModel = true ↔
    denies policy provider requestedModel = false ∧ allowsCompany policy provider = true ∧
      allowsModel policy provider requestedModel = true := by
  rw [accepts_eq, Bool.and_eq_true, Bool.and_eq_true, Bool.not_eq_true', and_assoc]

/-! ## A stricter policy -/

/-- `q` blocks what `p` blocks, and each allow-list of `p` that says something is narrowed by a
list of `q` that says something. -/
structure Stricter (q p : Policy) : Prop where
  blockedCompanies : p.blockedCompanies ⊆ q.blockedCompanies
  blockedModels : p.blockedModels ⊆ q.blockedModels
  allowedCompanies : p.allowedCompanies = [] ∨
    q.allowedCompanies ≠ [] ∧ q.allowedCompanies ⊆ p.allowedCompanies
  allowedModels : p.allowedModels = [] ∨
    q.allowedModels ≠ [] ∧ q.allowedModels ⊆ p.allowedModels

theorem ownerIn_mono {owner : Option String} {a b : List String} (hsub : a ⊆ b)
    (h : ownerIn owner a = true) : ownerIn owner b = true := by
  obtain ⟨o, howner, hne, hmem⟩ := ownerIn_iff.mp h
  exact ownerIn_iff.mpr ⟨o, howner, hne, hsub hmem⟩

theorem meets_mono {families a b : List String} (hsub : a ⊆ b) (h : meets families a = true) :
    meets families b = true := by
  obtain ⟨c, hfam, hmem⟩ := meets_iff.mp h
  exact meets_iff.mpr ⟨c, hfam, hsub hmem⟩

theorem modelMatchesAny_mono {model : Option String} {a b : List String} (hsub : a ⊆ b)
    (h : modelMatchesAny model a = true) : modelMatchesAny model b = true := by
  obtain ⟨m, hmodel, hne, pat, hpat, hmatch⟩ := modelMatchesAny_iff.mp h
  exact modelMatchesAny_iff.mpr ⟨m, hmodel, hne, pat, hsub hpat, hmatch⟩

theorem denies_mono (h : Stricter q p) (hp : denies p provider requestedModel = true) :
    denies q provider requestedModel = true := by
  simp only [denies, Bool.or_eq_true] at hp ⊢
  rcases hp with ((howner | hfamily) | hdefault) | hrequested
  · exact .inl (.inl (.inl (ownerIn_mono h.blockedCompanies howner)))
  · exact .inl (.inl (.inr (meets_mono h.blockedCompanies hfamily)))
  · exact .inl (.inr (modelMatchesAny_mono h.blockedModels hdefault))
  · exact .inr (modelMatchesAny_mono h.blockedModels hrequested)

theorem allowsCompany_mono (h : Stricter q p) (hq : allowsCompany q provider = true) :
    allowsCompany p provider = true := by
  simp only [allowsCompany, Bool.or_eq_true, List.isEmpty_iff] at hq ⊢
  rcases h.allowedCompanies with hany | ⟨hne, hsub⟩
  · exact .inl (.inl hany)
  · rcases hq with (hnone | howner) | hfamily
    · exact absurd hnone hne
    · exact .inl (.inr (ownerIn_mono hsub howner))
    · exact .inr (meets_mono hsub hfamily)

theorem allowsModel_mono (h : Stricter q p) (hq : allowsModel q provider requestedModel = true) :
    allowsModel p provider requestedModel = true := by
  simp only [allowsModel, Bool.or_eq_true, List.isEmpty_iff] at hq ⊢
  rcases h.allowedModels with hany | ⟨hne, hsub⟩
  · exact .inl (.inl hany)
  · rcases hq with (hnone | hdefault) | hrequested
    · exact absurd hnone hne
    · exact .inl (.inr (modelMatchesAny_mono hsub hdefault))
    · exact .inr (modelMatchesAny_mono hsub hrequested)

theorem accepts_of_stricter (h : Stricter q p) (hq : accepts q provider requestedModel = true) :
    accepts p provider requestedModel = true := by
  obtain ⟨hdeny, hcompany, hmodel⟩ := accepts_iff.mp hq
  refine accepts_iff.mpr ⟨?_, allowsCompany_mono h hcompany, allowsModel_mono h hmodel⟩
  cases hp : denies p provider requestedModel with
  | false => rfl
  | true =>
    rw [denies_mono h hp] at hdeny
    cases hdeny

/-! ## Deny wins -/

/-- The company is the provider's owner or one its default model is attributed to, by either
function of the company map. An empty owner is none. -/
def BelongsTo (provider : Provider) (company : String) : Prop :=
  provider.ownerCompany = some company ∧ company ≠ "" ∨
    modelFamilyToCompany provider.defaultModel = some company ∨
    company ∈ modelFamilyCompanies provider.defaultModel

/-- The pattern matches the default or the requested model. An empty name is no model. -/
def Matches (provider : Provider) (requestedModel : Option String) (pattern : String) : Prop :=
  ∃ m, (provider.defaultModel = some m ∨ requestedModel = some m) ∧ m ≠ "" ∧
    PyStr.fnmatchcase (PyStr.lower m) (PyStr.lower pattern) = true

theorem modelFamilyToCompany_mem {model : Option String} {company : String}
    (h : modelFamilyToCompany model = some company) : company ∈ modelFamilyCompanies model := by
  cases model with
  | none => cases h
  | some m =>
    simp only [modelFamilyToCompany, modelFamilyCompanies] at h ⊢
    split at h
    · cases h
    · next hm =>
      rw [if_neg hm]
      obtain ⟨c, hfind, hid⟩ := Option.map_eq_some_iff.mp h
      have hclaims : c.claims (PyStr.lower m) = true := by
        have hsome := List.find?_some hfind
        exact hsome
      exact List.mem_map.mpr ⟨c, List.mem_filter.mpr
        ⟨List.mem_of_find?_eq_some hfind, hclaims⟩, hid⟩

theorem denies_of_belongsTo {company : String} (hof : BelongsTo provider company)
    (hblocked : company ∈ policy.blockedCompanies) :
    denies policy provider requestedModel = true := by
  simp only [denies, Bool.or_eq_true]
  rcases hof with ⟨howner, hne⟩ | hfirst | hfamily
  · exact .inl (.inl (.inl (ownerIn_iff.mpr ⟨company, howner, hne, hblocked⟩)))
  · exact .inl (.inl (.inr (meets_iff.mpr ⟨company, modelFamilyToCompany_mem hfirst, hblocked⟩)))
  · exact .inl (.inl (.inr (meets_iff.mpr ⟨company, hfamily, hblocked⟩)))

theorem denies_of_matches {pattern : String} (hmatch : Matches provider requestedModel pattern)
    (hblocked : pattern ∈ policy.blockedModels) :
    denies policy provider requestedModel = true := by
  obtain ⟨m, hmodel, hne, hglob⟩ := hmatch
  simp only [denies, Bool.or_eq_true]
  rcases hmodel with hdefault | hrequested
  · exact .inl (.inr (modelMatchesAny_iff.mpr ⟨m, hdefault, hne, pattern, hblocked, hglob⟩))
  · exact .inr (modelMatchesAny_iff.mpr ⟨m, hrequested, hne, pattern, hblocked, hglob⟩)

theorem rejected_of_denies (h : denies policy provider requestedModel = true) :
    accepts policy provider requestedModel = false := by
  rw [accepts_eq, h]
  rfl

/-! ## The two filters -/

/-- `out` is what a filter that keeps the accepted providers returns: they come in their order
and as often as they came in, and the filter raises when there were providers and none is left. -/
def FilterOf (accepted : Provider → Bool) (providers : List Provider)
    (out : Except ComplianceNoSubstituteError (List Provider)) : Prop :=
  (∀ kept, out = .ok kept → kept = providers.filter accepted) ∧
    ((∃ e, out = .error e) ↔ providers ≠ [] ∧ ∀ provider ∈ providers, accepted provider = false)

theorem filterOf_filter (accepted : Provider → Bool) (providers : List Provider)
    (e : ComplianceNoSubstituteError) :
    FilterOf accepted providers
      (if ((providers.filter accepted).isEmpty && !providers.isEmpty) = true then .error e
        else .ok (providers.filter accepted)) := by
  have hnone : (providers.filter accepted).isEmpty = true ↔
      ∀ provider ∈ providers, accepted provider = false := by
    simp [List.filter_eq_nil_iff]
  split
  · next hraise =>
    simp only [Bool.and_eq_true, Bool.not_eq_true', List.isEmpty_eq_false_iff] at hraise
    refine ⟨?_, ⟨fun _ => ⟨hraise.2, hnone.mp hraise.1⟩, fun _ => ⟨e, rfl⟩⟩⟩
    intro kept h
    cases h
  · next hkeep =>
    refine ⟨fun kept h => (Except.ok.inj h).symm, ⟨?_, ?_⟩⟩
    · rintro ⟨e', h⟩
      cases h
    · rintro ⟨hne, hall⟩
      refine absurd ?_ hkeep
      rw [Bool.and_eq_true, Bool.not_eq_true', List.isEmpty_eq_false_iff]
      exact ⟨hnone.mpr hall, hne⟩

theorem filterOf_all {accepted : Provider → Bool} (h : ∀ provider, accepted provider = true) :
    FilterOf accepted providers (.ok providers) := by
  refine ⟨?_, ⟨?_, ?_⟩⟩
  · intro kept hk
    rw [← Except.ok.inj hk, List.filter_eq_self.mpr fun a _ => h a]
  · rintro ⟨e, he⟩
    cases he
  · rintro ⟨hne, hall⟩
    obtain ⟨a, ha⟩ := List.exists_mem_of_ne_nil providers hne
    have hrej := hall a ha
    rw [h a] at hrej
    cases hrej

theorem filterOf_filterProvidersV2 (providers : List Provider) (policy : Policy)
    (requestedModel : Option String) :
    FilterOf (accepts policy · requestedModel) providers
      (filterProvidersV2 providers policy requestedModel) := by
  unfold filterProvidersV2
  split
  · next hempty => exact filterOf_all fun a => accepts_of_isEmpty hempty a requestedModel
  · exact filterOf_filter _ _ _

def blocklistOnly (blocklist : List String) : Policy := { blockedCompanies := blocklist }

theorem accepts_blocklistOnly (blocklist : List String) (provider : Provider)
    (requestedModel : Option String) :
    accepts (blocklistOnly blocklist) provider requestedModel =
      (!ownerIn provider.ownerCompany blocklist &&
        !meets (modelFamilyCompanies provider.defaultModel) blocklist) := by
  rw [accepts_eq]
  simp [denies, allowsCompany, allowsModel, blocklistOnly]

theorem filterProvidersV2_blocklistOnly (providers : List Provider) (blocklist : List String)
    (requestedModel : Option String) :
    filterProvidersV2 providers (blocklistOnly blocklist) requestedModel =
      filterProviders providers blocklist := by
  have hempty : (blocklistOnly blocklist).isEmpty = blocklist.isEmpty := by
    simp [Policy.isEmpty, blocklistOnly]
  unfold filterProvidersV2 filterProviders
  rw [hempty]
  simp only [accepts_blocklistOnly]
  rfl

/-! ## The law -/

/-- What the four dimensions, their empty-means-anything convention and the two filters add up
to, for a list of providers, a requested model and two policies. -/
structure PolicyAlgebra (providers : List Provider) (requestedModel : Option String)
    (p q : Policy) : Prop where
  agree : p.allowedCompanies = [] → p.blockedModels = [] → p.allowedModels = [] →
    filterProvidersV2 providers p requestedModel = filterProviders providers p.blockedCompanies
  monotone : Stricter q p → ∀ provider, accepts q provider requestedModel = true →
    accepts p provider requestedModel = true
  companyDenied : ∀ provider company, BelongsTo provider company →
    company ∈ p.blockedCompanies → accepts p provider requestedModel = false
  modelDenied : ∀ provider pattern, Matches provider requestedModel pattern →
    pattern ∈ p.blockedModels → accepts p provider requestedModel = false
  filterV2 : FilterOf (accepts p · requestedModel) providers
    (filterProvidersV2 providers p requestedModel)
  filter : FilterOf (accepts (blocklistOnly p.blockedCompanies) · requestedModel) providers
    (filterProviders providers p.blockedCompanies)

/-- **Policy algebra**: the two filters agree on a blocklist, a stricter policy accepts no more,
deny wins, and the filters keep the accepted providers as they came and raise exactly when there
were some and none is accepted. -/
theorem policy_algebra (providers : List Provider) (requestedModel : Option String)
    (p q : Policy) : PolicyAlgebra providers requestedModel p q := by
  refine ⟨?_, ?_, ?_, ?_, ?_, ?_⟩
  · intro hcompanies hblocked hallowed
    have hp : p = blocklistOnly p.blockedCompanies := by
      cases p
      simp_all [blocklistOnly]
    rw [hp]
    exact filterProvidersV2_blocklistOnly providers p.blockedCompanies requestedModel
  · intro h provider hq
    exact accepts_of_stricter h hq
  · intro provider company hof hblocked
    exact rejected_of_denies (denies_of_belongsTo hof hblocked)
  · intro provider pattern hmatch hblocked
    exact rejected_of_denies (denies_of_matches hmatch hblocked)
  · exact filterOf_filterProvidersV2 providers p requestedModel
  · rw [← filterProvidersV2_blocklistOnly providers p.blockedCompanies requestedModel]
    exact filterOf_filterProvidersV2 providers _ requestedModel

end LlmProxy.Compliance
