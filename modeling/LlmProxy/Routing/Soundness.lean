import LlmProxy.Routing.Exclusion

/-! # Soundness of the selection

A candidate passes some fifteen filters of `select_provider`. Six of them fall back to a wider
list rather than fail: the rotation filter to the table itself, the token filter, the two model
filters, the capability-fit gate, and the tool weighting re-sorts what the ranking had sorted.
None of them readmits what a hard test has refused, on any of the ways a winner is chosen.

> `selectProvider_chosen`: the route's candidate is one of the ranked list, whichever way it was
> chosen;
> `selection_sound`: what holds of its provider.
-/

namespace LlmProxy.Routing

open LlmProxy.Providers
open Result

variable {w : World} {req : RouteRequest}

/-! ## The ways to choose -/

theorem topTier_mem {best t : Ranked} {ranked : List Ranked} (h : t ∈ topTier best ranked) :
    t ∈ ranked := List.mem_of_mem_filter h

theorem lowBucket_mem {t : Ranked} {tier : List Ranked} (h : t ∈ lowBucket w tier) : t ∈ tier := by
  unfold lowBucket at h
  dsimp only at h
  split at h
  · exact h
  · cases tier with
    | nil => exact h
    | cons u rest => exact List.mem_of_mem_filter h

theorem betterOf_cases (w : World) (c1 c2 : Ranked) : betterOf w c1 c2 = c1 ∨ betterOf w c1 c2 = c2 := by
  unfold betterOf
  split
  · split
    · exact Or.inl rfl
    · exact Or.inr rfl
  · exact Or.inr rfl
  · exact Or.inl rfl
  · split
    · exact Or.inl rfl
    · exact Or.inr rfl

theorem sampleWinner_mem (w : World) (best : Ranked) (tier : List Ranked) :
    sampleWinner w best tier = best ∨ sampleWinner w best tier ∈ tier := by
  unfold sampleWinner
  split
  · next h =>
    dsimp only
    rcases betterOf_cases w (tier.get (w.sample tier.length h).1.1)
      (tier.get (w.sample tier.length h).1.2) with heq | heq
    · rw [heq]
      exact Or.inr (List.get_mem _ _)
    · rw [heq]
      exact Or.inr (List.get_mem _ _)
  · cases tier with
    | nil => exact Or.inl rfl
    | cons t rest => exact Or.inr List.mem_cons_self

/-- `:nitro`, `:exacto` and the sample choose among the ranked candidates. -/
theorem chooseWinner_mem (w : World) (req : RouteRequest) (best : Ranked) (rest : List Ranked) :
    chooseWinner w req best rest ∈ best :: rest := by
  unfold chooseWinner
  dsimp only
  split
  · exact PyList.minBy_mem _ best rest
  · split
    · cases htier : topTier best (best :: rest) with
      | nil => exact List.mem_cons_self
      | cons t tier =>
        have hmin := PyList.minBy_mem (fun a b => decide (a.profile.priority < b.profile.priority))
          t tier
        rw [← htier] at hmin
        exact topTier_mem hmin
    · rcases sampleWinner_mem w best (lowBucket w (topTier best (best :: rest))) with heq | hmem
      · rw [heq]
        exact List.mem_cons_self
      · exact topTier_mem (lowBucket_mem hmem)

/-! ## The ranking stages -/

/-- The hint does not rule the profile out: `score_candidate` does not return `-inf`. -/
def MeetsRequired (hint : LMRHHint) (profile : CapabilityProfile) : Prop :=
  ∃ q unmet, scoreCandidate profile hint = .ok (.fin q, unmet)

theorem scoreAll_meets {hint : LMRHHint} {profiles : List CapabilityProfile} {ranked : List Ranked}
    (h : scoreAll hint profiles = .ok ranked) {t : Ranked} (ht : t ∈ ranked) :
    MeetsRequired hint t.profile := by
  induction profiles generalizing ranked with
  | nil =>
    have hnil : ranked = [] := (Except.ok.inj h).symm
    rw [hnil] at ht
    cases ht
  | cons p rest ih =>
    unfold scoreAll at h
    split at h
    · cases h
    · next score unmet hscore =>
      split at h
      · cases h
      · next more hrest =>
        rw [← Except.ok.inj h] at ht
        split at ht
        · exact ih hrest ht
        · next hfin =>
          rcases List.mem_cons.mp ht with heq | hmore
          · rw [heq]
            cases score with
            | negInf => exact absurd rfl hfin
            | fin q => exact ⟨q, unmet, hscore⟩
          · exact ih hrest hmore

theorem rankStage_ok {available : List Provider} {ranked : List Ranked}
    (h : rankStage w req available = .ok ranked) {t : Ranked} (ht : t ∈ ranked) :
    t.profile ∈ available.map (candidateProfile w req) ∧
      ∀ hint, req.hint = some hint → MeetsRequired hint t.profile := by
  unfold rankStage at h
  split at h
  · cases h
  · next scored hscored =>
    rw [(orRaise_ok h).1] at ht
    refine ⟨rankCandidatesWithScores_mem hscored ht, fun hint hhint => ?_⟩
    unfold rankCandidatesWithScores at hscored
    rw [hhint] at hscored
    dsimp only at hscored
    split at hscored
    · cases hscored
    · next unsorted hunsorted =>
      rw [← Except.ok.inj hscored] at ht
      exact scoreAll_meets hunsorted (PyList.mem_sortBy.mp ht)

theorem toolWeightStage_ok {ranked weighed : List Ranked}
    (h : toolWeightStage req ranked = .ok weighed) {t : Ranked} (ht : t ∈ weighed) :
    ∃ u ∈ ranked, t.profile = u.profile := by
  unfold toolWeightStage at h
  split at h
  · rw [(orRaise_ok h).1] at ht
    exact applyToolSuccessWeighting_mem (PyList.mem_sortBy.mp (List.mem_of_mem_filter ht))
  · rw [← Except.ok.inj h] at ht
    exact ⟨t, ht, rfl⟩

theorem fitStage_ok {weighed kept : List Ranked} (h : fitStage req weighed = .ok kept) {t : Ranked}
    (ht : t ∈ kept) : t ∈ weighed ∧ (req.hasImages = true → t.profile.nativeVision = true) := by
  unfold fitStage at h
  dsimp only at h
  split at h
  · cases h
  · next hseen =>
    rw [← Except.ok.inj h] at ht
    split at ht
    · next hempty =>
      refine ⟨ht, fun himages => absurd ?_ hseen⟩
      rw [himages, hempty]
      rfl
    · obtain ⟨hmem, hfits⟩ := List.mem_filter.mp ht
      refine ⟨hmem, fun himages => ?_⟩
      by_contra hblind
      have hreason : misfit req t = some "no native vision" := by
        unfold misfit capabilityFit
        rw [himages, Bool.eq_false_iff.mpr hblind]
        rfl
      rw [hreason] at hfits
      cases hfits

/-! ## The route -/

/-- **The chosen candidate** is one that ranking, weighting and gate have kept, on every path. -/
theorem selectProvider_chosen {r : RouteResult} (h : selectProvider w req = .ok (.route r)) :
    ∃ pool ranked weighed kept t,
      candidatePool w req = .ok pool ∧ rankStage w req (modelStage w req pool).1 = .ok ranked ∧
        toolWeightStage req ranked = .ok weighed ∧ fitStage req weighed = .ok kept ∧
        t ∈ kept ∧ r.profile = t.profile ∧
        providerOf (modelStage w req pool).1 t = .ok r.provider := by
  obtain ⟨pool, ranked, weighed, best, rest, hpool, hranked, hweighed, hkept, hbind⟩ :=
    selectProvider_stages h
  obtain ⟨p, ⟨-, hp, hr⟩ | ⟨-, hp, hr⟩⟩ := bindStage_route hbind
  · refine ⟨pool, ranked, weighed, best :: rest, PyList.minBy cheaper best rest, hpool, hranked,
      hweighed, hkept, PyList.minBy_mem cheaper best rest, ?_, ?_⟩
    · rw [hr]
      rfl
    · rw [hr]
      exact hp
  · refine ⟨pool, ranked, weighed, best :: rest, chooseWinner w req best rest, hpool, hranked,
      hweighed, hkept, chooseWinner_mem w req best rest, ?_, ?_⟩
    · rw [hr]
      rfl
    · rw [hr]
      exact hp

theorem providerOf_id {available : List Provider} {t : Ranked} {p : Provider}
    (h : providerOf available t = .ok p) : p.id = t.profile.providerId := by
  unfold providerOf at h
  split at h
  · next q hfind =>
    have hq := List.find?_some hfind
    rw [← Except.ok.inj h]
    exact of_decide_eq_true hq
  · cases h

theorem selectProvider_profile (hids : (w.providers.map (·.id)).Nodup) {r : RouteResult}
    (h : selectProvider w req = .ok (.route r)) :
    r.profile = candidateProfile w req r.provider ∧
      (req.hasImages = true → r.profile.nativeVision = true) ∧
      ∀ hint, req.hint = some hint → MeetsRequired hint r.profile := by
  obtain ⟨pool, ranked, weighed, kept, t, hpool, hranked, hweighed, hkept, ht, hprofile, hof⟩ :=
    selectProvider_chosen h
  obtain ⟨htweighed, hvision⟩ := fitStage_ok hkept ht
  obtain ⟨u, hu, hsame⟩ := toolWeightStage_ok hweighed htweighed
  obtain ⟨hmem, hmeets⟩ := rankStage_ok hranked hu
  obtain ⟨q, hq, hqprofile⟩ := List.mem_map.mp hmem
  have hown : t.profile = candidateProfile w req q := hsame.trans hqprofile.symm
  -- the id of the profile finds the row it was made from
  have hid : r.provider.id = q.id := by
    rw [providerOf_id hof, hown, candidateProfile_providerId]
  have hrow : r.provider = q := List.inj_on_of_nodup_map hids
    (candidatePool_admitted hpool (modelStage_mem (providerOf_ok hof))).row
    (candidatePool_admitted hpool (modelStage_mem hq)).row hid
  rw [hprofile]
  refine ⟨?_, hvision, fun hint hhint => ?_⟩
  · rw [hown, hrow]
  · rw [hsame]
    exact hmeets hint hhint

/-- **Soundness of the selection.** Ids are the table's primary key; an empty id, pin or owner is
Python's way to give none. -/
theorem selection_sound (w : World) (req : RouteRequest) (r : RouteResult)
    (hids : (w.providers.map (·.id)).Nodup) (h : selectProvider w req = .ok (.route r)) :
    r.provider ∈ w.providers ∧ r.provider.enabled = true ∧
      truthy req.excludeProviderId ≠ some r.provider.id ∧
      r.provider.id ∉ req.excludeProviderIds ∧
      (truthy r.provider.ownedByKeyId = none ∨
        truthy r.provider.ownedByKeyId = effectiveKey w req) ∧
      w.isAvailable r.provider.id = true ∧
      (req.hasTools = true → r.provider.excludeFromToolRequests = false) ∧
      r.provider.providerType ∉ req.excludedProviderTypes ∧
      r.profile = candidateProfile w req r.provider ∧
      (req.hasImages = true → r.profile.nativeVision = true) ∧
      (∀ id, truthy req.pinnedProviderId = some id → r.provider.id = id) ∧
      (∀ hint, req.hint = some hint →
        ∃ q unmet, scoreCandidate r.profile hint = .ok (.fin q, unmet)) := by
  obtain ⟨hadm, -, -⟩ := selectProvider_route h
  obtain ⟨hprofile, hvision, hmeets⟩ := selectProvider_profile hids h
  have howner : truthy r.provider.ownedByKeyId = none ∨
      truthy r.provider.ownedByKeyId = effectiveKey w req := by
    have haccess := hadm.accessible
    unfold accessible at haccess
    cases hown : truthy r.provider.ownedByKeyId with
    | none => exact Or.inl rfl
    | some owner =>
      rw [hown] at haccess
      exact Or.inr (of_decide_eq_true haccess).symm
  exact ⟨hadm.row, hadm.enabled, hadm.notExcluded, hadm.notExcludedIds, howner, hadm.available,
    hadm.tools, hadm.type, hprofile, hvision, hadm.pinned, hmeets⟩

def seeingRow : Provider :=
  { id := "p1", name := "OpenAI", providerType := "openai", defaultModel := some "gpt-4o" }

def blindRow : Provider :=
  { id := "p2", name := "Cohere", providerType := "cohere", defaultModel := some "command-r" }

/-- Two providers, of which one sees images. -/
def visionWorld : World := quietWorld [seeingRow, blindRow] [] {} [] none seeingRow

/-- An image for the fastest provider, with a hard constraint. -/
def visionRequest : RouteRequest where
  hint := some ⟨"task=code;require", [{ key := "task", value := "code", required := true }]⟩
  hasImages := true
  sortMode := some "nitro"

theorem visionRequest_sound :
    (visionWorld.providers.map (·.id)).Nodup ∧
      ∃ r, selectProvider visionWorld visionRequest = .ok (.route r) ∧
        r.provider ∈ visionWorld.providers ∧ r.profile.nativeVision = true := by
  have hids : (visionWorld.providers.map (·.id)).Nodup := by decide
  refine ⟨hids, ?_⟩
  have hserved : (selectRoute visionWorld visionRequest).isOk = true := by decide +kernel
  cases hroute : selectRoute visionWorld visionRequest with
  | error e =>
    rw [hroute] at hserved
    cases hserved
  | ok r =>
    have hselect := selectProvider_of_selectRoute hroute
    have hsound := selection_sound visionWorld visionRequest r hids hselect
    exact ⟨r, hselect, hsound.1, hsound.2.2.2.2.2.2.2.2.2.1 rfl⟩

end LlmProxy.Routing
