import LlmProxy.Routing.Router

/-! # What a selected route guarantees

One inversion lemma for each stage of `select_provider`, and from them what holds of every
route it returns: which tests its provider passed (`Admitted`) and which model and keyword
arguments it is bound to (`selectProvider_route`). Results about routes are read off these and
never unfold the pipeline.
-/

namespace LlmProxy.Routing

open LlmProxy.Providers
open LlmProxy.Compliance
open Result

/-- The tests of the candidate pool a provider has passed. -/
structure Admitted (w : World) (req : RouteRequest) (p : Provider) : Prop where
  row : p ∈ w.providers
  enabled : p.enabled = true
  pinned : ∀ id, truthy req.pinnedProviderId = some id → p.id = id
  compliant : req.blockedCompanies = none → ∀ id, truthy req.apiKeyId = some id →
    accepts (getEffectivePolicy w.keys w.systemPolicy (some id)) p req.modelOverride = true
  notExcluded : truthy req.excludeProviderId ≠ some p.id
  notExcludedIds : p.id ∉ req.excludeProviderIds
  accessible : accessible (effectiveKey w req) p = true
  available : w.isAvailable p.id = true
  tools : req.hasTools = true → p.excludeFromToolRequests = false
  type : p.providerType ∉ req.excludedProviderTypes
  chat : truthy req.modelOverride = none → chatDefault p = true

/-! ## The stages -/

theorem mem_enabledRows {w : World} {p : Provider} :
    p ∈ enabledRows w ↔ p ∈ w.providers ∧ p.enabled = true := by
  unfold enabledRows
  rw [PyList.mem_sortBy, List.mem_filter]

theorem mem_placeAt {q : Provider → Bool} {l subset : List Provider} {a : Provider}
    (h : a ∈ placeAt q l subset) : a ∈ l ∨ a ∈ subset := by
  induction l generalizing subset with
  | nil => cases h
  | cons b l ih =>
    -- a marked position takes the next element of the subset, any other keeps its own
    unfold placeAt at h
    split at h
    · cases subset with
      | nil =>
        rcases List.mem_cons.mp h with heq | hrest
        · exact Or.inl (by rw [heq]; exact List.mem_cons_self)
        · rcases ih hrest with hl | hs
          · exact Or.inl (List.mem_cons_of_mem b hl)
          · exact Or.inr hs
      | cons c rest =>
        rcases List.mem_cons.mp h with heq | hrest
        · exact Or.inr (by rw [heq]; exact List.mem_cons_self)
        · rcases ih hrest with hl | hs
          · exact Or.inl (List.mem_cons_of_mem b hl)
          · exact Or.inr (List.mem_cons_of_mem c hs)
    · rcases List.mem_cons.mp h with heq | hrest
      · exact Or.inl (by rw [heq]; exact List.mem_cons_self)
      · rcases ih hrest with hl | hs
        · exact Or.inl (List.mem_cons_of_mem b hl)
        · exact Or.inr hs

theorem mem_of_mem_reorderSubscription {m : List (String × Rat)} {size : Rat} {type : String}
    {l : List Provider} {a : Provider}
    (h : a ∈ reorderSubscriptionByUtilization m size type l) : a ∈ l := by
  unfold reorderSubscriptionByUtilization at h
  dsimp only at h
  split at h
  · exact h
  · rcases mem_placeAt h with hl | hs
    · exact hl
    · exact List.mem_of_mem_filter (PyList.mem_sortBy.mp hs)

theorem usableRows_mem {w : World} {p : Provider} (h : p ∈ usableRows w) : p ∈ enabledRows w := by
  unfold usableRows at h
  dsimp only at h
  split at h
  · have husable := mem_of_mem_reorderSubscription (mem_of_mem_reorderSubscription h)
    exact List.mem_of_mem_filter (List.mem_of_mem_filter husable)
  · exact List.mem_of_mem_filter (List.mem_of_mem_filter h)

theorem rotationPool_ok {w : World} {pool : List Provider} (h : rotationPool w = .ok pool)
    {p : Provider} (hp : p ∈ pool) : p ∈ w.providers ∧ p.enabled = true := by
  unfold rotationPool at h
  split at h
  · cases h
  · rw [← Except.ok.inj h] at hp
    apply mem_enabledRows.mp
    split at hp
    · exact hp
    · exact usableRows_mem hp

theorem pinStage_ok {req : RouteRequest} {l out : List Provider} (h : pinStage req l = .ok out)
    {p : Provider} (hp : p ∈ out) :
    p ∈ l ∧ ∀ id, truthy req.pinnedProviderId = some id → p.id = id := by
  unfold pinStage at h
  split at h
  · next hnone =>
    rw [Except.ok.inj h]
    exact ⟨hp, fun id hid => by rw [hnone] at hid; cases hid⟩
  · next id hsome =>
    have hout := (orRaise_ok h).1
    rw [hout] at hp
    obtain ⟨hl, hid⟩ := List.mem_filter.mp hp
    refine ⟨hl, fun id' hid' => ?_⟩
    rw [hsome] at hid'
    rw [← Option.some.inj hid']
    exact of_decide_eq_true hid

theorem complianceStage_ok {w : World} {req : RouteRequest} {l out : List Provider}
    (h : complianceStage w req l = .ok out) {p : Provider} (hp : p ∈ out) :
    p ∈ l ∧ (req.blockedCompanies = none → ∀ id, truthy req.apiKeyId = some id →
      accepts (getEffectivePolicy w.keys w.systemPolicy (some id)) p req.modelOverride = true) := by
  unfold complianceStage at h
  dsimp only at h
  split at h
  · next filtered hfiltered =>
    rw [Except.ok.inj h] at hfiltered
    cases hblock : req.blockedCompanies with
    | some blocklist =>
      rw [hblock] at hfiltered
      dsimp only at hfiltered
      refine ⟨?_, fun hnone => by cases hnone⟩
      unfold filterProviders at hfiltered
      split at hfiltered
      · rw [Except.ok.inj hfiltered]
        exact hp
      · dsimp only at hfiltered
        split at hfiltered
        · cases hfiltered
        · rw [← Except.ok.inj hfiltered] at hp
          exact List.mem_of_mem_filter hp
    | none =>
      rw [hblock] at hfiltered
      dsimp only at hfiltered
      cases hkey : truthy req.apiKeyId with
      | none =>
        rw [hkey] at hfiltered
        rw [Except.ok.inj hfiltered]
        exact ⟨hp, fun _ id hid => by cases hid⟩
      | some id =>
        rw [hkey] at hfiltered
        have hout := filterProvidersV2_ok hfiltered
        rw [hout] at hp
        obtain ⟨hl, hacc⟩ := List.mem_filter.mp hp
        refine ⟨hl, fun _ id' hid' => ?_⟩
        rw [← Option.some.inj hid']
        exact hacc
  · cases h

theorem excludeOne_ok {req : RouteRequest} {l out : List Provider} (h : excludeOne req l = .ok out)
    {p : Provider} (hp : p ∈ out) : p ∈ l ∧ truthy req.excludeProviderId ≠ some p.id := by
  unfold excludeOne at h
  split at h
  · next hnone =>
    rw [← Except.ok.inj h] at hp
    exact ⟨hp, by rw [hnone]; exact fun hcontra => by cases hcontra⟩
  · next id hsome =>
    rw [(orRaise_ok h).1] at hp
    obtain ⟨hl, hne⟩ := List.mem_filter.mp hp
    refine ⟨hl, fun hcontra => ?_⟩
    rw [hsome] at hcontra
    exact (of_decide_eq_true hne) (Option.some.inj hcontra).symm

theorem excludeMany_ok {req : RouteRequest} {l out : List Provider}
    (h : excludeMany req l = .ok out) {p : Provider} (hp : p ∈ out) :
    p ∈ l ∧ p.id ∉ req.excludeProviderIds := by
  unfold excludeMany at h
  split at h
  · next hempty =>
    rw [← Except.ok.inj h] at hp
    have hnil : req.excludeProviderIds = [] := List.isEmpty_iff.mp hempty
    exact ⟨hp, by rw [hnil]; exact List.not_mem_nil⟩
  · rw [(orRaise_ok h).1] at hp
    obtain ⟨hl, hnot⟩ := List.mem_filter.mp hp
    exact ⟨hl, by simpa using hnot⟩

theorem toolStage_ok {req : RouteRequest} {l out : List Provider} (h : toolStage req l = .ok out)
    {p : Provider} (hp : p ∈ out) :
    p ∈ l ∧ (req.hasTools = true → p.excludeFromToolRequests = false) := by
  unfold toolStage at h
  split at h
  · rw [(orRaise_ok h).1] at hp
    obtain ⟨hl, hex⟩ := List.mem_filter.mp hp
    exact ⟨hl, fun _ => by simpa using hex⟩
  · next hno =>
    rw [Except.ok.inj h]
    exact ⟨hp, fun hyes => absurd hyes hno⟩

theorem chatStage_ok {req : RouteRequest} {l out : List Provider} (h : chatStage req l = .ok out)
    {p : Provider} (hp : p ∈ out) :
    p ∈ l ∧ (truthy req.modelOverride = none → chatDefault p = true) := by
  unfold chatStage at h
  split at h
  · next m hsome =>
    rw [Except.ok.inj h]
    exact ⟨hp, fun hnone => by rw [hsome] at hnone; cases hnone⟩
  · rw [(orRaise_ok h).1] at hp
    obtain ⟨hl, hchat⟩ := List.mem_filter.mp hp
    exact ⟨hl, fun _ => hchat⟩

theorem liveTokens_mem {w : World} {l : List Provider} {p : Provider} (h : p ∈ liveTokens w l) :
    p ∈ l := by
  unfold liveTokens at h
  dsimp only at h
  split at h
  · exact h
  · exact List.mem_of_mem_filter h

theorem candidatePool_admitted {w : World} {req : RouteRequest} {pool : List Provider}
    (h : candidatePool w req = .ok pool) {p : Provider} (hp : p ∈ pool) : Admitted w req p := by
  obtain ⟨rows, hrows, h⟩ := bind_ok h
  obtain ⟨pinned, hpinned, h⟩ := bind_ok h
  obtain ⟨compliant, hcompliant, h⟩ := bind_ok h
  obtain ⟨others, hothers, h⟩ := bind_ok h
  obtain ⟨kept, hkept, h⟩ := bind_ok h
  obtain ⟨owned, howned, h⟩ := bind_ok h
  obtain ⟨available, havailable, h⟩ := bind_ok h
  obtain ⟨tooled, htooled, h⟩ := bind_ok h
  obtain ⟨typed, htyped, h⟩ := bind_ok h
  -- walk back from the last stage to the table
  obtain ⟨hintyped, hchat⟩ := chatStage_ok h hp
  rw [typeStage] at htyped
  rw [(orRaise_ok htyped).1] at hintyped
  obtain ⟨hintooled, htype⟩ := List.mem_filter.mp hintyped
  obtain ⟨hinlive, htools⟩ := toolStage_ok htooled hintooled
  have hinavailable := liveTokens_mem hinlive
  rw [availabilityStage] at havailable
  rw [(orRaise_ok havailable).1] at hinavailable
  obtain ⟨hinowned, hup⟩ := List.mem_filter.mp hinavailable
  rw [tenantStage] at howned
  rw [(orRaise_ok howned).1] at hinowned
  obtain ⟨hinkept, hacc⟩ := List.mem_filter.mp hinowned
  obtain ⟨hinothers, hnots⟩ := excludeMany_ok hkept hinkept
  obtain ⟨hincompliant, hnot⟩ := excludeOne_ok hothers hinothers
  obtain ⟨hinpinned, hpolicy⟩ := complianceStage_ok hcompliant hincompliant
  obtain ⟨hinrows, hpin⟩ := pinStage_ok hpinned hinpinned
  obtain ⟨hrow, hen⟩ := rotationPool_ok hrows hinrows
  exact ⟨hrow, hen, hpin, hpolicy, hnot, hnots, hacc, hup, htools, by simpa using htype, hchat⟩

theorem dropOwnDispatcherTypes_mem {l : List Provider} {p : Provider}
    (h : p ∈ dropOwnDispatcherTypes l) : p ∈ l := by
  unfold dropOwnDispatcherTypes at h
  dsimp only at h
  split at h
  · exact h
  · exact List.mem_of_mem_filter h

theorem familyStage_mem {m : String} {l : List Provider} {p : Provider}
    (h : p ∈ (familyStage m l).1) : p ∈ l := by
  unfold familyStage at h
  split at h
  · exact h
  · dsimp only at h
    split at h
    · exact dropOwnDispatcherTypes_mem h
    · exact List.mem_of_mem_filter h

theorem capabilityStage_mem {w : World} {m : String} {pool : List Provider × Bool} {p : Provider}
    (h : p ∈ (capabilityStage w m pool).1) : p ∈ pool.1 := by
  unfold capabilityStage at h
  dsimp only at h
  split at h
  · exact List.mem_of_mem_filter h
  · split at h
    · exact h
    · exact dropOwnDispatcherTypes_mem h

theorem modelStage_mem {w : World} {req : RouteRequest} {pool : List Provider} {p : Provider}
    (h : p ∈ (modelStage w req pool).1) : p ∈ pool := by
  unfold modelStage at h
  split at h
  · exact h
  · exact familyStage_mem (capabilityStage_mem h)

theorem modelStage_of_no_model {w : World} {req : RouteRequest} {pool : List Provider}
    (h : truthy req.modelOverride = none) : modelStage w req pool = (pool, false) := by
  unfold modelStage
  rw [h]

theorem providerOf_ok {available : List Provider} {t : Ranked} {p : Provider}
    (h : providerOf available t = .ok p) : p ∈ available := by
  unfold providerOf at h
  split at h
  · next q hfind =>
    rw [← Except.ok.inj h]
    exact List.mem_of_find?_eq_some hfind
  · cases h

/-! ## The route -/

/-- The model a route is bound to: the caller's, or after a cross-family fallback from a
requested model the provider's default. -/
def BoundTo (req : RouteRequest) (r : RouteResult) : Prop :=
  r.litellmModel = buildLitellmModel r.provider req.modelOverride ∨
    ((truthy req.modelOverride).isSome ∧ r.litellmModel = buildLitellmModel r.provider none)

theorem boundRoute_boundTo {w : World} {req : RouteRequest} {cross : Bool} {p : Provider}
    {t : Ranked} {skipped : List (String × String)}
    (hcross : cross = true → (truthy req.modelOverride).isSome) :
    BoundTo req (boundRoute w req cross p t skipped) := by
  cases cross with
  | true => exact Or.inr ⟨hcross rfl, rfl⟩
  | false => exact Or.inl rfl

theorem selectProvider_stages {w : World} {req : RouteRequest} {r : RouteResult}
    (h : selectProvider w req = .ok (.route r)) :
    ∃ pool ranked weighed best rest,
      candidatePool w req = .ok pool ∧ rankStage w req (modelStage w req pool).1 = .ok ranked ∧
        toolWeightStage req ranked = .ok weighed ∧ fitStage req weighed = .ok (best :: rest) ∧
        bindStage w req (modelStage w req pool).1 (modelStage w req pool).2 (skippedBy req weighed)
          best rest = .ok (.route r) := by
  obtain ⟨pool, hpool, h⟩ := bind_ok h
  obtain ⟨ranked, hranked, h⟩ := bind_ok h
  obtain ⟨weighed, hweighed, h⟩ := bind_ok h
  obtain ⟨kept, hkept, h⟩ := bind_ok h
  cases kept with
  | nil => cases h
  | cons best rest => exact ⟨pool, ranked, weighed, best, rest, hpool, hranked, hweighed, hkept, h⟩

theorem bindStage_route {w : World} {req : RouteRequest} {available : List Provider}
    {crossFamily : Bool} {skipped : List (String × String)} {best : Ranked} {rest : List Ranked}
    {r : RouteResult}
    (h : bindStage w req available crossFamily skipped best rest = .ok (.route r)) :
    ∃ p, ((req.preferCheapest || req.sortMode = some "floor") = true ∧
        providerOf available (PyList.minBy cheaper best rest) = .ok p ∧
        r = cheapestRoute req p (PyList.minBy cheaper best rest) skipped) ∨
      ((req.preferCheapest || req.sortMode = some "floor") = false ∧
        providerOf available (chooseWinner w req best rest) = .ok p ∧
        r = boundRoute w req crossFamily p (chooseWinner w req best rest) skipped) := by
  unfold bindStage at h
  split at h
  · obtain ⟨quotes, hquotes, hcontra⟩ := bind_ok h
    cases Except.ok.inj hcontra
  · split at h
    · next hcheap =>
      obtain ⟨p, hp, hroute⟩ := bind_ok h
      exact ⟨p, Or.inl ⟨hcheap, hp, (Selection.route.inj (Except.ok.inj hroute)).symm⟩⟩
    · next hchosen =>
      obtain ⟨p, hp, hroute⟩ := bind_ok h
      exact ⟨p, Or.inr ⟨Bool.eq_false_iff.mpr hchosen, hp,
        (Selection.route.inj (Except.ok.inj hroute)).symm⟩⟩

/-- **The route of `select_provider`**: its provider passed every test of the pool, its model
is the caller's or the provider's default, and its keyword arguments are the provider's. -/
theorem selectProvider_route {w : World} {req : RouteRequest} {r : RouteResult}
    (h : selectProvider w req = .ok (.route r)) :
    Admitted w req r.provider ∧ BoundTo req r ∧
      r.litellmKwargs = buildLitellmKwargs r.provider := by
  obtain ⟨pool, ranked, weighed, best, rest, hpool, -, -, -, hbind⟩ := selectProvider_stages h
  have hadmitted : ∀ p ∈ (modelStage w req pool).1, Admitted w req p :=
    fun p hp => candidatePool_admitted hpool (modelStage_mem hp)
  have hcross : (modelStage w req pool).2 = true → (truthy req.modelOverride).isSome := by
    intro hflag
    cases hm : truthy req.modelOverride with
    | some m => rfl
    | none =>
      rw [modelStage_of_no_model hm] at hflag
      cases hflag
  -- the cheapest and the chosen candidate differ in the model bound
  obtain ⟨p, ⟨-, hp, hr⟩ | ⟨-, hp, hr⟩⟩ := bindStage_route hbind
  · rw [hr]
    exact ⟨hadmitted p (providerOf_ok hp), Or.inl rfl, rfl⟩
  · rw [hr]
    exact ⟨hadmitted p (providerOf_ok hp), boundRoute_boundTo hcross, rfl⟩

theorem selectProvider_engaged {w : World} {req : RouteRequest} {r : RouteResult}
    (h : selectProvider w req = .ok (.route r)) :
    (r.toolEmulationEngaged = true → req.hasTools = true) ∧
      (r.cotEngaged = true → needsReasoning w req = true) := by
  obtain ⟨pool, ranked, weighed, best, rest, -, -, -, -, hbind⟩ := selectProvider_stages h
  obtain ⟨p, ⟨-, -, hr⟩ | ⟨-, -, hr⟩⟩ := bindStage_route hbind
  · rw [hr]
    exact ⟨(fun hno => nomatch hno), (fun hno => nomatch hno)⟩
  · rw [hr]
    exact ⟨fun htools => (Bool.and_eq_true_iff.mp htools).1,
      fun hcot => (Bool.and_eq_true_iff.mp hcot).1⟩

/-! ## When one candidate is left

A request whose exclusions leave a single admitted provider is served by it. This is the
converse direction: an admitted provider is not only a possible provider of some route, there
is a request that gets it. -/

/-- A stage lets `p` through: it succeeds, drops rows only, and keeps `p`. -/
def Passes (stage : List Provider → Except RoutingError (List Provider)) (p : Provider) : Prop :=
  ∀ l, p ∈ l → ∃ out, stage l = .ok out ∧ out.Sublist l ∧ p ∈ out

theorem passes_ok (p : Provider) : Passes (fun l => .ok l) p :=
  fun l hp => ⟨l, rfl, List.Sublist.refl l, hp⟩

theorem passes_filter {q : Provider → Bool} {e : RoutingError} {p : Provider} (h : q p = true) :
    Passes (fun l => orRaise (l.filter q) e) p := by
  intro l hp
  have hmem : p ∈ l.filter q := List.mem_filter.mpr ⟨hp, h⟩
  exact ⟨l.filter q, orRaise_of_mem hmem, List.filter_sublist, hmem⟩

variable {w : World} {req : RouteRequest} {p : Provider}

theorem pinStage_passes (h : Admitted w req p) : Passes (pinStage req) p := by
  unfold pinStage
  split
  · exact passes_ok p
  · next id hid => exact passes_filter (decide_eq_true (h.pinned id hid))

theorem excludeOne_passes (h : Admitted w req p) : Passes (excludeOne req) p := by
  unfold excludeOne
  split
  · exact passes_ok p
  · next id hid =>
    have hne : p.id ≠ id := fun heq => h.notExcluded (by rw [hid, heq])
    exact passes_filter (decide_eq_true hne)

theorem complianceStage_passes (h : Admitted w req p) (hlist : req.blockedCompanies = none) :
    Passes (complianceStage w req) p := by
  intro l hp
  unfold complianceStage
  rw [hlist]
  dsimp only
  cases hkey : truthy req.apiKeyId with
  | none => exact ⟨l, rfl, List.Sublist.refl l, hp⟩
  | some id =>
    obtain ⟨out, hout, hsub, hpout⟩ := filterProvidersV2_passes hp (h.compliant hlist id hkey)
    refine ⟨out, ?_, hsub, hpout⟩
    dsimp only
    rw [hout]

/-- The exclusions of the request leave nothing but `p`. -/
def LeavesOnly (w : World) (req : RouteRequest) (p : Provider) : Prop :=
  ∀ q ∈ w.providers, q.id ∉ req.excludeProviderIds → q = p

theorem excludeMany_sole (h : Admitted w req p) (honly : LeavesOnly w req p) {l : List Provider}
    (hl : ∀ q ∈ l, q ∈ w.providers) (hnodup : l.Nodup) (hp : p ∈ l) :
    excludeMany req l = .ok [p] := by
  -- what survives the filter is `p`, and a duplicate-free list holds it once
  have hfilter : l.filter (fun q => !req.excludeProviderIds.contains q.id) = [p] := by
    have hsame : l.filter (fun q => !req.excludeProviderIds.contains q.id) =
        l.filter (fun q => decide (q = p)) := by
      apply List.filter_congr
      intro q hq
      by_cases hqp : q = p
      · rw [hqp]
        simpa using h.notExcludedIds
      · have hex : q.id ∈ req.excludeProviderIds := by
          by_contra hnot
          exact hqp (honly q (hl q hq) hnot)
        simp [hqp, hex]
    rw [hsame, List.filter_eq, List.count_eq_one_of_mem hnodup hp]
    rfl
  unfold excludeMany
  split
  · next hempty =>
    have hnil : req.excludeProviderIds = [] := List.isEmpty_iff.mp hempty
    rw [hnil] at hfilter
    have hall : l = [p] := by simpa using hfilter
    rw [hall]
  · rw [hfilter]
    rfl

theorem usableRows_of_quiet (hquiet : w.utilization = none)
    (hcap : isCurrentlyAtCapacity w.utcNow p = false) (hnode : nodeRoutable w p = true)
    (hrow : p ∈ w.providers) (hen : p.enabled = true) (hnodup : w.providers.Nodup) :
    p ∈ usableRows w ∧ (usableRows w).Nodup := by
  have hsorted : (enabledRows w).Nodup :=
    (List.perm_insertionSort _ _).nodup_iff.mpr (hnodup.filter _)
  unfold usableRows
  rw [hquiet]
  dsimp only
  refine ⟨?_, (hsorted.filter _).filter _⟩
  refine List.mem_filter.mpr ⟨List.mem_filter.mpr ⟨?_, ?_⟩, hnode⟩
  · exact mem_enabledRows.mpr ⟨hrow, hen⟩
  · rw [hcap]
    rfl

theorem candidatePool_sole (h : Admitted w req p) (honly : LeavesOnly w req p)
    (hlist : req.blockedCompanies = none) (huse : p ∈ usableRows w)
    (hnodup : (usableRows w).Nodup) : candidatePool w req = .ok [p] := by
  have hrows : rotationPool w = .ok (usableRows w) := by
    have hne : usableRows w ≠ [] := List.ne_nil_of_mem huse
    have hen : enabledRows w ≠ [] := List.ne_nil_of_mem (usableRows_mem huse)
    unfold rotationPool
    rw [if_neg (by simpa using hen), if_neg (by simpa using hne)]
  obtain ⟨pinned, hpinned, hsub1, hp1⟩ := pinStage_passes h (usableRows w) huse
  obtain ⟨compliant, hcompliant, hsub2, hp2⟩ := complianceStage_passes h hlist pinned hp1
  obtain ⟨others, hothers, hsub3, hp3⟩ := excludeOne_passes h compliant hp2
  have hsub : others.Sublist (usableRows w) := (hsub3.trans hsub2).trans hsub1
  have hin : ∀ q ∈ others, q ∈ w.providers := fun q hq =>
    (mem_enabledRows.mp (usableRows_mem (hsub.subset hq))).1
  have hsole : excludeMany req others = .ok [p] :=
    excludeMany_sole h honly hin (hnodup.sublist hsub) hp3
  have htenant : tenantStage w req [p] = .ok [p] := by
    simp [tenantStage, h.accessible]
  have hup : availabilityStage w [p] = .ok [p] := by
    simp [availabilityStage, h.available]
  have hlive : liveTokens w [p] = [p] := by
    unfold liveTokens
    cases hdead : tokenDead w.unixNow p <;> simp [hdead]
  have htools : toolStage req [p] = .ok [p] := by
    unfold toolStage
    split
    · next hyes => simp [h.tools hyes]
    · rfl
  have htype : typeStage req [p] = .ok [p] := by
    simp [typeStage, h.type]
  have hchat : chatStage req [p] = .ok [p] := by
    unfold chatStage
    split
    · rfl
    · next hnone => simp [h.chat hnone]
  unfold candidatePool
  simp only [hrows, hpinned, hcompliant, hothers, hsole, htenant, hup, hlive, htools, htype, hchat,
    bind, Except.bind]

theorem filter_singleton {q : Provider → Bool} (p : Provider) (h : ([p].filter q).isEmpty = false) :
    [p].filter q = [p] := by
  cases hq : q p with
  | true => simp [hq]
  | false => simp [hq] at h

theorem dropOwnDispatcherTypes_sole (p : Provider) : dropOwnDispatcherTypes [p] = [p] := by
  unfold dropOwnDispatcherTypes
  dsimp only
  split
  · rfl
  · next hne => exact filter_singleton p (Bool.eq_false_iff.mpr hne)

theorem familyStage_sole (m : String) (p : Provider) : (familyStage m [p]).1 = [p] := by
  unfold familyStage
  split
  · rfl
  · dsimp only
    split
    · exact dropOwnDispatcherTypes_sole p
    · next hne => exact filter_singleton p (Bool.eq_false_iff.mpr hne)

theorem modelStage_sole (w : World) (req : RouteRequest) (p : Provider) :
    (modelStage w req [p]).1 = [p] := by
  unfold modelStage
  split
  · rfl
  · next m _ =>
    unfold capabilityStage
    rw [familyStage_sole m p]
    dsimp only
    split
    · next hsome => exact filter_singleton p (by simpa using hsome)
    · split
      · exact familyStage_sole m p
      · exact dropOwnDispatcherTypes_sole p

/-- `random.sample` that takes the first two. -/
def firstTwo : Sampler := fun _ h => ⟨(⟨0, by omega⟩, ⟨1, by omega⟩), by simp⟩

/-- A world with nothing against `p`: breakers closed, sessions authenticated, no utilisation
data, and a clock at the end of `p`'s skip window. -/
def quietWorld (providers : List Provider) (keys : List Cluster.ApiKey) (systemPolicy : Policy)
    (capabilities : List ModelCapability) (currentApiKeyId : Option String) (p : Provider) :
    World where
  providers := providers
  keys := keys
  systemPolicy := systemPolicy
  capabilities := capabilities
  telemetry := ⟨fun _ => none, fun _ => 0, fun _ => none⟩
  settings := {}
  authState := fun _ => some "ok"
  utilization := none
  isAvailable := fun _ => true
  peakEwma := fun _ => none
  utcNow := p.autoSkipUntil.getD 0
  unixNow := 0
  currentApiKeyId := currentApiKeyId
  sample := firstTwo

theorem quietWorld_usable {providers : List Provider} (keys : List Cluster.ApiKey)
    (system : Policy) (caps : List ModelCapability) (key : Option String) (hrow : p ∈ providers)
    (hen : p.enabled = true) (hnodup : providers.Nodup) :
    p ∈ usableRows (quietWorld providers keys system caps key p) ∧
      (usableRows (quietWorld providers keys system caps key p)).Nodup := by
  have hcap : isCurrentlyAtCapacity (p.autoSkipUntil.getD 0) p = false := by
    unfold isCurrentlyAtCapacity
    cases hskip : p.autoSkipUntil with
    | none => rfl
    | some t => simp
  have hnode : nodeRoutable (quietWorld providers keys system caps key p) p = true := by
    simp [nodeRoutable, quietWorld]
  exact usableRows_of_quiet rfl hcap hnode hrow hen hnodup

def otherIds (providers : List Provider) (p : Provider) : List String :=
  (providers.map (·.id)).filter (· ≠ p.id)

theorem not_mem_otherIds (providers : List Provider) (p : Provider) :
    p.id ∉ otherIds providers p := by
  intro h
  exact (of_decide_eq_true (List.mem_filter.mp h).2) rfl

theorem leavesOnly_otherIds (hids : (w.providers.map (·.id)).Nodup) (hp : p ∈ w.providers)
    (hex : req.excludeProviderIds = otherIds w.providers p) : LeavesOnly w req p := by
  intro q hq hnot
  rw [hex] at hnot
  have hid : q.id = p.id := by
    by_contra hne
    exact hnot (List.mem_filter.mpr ⟨List.mem_map_of_mem hq, decide_eq_true hne⟩)
  exact List.inj_on_of_nodup_map hids hq hp hid

/-- The request asks for nothing that ranking could refuse. -/
structure Plain (req : RouteRequest) : Prop where
  hint : req.hint = none
  tools : req.hasTools = false
  images : req.hasImages = false
  input : req.estInputTokens = none
  output : req.requestedMaxTokens = none
  sort : req.sortMode = none
  dry : req.dryRun = false

def soleRanked (w : World) (req : RouteRequest) (p : Provider) : Ranked :=
  ⟨candidateProfile w req p, [], .fin ((1000 - (candidateProfile w req p).priority : Int) : Rat)⟩

@[simp] theorem candidateProfile_providerId (w : World) (req : RouteRequest) (p : Provider) :
    (candidateProfile w req p).providerId = p.id := by
  unfold candidateProfile
  dsimp only
  repeat' split
  all_goals exact loadProfile_providerId _ _ _

@[simp] theorem candidateProfile_providerType (w : World) (req : RouteRequest) (p : Provider) :
    (candidateProfile w req p).providerType = p.providerType := by
  unfold candidateProfile
  dsimp only
  repeat' split
  all_goals exact loadProfile_providerType _ _ _

@[simp] theorem candidateProfile_priority (w : World) (req : RouteRequest) (p : Provider) :
    (candidateProfile w req p).priority = p.priority := by
  unfold candidateProfile
  dsimp only
  repeat' split
  all_goals exact loadProfile_priority _ _ _

@[simp] theorem candidateProfile_modelId (w : World) (req : RouteRequest) (p : Provider) :
    (candidateProfile w req p).modelId = p.defaultModel.getD "" := by
  unfold candidateProfile
  dsimp only
  repeat' split
  all_goals exact loadProfile_modelId _ _ _

theorem chooseWinner_sole (hsort : req.sortMode = none) (hquiet : w.utilization = none) (q : Rat)
    (profile : CapabilityProfile) (unmet : List String) :
    chooseWinner w req ⟨profile, unmet, .fin q⟩ [] = ⟨profile, unmet, .fin q⟩ := by
  have hband : withinBand (.fin q) (.fin q) = true := by
    show decide (q - q < 1) = true
    rw [sub_self]
    decide
  have htier : topTier ⟨profile, unmet, .fin q⟩ [⟨profile, unmet, .fin q⟩] =
      [⟨profile, unmet, .fin q⟩] := by
    simp [topTier, hband]
  simp [chooseWinner, hsort, htier, lowBucket, hquiet, sampleWinner]

/-- **A request that leaves one admitted provider is routed to it**: by the cheapest path
with the caller's model, and by the ordinary path with the caller's model or, after a fallback,
the provider's default. -/
theorem selectProvider_sole (h : Admitted w req p) (honly : LeavesOnly w req p)
    (hplain : Plain req) (hlist : req.blockedCompanies = none) (hquiet : w.utilization = none)
    (huse : p ∈ usableRows w) (hnodup : (usableRows w).Nodup) :
    ∃ r, selectProvider w req = .ok (.route r) ∧ r.provider = p ∧
      r.litellmModel =
        buildLitellmModel p
          (if req.preferCheapest = false ∧ (modelStage w req [p]).2 = true then none
          else req.modelOverride) := by
  have hpool := candidatePool_sole h honly hlist huse hnodup
  have hmodel := modelStage_sole w req p
  have hranked : rankStage w req [p] = .ok [soleRanked w req p] := by
    simp [rankStage, hplain.hint, rankCandidatesWithScores, soleRanked]
  have hweighed : toolWeightStage req [soleRanked w req p] = .ok [soleRanked w req p] := by
    simp [toolWeightStage, hplain.tools]
  have hmisfit : misfit req (soleRanked w req p) = none := by
    simp [misfit, capabilityFit, hplain.images, hplain.input, hplain.output]
  have hfit : fitStage req [soleRanked w req p] = .ok [soleRanked w req p] := by
    simp [fitStage, hplain.images, hmisfit]
  have hprovider : providerOf [p] (soleRanked w req p) = .ok p := by
    simp [providerOf, soleRanked]
  have hwinner : chooseWinner w req (soleRanked w req p) [] = soleRanked w req p :=
    chooseWinner_sole hplain.sort hquiet _ _ _
  have hselect : selectProvider w req =
      bindStage w req [p] (modelStage w req [p]).2 (skippedBy req [soleRanked w req p])
        (soleRanked w req p) [] := by
    unfold selectProvider
    simp only [hpool, hmodel, hranked, hweighed, hfit, bind, Except.bind]
  rw [hselect]
  unfold bindStage
  rw [if_neg (by rw [hplain.dry]; exact Bool.false_ne_true), hwinner]
  cases hcheap : req.preferCheapest with
  | true =>
    refine ⟨cheapestRoute req p (soleRanked w req p) (skippedBy req [soleRanked w req p]), ?_,
      rfl, ?_⟩
    · simp [PyList.minBy, hprovider, bind, Except.bind]
    · simp [cheapestRoute]
  | false =>
    refine ⟨boundRoute w req (modelStage w req [p]).2 p (soleRanked w req p)
      (skippedBy req [soleRanked w req p]), ?_, rfl, ?_⟩
    · simp [hprovider, hplain.sort, bind, Except.bind]
    · simp [boundRoute]

end LlmProxy.Routing
