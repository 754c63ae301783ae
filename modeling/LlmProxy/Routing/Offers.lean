import LlmProxy.Routing.Exclusion

/-! # What a selection offers

`select_provider` up to its choice: the candidates it ranks, with their scores, and whether it
fell back across families (`offered`).

> `selectProvider_of_offered`, `offered_of_route`: the choice is made among what is offered;
> `candidatePool_alone`, `offered_one`: where one provider is up, it is offered alone;
> `candidatePool_transfer`: two requests that differ in the model they ask for have one pool
> where the policy does not tell the models apart and every default is a chat model;
> `offerFrom_asking_none`: of such a pool, a model of no known family that every candidate supports
> is offered what no model is.
-/

namespace LlmProxy.Routing

open LlmProxy.Providers
open LlmProxy.Compliance
open Result

/-- The candidates, the cross-family flag, who was skipped and why, and the ranking. -/
structure Offer where
  available : List Provider
  crossFamily : Bool
  skipped : List (String × String)
  kept : List Ranked
  deriving DecidableEq

def offerFrom (w : World) (req : RouteRequest) (pool : List Provider) :
    Except RoutingError Offer := do
  let ranked ← rankStage w req (modelStage w req pool).1
  let weighed ← toolWeightStage req ranked
  let kept ← fitStage req weighed
  .ok ⟨(modelStage w req pool).1, (modelStage w req pool).2, skippedBy req weighed, kept⟩

def offered (w : World) (req : RouteRequest) : Except RoutingError Offer := do
  let pool ← candidatePool w req
  offerFrom w req pool

section

variable {w : World} {req : RouteRequest} {o : Offer}

theorem offerFrom_of_stages {pool : List Provider} {ranked weighed kept : List Ranked}
    (hranked : rankStage w req (modelStage w req pool).1 = .ok ranked)
    (hweighed : toolWeightStage req ranked = .ok weighed) (hkept : fitStage req weighed = .ok kept) :
    offerFrom w req pool =
      .ok ⟨(modelStage w req pool).1, (modelStage w req pool).2, skippedBy req weighed, kept⟩ := by
  unfold offerFrom
  rw [bind_of_ok hranked, bind_of_ok hweighed, bind_of_ok hkept]

theorem offered_of_pool {pool : List Provider} (h : candidatePool w req = .ok pool) :
    offered w req = offerFrom w req pool := bind_of_ok h

theorem candidatePool_ne_nil {pool : List Provider} (h : candidatePool w req = .ok pool) :
    pool ≠ [] := by
  obtain ⟨rows, -, h⟩ := bind_ok h
  obtain ⟨pinned, -, h⟩ := bind_ok h
  obtain ⟨compliant, -, h⟩ := bind_ok h
  obtain ⟨others, -, h⟩ := bind_ok h
  obtain ⟨kept, -, h⟩ := bind_ok h
  obtain ⟨owned, -, h⟩ := bind_ok h
  obtain ⟨available, -, h⟩ := bind_ok h
  obtain ⟨tooled, -, h⟩ := bind_ok h
  obtain ⟨typed, htyped, h⟩ := bind_ok h
  unfold chatStage at h
  split at h
  · rw [← Except.ok.inj h, (orRaise_ok htyped).1]
    exact (orRaise_ok htyped).2
  · rw [(orRaise_ok h).1]
    exact (orRaise_ok h).2

theorem selectProvider_of_offered {best : Ranked} {rest : List Ranked} (h : offered w req = .ok o)
    (hkept : o.kept = best :: rest) :
    selectProvider w req = bindStage w req o.available o.crossFamily o.skipped best rest := by
  obtain ⟨pool, hpool, h⟩ := bind_ok h
  obtain ⟨ranked, hranked, h⟩ := bind_ok h
  obtain ⟨weighed, hweighed, h⟩ := bind_ok h
  obtain ⟨kept, hfit, h⟩ := bind_ok h
  have ho := Except.ok.inj h
  subst ho
  unfold selectProvider
  rw [bind_of_ok hpool]
  dsimp only
  rw [bind_of_ok hranked, bind_of_ok hweighed, bind_of_ok hfit]
  rw [show kept = best :: rest from hkept]

theorem offered_of_route {r : RouteResult} (h : selectProvider w req = .ok (.route r)) :
    ∃ o best rest, offered w req = .ok o ∧ o.kept = best :: rest ∧
      bindStage w req o.available o.crossFamily o.skipped best rest = .ok (.route r) := by
  obtain ⟨pool, ranked, weighed, best, rest, hpool, hranked, hweighed, hkept, hbind⟩ :=
    selectProvider_stages h
  refine ⟨⟨(modelStage w req pool).1, (modelStage w req pool).2, skippedBy req weighed,
    best :: rest⟩, best, rest, ?_, rfl, hbind⟩
  rw [offered_of_pool hpool, offerFrom_of_stages hranked hweighed hkept]

theorem route_of_same_family {best : Ranked} {rest : List Ranked} {r : RouteResult}
    {available : List Provider} {skipped : List (String × String)}
    (h : bindStage w req available false skipped best rest = .ok (.route r)) :
    r.crossFamilyFallback = false ∧ r.servedModelNative = none := by
  obtain ⟨p, ⟨-, -, hr⟩ | ⟨-, -, hr⟩⟩ := bindStage_route h
  · rw [hr]
    exact ⟨rfl, rfl⟩
  · rw [hr]
    exact ⟨rfl, rfl⟩

theorem offered_crossFamily (h : offered w req = .ok o) :
    ∃ pool, candidatePool w req = .ok pool ∧ o.crossFamily = (modelStage w req pool).2 := by
  obtain ⟨pool, hpool, h⟩ := bind_ok h
  obtain ⟨ranked, -, h⟩ := bind_ok h
  obtain ⟨weighed, -, h⟩ := bind_ok h
  obtain ⟨kept, -, h⟩ := bind_ok h
  exact ⟨pool, hpool, by rw [← Except.ok.inj h]⟩

end

/-! ## One provider up -/

/-- Only `p` is available. -/
def aloneWorld (rows : List Provider) (keys : List Cluster.ApiKey) (system : Policy)
    (capabilities : List ModelCapability) (keyId : String) (p : Provider) : World :=
  (quietWorld rows keys system capabilities (some keyId) p).without (otherIds rows p)

section

variable {rows : List Provider} {keys : List Cluster.ApiKey} {system : Policy}
  {capabilities : List ModelCapability} {keyId : String} {p : Provider} {req : RouteRequest}

/-- Where only `p` is up, nothing else is a candidate. -/
theorem candidatePool_aloneWorld_mem (hids : (rows.map (·.id)).Nodup) (hrow : p ∈ rows)
    {pool : List Provider} (h : candidatePool (aloneWorld rows keys system capabilities keyId p) req
      = .ok pool) {q : Provider} (hq : q ∈ pool) : q = p := by
  have hadm := candidatePool_admitted h hq
  have hup : (!(otherIds rows p).contains q.id) = true := by
    have havailable : (true && !(otherIds rows p).contains q.id) = true := hadm.available
    exact havailable
  have hid : q.id = p.id := by
    by_contra hne
    have hother : q.id ∈ otherIds rows p :=
      List.mem_filter.mpr ⟨List.mem_map_of_mem hadm.row, decide_eq_true hne⟩
    simp [hother] at hup
  exact List.inj_on_of_nodup_map hids hadm.row hrow hid

/-- Where only `p` is up, an offer tells that `p` is admitted. -/
theorem offered_aloneWorld_admitted (hids : (rows.map (·.id)).Nodup) (hrow : p ∈ rows) {o : Offer}
    (h : offered (aloneWorld rows keys system capabilities keyId p) req = .ok o) :
    Admitted (aloneWorld rows keys system capabilities keyId p) req p := by
  obtain ⟨pool, hpool, -⟩ := bind_ok h
  obtain ⟨q, hq⟩ := List.exists_mem_of_ne_nil _ (candidatePool_ne_nil hpool)
  have hadm := candidatePool_admitted hpool hq
  rw [candidatePool_aloneWorld_mem hids hrow hpool hq] at hadm
  exact hadm

/-- A request that admits `p` and excludes nobody by id gets it as the pool. -/
theorem candidatePool_alone (hids : (rows.map (·.id)).Nodup)
    (h : Admitted (quietWorld rows keys system capabilities (some keyId) p)
      (req.around (otherIds rows p)) p)
    (hlist : req.blockedCompanies = none) (hmany : req.excludeProviderIds = []) :
    candidatePool (aloneWorld rows keys system capabilities keyId p) req = .ok [p] := by
  obtain ⟨huse, hnodup⟩ :=
    quietWorld_usable keys system capabilities (some keyId) h.row h.enabled hids.of_map
  have hpool : candidatePool (quietWorld rows keys system capabilities (some keyId) p)
      (req.around (otherIds rows p)) = .ok [p] :=
    candidatePool_sole h (leavesOnly_otherIds hids h.row rfl) hlist huse hnodup
  have hnone : ∀ id ∈ ([] : List String), id ∈ otherIds rows p :=
    fun id hid => absurd hid List.not_mem_nil
  have hshrunk : candidatePool (aloneWorld rows keys system capabilities keyId p)
      (req.around []) = .ok [p] := candidatePool_shrink hnone hpool
  have hreq : req.around [] = req := by
    rw [RouteRequest.around, ← hmany]
  rw [hreq] at hshrunk
  exact hshrunk

end

/-! ## One candidate -/

section

variable {w : World} {req : RouteRequest} {p : Provider} {t : Ranked}

theorem rankStage_unhinted (h : req.hint = none) :
    rankStage w req [p] = .ok [soleRanked w req p] := by
  simp [rankStage, h, rankCandidatesWithScores, soleRanked]

theorem rankStage_hinted {hint : LMRHHint} (h : req.hint = some hint) {q : Rat}
    {unmet : List String}
    (hscore : scoreCandidate (candidateProfile w req p) hint = .ok (.fin q, unmet)) :
    rankStage w req [p] = .ok [⟨candidateProfile w req p, unmet, .fin q⟩] := by
  simp [rankStage, h, rankCandidatesWithScores, scoreAll, hscore, byScore]

theorem offered_one (hpool : candidatePool w req = .ok [p])
    (hrank : rankStage w req [p] = .ok [t]) (htools : req.hasTools = false)
    (hfit : misfit req t = none) :
    offered w req = .ok ⟨[p], (modelStage w req [p]).2, [], [t]⟩ := by
  have hranked : rankStage w req (modelStage w req [p]).1 = .ok [t] := by
    rw [modelStage_sole]
    exact hrank
  have hweighed : toolWeightStage req [t] = .ok [t] := by simp [toolWeightStage, htools]
  have hkept : fitStage req [t] = .ok [t] := by simp [fitStage, hfit]
  rw [offered_of_pool hpool, offerFrom_of_stages hranked hweighed hkept, modelStage_sole]
  simp [skippedBy, hfit]

theorem selectRoute_one {cross : Bool} {skipped : List (String × String)} {q : Rat}
    (h : offered w req = .ok ⟨[p], cross, skipped, [t]⟩) (hid : t.profile.providerId = p.id)
    (hscore : t.score = .fin q) (hsort : req.sortMode = none)
    (hcheap : req.preferCheapest = false) (hdry : req.dryRun = false)
    (hquiet : w.utilization = none) :
    selectRoute w req = .ok (boundRoute w req cross p t skipped) := by
  have hprovider : providerOf [p] t = .ok p := by simp [providerOf, hid]
  have hwinner : chooseWinner w req t [] = t := by
    obtain ⟨profile, unmet, score⟩ := t
    rw [show score = .fin q from hscore]
    exact chooseWinner_sole hsort hquiet q profile unmet
  apply selectRoute_of_selectProvider
  rw [selectProvider_of_offered h rfl]
  simp [bindStage, hdry, hcheap, hsort, hwinner, hprovider, bind, Except.bind]

end

/-! ## Two models, one pool -/

def RouteRequest.asking (req : RouteRequest) (model : Option String) : RouteRequest :=
  { req with modelOverride := model }

section

variable {w : World} {req : RouteRequest} {keyId : String}

theorem complianceStage_of_mem (hkey : truthy req.apiKeyId = some keyId)
    (hlist : req.blockedCompanies = none) {l : List Provider} {p : Provider} (hp : p ∈ l)
    (hacc : accepts (getEffectivePolicy w.keys w.systemPolicy (some keyId)) p req.modelOverride =
      true) :
    complianceStage w req l = .ok (l.filter
      (accepts (getEffectivePolicy w.keys w.systemPolicy (some keyId)) · req.modelOverride)) := by
  obtain ⟨out, hout, -, -⟩ := filterProvidersV2_passes hp hacc
  unfold complianceStage
  rw [hlist, hkey]
  dsimp only
  rw [hout]
  dsimp only
  rw [filterProvidersV2_ok hout]

theorem complianceStage_filter (hkey : truthy req.apiKeyId = some keyId)
    (hlist : req.blockedCompanies = none) {l out : List Provider}
    (h : complianceStage w req l = .ok out) :
    out = l.filter
      (accepts (getEffectivePolicy w.keys w.systemPolicy (some keyId)) · req.modelOverride) := by
  unfold complianceStage at h
  rw [hlist, hkey] at h
  dsimp only at h
  split at h
  · next filtered hfiltered =>
    rw [← Except.ok.inj h]
    exact filterProvidersV2_ok hfiltered
  · cases h

theorem excludeOne_none (h : req.excludeProviderId = none) {l : List Provider} :
    excludeOne req l = .ok l := by
  unfold excludeOne
  rw [h]
  rfl

theorem excludeMany_nil (h : req.excludeProviderIds = []) {l : List Provider} :
    excludeMany req l = .ok l := by
  unfold excludeMany
  rw [h]
  rfl

theorem chatStage_of_chat {l : List Provider} (hne : l ≠ []) (h : ∀ q ∈ l, chatDefault q = true) :
    chatStage req l = .ok l := by
  unfold chatStage
  split
  · rfl
  · rw [List.filter_eq_self.mpr h]
    exact orRaise_of_ne_nil hne

theorem typeStage_mem {owned available tooled typed : List Provider}
    (havailable : availabilityStage w owned = .ok available)
    (htooled : toolStage req (liveTokens w available) = .ok tooled)
    (htyped : typeStage req tooled = .ok typed) {q : Provider} (hq : q ∈ typed) : q ∈ owned := by
  rw [typeStage] at htyped
  rw [(orRaise_ok htyped).1] at hq
  have hlive := (toolStage_ok htooled (List.mem_of_mem_filter hq)).1
  have havail := liveTokens_mem hlive
  rw [availabilityStage] at havailable
  rw [(orRaise_ok havailable).1] at havail
  exact List.mem_of_mem_filter havail

theorem tenantStage_transfer (hkey : truthy req.apiKeyId = some keyId)
    (hlist : req.blockedCompanies = none) {model : Option String} {pinned owned : List Provider}
    (hsame : ∀ q ∈ pinned, accessible (effectiveKey w req) q = true →
      accepts (getEffectivePolicy w.keys w.systemPolicy (some keyId)) q model =
        accepts (getEffectivePolicy w.keys w.systemPolicy (some keyId)) q req.modelOverride)
    (howned : tenantStage w req (pinned.filter
      (accepts (getEffectivePolicy w.keys w.systemPolicy (some keyId)) · req.modelOverride)) =
        .ok owned) :
    ∃ compliant, complianceStage w (req.asking model) pinned = .ok compliant ∧
      tenantStage w (req.asking model) compliant = .ok owned := by
  obtain ⟨howned', hownedne⟩ := orRaise_ok howned
  have hownedEq : (pinned.filter (accepts (getEffectivePolicy w.keys w.systemPolicy (some keyId)) ·
      model)).filter (accessible (effectiveKey w req)) = owned := by
    rw [howned', List.filter_filter, List.filter_filter]
    apply List.filter_congr
    intro q hq
    cases haccess : accessible (effectiveKey w req) q with
    | false => rfl
    | true => rw [hsame q hq haccess]
  rw [← howned'] at hownedne
  -- one of the rows left shows that the policy raises nothing
  obtain ⟨p, hp⟩ := List.exists_mem_of_ne_nil _ hownedne
  rw [← hownedEq] at hp
  obtain ⟨hppinned, hacc⟩ := List.mem_filter.mp (List.mem_filter.mp hp).1
  have hcompliant : complianceStage w (req.asking model) pinned = .ok (pinned.filter
      (accepts (getEffectivePolicy w.keys w.systemPolicy (some keyId)) · model)) :=
    @complianceStage_of_mem w (req.asking model) keyId hkey hlist pinned p hppinned hacc
  refine ⟨_, hcompliant, ?_⟩
  unfold tenantStage
  show orRaise ((pinned.filter _).filter (accessible (effectiveKey w req))) _ = _
  rw [hownedEq]
  exact orRaise_of_ne_nil hownedne

/-- **One pool for two models**: the policy accepts the same providers open to the key for both,
and those have chat defaults. -/
theorem candidatePool_transfer (hkey : truthy req.apiKeyId = some keyId)
    (hlist : req.blockedCompanies = none) (hone : req.excludeProviderId = none)
    (hmany : req.excludeProviderIds = []) {model : Option String}
    (hsame : ∀ q ∈ w.providers, q.enabled = true → accessible (effectiveKey w req) q = true →
      accepts (getEffectivePolicy w.keys w.systemPolicy (some keyId)) q model =
        accepts (getEffectivePolicy w.keys w.systemPolicy (some keyId)) q req.modelOverride)
    (hchat : ∀ q ∈ w.providers, q.enabled = true → accessible (effectiveKey w req) q = true →
      accepts (getEffectivePolicy w.keys w.systemPolicy (some keyId)) q req.modelOverride = true →
        chatDefault q = true)
    {pool : List Provider} (h : candidatePool w req = .ok pool) :
    candidatePool w (req.asking model) = .ok pool := by
  obtain ⟨rows, hrows, h⟩ := bind_ok h
  obtain ⟨pinned, hpinned, h⟩ := bind_ok h
  obtain ⟨compliant, hcompliant, h⟩ := bind_ok h
  obtain ⟨others, hothers, h⟩ := bind_ok h
  obtain ⟨kept, hkept, h⟩ := bind_ok h
  obtain ⟨owned, howned, h⟩ := bind_ok h
  obtain ⟨available, havailable, h⟩ := bind_ok h
  obtain ⟨tooled, htooled, h⟩ := bind_ok h
  obtain ⟨typed, htyped, hlast⟩ := bind_ok h
  rw [excludeOne_none hone] at hothers
  rw [excludeMany_nil hmany] at hkept
  obtain rfl := Except.ok.inj hothers
  obtain rfl := Except.ok.inj hkept
  rw [complianceStage_filter hkey hlist hcompliant] at howned
  -- what is pinned is an enabled row
  have hrow : ∀ q ∈ pinned, q ∈ w.providers ∧ q.enabled = true := fun q hq =>
    rotationPool_ok hrows (pinStage_ok hpinned hq).1
  obtain ⟨compliant', hcompliant', htenant⟩ := tenantStage_transfer hkey hlist
    (fun q hq haccess => hsame q (hrow q hq).1 (hrow q hq).2 haccess) howned
  -- the typed candidates are accepted rows, so their defaults are chat models
  have htypedChat : ∀ q ∈ typed, chatDefault q = true := by
    intro q hq
    have hqowned := typeStage_mem havailable htooled htyped hq
    rw [(orRaise_ok howned).1] at hqowned
    obtain ⟨hqcompliant, hqaccess⟩ := List.mem_filter.mp hqowned
    obtain ⟨hqpinned, hqacc⟩ := List.mem_filter.mp hqcompliant
    exact hchat q (hrow q hqpinned).1 (hrow q hqpinned).2 hqaccess hqacc
  have htypedne : typed ≠ [] := by
    rw [(orRaise_ok htyped).1]
    exact (orRaise_ok htyped).2
  rw [chatStage_of_chat htypedne htypedChat] at hlast
  have hone' : (req.asking model).excludeProviderId = none := hone
  have hmany' : (req.asking model).excludeProviderIds = [] := hmany
  have hpinned' : pinStage (req.asking model) rows = .ok pinned := hpinned
  have htooled' : toolStage (req.asking model) (liveTokens w available) =
      .ok tooled := htooled
  have htyped' : typeStage (req.asking model) tooled = .ok typed := htyped
  unfold candidatePool
  rw [bind_of_ok hrows, bind_of_ok hpinned', bind_of_ok hcompliant',
    bind_of_ok (excludeOne_none hone'), bind_of_ok (excludeMany_nil hmany'), bind_of_ok htenant,
    bind_of_ok havailable, bind_of_ok htooled', bind_of_ok htyped',
    chatStage_of_chat htypedne htypedChat]
  exact hlast

theorem modelStage_of_no_family {m : String} (hmodel : truthy req.modelOverride = some m)
    (hfamily : modelFamilyProviderTypes m = none) (pool : List Provider) :
    modelStage w req pool = capabilityStage w m (pool, false) := by
  have hpool : familyStage m pool = (pool, false) := by
    unfold familyStage
    rw [hfamily]
  unfold modelStage
  rw [hmodel]
  dsimp only
  rw [hpool]

/-- Where every candidate supports such a model, asking for it and asking for none come to the
same candidates. -/
theorem modelStage_supported {m : String} (hmodel : truthy req.modelOverride = some m)
    (hfamily : modelFamilyProviderTypes m = none) {pool : List Provider} (hne : pool ≠ [])
    (h : ∀ q ∈ pool, supports w.capabilities m q = true) : modelStage w req pool = (pool, false) := by
  rw [modelStage_of_no_family hmodel hfamily]
  unfold capabilityStage
  rw [List.filter_eq_self.mpr h]
  dsimp only
  rw [if_pos]
  simpa using hne

theorem candidateProfile_asking_none {m : String} (hmodel : truthy req.modelOverride = some m)
    (htier : requestedTier m = none) (p : Provider) :
    candidateProfile w req p = candidateProfile w (req.asking none) p := by
  unfold candidateProfile
  rw [hmodel]
  dsimp only
  rw [htier]
  rfl

theorem offerFrom_asking_none {m : String} (hmodel : truthy req.modelOverride = some m)
    (hfamily : modelFamilyProviderTypes m = none) (htier : requestedTier m = none)
    {pool : List Provider} (hne : pool ≠ [])
    (h : ∀ q ∈ pool, supports w.capabilities m q = true) :
    offerFrom w req pool = offerFrom w (req.asking none) pool := by
  have hstage := modelStage_supported hmodel hfamily hne h
  have hnone : modelStage w (req.asking none) pool = (pool, false) := modelStage_of_no_model rfl
  have hprofiles : pool.map (candidateProfile w req) =
      pool.map (candidateProfile w (req.asking none)) :=
    List.map_congr_left fun p _ => candidateProfile_asking_none hmodel htier p
  have hrank : rankStage w req pool = rankStage w (req.asking none) pool := by
    unfold rankStage
    rw [hprofiles]
    rfl
  unfold offerFrom
  rw [hstage, hnone, hrank]
  rfl

theorem modelStage_one_cross {m : String} (hmodel : truthy req.modelOverride = some m)
    (hfamily : modelFamilyProviderTypes m = none) (p : Provider) :
    (modelStage w req [p]).2 = !supports w.capabilities m p := by
  rw [modelStage_of_no_family hmodel hfamily]
  unfold capabilityStage
  cases hsupports : supports w.capabilities m p <;> simp [hsupports]

end

end LlmProxy.Routing
