import LlmProxy.Routing.Offers
import LlmProxy.Routing.Soundness

/-! # The pool as one filter

For a caller that pins nothing the candidate pool is a filter of the rotation pool, and the pool
alone decides whether a selection succeeds.

> `candidatePool_iff`: the pool of a request is `poolOf`, when that is not empty;
> `selectRoute_of_offered`: what is offered is selected, whatever the sample;
> `selectRoute_head`: in an undisturbed world an unhinted selection takes the head of its pool.

The tests before the breakers look at one provider each (`reaches`), and so do those behind the
tokens (`fits`). The token filter between them looks at the whole list.
-/

namespace LlmProxy.Routing

open LlmProxy.Providers
open LlmProxy.Compliance
open Result

section

variable (w : World) (req : RouteRequest)

def policyAccepts (p : Provider) : Bool :=
  (truthy req.apiKeyId).all fun id =>
    accepts (getEffectivePolicy w.keys w.systemPolicy (some id)) p req.modelOverride

def reaches (p : Provider) : Bool :=
  policyAccepts w req p && truthy req.excludeProviderId != some p.id &&
    !req.excludeProviderIds.contains p.id && accessible (effectiveKey w req) p &&
    w.isAvailable p.id

def fits (p : Provider) : Bool :=
  (!req.hasTools || !p.excludeFromToolRequests) &&
    !req.excludedProviderTypes.contains p.providerType &&
    ((truthy req.modelOverride).isSome || chatDefault p)

/-- The candidates among the rows of the rotation pool. -/
def poolOf (rows : List Provider) : List Provider :=
  (liveTokens w (rows.filter (reaches w req))).filter (fits req)

end

variable {w : World} {req : RouteRequest}

@[simp] theorem RouteRequest.around_excludeProviderIds (req : RouteRequest) (ids : List String) :
    (req.around ids).excludeProviderIds = ids := rfl

/-! ## The stages before the tokens -/

theorem complianceStage_eq (hlist : req.blockedCompanies = none) {l out : List Provider}
    (h : complianceStage w req l = .ok out) : out = l.filter (policyAccepts w req) := by
  cases hkey : truthy req.apiKeyId with
  | none =>
    have hall : l.filter (policyAccepts w req) = l :=
      List.filter_eq_self.mpr fun p _ => by rw [policyAccepts, hkey]; rfl
    unfold complianceStage at h
    rw [hlist, hkey] at h
    rw [hall]
    exact (Except.ok.inj h).symm
  | some id =>
    have hsame : policyAccepts w req =
        fun p => accepts (getEffectivePolicy w.keys w.systemPolicy (some id)) p
          req.modelOverride := by
      funext p
      rw [policyAccepts, hkey]
      rfl
    rw [hsame]
    exact complianceStage_filter hkey hlist h

theorem complianceStage_of_accepted (hlist : req.blockedCompanies = none) {l : List Provider}
    {p : Provider} (hp : p ∈ l) (hacc : policyAccepts w req p = true) :
    complianceStage w req l = .ok (l.filter (policyAccepts w req)) := by
  have hok : ∃ out, complianceStage w req l = .ok out := by
    cases hkey : truthy req.apiKeyId with
    | none =>
      unfold complianceStage
      rw [hlist, hkey]
      exact ⟨l, rfl⟩
    | some id =>
      rw [policyAccepts, hkey] at hacc
      exact ⟨_, complianceStage_of_mem hkey hlist hp hacc⟩
  obtain ⟨out, hout⟩ := hok
  rw [← complianceStage_eq hlist hout]
  exact hout

theorem excludeOne_eq {l out : List Provider} (h : excludeOne req l = .ok out) :
    out = l.filter fun p => truthy req.excludeProviderId != some p.id := by
  unfold excludeOne at h
  split at h
  · next hnone =>
    rw [hnone, ← Except.ok.inj h]
    exact (List.filter_eq_self.mpr fun p _ => rfl).symm
  · next id hsome =>
    rw [hsome, (orRaise_ok h).1]
    apply List.filter_congr
    intro p _
    by_cases hid : p.id = id
    · simp [hid]
    · simpa [hid] using fun heq : id = p.id => hid heq.symm

theorem excludeOne_of_mem {l : List Provider} {p : Provider} (hp : p ∈ l)
    (hne : (truthy req.excludeProviderId != some p.id) = true) :
    excludeOne req l = .ok (l.filter fun q => truthy req.excludeProviderId != some q.id) := by
  have hok : ∃ out, excludeOne req l = .ok out := by
    unfold excludeOne
    split
    · exact ⟨l, rfl⟩
    · next id hsome =>
      rw [hsome] at hne
      have hkept : p ∈ l.filter (·.id ≠ id) :=
        List.mem_filter.mpr ⟨hp, decide_eq_true fun heq => by simp [heq] at hne⟩
      exact ⟨_, orRaise_of_mem hkept⟩
  obtain ⟨out, hout⟩ := hok
  rw [← excludeOne_eq hout]
  exact hout

theorem pinStage_unpinned (h : truthy req.pinnedProviderId = none) (l : List Provider) :
    pinStage req l = .ok l := by
  unfold pinStage
  rw [h]

/-! ## The stages behind the tokens -/

def behindTokens (req : RouteRequest) (live : List Provider) :
    Except RoutingError (List Provider) := do
  let tooled ← toolStage req live
  let typed ← typeStage req tooled
  chatStage req typed

theorem toolStage_eq {l out : List Provider} (h : toolStage req l = .ok out) :
    out = l.filter fun p => !req.hasTools || !p.excludeFromToolRequests := by
  unfold toolStage at h
  split at h
  · next hyes => rw [(orRaise_ok h).1, hyes]; rfl
  · next hno =>
    rw [Bool.eq_false_iff.mpr hno, ← Except.ok.inj h]
    exact (List.filter_eq_self.mpr fun p _ => rfl).symm

theorem chatStage_eq {l out : List Provider} (h : chatStage req l = .ok out) :
    out = l.filter fun p => (truthy req.modelOverride).isSome || chatDefault p := by
  unfold chatStage at h
  split at h
  · next m hsome =>
    rw [hsome, ← Except.ok.inj h]
    exact (List.filter_eq_self.mpr fun p _ => rfl).symm
  · next hnone => rw [hnone, (orRaise_ok h).1]; rfl

theorem behindTokens_eq {live out : List Provider} (h : behindTokens req live = .ok out) :
    out = live.filter (fits req) := by
  obtain ⟨tooled, htooled, h⟩ := bind_ok h
  obtain ⟨typed, htyped, h⟩ := bind_ok h
  rw [typeStage] at htyped
  rw [chatStage_eq h, (orRaise_ok htyped).1, toolStage_eq htooled, List.filter_filter,
    List.filter_filter]
  apply List.filter_congr
  intro p _
  unfold fits
  ac_rfl

theorem behindTokens_of_fits {live : List Provider} {p : Provider} (hp : p ∈ live)
    (hfits : fits req p = true) : behindTokens req live = .ok (live.filter (fits req)) := by
  have hparts := hfits
  simp only [fits, Bool.and_eq_true] at hparts
  obtain ⟨⟨htools, htype⟩, hchat⟩ := hparts
  -- `p` shows of each stage that it does not raise
  have htool : ∃ out, toolStage req live = .ok out ∧ p ∈ out := by
    unfold toolStage
    split
    · next hyes =>
      rw [hyes] at htools
      have hkept : p ∈ live.filter (!·.excludeFromToolRequests) := List.mem_filter.mpr ⟨hp, htools⟩
      exact ⟨_, orRaise_of_mem hkept, hkept⟩
    · exact ⟨live, rfl, hp⟩
  obtain ⟨tooled, htooled, hptooled⟩ := htool
  have hptyped : p ∈ tooled.filter fun q => !req.excludedProviderTypes.contains q.providerType :=
    List.mem_filter.mpr ⟨hptooled, htype⟩
  have htyped := @orRaise_of_mem _ _ _ _ (.runtime ("No providers available after excluding types " ++
    setText req.excludedProviderTypes) : RoutingError) hptyped
  have hlast : ∃ out, chatStage req
      (tooled.filter fun q => !req.excludedProviderTypes.contains q.providerType) = .ok out := by
    unfold chatStage
    split
    · exact ⟨_, rfl⟩
    · next hnone =>
      rw [hnone] at hchat
      exact ⟨_, orRaise_of_mem (List.mem_filter.mpr ⟨hptyped, hchat⟩)⟩
  obtain ⟨out, hout⟩ := hlast
  have hall : behindTokens req live = .ok out := by
    unfold behindTokens
    rw [bind_of_ok htooled, bind_of_ok (show typeStage req tooled = _ from htyped)]
    exact hout
  rw [← behindTokens_eq hall]
  exact hall

/-! ## The pool -/

theorem candidatePool_of_reaching (hpin : truthy req.pinnedProviderId = none)
    (hlist : req.blockedCompanies = none) {rows : List Provider}
    (hrows : rotationPool w = .ok rows) {p : Provider} (hp : p ∈ rows)
    (hreach : reaches w req p = true) :
    candidatePool w req = behindTokens req (liveTokens w (rows.filter (reaches w req))) := by
  have hparts := hreach
  simp only [reaches, Bool.and_eq_true] at hparts
  obtain ⟨⟨⟨⟨hacc, hone⟩, hmany⟩, haccess⟩, hup⟩ := hparts
  have hcompliant := complianceStage_of_accepted hlist hp hacc
  have hp1 : p ∈ rows.filter (policyAccepts w req) := List.mem_filter.mpr ⟨hp, hacc⟩
  have hothers := excludeOne_of_mem hp1 hone
  have hp2 : p ∈ (rows.filter (policyAccepts w req)).filter
      fun q => truthy req.excludeProviderId != some q.id := List.mem_filter.mpr ⟨hp1, hone⟩
  have hkept : excludeMany req _ = .ok _ :=
    @excludeMany_of_mem req req.excludeProviderIds _ p hp2 (by simpa using hmany)
  have hp3 : p ∈ ((rows.filter (policyAccepts w req)).filter
      fun q => truthy req.excludeProviderId != some q.id).filter
      fun q => !req.excludeProviderIds.contains q.id := List.mem_filter.mpr ⟨hp2, hmany⟩
  have howned : tenantStage w req _ = .ok _ := orRaise_of_mem (List.mem_filter.mpr ⟨hp3, haccess⟩)
  have hp4 := List.mem_filter.mpr ⟨hp3, haccess⟩
  have havailable : availabilityStage w _ = .ok _ :=
    orRaise_of_mem (List.mem_filter.mpr ⟨hp4, hup⟩)
  have hsame : ((((rows.filter (policyAccepts w req)).filter
      fun q => truthy req.excludeProviderId != some q.id).filter
      fun q => !req.excludeProviderIds.contains q.id).filter
      (accessible (effectiveKey w req))).filter (fun q => w.isAvailable q.id) =
        rows.filter (reaches w req) := by
    simp only [List.filter_filter]
    apply List.filter_congr
    intro q _
    unfold reaches
    ac_rfl
  unfold candidatePool
  rw [bind_of_ok hrows, bind_of_ok (pinStage_unpinned hpin rows), bind_of_ok hcompliant,
    bind_of_ok hothers, bind_of_ok hkept, bind_of_ok howned, bind_of_ok havailable, hsame]
  rfl

theorem candidatePool_reaching (hpin : truthy req.pinnedProviderId = none)
    (hlist : req.blockedCompanies = none) {rows pool : List Provider}
    (hrows : rotationPool w = .ok rows) (h : candidatePool w req = .ok pool) :
    ∃ p ∈ rows, reaches w req p = true := by
  obtain ⟨rows', hrows', h⟩ := bind_ok h
  obtain ⟨pinned, hpinned, h⟩ := bind_ok h
  obtain ⟨compliant, hcompliant, h⟩ := bind_ok h
  obtain ⟨others, hothers, h⟩ := bind_ok h
  obtain ⟨kept, hkept, h⟩ := bind_ok h
  obtain ⟨owned, howned, h⟩ := bind_ok h
  obtain ⟨available, havailable, -⟩ := bind_ok h
  rw [pinStage_unpinned hpin] at hpinned
  obtain rfl := Except.ok.inj (hrows.symm.trans hrows')
  obtain rfl := Except.ok.inj hpinned
  obtain ⟨havailable', hne⟩ := orRaise_ok havailable
  obtain ⟨p, hp⟩ := List.exists_mem_of_ne_nil _ hne
  obtain ⟨hpowned, hup⟩ := List.mem_filter.mp hp
  rw [(orRaise_ok howned).1] at hpowned
  obtain ⟨hpkept, haccess⟩ := List.mem_filter.mp hpowned
  rw [@excludeMany_eq req req.excludeProviderIds _ _ hkept] at hpkept
  obtain ⟨hpothers, hmany⟩ := List.mem_filter.mp hpkept
  rw [excludeOne_eq hothers] at hpothers
  obtain ⟨hpcompliant, hone⟩ := List.mem_filter.mp hpothers
  rw [complianceStage_eq hlist hcompliant] at hpcompliant
  obtain ⟨hprow, hacc⟩ := List.mem_filter.mp hpcompliant
  refine ⟨p, hprow, ?_⟩
  unfold reaches
  rw [hacc, hone, hmany, haccess, hup]
  rfl

/-- **The pool of a request** that pins nothing. -/
theorem candidatePool_iff (hpin : truthy req.pinnedProviderId = none)
    (hlist : req.blockedCompanies = none) {rows pool : List Provider}
    (hrows : rotationPool w = .ok rows) :
    candidatePool w req = .ok pool ↔ pool = poolOf w req rows ∧ pool ≠ [] := by
  constructor
  · intro h
    obtain ⟨p, hp, hreach⟩ := candidatePool_reaching hpin hlist hrows h
    have hnonempty := candidatePool_ne_nil h
    rw [candidatePool_of_reaching hpin hlist hrows hp hreach] at h
    exact ⟨behindTokens_eq h, hnonempty⟩
  · rintro ⟨rfl, hne⟩
    obtain ⟨p, hp⟩ := List.exists_mem_of_ne_nil _ hne
    obtain ⟨hlive, hfits⟩ := List.mem_filter.mp hp
    obtain ⟨hrow, hreach⟩ := List.mem_filter.mp (liveTokens_mem hlive)
    rw [candidatePool_of_reaching hpin hlist hrows hrow hreach]
    exact behindTokens_of_fits hlive hfits

theorem tokenDead_iff {now : Rat} {p : Provider} :
    tokenDead now p = true ↔
      ∃ e, p.oauthExpiresAt = some e ∧ e ≠ 0 ∧ (e : Rat) < now - 900 := by
  unfold tokenDead
  cases p.oauthExpiresAt with
  | none => simp
  | some e => simp

theorem mem_liveTokens {l : List Provider} {p : Provider} :
    p ∈ liveTokens w l ↔
      p ∈ l ∧ (tokenDead w.unixNow p = true → ∀ q ∈ l, tokenDead w.unixNow q = true) := by
  unfold liveTokens
  dsimp only
  split
  · next hempty =>
    have hall : ∀ q ∈ l, tokenDead w.unixNow q = true := by
      simpa using hempty
    exact ⟨fun h => ⟨h, fun _ => hall⟩, And.left⟩
  · next hsome =>
    rw [List.mem_filter]
    refine and_congr_right fun _ => ⟨fun hlive hdead => ?_, fun h => ?_⟩
    · rw [hdead] at hlive
      cases hlive
    · rw [Bool.not_eq_true']
      by_contra hdead
      apply hsome
      simpa using h (Bool.eq_true_of_not_eq_false hdead)

theorem mem_poolOf {rows : List Provider} {p : Provider} :
    p ∈ poolOf w req rows ↔ p ∈ rows ∧ reaches w req p = true ∧ fits req p = true ∧
      (tokenDead w.unixNow p = true →
        ∀ q ∈ rows, reaches w req q = true → tokenDead w.unixNow q = true) := by
  unfold poolOf
  rw [List.mem_filter, mem_liveTokens, List.mem_filter]
  constructor
  · rintro ⟨⟨⟨hrow, hreach⟩, htoken⟩, hfits⟩
    exact ⟨hrow, hreach, hfits, fun hdead q hq hq' => htoken hdead q (List.mem_filter.mpr ⟨hq, hq'⟩)⟩
  · rintro ⟨hrow, hreach, hfits, htoken⟩
    refine ⟨⟨⟨hrow, hreach⟩, fun hdead q hq => ?_⟩, hfits⟩
    obtain ⟨hqrow, hqreach⟩ := List.mem_filter.mp hq
    exact htoken hdead q hqrow hqreach

theorem liveTokens_filter (l : List Provider) :
    liveTokens w l = l.filter fun p => !tokenDead w.unixNow p || l.all (tokenDead w.unixNow) := by
  unfold liveTokens
  dsimp only
  split
  · next hempty =>
    have hall : l.all (tokenDead w.unixNow) = true := by simpa using hempty
    rw [hall]
    exact (List.filter_eq_self.mpr fun p _ => Bool.or_true _).symm
  · next hsome =>
    have hnot : l.all (tokenDead w.unixNow) = false := by simpa using hsome
    rw [hnot]
    exact List.filter_congr fun p _ => (Bool.or_false _).symm

theorem poolOf_congr {w' : World} {req' : RouteRequest} {rows : List Provider}
    (h : ∀ p ∈ rows, p ∈ poolOf w req rows ↔ p ∈ poolOf w' req' rows) :
    poolOf w req rows = poolOf w' req' rows := by
  unfold poolOf at h ⊢
  rw [liveTokens_filter, liveTokens_filter, List.filter_filter, List.filter_filter,
    List.filter_filter, List.filter_filter] at h ⊢
  apply List.filter_congr
  intro p hp
  have hiff := h p hp
  rw [List.mem_filter, List.mem_filter, and_iff_right hp, and_iff_right hp] at hiff
  exact Bool.eq_iff_iff.mpr hiff

/-! ## From the pool to the route -/

theorem providerOf_of_mem {available : List Provider} {t : Ranked} {p : Provider}
    (hp : p ∈ available) (hid : t.profile.providerId = p.id) :
    ∃ q, providerOf available t = .ok q := by
  have hfound : (available.find? (·.id = t.profile.providerId)).isSome = true :=
    List.find?_isSome.mpr ⟨p, hp, decide_eq_true hid.symm⟩
  unfold providerOf
  cases hfind : available.find? (·.id = t.profile.providerId) with
  | none =>
    rw [hfind] at hfound
    cases hfound
  | some q => exact ⟨q, rfl⟩

theorem toolWeightStage_ne_nil {ranked weighed : List Ranked} (hne : ranked ≠ [])
    (h : toolWeightStage req ranked = .ok weighed) : weighed ≠ [] := by
  unfold toolWeightStage at h
  split at h
  · rw [(orRaise_ok h).1]
    exact (orRaise_ok h).2
  · rw [← Except.ok.inj h]
    exact hne

theorem fitStage_ne_nil {weighed kept : List Ranked} (hne : weighed ≠ [])
    (h : fitStage req weighed = .ok kept) : kept ≠ [] := by
  unfold fitStage at h
  dsimp only at h
  split at h
  · cases h
  · rw [← Except.ok.inj h]
    split
    · exact hne
    · next hkept => exact fun hnil => hkept (by rw [hnil]; rfl)

theorem offered_kept {o : Offer} (h : offered w req = .ok o) :
    o.kept ≠ [] ∧ ∀ t ∈ o.kept, ∃ p ∈ o.available, t.profile.providerId = p.id := by
  obtain ⟨pool, -, h⟩ := bind_ok h
  obtain ⟨ranked, hranked, h⟩ := bind_ok h
  obtain ⟨weighed, hweighed, h⟩ := bind_ok h
  obtain ⟨kept, hkept, h⟩ := bind_ok h
  rw [← Except.ok.inj h]
  have hsome : ranked ≠ [] := by
    have hstage := hranked
    unfold rankStage at hstage
    split at hstage
    · cases hstage
    · rw [(orRaise_ok hstage).1]
      exact (orRaise_ok hstage).2
  refine ⟨fitStage_ne_nil (toolWeightStage_ne_nil hsome hweighed) hkept, fun t ht => ?_⟩
  obtain ⟨u, hu, hsame⟩ := toolWeightStage_ok hweighed (fitStage_ok hkept ht).1
  obtain ⟨p, hp, hprofile⟩ := List.mem_map.mp (rankStage_ok hranked hu).1
  refine ⟨p, hp, ?_⟩
  rw [hsame, ← hprofile]
  exact candidateProfile_providerId w req p

/-- **What is offered is selected**: no choice among the candidates fails. -/
theorem selectRoute_of_offered {o : Offer} (h : offered w req = .ok o) (hdry : req.dryRun = false) :
    ∃ r, selectRoute w req = .ok r ∧ r.provider ∈ o.available := by
  obtain ⟨hsome, hnamed⟩ := offered_kept h
  obtain ⟨best, rest, hkept⟩ := List.exists_cons_of_ne_nil hsome
  rw [hkept] at hnamed
  have hbind := selectProvider_of_offered h hkept
  unfold bindStage at hbind
  rw [if_neg (by rw [hdry]; exact Bool.false_ne_true)] at hbind
  split at hbind
  · obtain ⟨p, hp, hid⟩ := hnamed _ (PyList.minBy_mem cheaper best rest)
    obtain ⟨q, hq⟩ := providerOf_of_mem hp hid
    have hroute : selectProvider w req =
        .ok (.route (cheapestRoute req q (PyList.minBy cheaper best rest) o.skipped)) := by
      rw [hbind]
      dsimp only
      rw [bind_of_ok hq]
    exact ⟨_, selectRoute_of_selectProvider hroute, providerOf_ok hq⟩
  · obtain ⟨p, hp, hid⟩ := hnamed _ (chooseWinner_mem w req best rest)
    obtain ⟨q, hq⟩ := providerOf_of_mem hp hid
    have hroute : selectProvider w req =
        .ok (.route (boundRoute w req o.crossFamily q (chooseWinner w req best rest) o.skipped)) := by
      rw [hbind]
      dsimp only
      rw [bind_of_ok hq]
    exact ⟨_, selectRoute_of_selectProvider hroute, providerOf_ok hq⟩

theorem offered_of_selectRoute {r : RouteResult} (h : selectRoute w req = .ok r) :
    ∃ o, offered w req = .ok o ∧ r.provider ∈ o.available := by
  obtain ⟨o, best, rest, hoffer, -, hbind⟩ := offered_of_route (selectProvider_of_selectRoute h)
  obtain ⟨p, ⟨-, hp, hr⟩ | ⟨-, hp, hr⟩⟩ := bindStage_route hbind
  · exact ⟨o, hoffer, by rw [hr]; exact providerOf_ok hp⟩
  · exact ⟨o, hoffer, by rw [hr]; exact providerOf_ok hp⟩

theorem offered_available {o : Offer} (hmodel : truthy req.modelOverride = none)
    (h : offered w req = .ok o) : candidatePool w req = .ok o.available := by
  obtain ⟨pool, hpool, h⟩ := bind_ok h
  obtain ⟨ranked, -, h⟩ := bind_ok h
  obtain ⟨weighed, -, h⟩ := bind_ok h
  obtain ⟨kept, -, h⟩ := bind_ok h
  rw [hpool, ← Except.ok.inj h, modelStage_of_no_model hmodel]

theorem rankStage_plain (hhint : req.hint = none) {available : List Provider}
    (hne : available ≠ []) :
    rankStage w req available =
      .ok ((PyList.sortBy (fun a b => a.priority ≤ b.priority)
        (available.map (candidateProfile w req))).map fun p =>
          ⟨p, [], .fin ((1000 - p.priority : Int) : Rat)⟩) := by
  unfold rankStage rankCandidatesWithScores
  rw [hhint]
  dsimp only
  apply orRaise_of_ne_nil
  obtain ⟨p, hp⟩ := List.exists_mem_of_ne_nil _ hne
  have hmem : candidateProfile w req p ∈ PyList.sortBy (fun a b => a.priority ≤ b.priority)
      (available.map (candidateProfile w req)) :=
    PyList.mem_sortBy.mpr (List.mem_map_of_mem hp)
  exact List.ne_nil_of_mem (List.mem_map_of_mem hmem)

theorem misfit_plain (himages : req.hasImages = false) (hin : req.estInputTokens = none)
    (hout : req.requestedMaxTokens = none) (t : Ranked) : misfit req t = none := by
  simp [misfit, capabilityFit, himages, hin, hout]

theorem offered_plain (hplain : Plain req) (hmodel : truthy req.modelOverride = none)
    {pool : List Provider} (hpool : candidatePool w req = .ok pool) :
    offered w req = .ok ⟨pool, false, [],
      (PyList.sortBy (fun a b => a.priority ≤ b.priority)
        (pool.map (candidateProfile w req))).map fun p =>
          ⟨p, [], .fin ((1000 - p.priority : Int) : Rat)⟩⟩ := by
  have hranked := @rankStage_plain w req hplain.hint pool (candidatePool_ne_nil hpool)
  have hmisfit := @misfit_plain req hplain.images hplain.input hplain.output
  rw [offered_of_pool hpool]
  unfold offerFrom
  rw [modelStage_of_no_model hmodel, bind_of_ok hranked]
  simp [toolWeightStage, hplain.tools, fitStage, hplain.images, hmisfit, skippedBy, bind,
    Except.bind]

theorem topTier_cons {best : Ranked} {rest : List Ranked} {q : Rat} (h : best.score = .fin q) :
    ∃ tier, topTier best (best :: rest) = best :: tier ∧ ∀ t ∈ tier, t ∈ rest := by
  have hband : withinBand best.score best.score = true := by
    rw [h]
    show decide (q - q < 1) = true
    rw [sub_self]
    decide
  refine ⟨rest.filter fun t => withinBand best.score t.score, ?_, fun t ht =>
    List.mem_of_mem_filter ht⟩
  exact @List.filter_cons_of_pos _ (fun t => withinBand best.score t.score) best rest hband

theorem chooseWinner_head (hsort : req.sortMode = none) (hutil : w.utilization = none)
    (hewma : w.peakEwma = fun _ => none) (hsample : w.sample = firstTwo) {best : Ranked}
    {rest : List Ranked} {q : Rat} (hscore : best.score = .fin q)
    (hfirst : ∀ t ∈ rest, best.profile.priority ≤ t.profile.priority) :
    chooseWinner w req best rest = best := by
  obtain ⟨tier, htier, hsub⟩ := @topTier_cons best rest q hscore
  have hlow : lowBucket w (best :: tier) = best :: tier := by
    unfold lowBucket
    rw [hutil]
    rfl
  unfold chooseWinner
  dsimp only
  rw [if_neg (by rw [hsort]; exact Option.some_ne_none _ |>.symm),
    if_neg (by rw [hsort]; exact Option.some_ne_none _ |>.symm), htier, hlow]
  unfold sampleWinner
  split
  · next htwo =>
    cases tier with
    | nil => exact absurd htwo (Nat.lt_irrefl 1)
    | cons t tier =>
      -- the sample is of the first two, and neither has an average
      rw [hsample]
      show betterOf w best t = best
      unfold betterOf
      rw [hewma]
      dsimp only
      rw [if_pos (hfirst t (hsub t List.mem_cons_self))]
  · rfl

/-- **The head of the pool is selected** in an undisturbed world. -/
theorem selectRoute_head (hplain : Plain req) (hmodel : truthy req.modelOverride = none)
    (hcheap : req.preferCheapest = false) (hutil : w.utilization = none)
    (hewma : w.peakEwma = fun _ => none) (hsample : w.sample = firstTwo) {p : Provider}
    {rest : List Provider} (hpool : candidatePool w req = .ok (p :: rest))
    (hsorted : (p :: rest).Pairwise fun a b => a.priority ≤ b.priority) :
    ∃ r, selectRoute w req = .ok r ∧ r.provider = p := by
  have hoffer := @offered_plain w req hplain hmodel _ hpool
  have hsame : PyList.sortBy (fun a b : CapabilityProfile => a.priority ≤ b.priority)
      ((p :: rest).map (candidateProfile w req)) = (p :: rest).map (candidateProfile w req) := by
    apply List.Pairwise.insertionSort_eq
    rw [List.pairwise_map]
    refine hsorted.imp fun {a b} hle => decide_eq_true ?_
    rw [candidateProfile_priority, candidateProfile_priority]
    exact hle
  rw [hsame, List.map_map] at hoffer
  have hfirst : ∀ t ∈ rest.map (soleRanked w req),
      (soleRanked w req p).profile.priority ≤ t.profile.priority := by
    intro t ht
    obtain ⟨a, ha, rfl⟩ := List.mem_map.mp ht
    show (candidateProfile w req p).priority ≤ (candidateProfile w req a).priority
    rw [candidateProfile_priority, candidateProfile_priority]
    exact List.rel_of_pairwise_cons hsorted ha
  have hwinner := chooseWinner_head hplain.sort hutil hewma hsample rfl hfirst
  have hown : providerOf (p :: rest) (soleRanked w req p) = .ok p := by
    simp [providerOf, soleRanked]
  have hroute : selectProvider w req = .ok (.route
      (boundRoute w req false p (soleRanked w req p) [])) := by
    rw [@selectProvider_of_offered w req _ (soleRanked w req p) (rest.map (soleRanked w req))
      hoffer rfl]
    unfold bindStage
    rw [if_neg (by rw [hplain.dry]; exact Bool.false_ne_true),
      if_neg (by rw [hcheap, hplain.sort]; decide)]
    dsimp only
    rw [hwinner, bind_of_ok hown]
  exact ⟨_, selectRoute_of_selectProvider hroute, rfl⟩

/-! ## An undisturbed world

No skip window is open, the sessions are authenticated, nothing is measured: what is selected
depends on which breakers are closed and on the clock the tokens are read by. -/

/-- The world at the given times, with the given breakers closed. -/
def openWorld (rows : List Provider) (keys : List Cluster.ApiKey) (system : Policy)
    (context : Option String) (skips : Cluster.Stamp) (now : Rat) (up : String → Bool) : World where
  providers := rows
  keys := keys
  systemPolicy := system
  capabilities := []
  telemetry := ⟨fun _ => none, fun _ => 0, fun _ => none⟩
  settings := {}
  authState := fun _ => some "ok"
  utilization := none
  isAvailable := up
  peakEwma := fun _ => none
  utcNow := skips
  unixNow := now
  currentApiKeyId := context
  sample := firstTwo

section

variable {rows : List Provider} {keys : List Cluster.ApiKey} {system : Policy}
  {context : Option String} {skips : Cluster.Stamp} {now : Rat} {up : String → Bool}

theorem exists_skips (rows : List Provider) :
    ∃ skips, ∀ p ∈ rows, isCurrentlyAtCapacity skips p = false := by
  induction rows with
  | nil => exact ⟨0, fun p hp => absurd hp List.not_mem_nil⟩
  | cons q rows ih =>
    obtain ⟨skips, hskips⟩ := ih
    refine ⟨max skips (q.autoSkipUntil.getD 0), fun p hp => ?_⟩
    rcases List.mem_cons.mp hp with rfl | hrow
    · unfold isCurrentlyAtCapacity
      cases p.autoSkipUntil with
      | none => rfl
      | some t => simp
    · have hearlier := hskips p hrow
      unfold isCurrentlyAtCapacity at hearlier ⊢
      cases hskip : p.autoSkipUntil with
      | none => rfl
      | some t =>
        rw [hskip] at hearlier
        have hle : t ≤ skips := by simpa using hearlier
        simpa using fun hlt : skips < t => absurd hle (Int.not_le.mpr hlt)

theorem exists_alive (rows : List Provider) : ∃ now, ∀ p ∈ rows, tokenDead now p = false := by
  induction rows with
  | nil => exact ⟨0, fun p hp => absurd hp List.not_mem_nil⟩
  | cons q rows ih =>
    obtain ⟨now, halive⟩ := ih
    refine ⟨min now (q.oauthExpiresAt.getD 0), fun p hp => ?_⟩
    rw [Bool.eq_false_iff]
    intro hdead
    obtain ⟨e, hexpiry, hset, hlate⟩ := tokenDead_iff.mp hdead
    rcases List.mem_cons.mp hp with rfl | hrow
    · rw [hexpiry] at hlate
      have hmin : min now ((some e).getD 0 : Int) ≤ (e : Rat) := min_le_right _ _
      linarith
    · have hmin : min now (q.oauthExpiresAt.getD 0 : Int) ≤ now := min_le_left _ _
      have hearlier := tokenDead_iff.mpr ⟨e, hexpiry, hset, show (e : Rat) < now - 900 by linarith⟩
      rw [halive p hrow] at hearlier
      cases hearlier

theorem enabledRows_sorted (w : World) :
    (enabledRows w).Pairwise fun a b => a.priority ≤ b.priority := by
  have hsorted := @List.pairwise_insertionSort Provider
    (fun a b => decide (a.priority ≤ b.priority) = true) _
    ⟨fun a b => by simpa using Int.le_total a.priority b.priority⟩
    ⟨fun a b c hab hbc => by
      simp only [decide_eq_true_eq] at hab hbc ⊢
      exact Int.le_trans hab hbc⟩ (w.providers.filter (·.enabled))
  exact hsorted.imp fun hle => of_decide_eq_true hle

theorem rotationPool_open (hskips : ∀ p ∈ rows, isCurrentlyAtCapacity skips p = false)
    {p : Provider} (hrow : p ∈ rows) (hen : p.enabled = true) :
    rotationPool (openWorld rows keys system context skips now up) =
      .ok (enabledRows (openWorld rows keys system context skips now up)) := by
  have husable : usableRows (openWorld rows keys system context skips now up) =
      enabledRows (openWorld rows keys system context skips now up) := by
    unfold usableRows
    show List.filter _ _ = _
    rw [List.filter_eq_self.mpr, List.filter_eq_self.mpr]
    · intro q hq
      rw [show isCurrentlyAtCapacity (openWorld rows keys system context skips now up).utcNow q =
        false from hskips q (mem_enabledRows.mp hq).1]
      rfl
    · intro q _
      simp [nodeRoutable, openWorld]
  have hne : enabledRows (openWorld rows keys system context skips now up) ≠ [] :=
    List.ne_nil_of_mem (mem_enabledRows.mpr ⟨hrow, hen⟩)
  unfold rotationPool
  rw [husable, if_neg (by simpa using hne), if_neg (by simpa using hne)]

end

end LlmProxy.Routing
