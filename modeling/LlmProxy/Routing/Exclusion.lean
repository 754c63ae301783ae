import LlmProxy.Routing.Selection

/-! # Selecting around providers already tried

Every caller that tries one provider after the other passes `select_provider` the ids it is done
with. What it can be offered then is no more than what it could have been offered at first:
closing the breakers of the providers in between has the same effect as excluding them.

Main result: `selectRoute_shrink` — a route selected around some ids is selected around fewer of
them in a world where the rest is unavailable.
-/

namespace LlmProxy.Routing

open LlmProxy.Providers
open Result

/-- `select_provider` for a request that is no dry run. -/
def selectRoute (w : World) (req : RouteRequest) : Except RoutingError RouteResult :=
  match selectProvider w req with
  | .ok (.route r) => .ok r
  -- not reached: only a dry run returns quotes
  | .ok (.quotes _) => .error (.value "quotes")
  | .error e => .error e

theorem selectProvider_of_selectRoute {w : World} {req : RouteRequest} {r : RouteResult}
    (h : selectRoute w req = .ok r) : selectProvider w req = .ok (.route r) := by
  unfold selectRoute at h
  split at h
  · next r' hroute =>
    rw [hroute, Except.ok.inj h]
  · cases h
  · cases h

theorem selectRoute_of_selectProvider {w : World} {req : RouteRequest} {r : RouteResult}
    (h : selectProvider w req = .ok (.route r)) : selectRoute w req = .ok r := by
  unfold selectRoute
  rw [h]

/-- The route of `selectRoute`: see `selectProvider_route`. -/
theorem selectRoute_route {w : World} {req : RouteRequest} {r : RouteResult}
    (h : selectRoute w req = .ok r) :
    Admitted w req r.provider ∧ BoundTo req r ∧ r.litellmKwargs = buildLitellmKwargs r.provider :=
  selectProvider_route (selectProvider_of_selectRoute h)

def RouteRequest.around (req : RouteRequest) (ids : List String) : RouteRequest :=
  { req with excludeProviderIds := ids }

@[simp] theorem RouteRequest.around_modelOverride (req : RouteRequest) (ids : List String) :
    (req.around ids).modelOverride = req.modelOverride := rfl

/-- The world with the breakers of some providers open. -/
def World.without (w : World) (ids : List String) : World :=
  { w with isAvailable := fun id => w.isAvailable id && !ids.contains id }

@[simp] theorem World.without_providers (w : World) (ids : List String) :
    (w.without ids).providers = w.providers := rfl

variable {w : World} {req : RouteRequest} {many few : List String}

theorem excludeMany_eq {l out : List Provider} (h : excludeMany (req.around many) l = .ok out) :
    out = l.filter fun p => !many.contains p.id := by
  unfold excludeMany at h
  split at h
  · next hempty =>
    have hnil : many = [] := List.isEmpty_iff.mp hempty
    rw [hnil, ← Except.ok.inj h]
    simp
  · exact (orRaise_ok h).1

theorem excludeMany_of_mem {l : List Provider} {p : Provider} (hp : p ∈ l) (hid : p.id ∉ few) :
    excludeMany (req.around few) l = .ok (l.filter fun q => !few.contains q.id) := by
  have hkept : p ∈ l.filter fun q => !few.contains q.id :=
    List.mem_filter.mpr ⟨hp, by simpa using hid⟩
  unfold excludeMany
  split
  · next hempty =>
    have hnil : few = [] := List.isEmpty_iff.mp hempty
    rw [hnil]
    simp
  · exact orRaise_of_mem hkept

theorem filter_unavailable (hsub : ∀ id ∈ few, id ∈ many) (owned up : Provider → Bool)
    (l : List Provider) :
    ((l.filter fun p => !few.contains p.id).filter owned).filter
        (fun p => up p && !many.contains p.id) =
      ((l.filter fun p => !many.contains p.id).filter owned).filter up := by
  simp only [List.filter_filter]
  apply List.filter_congr
  intro p _
  by_cases hmany : p.id ∈ many
  · simp [hmany]
  · have hfew : p.id ∉ few := fun hmem => hmany (hsub p.id hmem)
    simp [hmany, hfew]

theorem candidatePool_shrink (hsub : ∀ id ∈ few, id ∈ many) {pool : List Provider}
    (h : candidatePool w (req.around many) = .ok pool) :
    candidatePool (w.without many) (req.around few) = .ok pool := by
  obtain ⟨rows, hrows, h⟩ := bind_ok h
  obtain ⟨pinned, hpinned, h⟩ := bind_ok h
  obtain ⟨compliant, hcompliant, h⟩ := bind_ok h
  obtain ⟨others, hothers, h⟩ := bind_ok h
  obtain ⟨kept, hkept, h⟩ := bind_ok h
  obtain ⟨owned, howned, h⟩ := bind_ok h
  obtain ⟨available, havailable, h⟩ := bind_ok h
  have hkept' := excludeMany_eq hkept
  obtain ⟨howned', -⟩ := orRaise_ok howned
  obtain ⟨havailable', hne⟩ := orRaise_ok havailable
  -- one of the available providers shows that the two filters before raise nothing
  obtain ⟨p, hp⟩ := List.exists_mem_of_ne_nil _ hne
  obtain ⟨hpowned, hup⟩ := List.mem_filter.mp hp
  rw [howned'] at hpowned
  obtain ⟨hpkept, haccess⟩ := List.mem_filter.mp hpowned
  rw [hkept'] at hpkept
  obtain ⟨hpothers, hmany⟩ := List.mem_filter.mp hpkept
  have hfew : p.id ∉ few := fun hmem => by simp [hsub p.id hmem] at hmany
  have hexclude : excludeMany (req.around few) others =
      .ok (others.filter fun q => !few.contains q.id) := excludeMany_of_mem hpothers hfew
  have htenant : tenantStage (w.without many) (req.around few)
      (others.filter fun q => !few.contains q.id) =
        .ok ((others.filter fun q => !few.contains q.id).filter
          (accessible (effectiveKey w (req.around few)))) :=
    orRaise_of_mem (List.mem_filter.mpr
      ⟨List.mem_filter.mpr ⟨hpothers, by simpa using hfew⟩, haccess⟩)
  have hsame := filter_unavailable hsub (accessible (effectiveKey w (req.around few)))
    (fun q => w.isAvailable q.id) others
  have hup' : availabilityStage (w.without many)
      ((others.filter fun q => !few.contains q.id).filter
        (accessible (effectiveKey w (req.around few)))) = .ok available := by
    unfold availabilityStage
    rw [havailable', howned', hkept']
    rw [howned', hkept'] at hne
    show orRaise (((others.filter fun q => !few.contains q.id).filter
      (accessible (effectiveKey w (req.around few)))).filter
        fun q => w.isAvailable q.id && !many.contains q.id) _ = _
    rw [hsame]
    exact orRaise_of_ne_nil hne
  have hrows' : rotationPool (w.without many) = .ok rows := hrows
  have hpinned' : pinStage (req.around few) rows = .ok pinned := hpinned
  have hcompliant' : complianceStage (w.without many) (req.around few) pinned = .ok compliant :=
    hcompliant
  have hothers' : excludeOne (req.around few) compliant = .ok others := hothers
  unfold candidatePool
  rw [bind_of_ok hrows', bind_of_ok hpinned', bind_of_ok hcompliant', bind_of_ok hothers',
    bind_of_ok hexclude, bind_of_ok htenant, bind_of_ok hup']
  exact h

/-- **A route selected around some ids is selected around fewer of them** where the providers
left out are unavailable. -/
theorem selectRoute_shrink {r : RouteResult} (hsub : ∀ id ∈ few, id ∈ many)
    (h : selectRoute w (req.around many) = .ok r) :
    selectRoute (w.without many) (req.around few) = .ok r := by
  apply selectRoute_of_selectProvider
  obtain ⟨pool, hpool, hrest⟩ := bind_ok (selectProvider_of_selectRoute h)
  unfold selectProvider
  rw [candidatePool_shrink hsub hpool]
  exact hrest

/-! ## A world with one provider up -/

/-- Only `p` is available, and no reasoning is emulated. -/
def soleWorld (rows : List Provider) (keys : List Cluster.ApiKey) (system : Compliance.Policy)
    (keyId : String) (p : Provider) : World :=
  { quietWorld rows keys system [] (some keyId) p with
    settings := { cotEnabled := false } }.without (otherIds rows p)

/-- In such a world a plain request that admits `p` is routed to it, whatever it excludes
besides, and nothing is emulated. -/
theorem selectRoute_soleWorld {rows : List Provider} {keys : List Cluster.ApiKey}
    {system : Compliance.Policy} {keyId : String} {p : Provider}
    (hids : (rows.map (·.id)).Nodup)
    (h : Admitted (quietWorld rows keys system [] (some keyId) p)
      (req.around (otherIds rows p)) p)
    (hplain : Plain req) (hlist : req.blockedCompanies = none)
    (hothers : ∀ id ∈ req.excludeProviderIds, id ∈ otherIds rows p) :
    ∃ r, selectRoute (soleWorld rows keys system keyId p) req = .ok r ∧ r.provider = p ∧
      r.toolEmulationEngaged = false ∧ r.cotEngaged = false := by
  let base : World :=
    { quietWorld rows keys system [] (some keyId) p with settings := { cotEnabled := false } }
  have hadm : Admitted base (req.around (otherIds rows p)) p :=
    ⟨h.row, h.enabled, h.pinned, h.compliant, h.notExcluded, h.notExcludedIds, h.accessible,
      h.available, h.tools, h.type, h.chat⟩
  have husable : p ∈ usableRows base ∧ (usableRows base).Nodup :=
    quietWorld_usable keys system [] (some keyId) h.row h.enabled hids.of_map
  obtain ⟨r, hroute, hprovider, -⟩ := selectProvider_sole hadm
    (leavesOnly_otherIds hids h.row rfl)
    ⟨hplain.hint, hplain.tools, hplain.images, hplain.input, hplain.output, hplain.sort,
      hplain.dry⟩ hlist rfl husable.1 husable.2
  obtain ⟨htools, hcot⟩ := selectProvider_engaged hroute
  have hselect : selectRoute (base.without (otherIds rows p))
      (req.around req.excludeProviderIds) = .ok r :=
    selectRoute_shrink hothers (selectRoute_of_selectProvider hroute)
  refine ⟨r, hselect, hprovider, Bool.eq_false_iff.mpr fun hyes => ?_,
    Bool.eq_false_iff.mpr fun hyes => ?_⟩
  · have hasks : req.hasTools = true := htools hyes
    rw [hplain.tools] at hasks
    cases hasks
  · -- reasoning is emulated only where the setting allows it
    have hreason := hcot hyes
    cases hreason

end LlmProxy.Routing
