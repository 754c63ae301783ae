import LlmProxy.Dispatch.ToolWalk
import LlmProxy.Routing.Pool

/-! # Walking past the providers already tried

`_select_excluding` (`app/api/_messages_dispatch.py`) is given the ids a request is done with, and
`select_provider` takes one of them at a time. Every pass excludes the same id, so what it returns
is what the other tried providers leave over.

> `walk_exhausts_iff`: over a provider table, every walk finds an untried provider whenever one
> could be selected around all of the ids, exactly when no provider that reaches the breakers can
> overtake one that is offered.
-/

namespace LlmProxy.Dispatch

open LlmProxy.Providers
open LlmProxy.Routing
open LlmProxy.Compliance
open LlmProxy.Cluster (ApiKey)
open Result

/-! ## The walk with its set -/

/-- `excluded.add`. -/
def addId (ids : List String) (id : String) : List String :=
  if ids.contains id then ids else ids ++ [id]

/-- `_select_excluding`, with the set it is given as the call leaves it. -/
def selectExcludingSet (worlds : Nat → World) (setOrder : List String → List String)
    (req : RouteRequest) : Nat → Nat → List String → Except Failure RouteResult × List String
  | 0, _, excluded => (.error ⟨"RuntimeError", "All providers tried"⟩, excluded)
  | left + 1, n, excluded =>
    match selectRoute (worlds n) { req with excludeProviderId := (setOrder excluded).head? } with
    | .error e => (.error (selectionFailure e), excluded)
    | .ok r =>
      if excluded.contains r.provider.id then
        selectExcludingSet worlds setOrder req left (n + 1) (addId excluded r.provider.id)
      else (.ok r, excluded)

theorem selectExcludingSet_eq (worlds : Nat → World) (setOrder : List String → List String)
    (req : RouteRequest) (excluded : List String) (left n : Nat) :
    selectExcludingSet worlds setOrder req left n excluded =
      (selectExcluding worlds setOrder req excluded left n, excluded) := by
  induction left generalizing n with
  | zero => rfl
  | succ left ih =>
    unfold selectExcludingSet selectExcluding
    cases selectRoute (worlds n) { req with excludeProviderId := (setOrder excluded).head? } with
    | error e => rfl
    | ok r =>
      dsimp only
      split
      · next hin =>
        rw [addId, if_pos hin]
        exact ih (n + 1)
      · rfl

/-- The request `_select_excluding` makes for a key. -/
def excludingRequest (key : ApiKeyRecord) (hint : Option LMRHHint) (hasTools hasImages : Bool) :
    RouteRequest where
  hint := hint
  hasTools := hasTools
  hasImages := hasImages
  keyType := key.keyType
  apiKeyId := some key.id

def resampled (w : World) (samples : Nat → Sampler) (n : Nat) : World :=
  { w with sample := samples n }

/-- The walk does for the tried ids what a selection around all of them would do. -/
structure FindsUntried (w : World) (samples : Nat → Sampler) (setOrder : List String → List String)
    (req : RouteRequest) (tried : List String) : Prop where
  found : ∀ r, selectRoute w (req.around tried) = .ok r →
    ∃ r', (selectExcludingSet (resampled w samples) setOrder req 20 0 tried).1 = .ok r' ∧
      r'.provider.id ∉ tried
  raises : (∀ r, selectRoute w (req.around tried) ≠ .ok r) →
    ∀ r, (selectExcludingSet (resampled w samples) setOrder req 20 0 tried).1 ≠ .ok r
  unchanged : (selectExcludingSet (resampled w samples) setOrder req 20 0 tried).2 = tried

section

variable (rows : List Provider) (keys : List ApiKey) (system : Policy) (key : ApiKeyRecord)

/-- Every walk of the key, in every world over the table, for every set of tried ids. -/
def WalkExhausts : Prop :=
  ∀ (w : World) (samples : Nat → Sampler) (setOrder : List String → List String)
    (hint : Option LMRHHint) (hasTools hasImages : Bool) (tried : List String),
    Visible rows keys system key w → (∀ ids, (setOrder ids).Perm ids) →
      FindsUntried w samples setOrder (excludingRequest key hint hasTools hasImages) tried

/-- The provider comes to the breakers for a request without a model. -/
def reachable (p : Provider) : Bool := opens key p && cleared keys system key none p

end

/-- `p`'s token is alive at some time at which that of `q` is dead. -/
def outlives (p q : Provider) : Bool :=
  q.oauthExpiresAt.any fun e =>
    decide (e ≠ 0) && !p.oauthExpiresAt.any fun e' => decide (e' ≠ 0) && decide (e' ≤ e)

/-- `p` can keep `q` out of a selection: it is a candidate itself, or its token is alive where
that of `q` is dead. -/
def overtakes (p q : Provider) : Bool := chatDefault p || outlives p q

theorem outlives_iff {p q : Provider} :
    outlives p q = true ↔ ∃ now, tokenDead now q = true ∧ tokenDead now p = false := by
  have hpdead : ∀ now, tokenDead now p = true ↔
      ∃ e, p.oauthExpiresAt = some e ∧ e ≠ 0 ∧ (e : Rat) < now - 900 := fun _ => tokenDead_iff
  unfold outlives
  constructor
  · intro h
    obtain ⟨e, hq, hrest⟩ := (Option.any_eq_true _ _).mp h
    obtain ⟨hset, hlater⟩ := Bool.and_eq_true_iff.mp hrest
    refine ⟨e + 901, tokenDead_iff.mpr ⟨e, hq, of_decide_eq_true hset, by linarith⟩, ?_⟩
    rw [Bool.eq_false_iff]
    intro hdead
    obtain ⟨e', hp, hset', hlt⟩ := (hpdead _).mp hdead
    have hle : e' ≤ e := by
      have hcast : (e' : Rat) < (e + 1 : Int) := by
        push_cast
        linarith
      have hint : e' < e + 1 := by exact_mod_cast hcast
      omega
    rw [hp] at hlater
    simp [hset', hle] at hlater
  · rintro ⟨now, hqdead, hplive⟩
    obtain ⟨e, hq, hset, hlt⟩ := tokenDead_iff.mp hqdead
    rw [hq]
    simp only [Option.any_some, Bool.and_eq_true, decide_eq_true_eq, Bool.not_eq_true']
    refine ⟨hset, Bool.eq_false_iff.mpr fun hearlier => ?_⟩
    obtain ⟨e', hp, hrest⟩ := (Option.any_eq_true _ _).mp hearlier
    obtain ⟨hset', hle⟩ := Bool.and_eq_true_iff.mp hrest
    have hcast : (e' : Rat) ≤ e := by exact_mod_cast of_decide_eq_true hle
    rw [(hpdead now).mpr ⟨e', hp, of_decide_eq_true hset', by linarith⟩] at hplive
    cases hplive

variable {rows : List Provider} {keys : List ApiKey} {system : Policy} {key : ApiKeyRecord}

theorem starts_none {p : Provider} :
    starts rows keys system key none p = true ↔
      reachable keys system key p = true ∧ chatDefault p = true := by
  unfold starts reachable
  rw [show askable rows none = true from rfl, takes_of_falsy rfl]
  simp only [Bool.true_and, Bool.and_eq_true]
  tauto

/-! ## One pass and all of the ids -/

section

variable {w : World} {req : RouteRequest} {seed : Option String} {tried : List String}

theorem reaches_seed_of_around (hseed : ∀ id, truthy seed = some id → id ∈ tried) {p : Provider}
    (h : reaches w (req.around tried) p = true) :
    reaches w { req.around [] with excludeProviderId := seed } p = true := by
  simp only [reaches, Bool.and_eq_true] at h ⊢
  obtain ⟨⟨⟨⟨hacc, -⟩, hmany⟩, haccess⟩, hup⟩ := h
  refine ⟨⟨⟨⟨hacc, ?_⟩, rfl⟩, haccess⟩, hup⟩
  rw [bne_iff_ne]
  intro heq
  have hin : p.id ∈ tried := hseed p.id heq
  have hout : p.id ∉ tried := by simpa using hmany
  exact hout hin

theorem reaches_around_of_seed (hone : req.excludeProviderId = none) {p : Provider}
    (hout : p.id ∉ tried)
    (h : reaches w { req.around [] with excludeProviderId := seed } p = true) :
    reaches w (req.around tried) p = true := by
  simp only [reaches, Bool.and_eq_true] at h ⊢
  obtain ⟨⟨⟨⟨hacc, -⟩, -⟩, haccess⟩, hup⟩ := h
  refine ⟨⟨⟨⟨hacc, ?_⟩, by simpa using hout⟩, haccess⟩, hup⟩
  rw [show (req.around tried).excludeProviderId = none from hone]
  rfl

theorem reachable_of_reaches (hw : Visible rows keys system key w)
    (hkey : req.apiKeyId = some key.id) (hmodel : req.modelOverride = none) {base : List Provider}
    (hbase : rotationPool w = .ok base) {p : Provider} (hp : p ∈ base)
    (h : reaches w req p = true) : p ∈ rows ∧ reachable keys system key p = true := by
  obtain ⟨hrow, hen⟩ := rotationPool_ok hbase hp
  simp only [reaches, Bool.and_eq_true] at h
  obtain ⟨⟨⟨⟨hacc, -⟩, -⟩, haccess⟩, -⟩ := h
  rw [effectiveKey_of_id key.nonempty hkey] at haccess
  rw [policyAccepts, hkey, truthy_some key.nonempty, hmodel, hw.keys, hw.system] at hacc
  refine ⟨hw.rows ▸ hrow, ?_⟩
  simp only [reachable, opens, cleared, Bool.and_eq_true]
  exact ⟨⟨hen, haccess⟩, hacc⟩

end

/-- No provider that reaches the breakers can overtake one that is offered. -/
def Unrivalled (rows : List Provider) (keys : List ApiKey) (system : Policy) (key : ApiKeyRecord) :
    Prop :=
  ∀ p ∈ rows, ∀ q ∈ rows, p.id ≠ q.id → reachable keys system key p = true →
    starts rows keys system key none q = true → overtakes p q = false

/-! ## Sufficiency -/

section

variable {w : World} {hint : Option LMRHHint} {hasTools hasImages : Bool} {seed : Option String}
  {tried : List String}

def passRequest (key : ApiKeyRecord) (hint : Option LMRHHint) (hasTools hasImages : Bool)
    (seed : Option String) : RouteRequest :=
  { excludingRequest key hint hasTools hasImages with excludeProviderId := seed }

theorem poolOf_seed (hids : (rows.map (·.id)).Nodup) (hlone : Unrivalled rows keys system key)
    (hw : Visible rows keys system key w) (hseed : ∀ id, truthy seed = some id → id ∈ tried)
    {base : List Provider} (hbase : rotationPool w = .ok base) {q : Provider}
    (hq : q ∈ poolOf w ((excludingRequest key hint hasTools hasImages).around tried) base) :
    poolOf w (passRequest key hint hasTools hasImages seed) base =
      poolOf w ((excludingRequest key hint hasTools hasImages).around tried) base := by
  obtain ⟨hqbase, hqreach, hqfits, hqtoken⟩ := mem_poolOf.mp hq
  have hqpass : reaches w (passRequest key hint hasTools hasImages seed) q = true :=
    @reaches_seed_of_around w (excludingRequest key hint hasTools hasImages) seed tried hseed q hqreach
  obtain ⟨hqrow, hqopen⟩ := reachable_of_reaches hw rfl rfl hbase hqbase hqpass
  have hqchat : chatDefault q = true := by
    simp only [fits, Bool.and_eq_true] at hqfits
    exact hqfits.2
  have hqstarts : starts rows keys system key none q = true := starts_none.mpr ⟨hqopen, hqchat⟩
  -- nobody else reaches the breakers and overtakes `q`
  have hrival : ∀ x ∈ base, reaches w (passRequest key hint hasTools hasImages seed) x = true →
      overtakes x q = true → x = q := by
    intro x hx hreach hover
    obtain ⟨hxrow, hxopen⟩ := reachable_of_reaches hw rfl rfl hbase hx hreach
    by_contra hne
    have hxid : x.id ≠ q.id := fun hid => hne (List.inj_on_of_nodup_map hids hxrow hqrow hid)
    rw [hlone x hxrow q hqrow hxid hxopen hqstarts] at hover
    cases hover
  have hchat : ∀ x, fits (passRequest key hint hasTools hasImages seed) x = true →
      overtakes x q = true := by
    intro x hfits
    simp only [fits, Bool.and_eq_true] at hfits
    have hxchat : chatDefault x = true := hfits.2
    rw [overtakes, hxchat, Bool.true_or]
  apply poolOf_congr
  intro x hx
  constructor
  · intro hmem
    obtain ⟨-, hreach, hfits, -⟩ := mem_poolOf.mp hmem
    rw [hrival x hx hreach (hchat x hfits)]
    exact hq
  · intro hmem
    obtain ⟨-, hreach, hfits, -⟩ := mem_poolOf.mp hmem
    rw [hrival x hx (@reaches_seed_of_around w (excludingRequest key hint hasTools hasImages) seed
      tried hseed x hreach) (hchat x hfits)]
    refine mem_poolOf.mpr ⟨hqbase, hqpass, hqfits, fun hdead y hy hyreach => ?_⟩
    by_contra hlive
    have hlive' : tokenDead w.unixNow y = false := Bool.eq_false_iff.mpr hlive
    have hover : overtakes y q = true := by
      rw [overtakes, outlives_iff.mpr ⟨w.unixNow, hdead, hlive'⟩, Bool.or_true]
    rw [hrival y hy hyreach hover, hdead] at hlive'
    cases hlive'

theorem offered_seed {base : List Provider} (hbase : rotationPool w = .ok base)
    (hsame : poolOf w (passRequest key hint hasTools hasImages seed) base =
      poolOf w ((excludingRequest key hint hasTools hasImages).around tried) base) :
    offered w (passRequest key hint hasTools hasImages seed) =
        offered w ((excludingRequest key hint hasTools hasImages).around tried) ∨
      poolOf w ((excludingRequest key hint hasTools hasImages).around tried) base = [] := by
  by_cases hnil : poolOf w ((excludingRequest key hint hasTools hasImages).around tried) base = []
  · exact Or.inr hnil
  · left
    rw [offered_of_pool ((candidatePool_iff rfl rfl hbase).mpr ⟨hsame.symm, hnil⟩),
      offered_of_pool ((candidatePool_iff rfl rfl hbase).mpr ⟨rfl, hnil⟩)]
    rfl

theorem offered_resampled (samples : Nat → Sampler) (n : Nat) (req : RouteRequest) :
    offered (resampled w samples n) req = offered w req := rfl

theorem pool_of_route {req : RouteRequest} (hpin : truthy req.pinnedProviderId = none)
    (hlist : req.blockedCompanies = none) (hmodel : truthy req.modelOverride = none)
    {o : Offer} (hoffer : offered w req = .ok o) {p : Provider} (hp : p ∈ o.available) :
    ∃ base, rotationPool w = .ok base ∧ o.available = poolOf w req base ∧
      p ∈ poolOf w req base := by
  have hpool := offered_available hmodel hoffer
  obtain ⟨base, hbase, -⟩ := bind_ok hpool
  obtain ⟨hsame, -⟩ := (candidatePool_iff hpin hlist hbase).mp hpool
  exact ⟨base, hbase, hsame, hsame ▸ hp⟩

/-- **Every walk finds an untried provider** over a table without rivals. -/
theorem walkExhausts_of_unrivalled (hids : (rows.map (·.id)).Nodup)
    (hlone : Unrivalled rows keys system key) : WalkExhausts rows keys system key := by
  intro w samples setOrder hint hasTools hasImages tried hw hperm
  have hseed : ∀ id, truthy (setOrder tried).head? = some id → id ∈ tried := by
    intro id hid
    have hhead : (setOrder tried).head? = some id := eq_some_of_truthy hid
    exact (hperm tried).mem_iff.mp (List.mem_of_head? hhead)
  have hwalk := selectExcludingSet_eq (resampled w samples) setOrder
    (excludingRequest key hint hasTools hasImages) tried 20 0
  refine ⟨fun r h => ?_, fun hnone r h => ?_, by rw [hwalk]⟩
  · obtain ⟨o, hoffer, hr⟩ := offered_of_selectRoute h
    obtain ⟨base, hbase, havailable, hmem⟩ := pool_of_route rfl rfl rfl hoffer hr
    have hsame := poolOf_seed hids hlone hw hseed hbase hmem
    rcases offered_seed hbase hsame with heq | hnil
    · rw [← heq, ← offered_resampled samples 0] at hoffer
      obtain ⟨r', hroute, hr'⟩ := selectRoute_of_offered hoffer rfl
      rw [havailable] at hr'
      obtain ⟨-, hreach, -, -⟩ := mem_poolOf.mp hr'
      have hout : r'.provider.id ∉ tried := by
        simp only [reaches, Bool.and_eq_true] at hreach
        simpa using hreach.1.1.2
      refine ⟨r', ?_, hout⟩
      rw [hwalk]
      show selectExcluding _ _ _ tried 20 0 = .ok r'
      unfold selectExcluding
      rw [show selectRoute (resampled w samples 0) { excludingRequest key hint hasTools hasImages with
        excludeProviderId := (setOrder tried).head? } = .ok r' from hroute]
      dsimp only
      rw [if_neg (by simpa using hout)]
    · rw [hnil] at hmem
      exact absurd hmem List.not_mem_nil
  · rw [hwalk] at h
    obtain ⟨hout, k, hroute⟩ := selectExcluding_ok 20 0 h
    obtain ⟨o, hoffer, hr⟩ := offered_of_selectRoute hroute
    rw [offered_resampled] at hoffer
    obtain ⟨base, hbase, -, hmem⟩ := pool_of_route rfl rfl rfl hoffer hr
    -- the provider found is in the pool around all of the ids
    obtain ⟨hrow, hreach, hfits, htoken⟩ := mem_poolOf.mp hmem
    have haround : r.provider ∈
        poolOf w ((excludingRequest key hint hasTools hasImages).around tried) base := by
      refine mem_poolOf.mpr ⟨hrow, @reaches_around_of_seed w
        (excludingRequest key hint hasTools hasImages) (setOrder tried).head? tried rfl _ hout hreach,
        hfits, fun hdead y hy hyreach => ?_⟩
      exact htoken hdead y hy (@reaches_seed_of_around w
        (excludingRequest key hint hasTools hasImages) (setOrder tried).head? tried hseed y hyreach)
    rcases offered_seed hbase (poolOf_seed hids hlone hw hseed hbase haround) with heq | hnil
    · have hoffer' : offered w ((excludingRequest key hint hasTools hasImages).around tried) =
          .ok o := heq ▸ hoffer
      obtain ⟨r', hroute', -⟩ := selectRoute_of_offered hoffer' rfl
      exact hnone r' hroute'
    · rw [hnil] at haround
      exact absurd haround List.not_mem_nil

end

/-! ## Necessity -/

section

variable {skips : LlmProxy.Cluster.Stamp} {now : Rat} {up : String → Bool}

def bothUp (p q : Provider) (id : String) : Bool := decide (id = p.id) || decide (id = q.id)

theorem bothUp_iff {p q : Provider} {id : String} :
    bothUp p q id = true ↔ id = p.id ∨ id = q.id := by
  rw [bothUp, Bool.or_eq_true, decide_eq_true_eq, decide_eq_true_eq]

theorem reaches_open {req : RouteRequest} (hkey : req.apiKeyId = some key.id)
    (hmodel : req.modelOverride = none) {p : Provider}
    (hopen : reachable keys system key p = true) (hup : up p.id = true)
    (hone : truthy req.excludeProviderId ≠ some p.id) (hmany : p.id ∉ req.excludeProviderIds) :
    reaches (openWorld rows keys system (some key.id) skips now up) req p = true := by
  simp only [reachable, opens, cleared, Bool.and_eq_true] at hopen
  obtain ⟨⟨-, haccess⟩, hclear⟩ := hopen
  simp only [reaches, Bool.and_eq_true]
  refine ⟨⟨⟨⟨?_, bne_iff_ne.mpr hone⟩, by simpa using hmany⟩, ?_⟩, hup⟩
  · rw [policyAccepts, hkey, truthy_some key.nonempty, hmodel]
    exact hclear
  · rw [effectiveKey_of_id key.nonempty hkey]
    exact haccess

theorem visible_open : Visible rows keys system key
    (openWorld rows keys system (some key.id) skips now up) := ⟨rfl, rfl, rfl, rfl⟩

theorem up_of_reaches {w : World} {req : RouteRequest} {p : Provider}
    (h : reaches w req p = true) : w.isAvailable p.id = true := by
  simp only [reaches, Bool.and_eq_true] at h
  exact h.2

/-- Two providers are up and every pass returns the first: the second is never found, though a
selection around an unknown id and the first would be offered it. -/
theorem not_walkExhausts (now : Rat) (hids : (rows.map (·.id)).Nodup) {x y : Provider} (hy : y ∈ rows)
    (hne : x.id ≠ y.id) (hstarts : starts rows keys system key none y = true)
    (hskips : ∀ p ∈ rows, isCurrentlyAtCapacity skips p = false)
    (hup : ∀ id, up id = true ↔ id = x.id ∨ id = y.id) {u : String} (hu : u ∉ rows.map (·.id))
    (hstuck : ∀ r, selectRoute (openWorld rows keys system (some key.id) skips now up)
      (passRequest key none false false (some u)) = .ok r → r.provider.id = x.id) :
    ¬ WalkExhausts rows keys system key := by
  intro h
  obtain ⟨hopen, hchat⟩ := starts_none.mp hstarts
  have hen : y.enabled = true := by
    simp only [reachable, opens, Bool.and_eq_true] at hopen
    exact hopen.1.1
  have hbase := @rotationPool_open rows keys system (some key.id) skips now up hskips y hy hen
  have hout : y.id ∉ [u, x.id] := by
    intro hmem
    rcases List.mem_cons.mp hmem with heq | hmem
    · exact hu (heq ▸ List.mem_map_of_mem hy)
    · exact hne (List.mem_singleton.mp hmem).symm
  -- around both ids only the second provider is left
  have hpool : y ∈ poolOf (openWorld rows keys system (some key.id) skips now up)
      ((excludingRequest key none false false).around [u, x.id])
      (enabledRows (openWorld rows keys system (some key.id) skips now up)) := by
    refine mem_poolOf.mpr ⟨mem_enabledRows.mpr ⟨hy, hen⟩, reaches_open rfl rfl hopen
      ((hup y.id).mpr (Or.inr rfl)) ?_ hout, ?_, fun hdead z hz hzreach => ?_⟩
    · exact fun hcontra => absurd hcontra.symm (Option.some_ne_none y.id)
    · simp only [fits, Bool.and_eq_true]
      exact ⟨⟨rfl, rfl⟩, by rw [hchat, Bool.or_true]⟩
    · have hzout : z.id ∉ [u, x.id] := by
        simp only [reaches, Bool.and_eq_true] at hzreach
        simpa using hzreach.1.1.2
      have hzid : z.id = y.id := by
        rcases (hup z.id).mp (up_of_reaches hzreach) with hzx | hzy
        · exact absurd (List.mem_cons_of_mem u (List.mem_singleton.mpr hzx)) hzout
        · exact hzy
      rw [List.inj_on_of_nodup_map hids (mem_enabledRows.mp hz).1 hy hzid]
      exact hdead
  have hoffer := @offered_plain (openWorld rows keys system (some key.id) skips now up)
    ((excludingRequest key none false false).around [u, x.id]) ⟨rfl, rfl, rfl, rfl, rfl, rfl, rfl⟩
    rfl _ ((candidatePool_iff rfl rfl hbase).mpr ⟨rfl, List.ne_nil_of_mem hpool⟩)
  obtain ⟨r, hroute, -⟩ := selectRoute_of_offered hoffer rfl
  obtain ⟨r', hfound, hfresh⟩ := (h (openWorld rows keys system (some key.id) skips now up)
    (fun _ => firstTwo) id none false false [u, x.id] visible_open (fun ids => List.Perm.refl ids)
    ).found r hroute
  rw [selectExcludingSet_eq] at hfound
  obtain ⟨-, k, hpass⟩ := selectExcluding_ok 20 0 hfound
  exact hfresh (List.mem_cons_of_mem u (List.mem_singleton.mpr (hstuck r' hpass)))

end

/-- **A rival breaks a walk.** -/
theorem unrivalled_of_walkExhausts (hids : (rows.map (·.id)).Nodup)
    (h : WalkExhausts rows keys system key) : Unrivalled rows keys system key := by
  intro p hp q hq hne hopen hstarts
  by_contra hover
  rw [Bool.not_eq_false] at hover
  obtain ⟨skips, hskips⟩ := exists_skips rows
  obtain ⟨u, hu⟩ := Infinite.exists_notMem_finset (rows.map (·.id)).toFinset
  rw [List.mem_toFinset] at hu
  -- what a pass returns is one of the two
  have hone : ∀ now r, selectRoute
      (openWorld rows keys system (some key.id) skips now (bothUp p q))
        (passRequest key none false false (some u)) = .ok r →
          r.provider.id = p.id ∨ r.provider.id = q.id :=
    fun now r hr => bothUp_iff.mp (selectRoute_route hr).1.available
  cases hchat : chatDefault p with
  | true =>
    have hpstarts : starts rows keys system key none p = true := starts_none.mpr ⟨hopen, hchat⟩
    by_cases hstuck : ∃ r, selectRoute
        (openWorld rows keys system (some key.id) skips 0 (bothUp p q))
          (passRequest key none false false (some u)) = .ok r ∧ r.provider.id ≠ p.id
    · obtain ⟨r, hr, hother⟩ := hstuck
      have hqid := (hone 0 r hr).resolve_left hother
      refine not_walkExhausts 0 hids hp (Ne.symm hne) hpstarts hskips
        (fun id => bothUp_iff.trans or_comm) hu (fun r' hr' => ?_) h
      rw [← hqid, Except.ok.inj (hr'.symm.trans hr)]
    · refine not_walkExhausts 0 hids hq hne hstarts hskips (fun id => bothUp_iff) hu
        (fun r hr => ?_) h
      by_contra hother
      exact hstuck ⟨r, hr, hother⟩
  | false =>
    rw [overtakes, hchat, Bool.false_or] at hover
    obtain ⟨now, hdead, hlive⟩ := outlives_iff.mp hover
    refine not_walkExhausts now hids hq hne hstarts hskips (fun id => bothUp_iff) hu
      (fun r hr => (hone now r hr).resolve_right fun hqid => ?_) h
    -- the dead token of `q` is dropped beside the live one of `p`
    obtain ⟨o, hoffer, hin⟩ := offered_of_selectRoute hr
    obtain ⟨base, hbase, -, hmem⟩ := pool_of_route rfl rfl rfl hoffer hin
    obtain ⟨hrow, -, -, htoken⟩ := mem_poolOf.mp hmem
    have hqrow : r.provider = q :=
      List.inj_on_of_nodup_map hids (rotationPool_ok hbase hrow).1 hq hqid
    have hpen : p.enabled = true := by
      simp only [reachable, opens, Bool.and_eq_true] at hopen
      exact hopen.1.1
    rw [rotationPool_open hskips hp hpen] at hbase
    obtain rfl := Except.ok.inj hbase
    have hunknown : truthy (some u) ≠ some p.id := fun hcontra =>
      hu (Option.some.inj (eq_some_of_truthy hcontra) ▸ List.mem_map_of_mem hp)
    have hpreach := @reaches_open rows keys system key skips now (bothUp p q)
      (passRequest key none false false (some u)) rfl rfl p hopen
      (bothUp_iff.mpr (Or.inl rfl)) hunknown List.not_mem_nil
    have hpdead : tokenDead now p = true :=
      htoken (hqrow ▸ hdead) p (mem_enabledRows.mpr ⟨hp, hpen⟩) hpreach
    rw [hlive] at hpdead
    cases hpdead

/-- **The walk exhausts the pool** over a provider table exactly when it has no rivals. -/
theorem walk_exhausts_iff (rows : List Provider) (keys : List ApiKey) (system : Policy)
    (key : ApiKeyRecord) (hids : (rows.map (·.id)).Nodup) :
    WalkExhausts rows keys system key ↔ Unrivalled rows keys system key :=
  ⟨unrivalled_of_walkExhausts hids, walkExhausts_of_unrivalled hids⟩

end LlmProxy.Dispatch
