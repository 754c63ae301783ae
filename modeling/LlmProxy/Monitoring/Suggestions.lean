import Mathlib.Algebra.Order.Field.Rat
import Mathlib.Order.WithBot
import LlmProxy.Auth.Admission
import LlmProxy.Cluster.BlockedIps
import LlmProxy.Lib.PyFields

/-! # Suggestions of the AI rate limiter

`_apply_suggestion` (`app/monitoring/ai_rate_limiter.py`) lowers the limit of a key, disables it, or
blocks an address. The middleware (`app/middleware/ip_block.py`) reads the blocked addresses through
a cache of thirty seconds; the suggestion empties the cache before its row is committed.

> `tightens_iff`: an applied suggestion only tightens, and its block holds, exactly if it does not
> throttle to more than the key's own limit, the address has no tombstone here or in what is merged,
> and what was read before the commit is out of date by then.

Mirroring notes.
* Python runs one task at a time, so a lookup is read here in three steps: the clock, the table, and
  the cache. `time.monotonic()` is the exact value of its float, and a load does not fail.
* Nothing else writes the table between the flush of the review and the commit.
* The row's other columns, the log and the operator's endpoints are left out.
-/

namespace LlmProxy.Monitoring

open LlmProxy.Auth LlmProxy.Cluster
open Trace

/-! ## The cache of the middleware -/

/-- `_blocked` and `_loaded_at`. -/
structure BlockCache where
  ips : String → Bool
  loadedAt : Rat

/-- A lookup whose cache was out of date: when it read the clock, what it has read of the table, and
whether it began after the last commit. -/
structure BlockLoad where
  startedAt : Rat
  read : Option (String → Bool)
  late : Bool

/-- A node: the committed rows, a row that waits for its commit, the cache and the loads. -/
structure BlockNode where
  table : BlockTable
  pending : Option (String × BlockedIp) := none
  cache : BlockCache
  loads : List BlockLoad := []

/-- `_load_blocked_set`. -/
def loadBlockedSet (table : BlockTable) (ip : String) : Bool := ip ≠ "" && (table ip).any (·.live)

/-- `_clear_cache_for_tests`. -/
def clearCache (s : BlockNode) : BlockNode := { s with cache := ⟨fun _ => false, 0⟩ }

/-- The cache is older than `_TTL_SEC`. -/
def BlockCache.stale (c : BlockCache) (now : Rat) : Bool := 30 < now - c.loadedAt

/-- A lookup asks, one that waits reads the table, one that has read it fills the cache. -/
inductive LookupStep
  | ask (now : Rat)
  | read (k : Nat)
  | fill (k : Nat)

/-- `_get_blocked_set`, in its three steps. -/
def lookupStep (s : BlockNode) : LookupStep → BlockNode
  | .ask now => if s.cache.stale now then { s with loads := s.loads ++ [⟨now, none, true⟩] } else s
  | .read k =>
    match s.loads[k]? with
    | some l => { s with
        loads := s.loads.set k { l with read := some (l.read.getD (loadBlockedSet s.table)) } }
    | none => s
  | .fill k =>
    match s.loads[k]? with
    | some ⟨startedAt, some ips, _⟩ =>
      { s with cache := ⟨ips, startedAt⟩, loads := s.loads.eraseIdx k }
    | _ => s

/-- The set in which a lookup of an address that began after the last commit looks. -/
def lookedIn (s : BlockNode) : LookupStep → Option (String → Bool)
  | .ask now => if s.cache.stale now then none else some s.cache.ips
  | .read _ => none
  | .fill k =>
    match s.loads[k]? with
    | some ⟨_, some ips, true⟩ => some ips
    | _ => none

def commit (s : BlockNode) : BlockNode :=
  { s with
    table := match s.pending with
      | some (ip, row) => Function.update s.table ip (some row)
      | none => s.table
    pending := none
    loads := s.loads.map fun l => { l with late := false } }

/-! ## Applying a suggestion -/

structure ReviewedKey where
  id : String
  enabled : Bool
  limits : KeyLimits

/-- An `api_key_ai_review` row. -/
structure AiReview where
  id : Nat
  llmReasoning : String
  suggestedAction : String
  suggestedBlockIp : Option String
  appliedAt : Option Stamp := none
  appliedAction : Option String := none
  priorRateLimitRpm : Option Int := none

/-- The verdict as `review_one_key` takes it, and the address it would block: one that is named among
the top sources. -/
def reviewVerdict (verdict ip : String) (topIps : List String) : String × Option String :=
  let verdict := PyStr.lower (PyStr.strip verdict)
  if verdict = "block_ip" then
    let candidate := PyStr.strip ip
    if candidate ≠ "" ∧ candidate ∈ topIps then ("block_ip", some candidate) else ("watch", none)
  else if verdict ∈ ["normal", "watch", "throttle", "block"] then (verdict, none)
  else ("watch", none)

/-- The row of a block, which the column's default dates. -/
def suggestedRow (review : AiReview) (now : Stamp) : BlockedIp :=
  { reason := some ("AI rate limiter: " ++
      (if review.llmReasoning = "" then "(no reasoning)" else review.llmReasoning))
    addedBy := some ("ai-rate-limiter (review " ++ toString review.id ++ ")")
    addedAt := some (serverNow now) }

/-- The address of the suggestion is blocked: a row is added where there is none. -/
def blockSuggested (review : AiReview) (now : Stamp) (s : BlockNode) : BlockNode :=
  match review.suggestedBlockIp with
  | none => s
  | some ip =>
    if ip = "" then s
    else clearCache { s with
      pending := if (s.table ip).isNone then some (ip, suggestedRow review now) else s.pending }

/-- `_apply_suggestion`, but for the commit. -/
def applySuggestion (key : ReviewedKey) (review : AiReview) (floorRpm : Int) (now : Stamp)
    (s : BlockNode) : ReviewedKey × AiReview × BlockNode :=
  let review' := { review with
    appliedAt := some now
    appliedAction := some review.suggestedAction
    priorRateLimitRpm := key.limits.rateLimitRpm }
  if review.suggestedAction = "throttle_rpm" then
    ({ key with limits := { key.limits with rateLimitRpm := some floorRpm } }, review', s)
  else if review.suggestedAction = "disable" then ({ key with enabled := false }, review', s)
  else if review.suggestedAction = "block_ip" then (key, review', blockSuggested review now s)
  else (key, review', s)

/-! ## Limits -/

/-- The requests a node admits in a minute under a limit. -/
def shareOf (nodes : Nat) : Option Int → WithTop Int
  | none => ⊤
  | some limit => (perNodeLimit nodes limit : Int)

/-- The effective limit of a key: the smaller of its tier's and its own. -/
def effectiveRpm (nodes : Nat) (k : KeyLimits) : WithTop Int :=
  min (shareOf nodes k.tierRpm) (shareOf nodes k.rateLimitRpm)

/-- The floor is no more than the key's own limit, or its tier is not above that. -/
def LimitRoom (floorRpm : Int) (k : KeyLimits) : Prop :=
  ∀ own, k.rateLimitRpm = some own →
    max 1 floorRpm ≤ max 1 own ∨ ∃ tier, k.tierRpm = some tier ∧ max 1 tier ≤ max 1 own

theorem perNodeLimit_mono (nodes : Nat) {a b : Int} (h : max 1 a ≤ max 1 b) :
    perNodeLimit nodes a ≤ perNodeLimit nodes b := by
  unfold perNodeLimit
  have hpos : (0 : Int) < (max 1 nodes : Nat) := by omega
  rcases le_or_gt a b with hab | hba
  · exact max_le_max le_rfl (Int.ediv_le_ediv hpos hab)
  · have ha : a ≤ 1 := by omega
    have hshare : a / (max 1 nodes : Nat) ≤ 1 := (Int.ediv_le_ediv hpos ha).trans
      (Int.ediv_le_self _ (by decide))
    exact max_le (le_max_left _ _) (hshare.trans (le_max_left _ _))

theorem perNodeLimit_one (a : Int) : perNodeLimit 1 a = max 1 a := by
  unfold perNodeLimit
  rw [show ((max 1 1 : Nat) : Int) = 1 from rfl, Int.ediv_one]

/-- **A throttle does not raise the limit**, in a cluster of any size, exactly if there is room. -/
theorem throttle_iff (floorRpm : Int) (k : KeyLimits) :
    (∀ nodes, effectiveRpm nodes { k with rateLimitRpm := some floorRpm } ≤ effectiveRpm nodes k) ↔
      LimitRoom floorRpm k := by
  have htier : ∀ own : Option Int, ({ k with rateLimitRpm := own } : KeyLimits).tierRpm = k.tierRpm :=
    fun _ => rfl
  constructor
  · intro h own hown
    have hone := h 1
    unfold effectiveRpm at hone
    rw [htier, hown] at hone
    have hle := (min_le_iff.mp (hone.trans (min_le_right _ _)))
    unfold shareOf at hle
    dsimp only at hle
    rw [perNodeLimit_one, perNodeLimit_one, WithTop.coe_le_coe] at hle
    rcases hle with htier' | hfloor
    · right
      cases hsome : k.tierRpm with
      | none =>
        rw [hsome] at htier'
        exact absurd htier' (not_le.mpr (WithTop.coe_lt_top _))
      | some tier =>
        rw [hsome] at htier'
        dsimp only at htier'
        rw [perNodeLimit_one, WithTop.coe_le_coe] at htier'
        exact ⟨tier, rfl, htier'⟩
    · exact .inl hfloor
  · intro h nodes
    unfold effectiveRpm
    rw [htier]
    refine le_min (min_le_left _ _) ?_
    cases hown : k.rateLimitRpm with
    | none => exact le_top
    | some own =>
      rcases h own hown with hfloor | ⟨tier, hsome, hle⟩
      · exact (min_le_right _ _).trans (WithTop.coe_le_coe.mpr (perNodeLimit_mono nodes hfloor))
      · rw [hsome]
        exact (min_le_left _ _).trans (WithTop.coe_le_coe.mpr (perNodeLimit_mono nodes hle))

/-! ## Blocks -/

section

variable {s : BlockNode} {ip : String} {since : Rat}

/-- From some time on every lookup finds the address in the set it looks in. -/
def BlocksSince (ip : String) (since : Rat) (s : BlockNode) : Prop :=
  ∀ steps : List LookupStep, (∀ now, .ask now ∈ steps → since ≤ now) →
    Along lookupStep (fun s e => ∀ ips, lookedIn s e = some ips → ips ip = true) s steps

def contents (s : BlockNode) : List BlockCache :=
  s.cache :: s.loads.filterMap fun l => l.read.map fun ips => ⟨ips, l.startedAt⟩

/-- The content holds the address, or is out of date by then. -/
def Harmless (ip : String) (since : Rat) (c : BlockCache) : Prop :=
  c.ips ip = true ∨ c.stale since = true

theorem stale_later {c : BlockCache} {now : Rat} (h : c.stale since = true) (hle : since ≤ now) :
    c.stale now = true := by
  unfold BlockCache.stale at h ⊢
  rw [decide_eq_true_eq] at h ⊢
  exact h.trans_le (sub_le_sub_right hle _)

theorem mem_contents_load {k : Nat} {startedAt : Rat} {ips : String → Bool} {late : Bool}
    (h : s.loads[k]? = some ⟨startedAt, some ips, late⟩) : ⟨ips, startedAt⟩ ∈ contents s :=
  List.mem_cons_of_mem _ (List.mem_filterMap.mpr ⟨_, List.mem_of_getElem? h, rfl⟩)

/-- A node whose table blocks the address, with nothing around that would hide it. -/
structure Safe (ip : String) (since : Rat) (s : BlockNode) : Prop where
  table : loadBlockedSet s.table ip = true
  contents : ∀ c ∈ contents s, Harmless ip since c
  late : ∀ l ∈ s.loads, l.late = true → ∀ ips, l.read = some ips → ips ip = true

theorem Safe.step (h : Safe ip since s) (e : LookupStep) : Safe ip since (lookupStep s e) := by
  have hload : ∀ l ∈ s.loads, ∀ ips, l.read = some ips → Harmless ip since ⟨ips, l.startedAt⟩ :=
    fun l hl ips hread => h.contents _ (List.mem_cons_of_mem _
      (List.mem_filterMap.mpr ⟨l, hl, by rw [hread]; rfl⟩))
  -- it is enough to look at the cache and at each load
  have hsafe : ∀ s' : BlockNode, s'.table = s.table → Harmless ip since s'.cache →
      (∀ l ∈ s'.loads, ∀ ips, l.read = some ips →
        Harmless ip since ⟨ips, l.startedAt⟩ ∧ (l.late = true → ips ip = true)) →
      Safe ip since s' := by
    intro s' htable hcache hloads
    refine ⟨htable ▸ h.table, fun c hc => ?_, fun l hl hlate ips hread =>
      (hloads l hl ips hread).2 hlate⟩
    rcases List.mem_cons.mp hc with rfl | hc
    · exact hcache
    · obtain ⟨l, hl, hmap⟩ := List.mem_filterMap.mp hc
      obtain ⟨ips, hread, rfl⟩ := Option.map_eq_some_iff.mp hmap
      exact (hloads l hl ips hread).1
  have hcache := h.contents s.cache List.mem_cons_self
  have hboth : ∀ l ∈ s.loads, ∀ ips, l.read = some ips →
      Harmless ip since ⟨ips, l.startedAt⟩ ∧ (l.late = true → ips ip = true) :=
    fun l hl ips hread => ⟨hload l hl ips hread, fun hlate => h.late l hl hlate ips hread⟩
  cases e with
  | ask now =>
    unfold lookupStep
    dsimp only
    split
    · refine hsafe _ rfl hcache fun l hl ips hread => ?_
      rcases List.mem_append.mp hl with hl | hl
      · exact hboth l hl ips hread
      · rw [List.mem_singleton.mp hl] at hread
        cases hread
    · exact h
  | read k =>
    unfold lookupStep
    dsimp only
    split
    · next l hget =>
      refine hsafe _ rfl hcache fun l' hl' ips hread => ?_
      rcases List.mem_or_eq_of_mem_set hl' with hl' | rfl
      · exact hboth l' hl' ips hread
      · obtain rfl : l.read.getD (loadBlockedSet s.table) = ips := Option.some.inj hread
        cases hold : l.read with
        | none => exact ⟨.inl h.table, fun _ => h.table⟩
        | some ips => exact hboth l (List.mem_of_getElem? hget) ips hold
    · exact h
  | fill k =>
    unfold lookupStep
    dsimp only
    split
    · next startedAt ips late hget =>
      refine hsafe _ rfl (h.contents _ (mem_contents_load hget)) fun l hl ips' hread => ?_
      exact hboth l (List.mem_of_mem_eraseIdx hl) ips' hread
    · exact h

theorem Safe.looked (h : Safe ip since s) {e : LookupStep} (he : ∀ now, e = .ask now → since ≤ now)
    {ips : String → Bool} (hlooked : lookedIn s e = some ips) : ips ip = true := by
  cases e with
  | ask now =>
    unfold lookedIn at hlooked
    dsimp only at hlooked
    split at hlooked
    · cases hlooked
    · next hfresh =>
      cases hlooked
      rcases h.contents s.cache List.mem_cons_self with hin | hstale
      · exact hin
      · exact absurd (stale_later hstale (he now rfl)) hfresh
  | read k => cases hlooked
  | fill k =>
    unfold lookedIn at hlooked
    dsimp only at hlooked
    split at hlooked
    · next startedAt ips' hget =>
      cases hlooked
      exact h.late _ (List.mem_of_getElem? hget) rfl _ rfl
    · cases hlooked

theorem Safe.blocks (h : Safe ip since s) : BlocksSince ip since s := by
  intro steps
  induction steps generalizing s with
  | nil => exact fun _ => trivial
  | cons e steps ih =>
    intro htimes
    refine ⟨fun ips hlooked => h.looked (fun now he => ?_) hlooked, ih (h.step e) fun now hask => ?_⟩
    · exact htimes now (he ▸ List.mem_cons_self)
    · exact htimes now (List.mem_cons_of_mem _ hask)

theorem BlocksSince.harmless (h : BlocksSince ip since s) : ∀ c ∈ contents s, Harmless ip since c := by
  have hask : ∀ s' : BlockNode, (∀ ips, lookedIn s' (.ask since) = some ips → ips ip = true) →
      Harmless ip since s'.cache := by
    intro s' hlooked
    by_cases hstale : s'.cache.stale since = true
    · exact .inr hstale
    · exact .inl (hlooked _ (if_neg hstale))
  intro c hc
  rcases List.mem_cons.mp hc with rfl | hc
  · refine hask s (h [.ask since] fun now hnow => ?_).1
    rw [LookupStep.ask.inj (List.mem_singleton.mp hnow)]
  · obtain ⟨l, hl, hmap⟩ := List.mem_filterMap.mp hc
    obtain ⟨ips, hread, rfl⟩ := Option.map_eq_some_iff.mp hmap
    obtain ⟨k, hget⟩ := List.mem_iff_getElem?.mp hl
    have hfilled : (lookupStep s (.fill k)).cache = ⟨ips, l.startedAt⟩ := by
      obtain ⟨startedAt, read, late⟩ := l
      obtain rfl : read = some ips := hread
      unfold lookupStep
      dsimp only
      rw [hget]
    have hafter := (h [.fill k, .ask since] fun now hnow => ?_).2.1
    · have hharmless := hask _ hafter
      rwa [hfilled] at hharmless
    · rcases List.mem_cons.mp hnow with heq | hnow
      · cases heq
      · rw [LookupStep.ask.inj (List.mem_singleton.mp hnow)]

/-- **After a commit** an address of the table is blocked from then on exactly if nothing that was
read before can hide it. -/
theorem blocksSince_commit_iff (hlive : loadBlockedSet (commit s).table ip = true) :
    BlocksSince ip since (commit s) ↔ ∀ c ∈ contents s, Harmless ip since c := by
  have hsame : contents (commit s) = contents s := by
    unfold contents commit
    dsimp only
    rw [List.filterMap_map]
    rfl
  rw [← hsame]
  refine ⟨BlocksSince.harmless, fun hcontents => Safe.blocks ⟨hlive, hcontents, fun l hl hlate => ?_⟩⟩
  obtain ⟨l', -, rfl⟩ := List.mem_map.mp hl
  exact absurd hlate Bool.false_ne_true

end

/-! ## The law -/

section

variable {key : ReviewedKey} {review : AiReview} {floorRpm : Int} {now : Stamp} {s : BlockNode}
  {lookups : List LookupStep} {older : List BlockedIp} {committedAt : Rat}

/-- The address a suggestion blocks. -/
def AiReview.blocks (review : AiReview) (ip : String) : Prop :=
  review.suggestedAction = "block_ip" ∧ review.suggestedBlockIp = some ip

/-- An address as `review_one_key` takes it from an answer. -/
def AddressTaken (ip : String) : Prop := ip ≠ "" ∧ PyStr.strip ip = ip

theorem reviewVerdict_taken {verdict answer ip : String} {topIps : List String}
    (h : (reviewVerdict verdict answer topIps).2 = some ip) : AddressTaken ip := by
  unfold reviewVerdict at h
  dsimp only at h
  split at h
  · split at h
    · next hcandidate =>
      cases h
      exact ⟨hcandidate.1, PyStr.strip_strip answer⟩
    · cases h
  · split at h <;> cases h

/-- The node when the suggestion is committed, after what the lookups did since it was applied. -/
def committed (key : ReviewedKey) (review : AiReview) (floorRpm : Int) (now : Stamp) (s : BlockNode)
    (lookups : List LookupStep) : BlockNode :=
  commit (run lookupStep (applySuggestion key review floorRpm now s).2.2 lookups)

/-- An applied suggestion only tightens: the limit is not raised, the key not enabled, and a block
is live, outlasts the older tombstones that are merged, and blocks from the commit on. -/
structure Tightens (key : ReviewedKey) (review : AiReview) (floorRpm : Int) (now : Stamp)
    (s : BlockNode) (lookups : List LookupStep) (older : List BlockedIp) (committedAt : Rat) :
    Prop where
  limit : ∀ nodes, effectiveRpm nodes (applySuggestion key review floorRpm now s).1.limits ≤
    effectiveRpm nodes key.limits
  enabled : (applySuggestion key review floorRpm now s).1.enabled = true → key.enabled = true
  live : ∀ ip, review.blocks ip →
    ((committed key review floorRpm now s lookups).table ip).any (·.live) = true
  kept : ∀ ip, review.blocks ip → ∀ r ∈ older,
    ((applyBlockedIps (committed key review floorRpm now s lookups).table [(some ip, r)]).1 ip).any
      (·.live) = true
  blocked : ∀ ip, review.blocks ip →
    BlocksSince ip committedAt (committed key review floorRpm now s lookups)

/-- What a block needs: the address has no tombstone here and no older one is merged, and nothing
that was read before the commit hides it then. -/
structure BlockRoom (ip : String) (s before : BlockNode) (older : List BlockedIp)
    (committedAt : Rat) : Prop where
  noTombstone : (s.table ip).all (·.live) = true
  noneOlder : older = []
  harmless : ∀ c ∈ contents before, Harmless ip committedAt c

theorem lookups_table (s : BlockNode) (lookups : List LookupStep) :
    (run lookupStep s lookups).table = s.table ∧ (run lookupStep s lookups).pending = s.pending := by
  induction lookups generalizing s with
  | nil => exact ⟨rfl, rfl⟩
  | cons e lookups ih =>
    have hstep : (lookupStep s e).table = s.table ∧ (lookupStep s e).pending = s.pending := by
      unfold lookupStep
      split <;> split <;> exact ⟨rfl, rfl⟩
    exact ⟨(ih _).1.trans hstep.1, (ih _).2.trans hstep.2⟩

theorem committed_row {ip : String} (hblocks : review.blocks ip) (hne : ip ≠ "")
    (hpending : s.pending = none) : (committed key review floorRpm now s lookups).table ip =
      some ((s.table ip).getD (suggestedRow review now)) := by
  obtain ⟨haction, hip⟩ := hblocks
  have happly : (applySuggestion key review floorRpm now s).2.2 = clearCache { s with
      pending := if (s.table ip).isNone then some (ip, suggestedRow review now) else s.pending } := by
    unfold applySuggestion
    dsimp only
    rw [haction, if_neg (by decide), if_neg (by decide), if_pos rfl]
    show blockSuggested review now s = _
    unfold blockSuggested
    rw [hip]
    exact if_neg hne
  unfold committed commit
  obtain ⟨htable, hsame⟩ := lookups_table (applySuggestion key review floorRpm now s).2.2 lookups
  dsimp only
  rw [hsame, htable, happly]
  unfold clearCache
  dsimp only
  cases hrow : s.table ip with
  | none =>
    rw [Option.isNone_none, if_pos rfl]
    exact Function.update_self _ _ _
  | some row =>
    rw [Option.isNone_some, if_neg Bool.false_ne_true, hpending]
    exact hrow

/-- **Merging a tombstone** undoes a block, however old it is. -/
theorem tombstone_undoes {table : BlockTable} {ip : String} {e r : BlockedIp}
    (htaken : AddressTaken ip) (hrow : table ip = some e) (he : e.live = true) (hr : r.live = false) :
    ((applyBlockedIps table [(some ip, r)]).1 ip).any (·.live) = false := by
  have hrows : rowsFor ip [(some ip, r)] = [r] := by
    unfold rowsFor
    rw [List.filterMap_cons_some (b := r)]
    · rfl
    · exact if_pos htaken.2
  rw [applyBlockedIps_lookup table _ htaken.1, hrows, hrow, List.foldl_cons, List.foldl_nil,
    Option.any_some, mergeBlockedIp_of_live he, hr]

/-- **An applied suggestion only tightens** exactly if there is room under the limit for a throttle,
and for a block. -/
theorem tightens_iff (htaken : ∀ ip, review.suggestedBlockIp = some ip → AddressTaken ip)
    (hpending : s.pending = none) (holder : ∀ r ∈ older, ∃ d < now, r.deletedAt = some d) :
    Tightens key review floorRpm now s lookups older committedAt ↔
      (review.suggestedAction = "throttle_rpm" → LimitRoom floorRpm key.limits) ∧
        ∀ ip, review.blocks ip → BlockRoom ip s
          (run lookupStep (applySuggestion key review floorRpm now s).2.2 lookups) older
          committedAt := by
  have hlimit : (∀ nodes, effectiveRpm nodes (applySuggestion key review floorRpm now s).1.limits ≤
      effectiveRpm nodes key.limits) ↔
        (review.suggestedAction = "throttle_rpm" → LimitRoom floorRpm key.limits) := by
    unfold applySuggestion
    dsimp only
    by_cases hthrottle : review.suggestedAction = "throttle_rpm"
    · rw [if_pos hthrottle]
      exact (throttle_iff floorRpm key.limits).trans ⟨fun h _ => h, fun h => h hthrottle⟩
    · rw [if_neg hthrottle]
      refine iff_of_true (fun nodes => ?_) fun h => absurd h hthrottle
      split
      · exact le_rfl
      · split <;> exact le_rfl
  have henabled : (applySuggestion key review floorRpm now s).1.enabled = true →
      key.enabled = true := by
    unfold applySuggestion
    dsimp only
    split
    · exact id
    · split
      · exact fun h => absurd h Bool.false_ne_true
      · split <;> exact id
  have hdead : ∀ r ∈ older, r.live = false := by
    intro r hr
    obtain ⟨d, -, hd⟩ := holder r hr
    unfold BlockedIp.live
    rw [hd]
    rfl
  have hlive : ∀ ip, review.blocks ip →
      (((committed key review floorRpm now s lookups).table ip).any (·.live) = true ↔
        (s.table ip).all (·.live) = true) := by
    intro ip hblocks
    rw [committed_row hblocks (htaken ip hblocks.2).1 hpending]
    cases s.table ip with
    | none => exact iff_of_true rfl rfl
    | some row => exact Iff.rfl
  have hloaded : ∀ ip, review.blocks ip →
      ((committed key review floorRpm now s lookups).table ip).any (·.live) = true →
        loadBlockedSet (committed key review floorRpm now s lookups).table ip = true := by
    intro ip hblocks hany
    unfold loadBlockedSet
    rw [hany, Bool.and_true]
    exact decide_eq_true (htaken ip hblocks.2).1
  constructor
  · intro h
    refine ⟨hlimit.mp h.limit, fun ip hblocks => ⟨(hlive ip hblocks).mp (h.live ip hblocks), ?_, ?_⟩⟩
    · cases older with
      | nil => rfl
      | cons r older =>
        have hrow := @committed_row key review floorRpm now s lookups ip hblocks
          (htaken ip hblocks.2).1 hpending
        have hany := h.live ip hblocks
        rw [hrow, Option.any_some] at hany
        have hundone := tombstone_undoes (htaken ip hblocks.2) hrow hany
          (hdead r List.mem_cons_self)
        rw [h.kept ip hblocks r List.mem_cons_self] at hundone
        cases hundone
    · exact (blocksSince_commit_iff (hloaded ip hblocks (h.live ip hblocks))).mp (h.blocked ip hblocks)
  · intro hroom
    have hany := fun ip hblocks => (hlive ip hblocks).mpr (hroom.2 ip hblocks).noTombstone
    refine ⟨hlimit.mpr hroom.1, henabled, hany, fun ip hblocks r hr => ?_, fun ip hblocks => ?_⟩
    · rw [(hroom.2 ip hblocks).noneOlder] at hr
      cases hr
    · exact (blocksSince_commit_iff (hloaded ip hblocks (hany ip hblocks))).mpr
        (hroom.2 ip hblocks).harmless

end

/-- A key below the floor. -/
def slowKey : ReviewedKey where
  id := "k1"
  enabled := true
  limits := { rateLimitRpm := some 3 }

def throttleReview : AiReview where
  id := 7
  llmReasoning := "error storm"
  suggestedAction := "throttle_rpm"
  suggestedBlockIp := none

def blockReview : AiReview where
  id := 8
  llmReasoning := "scraping"
  suggestedAction := "block_ip"
  suggestedBlockIp := some "203.0.113.9"

def nodeWith (row : Option BlockedIp) : BlockNode where
  table _ := row
  cache := ⟨fun _ => false, 0⟩

/-- A block beside a lookup, and the same with an older tombstone of the address on its way. -/
theorem tightens_iff_block :
    Tightens slowKey blockReview 5 10 (nodeWith none) [.ask 20, .read 0, .fill 0] [] 100 ∧
      ¬ Tightens slowKey blockReview 5 10 (nodeWith none) [.ask 20, .read 0, .fill 0]
        [{ addedAt := some 0, deletedAt := some 5 }] 100 := by
  have htaken : ∀ ip, blockReview.suggestedBlockIp = some ip → AddressTaken ip := by
    intro ip hip
    obtain rfl := Option.some.inj hip
    exact ⟨by decide, by decide +kernel⟩
  constructor
  · refine (tightens_iff htaken rfl (by simp)).mpr ⟨nofun, fun ip hblocks => ⟨rfl, rfl, ?_⟩⟩
    have hcache : ∀ c ∈ contents (run lookupStep
        (applySuggestion slowKey blockReview 5 10 (nodeWith none)).2.2 [.ask 20, .read 0, .fill 0]),
          c.stale 100 = true := by decide +kernel
    exact fun c hc => Or.inr (hcache c hc)
  · intro h
    have hroom := (tightens_iff htaken rfl (by simp)).mp h
    exact absurd (hroom.2 "203.0.113.9" ⟨rfl, rfl⟩).noneOlder (by simp)

/-- A throttle to five requests raises a limit of three, and a block of an address that was unblocked
before leaves its tombstone. -/
theorem suggestions_loosen :
    ¬ Tightens slowKey throttleReview 5 10 (nodeWith none) [] [] 100 ∧
      ¬ Tightens slowKey blockReview 5 10
        (nodeWith (some { addedAt := some 0, deletedAt := some 5 })) [] [] 100 := by
  constructor
  · intro h
    have hroom := (throttle_iff 5 slowKey.limits).mp h.limit
    rcases hroom 3 rfl with hle | ⟨tier, htier, -⟩
    · exact absurd hle (by decide)
    · cases htier
  · intro h
    have hlive := h.live "203.0.113.9" ⟨rfl, rfl⟩
    revert hlive
    decide

end LlmProxy.Monitoring
