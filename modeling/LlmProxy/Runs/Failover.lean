import LlmProxy.Dispatch.Exhaustion
import LlmProxy.Runs.History

/-! # The failover of a run

`_call_model_once` (`app/runs/worker.py`) with the selections behind its turns: which provider each
turn calls, and what it passes over. The loop excludes the provider of the turn before and
remembers the others only to refuse them, so two providers that are always preferred take turns
until the cap.

> `failover_exhausts_pool_iff`: the tool walk and the chain of a request exhaust the pool exactly
> when the table has no rivals, and the worker exactly when it is offered at most two providers.

Mirroring notes.
* The driver enters every call with the empty set: it makes it so, and clears it after an answer;
  after a raise the run is over.
* The worker passes no key, so no policy is read; the tenant filter sees the context variable.
-/

namespace LlmProxy.Runs

open LlmProxy.Providers
open LlmProxy.Routing
open LlmProxy.Dispatch (addId selectionFailure)

/-! ## The loop with its selections -/

inductive CallReply where
  | timedOut
  | errored (billing : Bool) (detail : String)
  | answered (answer : Answer)
  deriving DecidableEq, Repr

def CallReply.attempt : CallReply → Attempt
  | .timedOut => .timedOut
  | .errored billing detail => .errored billing detail
  | .answered answer => .answered answer

def CallReply.retries : CallReply → Bool
  | .timedOut | .errored false _ => true
  | .errored true _ | .answered _ => false

/-- What the loop meets: the world of every selection, the outcome of every call, and the order
the set of excluded ids is read in. -/
structure CallEnv where
  worlds : Nat → World
  replies : Nat → CallReply
  setOrder : List String → List String
  setOrder_perm : ∀ ids, (setOrder ids).Perm ids

/-- One turn of the loop, with the provider it calls. -/
structure Turn where
  called : Option String
  attempt : Attempt
  deriving DecidableEq, Repr

/-- The arguments of the worker's `select_provider`. -/
def workerRequest (hasTools : Bool) (seed : Option String) : RouteRequest where
  hasTools := hasTools
  excludeProviderId := seed
  excludedProviderTypes := ["claude-oauth"]

/-- A selection that raised: the loop handles `RuntimeError` only. -/
def unselected : RoutingError → Attempt
  | .runtime detail => .unroutable detail
  | e => .crashed (selectionFailure e).type (selectionFailure e).message

/-- The turns of `_call_model_once` from the given set and seed on. -/
def turns (env : CallEnv) (hasTools : Bool) :
    Nat → Nat → List String → Option String → List Turn
  | 0, _, _, _ => []
  | left + 1, n, excluded, seed =>
    match selectRoute (env.worlds n) (workerRequest hasTools seed) with
    | .error e => [⟨none, unselected e⟩]
    | .ok r =>
      if excluded.contains r.provider.id then
        ⟨none, .excluded⟩ ::
          turns env hasTools left (n + 1) (addId excluded r.provider.id) (some r.provider.id)
      else
        ⟨some r.provider.id, (env.replies n).attempt⟩ ::
          if (env.replies n).retries then
            turns env hasTools left (n + 1) (addId excluded r.provider.id) (some r.provider.id)
          else []

/-- `_call_model_once` on an entry set. -/
def callTurns (env : CallEnv) (hasTools : Bool) (excluded : List String) : List Turn :=
  turns env hasTools 8 0 excluded (env.setOrder excluded).head?

def calledIn (ts : List Turn) : List String := ts.filterMap (·.called)

/-- The call ends in `ProviderExhausted`. -/
def GaveUp (ts : List Turn) : Prop :=
  ∃ detail, (callModelOnce 8 false (ts.map (·.attempt))).2 = .error (.providerExhausted detail)

/-- No provider is called twice, and a call that gives up has used its eight attempts on eight
providers or leaves none that the last selection could have been offered. -/
structure TriesAll (env : CallEnv) (hasTools : Bool) : Prop where
  once : (calledIn (callTurns env hasTools [])).Nodup
  all : GaveUp (callTurns env hasTools []) → (calledIn (callTurns env hasTools [])).length = 8 ∨
    ∀ r, selectRoute (env.worlds ((callTurns env hasTools []).length - 1))
      ((workerRequest hasTools none).around (calledIn (callTurns env hasTools []))) ≠ .ok r

/-- Every call of a worker over the table, whatever happens between its attempts. -/
def WorkerExhausts (rows : List Provider) (context : Option String) : Prop :=
  ∀ (env : CallEnv) (hasTools : Bool),
    (∀ n, (env.worlds n).providers = rows ∧ (env.worlds n).currentApiKeyId = context) →
      TriesAll env hasTools

def workerOffers (context : Option String) (p : Provider) : Bool :=
  p.enabled && accessible context p && p.providerType != "claude-oauth" && chatDefault p

/-! ## Sufficiency -/

section

variable {rows : List Provider} {context : Option String} {env : CallEnv} {hasTools : Bool}

/-- What a selection of the worker returns is one of the offered rows, and none of the excluded. -/
theorem selected_offers {w : World} (hw : w.providers = rows ∧ w.currentApiKeyId = context)
    {seed : Option String} {tried : List String} {r : RouteResult}
    (h : selectRoute w ((workerRequest hasTools seed).around tried) = .ok r) :
    r.provider ∈ rows.filter (workerOffers context) ∧ truthy seed ≠ some r.provider.id ∧
      r.provider.id ∉ tried := by
  have hadm := (selectRoute_route h).1
  have haccess : accessible context r.provider = true := by
    rw [← hw.2]
    exact hadm.accessible
  have htype : r.provider.providerType ≠ "claude-oauth" := fun heq =>
    hadm.type (List.mem_singleton.mpr heq)
  refine ⟨List.mem_filter.mpr ⟨hw.1 ▸ hadm.row, ?_⟩, hadm.notExcluded, hadm.notExcludedIds⟩
  unfold workerOffers
  rw [hadm.enabled, haccess, hadm.chat rfl, bne_iff_ne.mpr htype]
  rfl

theorem poolOf_seed_one (w : World) {id : String} (hid : id ≠ "") (base : List Provider) :
    poolOf w (workerRequest hasTools (some id)) base =
      poolOf w ((workerRequest hasTools none).around [id]) base := by
  have hsame : reaches w (workerRequest hasTools (some id)) =
      reaches w ((workerRequest hasTools none).around [id]) := by
    funext p
    have htest : (truthy (some id) != some p.id) = !([id].contains p.id) := by
      rw [truthy_some hid]
      by_cases heq : p.id = id
      · simp [heq]
      · simp [heq, Ne.symm heq]
    have hseed : truthy (workerRequest hasTools (some id)).excludeProviderId = truthy (some id) := rfl
    have hnone : truthy ((workerRequest hasTools none).around [id]).excludeProviderId = none := rfl
    unfold reaches
    rw [hseed, hnone, htest, RouteRequest.around_excludeProviderIds]
    have hopen : (none != some p.id) = true := rfl
    simp [workerRequest, policyAccepts, effectiveKey, RouteRequest.around, hopen]
  unfold poolOf
  rw [hsame]
  rfl

theorem selectRoute_seed_one {w : World} {id : String} (hid : id ≠ "") {r : RouteResult}
    (h : selectRoute w ((workerRequest hasTools none).around [id]) = .ok r) :
    ∃ r', selectRoute w (workerRequest hasTools (some id)) = .ok r' := by
  obtain ⟨o, hoffer, -⟩ := offered_of_selectRoute h
  obtain ⟨pool, hpool, hrest⟩ := Result.bind_ok hoffer
  obtain ⟨base, hbase, -⟩ := Result.bind_ok hpool
  obtain ⟨hsame, hne⟩ := (candidatePool_iff rfl rfl hbase).mp hpool
  rw [← poolOf_seed_one w hid base] at hsame
  have hoffer' : offered w (workerRequest hasTools (some id)) = .ok o := by
    rw [offered_of_pool ((candidatePool_iff rfl rfl hbase).mpr ⟨hsame, hne⟩)]
    exact hrest
  obtain ⟨r', hr', -⟩ := selectRoute_of_offered hoffer' rfl
  exact ⟨r', hr'⟩

theorem turns_of_tried {excluded : List String}
    (h : ∀ n seed r, selectRoute (env.worlds n) (workerRequest hasTools seed) = .ok r →
      excluded.contains r.provider.id = true) (left n : Nat) (seed : Option String) :
    calledIn (turns env hasTools left n excluded seed) = [] := by
  induction left generalizing n seed with
  | zero => rfl
  | succ left ih =>
    unfold turns
    cases hroute : selectRoute (env.worlds n) (workerRequest hasTools seed) with
    | error e => rfl
    | ok r =>
      have hin := h n seed r hroute
      dsimp only
      rw [if_pos hin, addId, if_pos hin]
      exact ih (n + 1) (some r.provider.id)

theorem not_gaveUp {reply : CallReply} (h : reply.retries = false) (called : Option String) :
    ¬ GaveUp [⟨called, reply.attempt⟩] := by
  rintro ⟨detail, hgave⟩
  cases reply with
  | timedOut => cases h
  | errored billing text =>
    cases billing with
    | false => cases h
    | true => cases hgave
  | answered answer => cases hgave

theorem mem_of_length_two {L : List Provider} (hL : L.length ≤ 2) {a b x : Provider} (ha : a ∈ L)
    (hb : b ∈ L) (hne : a ≠ b) (hx : x ∈ L) : x = a ∨ x = b := by
  by_contra hother
  obtain ⟨hxa, hxb⟩ := not_or.mp hother
  have hnodup : [x, a, b].Nodup := by simp [hxa, hxb, hne]
  have hsub : [x, a, b] ⊆ L := by
    intro y hy
    simp only [List.mem_cons, List.not_mem_nil, or_false] at hy
    rcases hy with rfl | rfl | rfl
    · exact hx
    · exact ha
    · exact hb
  have hlength := (List.subperm_of_subset hnodup hsub).length_le
  simp only [List.length_cons, List.length_nil] at hlength
  omega

theorem calledIn_second {a b : RouteResult}
    (h : selectRoute (env.worlds 1) (workerRequest hasTools (some a.provider.id)) = .ok b)
    (hne : a.provider.id ≠ b.provider.id)
    (hall : ∀ n seed r, selectRoute (env.worlds n) (workerRequest hasTools seed) = .ok r →
      [a.provider.id, b.provider.id].contains r.provider.id = true) :
    calledIn (turns env hasTools 7 1 [a.provider.id] (some a.provider.id)) = [b.provider.id] := by
  have hfresh : [a.provider.id].contains b.provider.id = false := by
    simpa using Ne.symm hne
  rw [turns, h]
  dsimp only
  rw [hfresh, if_neg Bool.false_ne_true, addId, hfresh, if_neg Bool.false_ne_true]
  show b.provider.id :: calledIn _ = _
  cases (env.replies 1).retries with
  | false => rfl
  | true =>
    rw [if_pos rfl]
    exact congrArg (b.provider.id :: ·) (turns_of_tried hall 6 2 (some b.provider.id))

/-- **At most two offered providers are all tried.** -/
theorem workerExhausts_of_two (hnamed : "" ∉ rows.map (·.id))
    (htwo : (rows.filter (workerOffers context)).length ≤ 2) : WorkerExhausts rows context := by
  intro env hasTools hworlds
  have horder : (env.setOrder []).head? = none := by
    rw [List.perm_nil.mp (env.setOrder_perm [])]
    rfl
  have hrow : ∀ p ∈ rows.filter (workerOffers context), p ∈ rows := fun p hp =>
    List.mem_of_mem_filter hp
  cases hfirst : selectRoute (env.worlds 0) (workerRequest hasTools none) with
  | error e =>
    have hturns : callTurns env hasTools [] = [⟨none, unselected e⟩] := by
      rw [callTurns, horder, turns, hfirst]
    refine ⟨by rw [hturns]; exact List.nodup_nil, fun _ => Or.inr fun r hr => ?_⟩
    rw [hturns] at hr
    have hsame : selectRoute (env.worlds 0) (workerRequest hasTools none) = .ok r := hr
    rw [hfirst] at hsame
    cases hsame
  | ok a =>
    obtain ⟨ha, -, -⟩ := @selected_offers rows context hasTools _ (hworlds 0) none [] a hfirst
    have haid : a.provider.id ≠ "" := fun heq => hnamed (heq ▸ List.mem_map_of_mem (hrow _ ha))
    have hturns : callTurns env hasTools [] = ⟨some a.provider.id, (env.replies 0).attempt⟩ ::
        if (env.replies 0).retries then
          turns env hasTools 7 1 [a.provider.id] (some a.provider.id)
        else [] := by
      rw [callTurns, horder, turns, hfirst]
      rfl
    cases hgoes : (env.replies 0).retries with
    | false =>
      rw [hgoes, if_neg Bool.false_ne_true] at hturns
      refine ⟨by rw [hturns]; exact List.nodup_singleton _, fun hgave => ?_⟩
      rw [hturns] at hgave
      exact absurd hgave (not_gaveUp hgoes _)
    | true =>
      rw [hgoes, if_pos rfl] at hturns
      cases hsecond : selectRoute (env.worlds 1) (workerRequest hasTools (some a.provider.id)) with
      | error e =>
        have hrest : turns env hasTools 7 1 [a.provider.id] (some a.provider.id) =
            [⟨none, unselected e⟩] := by
          rw [turns, hsecond]
        rw [hrest] at hturns
        refine ⟨by rw [hturns]; exact List.nodup_singleton _, fun _ => Or.inr fun r hr => ?_⟩
        rw [hturns] at hr
        obtain ⟨r', hr'⟩ := @selectRoute_seed_one hasTools (env.worlds 1) _ haid r hr
        rw [hsecond] at hr'
        cases hr'
      | ok b =>
        obtain ⟨hb, hnot, -⟩ := @selected_offers rows context hasTools _ (hworlds 1)
          (some a.provider.id) [] b hsecond
        rw [truthy_some haid] at hnot
        have hne : a.provider.id ≠ b.provider.id := fun heq => hnot (by rw [heq])
        have hrows : a.provider ≠ b.provider := fun heq => hne (by rw [heq])
        -- whatever a later selection returns is one of the two
        have hall : ∀ n seed tried r, selectRoute (env.worlds n)
            ((workerRequest hasTools seed).around tried) = .ok r →
              r.provider.id ∈ [a.provider.id, b.provider.id] := by
          intro n seed tried r hr
          have hin := (selected_offers (hworlds n) hr).1
          rcases mem_of_length_two htwo ha hb hrows hin with heq | heq
          · rw [heq]
            exact List.mem_cons_self
          · rw [heq]
            exact List.mem_cons_of_mem _ List.mem_cons_self
        have hrest := calledIn_second hsecond hne fun n seed r hr =>
          List.contains_iff_mem.mpr (hall n seed [] r hr)
        have hcalled : calledIn (callTurns env hasTools []) = [a.provider.id, b.provider.id] := by
          rw [hturns]
          show a.provider.id :: calledIn _ = _
          rw [hrest]
        refine ⟨by rw [hcalled]; simp [hne], fun _ => Or.inr fun r hr => ?_⟩
        rw [hcalled] at hr
        exact (selected_offers (hworlds _) hr).2.2 (hall _ none _ r hr)

end

/-! ## Necessity -/

section

variable {rows : List Provider} {context : Option String} {skips : LlmProxy.Cluster.Stamp}
  {now : Rat}

def allUp (rows : List Provider) (context : Option String) (skips : LlmProxy.Cluster.Stamp)
    (now : Rat) : World :=
  openWorld rows [] {} context skips now fun _ => true

/-- The providers the worker can be offered, in the order of their priorities. -/
def ranking (w : World) : List Provider := (enabledRows w).filter (workerOffers w.currentApiKeyId)

theorem poolOf_worker (halive : ∀ p ∈ rows, tokenDead now p = false) (seed : Option String)
    (tried : List String) :
    poolOf (allUp rows context skips now) ((workerRequest false seed).around tried)
        (enabledRows (allUp rows context skips now)) =
      (ranking (allUp rows context skips now)).filter
        fun p => truthy seed != some p.id && !tried.contains p.id := by
  have hlive : ∀ l, (∀ p ∈ l, p ∈ rows) → liveTokens (allUp rows context skips now) l = l := by
    intro l hl
    rw [liveTokens_filter]
    refine List.filter_eq_self.mpr fun p hp => ?_
    rw [show tokenDead (allUp rows context skips now).unixNow p = false from halive p (hl p hp)]
    rfl
  unfold poolOf ranking
  rw [hlive _ fun p hp => (mem_enabledRows.mp (List.mem_of_mem_filter hp)).1, List.filter_filter,
    List.filter_filter]
  apply List.filter_congr
  intro p hp
  have hen : p.enabled = true := (mem_enabledRows.mp hp).2
  have hreach : reaches (allUp rows context skips now) ((workerRequest false seed).around tried) p =
      (truthy seed != some p.id && !tried.contains p.id && accessible context p) := by
    show (true && (truthy seed != some p.id) && !tried.contains p.id && accessible context p &&
      true) = _
    rw [Bool.true_and, Bool.and_true]
  have hfits : fits ((workerRequest false seed).around tried) p =
      (p.providerType != "claude-oauth" && chatDefault p) := by
    show ((!false || !p.excludeFromToolRequests) && !(["claude-oauth"].contains p.providerType) &&
      (false || chatDefault p)) = _
    by_cases htype : p.providerType = "claude-oauth" <;> simp [htype]
  rw [hreach, hfits, workerOffers, hen]
  show _ = (_ && (true && accessible context p && _ && _))
  rw [Bool.true_and]
  ac_rfl

theorem selected_head (hskips : ∀ p ∈ rows, isCurrentlyAtCapacity skips p = false)
    (halive : ∀ p ∈ rows, tokenDead now p = false) {seed : Option String} {tried : List String}
    {p : Provider} {rest : List Provider}
    (h : (ranking (allUp rows context skips now)).filter
      (fun p => truthy seed != some p.id && !tried.contains p.id) = p :: rest) :
    ∃ r, selectRoute (allUp rows context skips now) ((workerRequest false seed).around tried) =
      .ok r ∧ r.provider = p := by
  have hp : p ∈ enabledRows (allUp rows context skips now) := by
    have hin : p ∈ p :: rest := List.mem_cons_self
    rw [← h] at hin
    exact List.mem_of_mem_filter (List.mem_of_mem_filter hin)
  obtain ⟨hrow, hen⟩ := mem_enabledRows.mp hp
  have hbase : rotationPool (allUp rows context skips now) =
      .ok (enabledRows (allUp rows context skips now)) := rotationPool_open hskips hrow hen
  have hpool : candidatePool (allUp rows context skips now)
      ((workerRequest false seed).around tried) = .ok (p :: rest) :=
    (candidatePool_iff rfl rfl hbase).mpr
      ⟨by rw [poolOf_worker halive, h], List.cons_ne_nil p rest⟩
  have hsorted : (p :: rest).Pairwise fun a b => a.priority ≤ b.priority := by
    rw [← h]
    exact ((enabledRows_sorted _).filter _).filter _
  exact selectRoute_head ⟨rfl, rfl, rfl, rfl, rfl, rfl, rfl⟩ rfl rfl rfl rfl rfl hpool hsorted

def timeouts (w : World) : CallEnv where
  worlds := fun _ => w
  replies := fun _ => .timedOut
  setOrder := id
  setOrder_perm := fun ids => List.Perm.refl ids

/-- The selection around a seed returns the provider with the id. -/
def Selects (w : World) (seed : Option String) (id : String) : Prop :=
  ∃ r, selectRoute w (workerRequest false seed) = .ok r ∧ r.provider.id = id

theorem turns_pingpong {w : World} {x y : String} (hx : Selects w (some y) x)
    (hy : Selects w (some x) y) (left n : Nat) {seed : String} (hseed : seed = x ∨ seed = y) :
    turns (timeouts w) false left n [x, y] (some seed) =
      List.replicate left ⟨none, .excluded⟩ := by
  induction left generalizing n seed with
  | zero => rfl
  | succ left ih =>
    -- the pick is the other of the two
    obtain ⟨id, hid, r, hroute, hpick⟩ : ∃ id, (id = x ∨ id = y) ∧ Selects w (some seed) id := by
      rcases hseed with rfl | rfl
      · exact ⟨y, Or.inr rfl, hy⟩
      · exact ⟨x, Or.inl rfl, hx⟩
    have hin : [x, y].contains r.provider.id = true := by
      rw [hpick]
      rcases hid with rfl | rfl <;> simp
    rw [turns, List.replicate_succ, show selectRoute ((timeouts w).worlds n)
      (workerRequest false (some seed)) = .ok r from hroute]
    dsimp only
    rw [hin, if_pos rfl, addId, if_pos hin, ih (n + 1) (hpick ▸ hid)]

theorem callTurns_pingpong {w : World} {x y : String} (hfirst : Selects w none x)
    (hx : Selects w (some y) x) (hy : Selects w (some x) y) (hne : x ≠ y) :
    callTurns (timeouts w) false [] =
      ⟨some x, .timedOut⟩ :: ⟨some y, .timedOut⟩ :: List.replicate 6 ⟨none, .excluded⟩ := by
  have hfresh : [x].contains y = false := by simpa using Ne.symm hne
  have hsecond : turns (timeouts w) false 7 1 [x] (some x) =
      ⟨some y, .timedOut⟩ :: List.replicate 6 ⟨none, .excluded⟩ := by
    have hy' := hy
    obtain ⟨b, hb, rfl⟩ := hy'
    rw [turns, show selectRoute ((timeouts w).worlds 1) (workerRequest false (some x)) = .ok b
      from hb]
    dsimp only
    rw [hfresh, if_neg Bool.false_ne_true, addId, hfresh, if_neg Bool.false_ne_true]
    exact congrArg _ (turns_pingpong hx hy 6 2 (Or.inr rfl))
  obtain ⟨a, ha, rfl⟩ := hfirst
  rw [callTurns, show ((timeouts w).setOrder []).head? = none from rfl, turns,
    show selectRoute ((timeouts w).worlds 0) (workerRequest false none) = .ok a from ha]
  exact congrArg _ hsecond

/-- **Three offered providers** and the third is never tried. -/
theorem two_of_workerExhausts (hids : (rows.map (·.id)).Nodup) (hnamed : "" ∉ rows.map (·.id))
    (h : WorkerExhausts rows context) : (rows.filter (workerOffers context)).length ≤ 2 := by
  by_contra hmany
  obtain ⟨skips, hskips⟩ := exists_skips rows
  obtain ⟨now, halive⟩ := exists_alive rows
  have hperm : (enabledRows (allUp rows context skips now)).Perm (rows.filter (·.enabled)) :=
    List.perm_insertionSort _ _
  have hlength : 2 < (ranking (allUp rows context skips now)).length := by
    have hsame : (rows.filter (·.enabled)).filter (workerOffers context) =
        rows.filter (workerOffers context) := by
      rw [List.filter_filter]
      apply List.filter_congr
      intro p _
      cases hen : p.enabled <;> simp [workerOffers, hen]
    rw [ranking, (hperm.filter _).length_eq]
    show 2 < ((rows.filter (·.enabled)).filter (workerOffers context)).length
    rw [hsame]
    exact Nat.lt_of_not_le hmany
  -- the three best of the ranking
  obtain ⟨x, y, z, rest, hranking⟩ : ∃ x y z rest,
      ranking (allUp rows context skips now) = x :: y :: z :: rest := by
    cases hlist : ranking (allUp rows context skips now) with
    | nil => rw [hlist] at hlength; exact absurd hlength (by decide)
    | cons x l =>
      cases l with
      | nil => rw [hlist] at hlength; exact absurd hlength (Nat.not_lt.mpr (Nat.le_succ 1))
      | cons y l =>
        cases l with
        | nil => rw [hlist] at hlength; exact absurd hlength (Nat.lt_irrefl 2)
        | cons z rest => exact ⟨x, y, z, rest, rfl⟩
  have hnodup : ((x :: y :: z :: rest).map (·.id)).Nodup := by
    rw [← hranking]
    have hsub : (ranking (allUp rows context skips now)).Sublist
      (enabledRows (allUp rows context skips now)) := List.filter_sublist
    refine (hsub.map _).nodup ?_
    exact (hperm.map _).nodup_iff.mpr ((List.filter_sublist.map _).nodup hids)
  have hrow : ∀ p ∈ x :: y :: z :: rest, p.id ≠ "" := by
    intro p hp heq
    rw [← hranking] at hp
    exact hnamed (heq ▸ List.mem_map_of_mem (mem_enabledRows.mp (List.mem_of_mem_filter hp)).1)
  simp only [List.map_cons, List.nodup_cons, List.mem_cons, not_or] at hnodup
  obtain ⟨⟨hxy, hxz, hxrest⟩, ⟨hyz, hyrest⟩, -⟩ := hnodup
  have hother : ∀ p ∈ rest, p.id ≠ x.id ∧ p.id ≠ y.id := fun p hp =>
    ⟨fun heq => hxrest (heq ▸ List.mem_map_of_mem hp),
      fun heq => hyrest (heq ▸ List.mem_map_of_mem hp)⟩
  have hxid : truthy (some x.id) = some x.id := truthy_some (hrow x List.mem_cons_self)
  have hyid : truthy (some y.id) = some y.id :=
    truthy_some (hrow y (List.mem_cons_of_mem x List.mem_cons_self))
  have hfirst : Selects (allUp rows context skips now) none x.id := by
    obtain ⟨r, hr, heq⟩ := @selected_head rows context skips now hskips halive none [] x
      (y :: z :: rest) (by rw [hranking]; exact List.filter_eq_self.mpr fun p _ => rfl)
    exact ⟨r, hr, by rw [heq]⟩
  have hy : Selects (allUp rows context skips now) (some x.id) y.id := by
    obtain ⟨r, hr, heq⟩ := @selected_head rows context skips now hskips halive (some x.id) [] y
      (z :: rest) (by
        rw [hranking, hxid]
        simp [hxy, hxz]
        exact fun p hp => (hother p hp).1.symm)
    exact ⟨r, hr, by rw [heq]⟩
  have hx : Selects (allUp rows context skips now) (some y.id) x.id := by
    obtain ⟨r, hr, heq⟩ := @selected_head rows context skips now hskips halive (some y.id) [] x
      (z :: rest) (by
        rw [hranking, hyid]
        simp [Ne.symm hxy, hyz]
        exact fun p hp => (hother p hp).2.symm)
    exact ⟨r, hr, by rw [heq]⟩
  obtain ⟨r, hr, -⟩ := @selected_head rows context skips now hskips halive none [x.id, y.id] z rest
    (by
      rw [hranking]
      simp [Ne.symm hxz, Ne.symm hyz]
      exact ⟨(fun hcontra => nomatch hcontra),
        fun p hp => ⟨(fun hcontra => nomatch hcontra), hother p hp⟩⟩)
  have hturns := callTurns_pingpong hfirst hx hy hxy
  have hall := (h (timeouts (allUp rows context skips now)) false fun _ => ⟨rfl, rfl⟩).all
  rw [hturns] at hall
  rcases hall ⟨_, rfl⟩ with height | hnone
  · have hcount : 2 = 8 := height
    omega
  · exact hnone r hr

end

/-- **Failover exhausts the pool.** Over a provider table, the walk of a request does for every set
of tried ids exactly when no provider overtakes another, and the worker's call does exactly when
it is offered at most two providers. Ids are the table's primary key. -/
theorem failover_exhausts_pool_iff (rows : List Provider) (keys : List LlmProxy.Cluster.ApiKey)
    (system : LlmProxy.Compliance.Policy) (key : LlmProxy.Dispatch.ApiKeyRecord)
    (context : Option String) (hids : (rows.map (·.id)).Nodup) (hnamed : "" ∉ rows.map (·.id)) :
    (LlmProxy.Dispatch.WalkExhausts rows keys system key ↔
        LlmProxy.Dispatch.Unrivalled rows keys system key) ∧
      (WorkerExhausts rows context ↔ (rows.filter (workerOffers context)).length ≤ 2) :=
  ⟨LlmProxy.Dispatch.walk_exhausts_iff rows keys system key hids,
    two_of_workerExhausts hids hnamed, workerExhausts_of_two hnamed⟩

/-! ### Three rows -/

def openaiRow (id : String) : Provider :=
  { id := id, name := "OpenAI " ++ id, providerType := "openai", defaultModel := some "gpt-4o" }

def threeRows : List Provider := [openaiRow "p1", openaiRow "p2", openaiRow "p3"]

/-- With two of three rows tried the walk picks one of them twenty times, and the worker calls
two of three and gives up. -/
theorem three_rows_unexhausted :
    ¬ LlmProxy.Dispatch.FindsUntried (allUp threeRows (some "k1") 0 0) (fun _ => firstTwo) id
        (LlmProxy.Dispatch.excludingRequest LlmProxy.Dispatch.auditedKey none false false)
        ["p1", "p2"] ∧
      ¬ TriesAll (timeouts (allUp threeRows none 0 0)) false := by
  constructor
  · intro h
    have hthird : (selectRoute (allUp threeRows (some "k1") 0 0)
      ((LlmProxy.Dispatch.excludingRequest LlmProxy.Dispatch.auditedKey none false false).around
        ["p1", "p2"])).isOk = true := by decide +kernel
    have hwalk : (LlmProxy.Dispatch.selectExcludingSet (LlmProxy.Dispatch.resampled
      (allUp threeRows (some "k1") 0 0) fun _ => firstTwo) id
      (LlmProxy.Dispatch.excludingRequest LlmProxy.Dispatch.auditedKey none false false) 20 0
        ["p1", "p2"]).1.isOk = false := by decide +kernel
    obtain ⟨r, hr⟩ := Result.exists_ok hthird
    obtain ⟨r', hr', -⟩ := h.found r hr
    rw [hr'] at hwalk
    cases hwalk
  · intro h
    have hturns : callTurns (timeouts (allUp threeRows none 0 0)) false [] =
        ⟨some "p1", .timedOut⟩ :: ⟨some "p2", .timedOut⟩ ::
          List.replicate 6 ⟨none, .excluded⟩ := by decide +kernel
    have hthird : (selectRoute (allUp threeRows none 0 0)
      ((workerRequest false none).around ["p1", "p2"])).isOk = true := by decide +kernel
    obtain ⟨r, hr⟩ := Result.exists_ok hthird
    have hall := h.all
    rw [hturns] at hall
    rcases hall ⟨_, rfl⟩ with height | hnone
    · have hcount : 2 = 8 := height
      omega
    · exact hnone r hr

/-- Two rows are enough for the worker's call, one for the walk. -/
theorem small_tables_exhausted :
    ([openaiRow "p1", openaiRow "p2"].map (·.id)).Nodup ∧
      "" ∉ [openaiRow "p1", openaiRow "p2"].map (·.id) ∧
      LlmProxy.Dispatch.WalkExhausts [openaiRow "p1"] [] {} LlmProxy.Dispatch.auditedKey ∧
      WorkerExhausts [openaiRow "p1", openaiRow "p2"] none := by
  refine ⟨by decide, by decide, ?_, ?_⟩
  · refine (failover_exhausts_pool_iff [openaiRow "p1"] [] {} LlmProxy.Dispatch.auditedKey none
      (by decide) (by decide)).1.mpr ?_
    intro p hp q hq hne
    rw [List.mem_singleton.mp hp, List.mem_singleton.mp hq] at hne
    exact absurd rfl hne
  · exact (failover_exhausts_pool_iff [openaiRow "p1", openaiRow "p2"] [] {}
      LlmProxy.Dispatch.auditedKey none (by decide) (by decide)).2.mpr (by decide)

end LlmProxy.Runs
