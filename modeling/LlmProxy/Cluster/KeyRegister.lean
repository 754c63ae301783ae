import LlmProxy.Cluster.ApiKeys

/-! # The API key row as a register with a tombstone

What a key row comes to after any list of peer rows for it. Everything an operator can set
on a key is one value, `KeyPolicy`, held under the edit stamp it was written at. The merge
treats the pair as a last-writer-wins register and `deleted_at` as a tombstone above it:

> `merge_tombstone`: a set tombstone stays set, only grows, and the row is enabled after the
> merge only if it was before;
> `merge_register`: between live stamped rows the register with the later stamp survives.

Both carry over to the loop by induction on the list. The one thing the loop does not do is
*disable* a row that is tombstoned and enabled when the loop meets it: a live peer row
leaves such a row alone. `PATCH /api/keys/{id}` reads its row without looking at the
tombstone, so that row exists.
-/

namespace LlmProxy.Cluster

structure KeyPolicy where
  spendingCapUsd : Option Rat
  rateLimitRpm : Option Int
  enabled : Bool
  semanticCacheEnabled : Bool
  dailySoftCapUsd : Option Rat
  dailyHardCapUsd : Option Rat
  hourlyCapUsd : Option Rat
  rateLimitTier : Option String
  callerMemoryTtlDays : Option Int
  lmrhPollingRpm : Option Int
  lmrhQuotesRpm : Option Int
  blockedCompanies : Option (List String)
  allowedCompanies : Option (List String)
  blockedModels : Option (List String)
  allowedModels : Option (List String)
  allowedPaths : Option (List String)
  debugEchoEnabled : Bool
  deriving DecidableEq

def ApiKey.policy (k : ApiKey) : KeyPolicy where
  spendingCapUsd := k.spendingCapUsd
  rateLimitRpm := k.rateLimitRpm
  enabled := k.enabled
  semanticCacheEnabled := k.semanticCacheEnabled
  dailySoftCapUsd := k.dailySoftCapUsd
  dailyHardCapUsd := k.dailyHardCapUsd
  hourlyCapUsd := k.hourlyCapUsd
  rateLimitTier := k.rateLimitTier
  callerMemoryTtlDays := k.callerMemoryTtlDays
  lmrhPollingRpm := k.lmrhPollingRpm
  lmrhQuotesRpm := k.lmrhQuotesRpm
  blockedCompanies := k.blockedCompanies
  allowedCompanies := k.allowedCompanies
  blockedModels := k.blockedModels
  allowedModels := k.allowedModels
  allowedPaths := k.allowedPaths
  debugEchoEnabled := k.debugEchoEnabled

/-- The peer row has every operator-settable field, and `v` is what the fields say. -/
structure PeerApiKey.Carries (p : PeerApiKey) (v : KeyPolicy) : Prop where
  spendingCapUsd : p.spendingCapUsd = some v.spendingCapUsd
  rateLimitRpm : p.rateLimitRpm = some v.rateLimitRpm
  enabled : p.enabled = some v.enabled
  semanticCacheEnabled : p.semanticCacheEnabled = some v.semanticCacheEnabled
  dailySoftCapUsd : p.dailySoftCapUsd = some v.dailySoftCapUsd
  dailyHardCapUsd : p.dailyHardCapUsd = some v.dailyHardCapUsd
  hourlyCapUsd : p.hourlyCapUsd = some v.hourlyCapUsd
  rateLimitTier : p.rateLimitTier = some v.rateLimitTier
  callerMemoryTtlDays : p.callerMemoryTtlDays = some v.callerMemoryTtlDays
  lmrhPollingRpm : p.lmrhPollingRpm = some v.lmrhPollingRpm
  lmrhQuotesRpm : p.lmrhQuotesRpm = some v.lmrhQuotesRpm
  blockedCompanies : p.blockedCompanies = some v.blockedCompanies
  allowedCompanies : p.allowedCompanies = some v.allowedCompanies
  blockedModels : p.blockedModels = some v.blockedModels
  allowedModels : p.allowedModels = some v.allowedModels
  allowedPaths : p.allowedPaths = some v.allowedPaths
  debugEchoEnabled : p.debugEchoEnabled = some v.debugEchoEnabled

/-- A row as a current peer sends it: the full field set, and a tombstone is disabled. -/
structure PeerApiKey.WellFormed (p : PeerApiKey) : Prop where
  full : ∃ v, p.Carries v
  dead : p.deletedAt.isSome = true → p.enabled = some false

def findKey (h : String) (table : List ApiKey) : Option ApiKey :=
  table.find? fun r => r.keyHash == h

/-- The stamped policies in play: the local row's and each peer row's. -/
def Offered (e : ApiKey) (rows : List PeerApiKey) (w : EditStamp × KeyPolicy) : Prop :=
  (e.lastUserEditAt = some w.1 ∧ e.policy = w.2) ∨
    ∃ p ∈ rows, p.lastUserEditAt = some w.1 ∧ p.Carries w.2

/-! ## One row -/

theorem takeKeyFields_policy {p : PeerApiKey} {v : KeyPolicy} (e : ApiKey) (h : p.Carries v) :
    (takeKeyFields p e).policy = v := by
  unfold takeKeyFields ApiKey.policy fieldOr
  rw [h.spendingCapUsd, h.rateLimitRpm, h.enabled, h.semanticCacheEnabled, h.dailySoftCapUsd,
    h.dailyHardCapUsd, h.hourlyCapUsd, h.rateLimitTier, h.callerMemoryTtlDays,
    h.lmrhPollingRpm, h.lmrhQuotesRpm, h.blockedCompanies, h.allowedCompanies,
    h.blockedModels, h.allowedModels, h.allowedPaths, h.debugEchoEnabled]
  rfl

theorem adoptsKeyTombstone_iff {p : PeerApiKey} {e : ApiKey} :
    adoptsKeyTombstone p e = true ↔
      ∃ d, p.deletedAt = some d ∧ ∀ l, e.deletedAt = some l → l ≤ d := by
  unfold adoptsKeyTombstone
  cases p.deletedAt with
  | none => simp
  | some d => cases e.deletedAt <;> simp

/-- A set tombstone under one peer row: it stays, it does not move back, and the row comes
out enabled only if it went in enabled. -/
theorem merge_tombstone {p : PeerApiKey} {e : ApiKey} {d : Stamp} (hp : p.WellFormed)
    (hd : e.deletedAt = some d) :
    ∃ d', (mergeApiKey p e).1.deletedAt = some d' ∧ d ≤ d' ∧
      ((mergeApiKey p e).1.enabled = true → e.enabled = true) := by
  unfold mergeApiKey
  by_cases hadopt : adoptsKeyTombstone p e = true
  · obtain ⟨d', hd', hle⟩ := adoptsKeyTombstone_iff.mp hadopt
    rw [if_pos hadopt]
    exact ⟨d', hd', hle d hd, fun h => by cases h⟩
  · rw [if_neg hadopt]
    cases hpd : p.deletedAt with
    | none =>
      rw [hd]
      exact ⟨d, hd, Int.le_refl d, fun h => h⟩
    | some d' =>
      -- an older tombstone falls through to the edit gate, and what it brings is disabled
      have hdead := hp.dead (by rw [hpd]; rfl)
      simp only [Option.isNone_some, Bool.and_false, Bool.false_eq_true, if_false]
      split
      · refine ⟨d, hd, Int.le_refl d, fun h => ?_⟩
        simp only [takeKeyFields, hdead, fieldOr, Option.getD_some] at h
        cases h
      · exact ⟨d, hd, Int.le_refl d, fun h => h⟩

theorem merge_dies {p : PeerApiKey} {e : ApiKey} (hlive : e.deletedAt = none)
    (hdead : (mergeApiKey p e).1.deletedAt ≠ none) : (mergeApiKey p e).1.enabled = false := by
  unfold mergeApiKey at hdead ⊢
  by_cases hadopt : adoptsKeyTombstone p e = true
  · rw [if_pos hadopt]
  · rw [if_neg hadopt] at hdead
    refine absurd ?_ hdead
    repeat' split
    all_goals exact hlive

/-- Two live stamped rows with different stamps: the later one's policy and stamp survive,
and the row stays live. -/
theorem merge_register {p : PeerApiKey} {e : ApiKey} {s t : EditStamp} {v : KeyPolicy}
    (hlive : e.deletedAt = none) (hpl : p.deletedAt = none) (hs : e.lastUserEditAt = some s)
    (ht : p.lastUserEditAt = some t) (hv : p.Carries v) :
    (mergeApiKey p e).1.deletedAt = none ∧
      (s < t → (mergeApiKey p e).1.lastUserEditAt = some t ∧ (mergeApiKey p e).1.policy = v) ∧
      (t ≤ s → (mergeApiKey p e).1 = e) := by
  have hadopt : adoptsKeyTombstone p e = false := by
    unfold adoptsKeyTombstone
    rw [hpl]
  have haccept : acceptsKeyEdit p e = decide (s < t) := by
    unfold acceptsKeyEdit
    rw [ht, hs]
  unfold mergeApiKey
  rw [hadopt, hlive, haccept]
  simp only [Bool.false_eq_true, if_false, Option.isSome_none, Bool.false_and, decide_eq_true_eq]
  by_cases hlt : s < t
  · rw [if_pos hlt]
    refine ⟨hlive, fun _ => ⟨?_, takeKeyFields_policy e hv⟩, fun hle => ?_⟩
    · show (p.lastUserEditAt.orElse fun _ => e.lastUserEditAt) = some t
      rw [ht]
      rfl
    · exact absurd hlt (Int.not_lt.mpr hle)
  · rw [if_neg hlt]
    exact ⟨hlive, fun h => absurd h hlt, fun _ => rfl⟩

/-! ## The loop, at one key -/

def mergeApiKeys (e : ApiKey) (rows : List PeerApiKey) : ApiKey :=
  rows.foldl (fun e p => (mergeApiKey p e).1) e

theorem mergeApiKeys_append (e : ApiKey) (pre post : List PeerApiKey) :
    mergeApiKeys e (pre ++ post) = mergeApiKeys (mergeApiKeys e pre) post :=
  List.foldl_append

/-- `_apply_api_keys` on rows of one key folds the merge over them. -/
theorem findKey_applyApiKeysFrom {h : String} (rows : List PeerApiKey) {table : List ApiKey}
    {costs : Dict String Rat} {e : ApiKey} (he : findKey h table = some e)
    (hrows : ∀ p ∈ rows, p.keyHash = h) :
    findKey h (applyApiKeysFrom table costs rows).1 = some (mergeApiKeys e rows) := by
  induction rows generalizing table costs e with
  | nil => exact he
  | cons p rows ih =>
    have hp : p.keyHash = h := hrows p List.mem_cons_self
    have hone : findKey h (applyApiKey table p) = some (mergeApiKey p e).1 := by
      unfold findKey applyApiKey keyLookup
      rw [hp]
      exact Table.find?_upsert_of_find? (fun a => by rw [mergeApiKey_keyHash]) he
    exact ih hone fun q hq => hrows q (List.mem_cons_of_mem p hq)

theorem findKey_applyApiKeys {h : String} {rows : List PeerApiKey} {table : List ApiKey}
    {e : ApiKey} (he : findKey h table = some e) (hrows : ∀ p ∈ rows, p.keyHash = h) :
    findKey h (applyApiKeys table rows).1 = some (mergeApiKeys e rows) :=
  findKey_applyApiKeysFrom rows he hrows

theorem mergeApiKeys_tombstone {rows : List PeerApiKey} {e : ApiKey} {d : Stamp}
    (hrows : ∀ p ∈ rows, p.WellFormed) (hd : e.deletedAt = some d) :
    ∃ d', (mergeApiKeys e rows).deletedAt = some d' ∧ d ≤ d' ∧
      ((mergeApiKeys e rows).enabled = true → e.enabled = true) := by
  induction rows generalizing e d with
  | nil => exact ⟨d, hd, Int.le_refl d, fun h => h⟩
  | cons p rows ih =>
    obtain ⟨d₁, hd₁, hle₁, hen₁⟩ := merge_tombstone (hrows p List.mem_cons_self) hd
    obtain ⟨d₂, hd₂, hle₂, hen₂⟩ :=
      ih (fun q hq => hrows q (List.mem_cons_of_mem p hq)) hd₁
    exact ⟨d₂, hd₂, Int.le_trans hle₁ hle₂, fun h => hen₁ (hen₂ h)⟩

theorem mergeApiKeys_enabled {rows : List PeerApiKey} {e : ApiKey}
    (hrows : ∀ p ∈ rows, p.WellFormed) (hd : (mergeApiKeys e rows).deletedAt ≠ none)
    (hen : (mergeApiKeys e rows).enabled = true) : e.deletedAt ≠ none ∧ e.enabled = true := by
  induction rows generalizing e with
  | nil => exact ⟨hd, hen⟩
  | cons p rows ih =>
    obtain ⟨hdead, hstill⟩ := ih (fun q hq => hrows q (List.mem_cons_of_mem p hq)) hd hen
    cases hlocal : e.deletedAt with
    | none =>
      -- the row died in this step, and dying disables it
      rw [merge_dies hlocal hdead] at hstill
      cases hstill
    | some d =>
      obtain ⟨_, _, _, hback⟩ := merge_tombstone (hrows p List.mem_cons_self) hlocal
      exact ⟨fun h => (nomatch h), hback hstill⟩

theorem mergeApiKeys_register {rows : List PeerApiKey} {e : ApiKey} {s : EditStamp}
    (hlive : e.deletedAt = none) (hs : e.lastUserEditAt = some s)
    (hrows : ∀ p ∈ rows, p.deletedAt = none ∧ p.lastUserEditAt ≠ none ∧ ∃ v, p.Carries v) :
    ∃ w, Offered e rows w ∧ (∀ c, Offered e rows c → c.1 ≤ w.1) ∧
      (mergeApiKeys e rows).lastUserEditAt = some w.1 ∧ (mergeApiKeys e rows).policy = w.2 := by
  induction rows generalizing e s with
  | nil =>
    refine ⟨(s, e.policy), Or.inl ⟨hs, rfl⟩, ?_, hs, rfl⟩
    rintro c (⟨hc, _⟩ | ⟨p, hp, _⟩)
    · rw [hs] at hc
      cases hc
      exact Int.le_refl _
    · cases hp
  | cons p rows ih =>
    obtain ⟨hpl, hstamped, v, hv⟩ := hrows p List.mem_cons_self
    obtain ⟨t, ht⟩ := Option.ne_none_iff_exists'.mp hstamped
    obtain ⟨hlive', hnewer, holder⟩ := merge_register hlive hpl hs ht hv
    have hrest := fun q hq => hrows q (List.mem_cons_of_mem p hq)
    by_cases hlt : s < t
    · -- the peer row replaces the register, and it outranks the row it replaces
      obtain ⟨hs', hv'⟩ := hnewer hlt
      obtain ⟨w, hw, hmax, hfin⟩ := ih hlive' hs' hrest
      have htw : t ≤ w.1 := hmax (t, v) (Or.inl ⟨hs', hv'⟩)
      refine ⟨w, ?_, ?_, hfin⟩
      · rcases hw with ⟨hws, hwv⟩ | ⟨q, hq, hqw⟩
        · rw [hs'] at hws
          cases hws
          exact Or.inr ⟨p, List.mem_cons_self, ht, by rw [← hwv, hv']; exact hv⟩
        · exact Or.inr ⟨q, List.mem_cons_of_mem p hq, hqw⟩
      · rintro c (⟨hc, _⟩ | ⟨q, hq, hqc, hcv⟩)
        · rw [hs] at hc
          cases hc
          exact Int.le_trans (Int.le_of_lt hlt) htw
        · rcases List.mem_cons.mp hq with rfl | hq
          · rw [ht] at hqc
            cases hqc
            exact htw
          · exact hmax c (Or.inr ⟨q, hq, hqc, hcv⟩)
    · -- the row stands, and so does its stamp above the peer's
      have hsame := holder (Int.not_lt.mp hlt)
      obtain ⟨w, hw, hmax, hfin⟩ := ih hlive' (by rw [hsame]; exact hs) hrest
      rw [hsame] at hw hmax
      have hsw : s ≤ w.1 := hmax (s, e.policy) (Or.inl ⟨hs, rfl⟩)
      refine ⟨w, ?_, ?_, hfin⟩
      · rcases hw with hw | ⟨q, hq, hqw⟩
        · exact Or.inl hw
        · exact Or.inr ⟨q, List.mem_cons_of_mem p hq, hqw⟩
      · rintro c (hc | ⟨q, hq, hqc, hcv⟩)
        · exact hmax c (Or.inl hc)
        · rcases List.mem_cons.mp hq with rfl | hq
          · rw [ht] at hqc
            cases hqc
            exact Int.le_trans (Int.not_lt.mp hlt) hsw
          · exact hmax c (Or.inr ⟨q, hq, hqc, hcv⟩)

theorem offered_congr {e : ApiKey} {rows rows' : List PeerApiKey}
    (h : ∀ p, p ∈ rows' ↔ p ∈ rows) (w : EditStamp × KeyPolicy) :
    Offered e rows' w ↔ Offered e rows w := by
  unfold Offered
  simp only [h]

theorem PeerApiKey.Carries.unique {p : PeerApiKey} {v v' : KeyPolicy} (h : p.Carries v)
    (h' : p.Carries v') : v = v' := by
  -- both are what a row that takes the fields ends up with
  have e : ApiKey := { id := "", name := "", keyHash := "", keyPrefix := "" }
  rw [← takeKeyFields_policy e h, takeKeyFields_policy e h']

theorem offered_inj {e : ApiKey} {rows : List PeerApiKey}
    (hlocal : ∀ p ∈ rows, p.lastUserEditAt ≠ e.lastUserEditAt)
    (hrows : ∀ p ∈ rows, ∀ q ∈ rows, p.lastUserEditAt = q.lastUserEditAt → p = q)
    {c c' : EditStamp × KeyPolicy} (hc : Offered e rows c) (hc' : Offered e rows c')
    (heq : c.1 = c'.1) : c = c' := by
  rcases hc with ⟨hs, hv⟩ | ⟨p, hp, hs, hv⟩
  · rcases hc' with ⟨_, hv'⟩ | ⟨q, hq, hs', _⟩
    · exact Prod.ext heq (by rw [← hv, ← hv'])
    · exact absurd (by rw [hs', hs, heq]) (hlocal q hq)
  · rcases hc' with ⟨hs', _⟩ | ⟨q, hq, hs', hv'⟩
    · exact absurd (by rw [hs', hs, heq]) (hlocal p hp)
    · have hpq : p = q := hrows p hp q hq (by rw [hs, hs', heq])
      subst hpq
      exact Prod.ext heq (hv.unique hv')

/-! ## What `_apply_api_keys` does to a key -/

/-- **A last-writer-wins register under an absorbing tombstone.** Over any list of
well-formed peer rows of a key: a tombstone set at some point of the list is there at its
end, no earlier than it was, on a disabled row, unless the local row came in tombstoned
*and* enabled; and when neither the local row nor any peer row is a tombstone and no two
rows share a stamp, every list of these rows, in any order and with any repetitions, leaves
the policy and the stamp of the row with the greatest stamp. -/
theorem api_key_merge_is_lww {h : String} {table : List ApiKey} {e : ApiKey}
    {rows : List PeerApiKey} (he : findKey h table = some e)
    (hrows : ∀ p ∈ rows, p.keyHash = h ∧ p.WellFormed) :
    (∀ pre post mid d, rows = pre ++ post →
      findKey h (applyApiKeys table pre).1 = some mid → mid.deletedAt = some d →
      ∃ fin d', findKey h (applyApiKeys table rows).1 = some fin ∧
        fin.deletedAt = some d' ∧ d ≤ d' ∧
        (fin.enabled = true → e.deletedAt ≠ none ∧ e.enabled = true)) ∧
    (e.deletedAt = none → (∀ p ∈ rows, p.deletedAt = none) →
      e.lastUserEditAt ≠ none → (∀ p ∈ rows, p.lastUserEditAt ≠ none) →
      (∀ c c', Offered e rows c → Offered e rows c' → c.1 = c'.1 → c = c') →
      ∃ w, Offered e rows w ∧ (∀ c, Offered e rows c → c = w ∨ c.1 < w.1) ∧
        ∀ rows', (∀ p, p ∈ rows' ↔ p ∈ rows) →
          ∃ fin, findKey h (applyApiKeys table rows').1 = some fin ∧
            fin.policy = w.2 ∧ fin.lastUserEditAt = some w.1) := by
  constructor
  · intro pre post mid d hsplit hmid hd
    have hpre : ∀ p ∈ pre, p.keyHash = h ∧ p.WellFormed := by
      intro p hp
      exact hrows p (by rw [hsplit]; exact List.mem_append_left post hp)
    have hmid' := findKey_applyApiKeys he fun p hp => (hpre p hp).1
    have hfin := findKey_applyApiKeys he fun p hp => (hrows p hp).1
    rw [hmid', Option.some.injEq] at hmid
    -- the rows after the point of the split see the row the rows before it left
    have hpost : mergeApiKeys e rows = mergeApiKeys mid post := by
      rw [hsplit, mergeApiKeys_append, hmid]
    have hwf : ∀ p ∈ post, p.WellFormed := by
      intro p hp
      exact (hrows p (by rw [hsplit]; exact List.mem_append_right pre hp)).2
    obtain ⟨d', hd', hle, -⟩ := mergeApiKeys_tombstone hwf hd
    rw [← hpost] at hd'
    refine ⟨mergeApiKeys e rows, d', hfin, hd', hle, ?_⟩
    intro hen
    exact mergeApiKeys_enabled (fun p hp => (hrows p hp).2) (by rw [hd']; simp) hen
  · intro hlive hlives hstamp hstamps hdistinct
    obtain ⟨s, hs⟩ := Option.ne_none_iff_exists'.mp hstamp
    -- the greatest register of the list as it stands
    have hlist : ∀ rows', (∀ p, p ∈ rows' ↔ p ∈ rows) →
        ∃ w, Offered e rows w ∧ (∀ c, Offered e rows c → c.1 ≤ w.1) ∧
          (mergeApiKeys e rows').lastUserEditAt = some w.1 ∧
          (mergeApiKeys e rows').policy = w.2 := by
      intro rows' hsame
      have hrows' : ∀ p ∈ rows', p.deletedAt = none ∧ p.lastUserEditAt ≠ none ∧
          ∃ v, p.Carries v := by
        intro p hp
        have hp' := (hsame p).mp hp
        exact ⟨hlives p hp', hstamps p hp', (hrows p hp').2.full⟩
      have hreg := mergeApiKeys_register hlive hs hrows'
      simp only [offered_congr hsame] at hreg
      exact hreg
    obtain ⟨w, hw, hmax, -⟩ := hlist rows fun p => Iff.rfl
    refine ⟨w, hw, ?_, ?_⟩
    · intro c hc
      rcases Int.lt_or_eq_of_le (hmax c hc) with hlt | heq
      · exact Or.inr hlt
      · exact Or.inl (hdistinct c w hc hw heq)
    · intro rows' hsame
      obtain ⟨w', hw', hmax', hstamp', hpolicy'⟩ := hlist rows' hsame
      have hww : w' = w :=
        hdistinct w' w hw' hw (Int.le_antisymm (hmax w' hw') (hmax' w hw))
      rw [hww] at hstamp' hpolicy'
      exact ⟨mergeApiKeys e rows', findKey_applyApiKeys he
        (fun p hp => (hrows p ((hsame p).mp hp)).1), hpolicy', hstamp'⟩

/-- A key row and a peer's row of the same key, every field spelled out. -/
def sampleKey (edited : EditStamp) : ApiKey :=
  { id := "k1", name := "ci", keyHash := "h1", keyPrefix := "llmp-ab"
    lastUserEditAt := some edited }

def samplePeerKey (edited : EditStamp) (rpm : Option Int) : PeerApiKey :=
  { id := "k1", name := "ci", keyHash := "h1", keyPrefix := "llmp-ab"
    keyType := some "standard", enabled := some true, totalCostUsd := some 0
    spendingCapUsd := some none, rateLimitRpm := some rpm, rateLimitTier := some none
    semanticCacheEnabled := some false, dailySoftCapUsd := some none
    dailyHardCapUsd := some none, hourlyCapUsd := some none, callerMemoryTtlDays := some none
    lmrhPollingRpm := some none, lmrhQuotesRpm := some none, blockedCompanies := some none
    allowedCompanies := some none, blockedModels := some none, allowedModels := some none
    allowedPaths := some none, debugEchoEnabled := some false
    lastUserEditAt := some edited }

theorem samplePeerKey_carries (edited : EditStamp) (rpm : Option Int) :
    (samplePeerKey edited rpm).Carries { (sampleKey edited).policy with rateLimitRpm := rpm } := by
  constructor <;> rfl

theorem samplePeerKey_wellFormed (edited : EditStamp) (rpm : Option Int) :
    (samplePeerKey edited rpm).WellFormed :=
  ⟨⟨_, samplePeerKey_carries edited rpm⟩, fun h => nomatch h⟩

/-- A trashed key that was switched on again, and then a live peer row: the loop leaves the
key tombstoned and enabled. -/
theorem trashed_key_left_enabled :
    ∃ e p, e.deletedAt = some 5 ∧ p.keyHash = "h1" ∧ p.WellFormed ∧
      findKey "h1" [e] = some e ∧
      findKey "h1" (applyApiKeys [e] [p]).1 = some e ∧ e.enabled = true :=
  ⟨{ sampleKey 1 with deletedAt := some 5 }, samplePeerKey 7 none, rfl, rfl,
    samplePeerKey_wellFormed 7 none, by decide, by decide, rfl⟩

/-- A key edited at 1, and a peer's edits of it at 9 and at 7 in either order and any number
of times: the one of 9 stands. And with the peer's deletion at 4 in front, the key is gone
whatever comes after. -/
theorem api_key_merge_is_lww_of_two_edits :
    (∃ w : EditStamp × KeyPolicy, 9 ≤ w.1 ∧
      ∀ rows', (∀ p, p ∈ rows' ↔ p ∈ [samplePeerKey 9 (some 60), samplePeerKey 7 none]) →
        ∃ fin, findKey "h1" (applyApiKeys [sampleKey 1] rows').1 = some fin ∧
          fin.policy = w.2 ∧ fin.lastUserEditAt = some w.1) ∧
      ∃ fin d', findKey "h1" (applyApiKeys [sampleKey 1]
          [{ samplePeerKey 2 none with deletedAt := some 4, enabled := some false },
            samplePeerKey 9 none]).1 = some fin ∧
        fin.deletedAt = some d' ∧ 4 ≤ d' ∧ fin.enabled = false := by
  have hlocal : findKey "h1" [sampleKey 1] = some (sampleKey 1) := by decide
  constructor
  · have hrows : ∀ p ∈ [samplePeerKey 9 (some 60), samplePeerKey 7 none],
        p.keyHash = "h1" ∧ p.WellFormed := by
      intro p hp
      simp only [List.mem_cons, List.not_mem_nil, or_false] at hp
      rcases hp with rfl | rfl
      · exact ⟨rfl, samplePeerKey_wellFormed 9 (some 60)⟩
      · exact ⟨rfl, samplePeerKey_wellFormed 7 none⟩
    have hdistinct : ∀ c c',
        Offered (sampleKey 1) [samplePeerKey 9 (some 60), samplePeerKey 7 none] c →
        Offered (sampleKey 1) [samplePeerKey 9 (some 60), samplePeerKey 7 none] c' →
        c.1 = c'.1 → c = c' := by
      intro c c' hc hc' heq
      refine offered_inj ?_ ?_ hc hc' heq
      · intro p hp
        simp only [List.mem_cons, List.not_mem_nil, or_false] at hp
        rcases hp with rfl | rfl <;> decide
      · intro p hp q hq
        simp only [List.mem_cons, List.not_mem_nil, or_false] at hp hq
        rcases hp with rfl | rfl <;> rcases hq with rfl | rfl <;> decide
    obtain ⟨w, -, hmax, hfin⟩ := (api_key_merge_is_lww hlocal hrows).2 rfl
      (by decide) (by decide) (by decide) hdistinct
    have hnine := hmax (9, { (sampleKey 9).policy with rateLimitRpm := some 60 })
      (Or.inr ⟨samplePeerKey 9 (some 60), List.mem_cons_self, rfl,
        samplePeerKey_carries 9 (some 60)⟩)
    refine ⟨w, ?_, hfin⟩
    rcases hnine with rfl | hlt
    · exact Int.le_refl 9
    · exact Int.le_of_lt hlt
  · have hrows : ∀ p ∈ [{ samplePeerKey 2 none with deletedAt := some 4, enabled := some false },
        samplePeerKey 9 none], p.keyHash = "h1" ∧ p.WellFormed := by
      intro p hp
      simp only [List.mem_cons, List.not_mem_nil, or_false] at hp
      rcases hp with rfl | rfl
      · refine ⟨rfl, ⟨{ (sampleKey 2).policy with enabled := false }, ?_⟩, fun _ => rfl⟩
        constructor <;> rfl
      · exact ⟨rfl, samplePeerKey_wellFormed 9 none⟩
    obtain ⟨fin, d', hfin, hd', hle, hen⟩ := (api_key_merge_is_lww hlocal hrows).1
      [{ samplePeerKey 2 none with deletedAt := some 4, enabled := some false }]
      [samplePeerKey 9 none] { sampleKey 1 with deletedAt := some 4, enabled := false } 4
      rfl (by decide) rfl
    refine ⟨fin, d', hfin, hd', hle, ?_⟩
    cases hon : fin.enabled with
    | false => rfl
    | true => exact absurd rfl (hen hon).1

end LlmProxy.Cluster
