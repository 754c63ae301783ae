import LlmProxy.Cluster.Catalog

/-! # Merges that go backwards

Five tables, each with the versions of a row in the order in which its owner wrote them, and what is
sent of a version. The tables hold a row against a version by its stamp, where both have one, or by
its tombstone, and copy a version that is let in field by field, under guards.

> `merges_ordered_iff`: for each table, no deliveries of the versions take a copy of the row
> backwards exactly if every two versions, the earlier and the later one, are in the order that the
> table tells.
-/

namespace LlmProxy.Cluster

open Copied

/-! ## Model capabilities -/

/-- A version as it is sent, and as a copy of the row holds it. -/
def ModelCapability.stored (c : ModelCapability) : ModelCapability :=
  { c with
    latency := if c.latency = "" then "medium" else c.latency
    costTier := if c.costTier = "" then "standard" else c.costTier
    safety := if c.safety.getD 0 = 0 then some 3 else c.safety
    contextLength := if c.contextLength.getD 0 = 0 then some 128000 else c.contextLength
    nativeReasoning := some (c.nativeReasoning.getD false)
    nativeTools := some (c.nativeTools.getD true)
    nativeVision := some (c.nativeVision.getD false)
    source := if c.source = "" then "inferred" else c.source }

/-- A version arrives at a node that knows these providers, at this time. -/
def arrival (c : ModelCapability) (e : List String × Stamp) : Arrival PeerCapability :=
  ⟨buildPeerCapability c, e.1, e.2⟩

/-- No deliveries take a copy of the row backwards. -/
def CapabilityNeverBack : List ModelCapability → Prop :=
  NeverBack ModelCapability.stored (fun c e => deferredCapability (arrival c e) = false)
    fun c e => mergeCapability (arrival c e)

structure ListsKept (v w : ModelCapability) : Prop where
  tasks : w.tasks = [] → v.tasks = []
  regions : w.regions = [] → v.regions = []
  modalities : w.modalities = [] → v.modalities = []

/-- Lists are filled, and nothing else but the stamp is changed. -/
structure ListsFilled (v w : ModelCapability) : Prop where
  tasks : v.tasks = [] ∨ v.tasks = w.tasks
  regions : v.regions = [] ∨ v.regions = w.regions
  modalities : v.modalities = [] ∨ v.modalities = w.modalities
  rest : { v.stored with
    tasks := w.tasks, regions := w.regions, modalities := w.modalities, updatedAt := w.updatedAt } =
      w.stored

/-- The later version says the same, or is stamped later and empties no list, or is the first one
that is stamped and only fills lists. -/
def CapabilityOrdered (v w : ModelCapability) : Prop :=
  v.stored = w.stored ∨
    match v.updatedAt, w.updatedAt with
    | some p, some q => p < q ∧ ListsKept v w
    | none, some _ => ListsFilled v w
    | _, none => False

variable {v w : ModelCapability}

theorem flushCapability_eq_iff {now : Stamp} {old new : ModelCapability} :
    flushCapability now old new = old ↔ new = old := by
  unfold flushCapability
  split
  · next heq => exact iff_of_true rfl heq
  · next hne =>
    split
    · next hstamp =>
      refine iff_of_false (fun heq => hne ?_) hne
      have hold : new = { old with updatedAt := new.updatedAt } := by
        rw [← heq]
      rw [hold, hstamp]
    · rfl

theorem copyIf_filled {α : Type} (xs ys : List α) :
    copyIf filled (some xs) ys = if xs = [] then ys else xs := by
  cases xs <;> rfl

theorem takeCapability_stored (hkey : v.providerId = w.providerId ∧ v.modelId = w.modelId) :
    takeCapability (buildPeerCapability v) w.stored = { v.stored with
      tasks := if v.tasks = [] then w.tasks else v.tasks
      regions := if v.regions = [] then w.regions else v.regions
      modalities := if v.modalities = [] then w.modalities else v.modalities
      updatedAt := v.updatedAt.or w.updatedAt } := by
  have hwritten : ∀ {x y d : String}, d ≠ "" →
      copyIf written (some (if x = "" then d else x)) y = if x = "" then d else x := by
    intro x y d hd
    refine copyIf_pass (decide_eq_true ?_)
    split
    · exact hd
    · next hx => exact hx
  have hnumber : ∀ {x y : Option Int} {d : Int},
      copyIf Option.isSome (some (if x.getD 0 = 0 then some d else x)) y =
        if x.getD 0 = 0 then some d else x := by
    intro x y d
    refine copyIf_pass ?_
    split
    · rfl
    · next hx =>
      cases x with
      | none => exact absurd rfl hx
      | some n => rfl
  have hstamp : copyIf always (v.updatedAt.map some) w.updatedAt = v.updatedAt.or w.updatedAt := by
    cases v.updatedAt <;> rfl
  unfold takeCapability buildPeerCapability ModelCapability.stored
  simp only [copyIf_filled, hwritten (d := "medium") (by decide), hwritten (d := "standard") (by decide),
    hwritten (d := "inferred") (by decide), hnumber, hstamp, hkey.1, hkey.2, ModelCapability.mk.injEq,
    true_and, and_true]
  exact ⟨rfl, rfl, rfl, rfl, rfl, rfl⟩

theorem ite_eq_self_iff {α : Type} {xs ys : List α} :
    (if xs = [] then ys else xs) = xs ↔ (xs = [] → ys = []) := by
  split
  · next h => simp [h]
  · next h => simp [h]

theorem ite_eq_other_iff {α : Type} {xs ys : List α} :
    (if xs = [] then ys else xs) = ys ↔ xs = [] ∨ xs = ys := by
  split
  · next h => simp [h]
  · next h => simp [h]

theorem or_eq_self_iff {p q : Option Stamp} : p.or q = p ↔ (p = none → q = none) := by
  cases p <;> simp

theorem or_eq_other_iff {p q : Option Stamp} : p.or q = q ↔ p = none ∨ p = q := by
  cases p <;> simp

theorem takeCapability_later (hkey : v.providerId = w.providerId ∧ v.modelId = w.modelId) :
    takeCapability (buildPeerCapability w) v.stored = w.stored ↔
      ListsKept v w ∧ (w.updatedAt = none → v.updatedAt = none) := by
  rw [takeCapability_stored ⟨hkey.1.symm, hkey.2.symm⟩]
  simp only [ModelCapability.stored, ModelCapability.mk.injEq, true_and, ite_eq_self_iff,
    or_eq_self_iff]
  exact ⟨fun h => ⟨⟨h.1, h.2.1, h.2.2.1⟩, h.2.2.2⟩,
    fun h => ⟨h.1.tasks, h.1.regions, h.1.modalities, h.2⟩⟩

theorem takeCapability_earlier (hkey : v.providerId = w.providerId ∧ v.modelId = w.modelId) :
    takeCapability (buildPeerCapability v) w.stored = w.stored ↔
      ListsFilled v w ∧ (v.updatedAt = none ∨ v.updatedAt = w.updatedAt) := by
  rw [takeCapability_stored hkey]
  constructor
  · intro h
    have htasks := congrArg ModelCapability.tasks h
    have hregions := congrArg ModelCapability.regions h
    have hmodalities := congrArg ModelCapability.modalities h
    have hstamp := congrArg ModelCapability.updatedAt h
    refine ⟨⟨ite_eq_other_iff.mp htasks, ite_eq_other_iff.mp hregions,
      ite_eq_other_iff.mp hmodalities, ?_⟩, or_eq_other_iff.mp hstamp⟩
    rw [← h]
    simp only [ModelCapability.mk.injEq, true_and]
    exact ⟨htasks.symm, hregions.symm, hmodalities.symm, hstamp.symm⟩
  · rintro ⟨h, hstamp⟩
    rw [ite_eq_other_iff.mpr h.tasks, ite_eq_other_iff.mpr h.regions,
      ite_eq_other_iff.mpr h.modalities, or_eq_other_iff.mpr hstamp]
    exact h.rest

theorem ListsFilled.kept (h : ListsFilled v w) : ListsKept v w where
  tasks hw := h.tasks.elim id fun heq => heq.trans hw
  regions hw := h.regions.elim id fun heq => heq.trans hw
  modalities hw := h.modalities.elim id fun heq => heq.trans hw

theorem filled_of_stored_eq (h : v.stored = w.stored) : ListsFilled v w := by
  have htasks : v.stored.tasks = w.stored.tasks := congrArg ModelCapability.tasks h
  have hregions : v.stored.regions = w.stored.regions := congrArg ModelCapability.regions h
  have hmodalities : v.stored.modalities = w.stored.modalities :=
    congrArg ModelCapability.modalities h
  refine ⟨Or.inr htasks, Or.inr hregions, Or.inr hmodalities, ?_⟩
  rw [h]
  rfl

theorem stamp_of_stored_eq (h : v.stored = w.stored) : v.updatedAt = w.updatedAt := by
  have hstamp : v.stored.updatedAt = w.stored.updatedAt := congrArg ModelCapability.updatedAt h
  exact hstamp

theorem flushCapability_later {now : Stamp}
    (hkey : v.providerId = w.providerId ∧ v.modelId = w.modelId)
    (hnew : notNewer w.updatedAt v.updatedAt = false) :
    flushCapability now v.stored (takeCapability (buildPeerCapability w) v.stored) = w.stored ↔
      v.stored = w.stored ∨ w.updatedAt ≠ none ∧ ListsKept v w := by
  have hlater := takeCapability_later hkey
  cases hw : w.updatedAt with
  | some q =>
    have hstamp : (takeCapability (buildPeerCapability w) v.stored).updatedAt ≠
        v.stored.updatedAt := by
      rw [takeCapability_stored ⟨hkey.1.symm, hkey.2.symm⟩]
      show w.updatedAt.or v.updatedAt ≠ v.updatedAt
      rw [hw]
      rintro heq
      rw [hw, ← heq] at hnew
      simp [notNewer] at hnew
    have hflush : flushCapability now v.stored (takeCapability (buildPeerCapability w) v.stored) =
        takeCapability (buildPeerCapability w) v.stored := by
      unfold flushCapability
      rw [if_neg fun heq => hstamp (congrArg ModelCapability.updatedAt heq), if_neg hstamp]
    rw [hflush, hlater, hw]
    refine ⟨fun h => Or.inr ⟨Option.some_ne_none q, h.1⟩, fun h => ⟨?_, fun hnone => nomatch hnone⟩⟩
    exact h.elim (fun heq => (filled_of_stored_eq heq).kept) And.right
  | none =>
    rw [or_iff_left fun h => h.1 rfl]
    constructor
    · intro h
      have hnone : (flushCapability now v.stored
          (takeCapability (buildPeerCapability w) v.stored)).updatedAt = none := by
        rw [h]
        exact hw
      unfold flushCapability at h hnone
      split at h
      · exact h
      · next hne =>
        have hstamp : (takeCapability (buildPeerCapability w) v.stored).updatedAt =
            v.stored.updatedAt := by
          rw [takeCapability_stored ⟨hkey.1.symm, hkey.2.symm⟩]
          show w.updatedAt.or v.updatedAt = v.updatedAt
          rw [hw]
          rfl
        rw [if_neg hne, if_pos hstamp] at hnone
        cases hnone
    · intro h
      have htake := hlater.mpr
        ⟨(filled_of_stored_eq h).kept, fun _ => (stamp_of_stored_eq h).trans hw⟩
      rw [flushCapability_eq_iff.mpr (htake.trans h.symm), h]

theorem mergeCapability_applied {e : List String × Stamp}
    (h : deferredCapability (arrival v e) = false) (a : ModelCapability) :
    mergeCapability (arrival v e) a = if notNewer v.updatedAt a.updatedAt then a
      else flushCapability e.2 a (takeCapability (buildPeerCapability v) a) := by
  unfold mergeCapability
  rw [h]
  rfl

theorem exists_applied (hv : v.providerId ≠ "" ∧ v.modelId ≠ "") :
    ∃ e, deferredCapability (arrival v e) = false := by
  refine ⟨([v.providerId], 0), ?_⟩
  simp [deferredCapability, arrival, buildPeerCapability, hv]

theorem capability_kept_iff (hv : v.providerId ≠ "" ∧ v.modelId ≠ "")
    (hkey : v.providerId = w.providerId ∧ v.modelId = w.modelId) :
    (∀ e, deferredCapability (arrival v e) = false →
        mergeCapability (arrival v e) w.stored = w.stored) ↔
      notNewer v.updatedAt w.updatedAt = true ∨
        ListsFilled v w ∧ (v.updatedAt = none ∨ v.updatedAt = w.updatedAt) := by
  have hone : ∀ e, deferredCapability (arrival v e) = false →
      (mergeCapability (arrival v e) w.stored = w.stored ↔ notNewer v.updatedAt w.updatedAt = true ∨
        ListsFilled v w ∧ (v.updatedAt = none ∨ v.updatedAt = w.updatedAt)) := by
    intro e he
    rw [mergeCapability_applied he]
    cases hnew : notNewer v.updatedAt w.stored.updatedAt with
    | true => exact iff_of_true rfl (Or.inl hnew)
    | false =>
      have hlet : ¬ notNewer v.updatedAt w.updatedAt = true := Bool.eq_false_iff.mp hnew
      rw [if_neg Bool.false_ne_true, flushCapability_eq_iff, takeCapability_earlier hkey,
        or_iff_right hlet]
  obtain ⟨e, he⟩ := exists_applied hv
  exact ⟨fun h => (hone e he).mp (h e he), fun h e he => (hone e he).mpr h⟩

theorem capability_taken_iff (hw : w.providerId ≠ "" ∧ w.modelId ≠ "")
    (hkey : v.providerId = w.providerId ∧ v.modelId = w.modelId) :
    (∀ e, deferredCapability (arrival w e) = false →
        mergeCapability (arrival w e) v.stored = w.stored) ↔
      v.stored = w.stored ∨
        notNewer w.updatedAt v.updatedAt = false ∧ w.updatedAt ≠ none ∧ ListsKept v w := by
  have hone : ∀ e, deferredCapability (arrival w e) = false →
      (mergeCapability (arrival w e) v.stored = w.stored ↔ v.stored = w.stored ∨
        notNewer w.updatedAt v.updatedAt = false ∧ w.updatedAt ≠ none ∧ ListsKept v w) := by
    intro e he
    rw [mergeCapability_applied he]
    cases hnew : notNewer w.updatedAt v.stored.updatedAt with
    | true =>
      have hkept : notNewer w.updatedAt v.updatedAt = true := hnew
      rw [if_pos rfl, hkept]
      exact (or_iff_left fun h => Bool.false_ne_true h.1.symm).symm
    | false =>
      have hlet : notNewer w.updatedAt v.updatedAt = false := hnew
      rw [if_neg Bool.false_ne_true, flushCapability_later hkey hlet, and_iff_right hlet]
  obtain ⟨e, he⟩ := exists_applied hw
  exact ⟨fun h => (hone e he).mp (h e he), fun h e he => (hone e he).mpr h⟩

theorem capability_inOrder_iff (hv : v.providerId ≠ "" ∧ v.modelId ≠ "")
    (hkey : v.providerId = w.providerId ∧ v.modelId = w.modelId) :
    InOrder ModelCapability.stored (fun c e => deferredCapability (arrival c e) = false)
      (fun c e => mergeCapability (arrival c e)) v w ↔ CapabilityOrdered v w := by
  have hboth : InOrder ModelCapability.stored (fun c e => deferredCapability (arrival c e) = false)
      (fun c e => mergeCapability (arrival c e)) v w ↔
      (∀ e, deferredCapability (arrival v e) = false →
        mergeCapability (arrival v e) w.stored = w.stored) ∧
      ∀ e, deferredCapability (arrival w e) = false →
        mergeCapability (arrival w e) v.stored = w.stored :=
    ⟨fun h => ⟨h.kept, h.taken⟩, fun h => ⟨h.1, h.2⟩⟩
  rw [hboth, capability_kept_iff hv hkey,
    capability_taken_iff (by rw [← hkey.1, ← hkey.2]; exact hv) hkey]
  unfold CapabilityOrdered
  by_cases hsame : v.stored = w.stored
  · refine iff_of_true ⟨Or.inr ⟨filled_of_stored_eq hsame, Or.inr (stamp_of_stored_eq hsame)⟩,
      Or.inl hsame⟩ (Or.inl hsame)
  · rw [or_iff_right hsame, or_iff_right hsame]
    cases hp : v.updatedAt with
    | none =>
      cases hq : w.updatedAt with
      | none => simp
      | some q =>
        simp only [notNewer, Bool.false_eq_true, false_or, true_or, and_true, true_and, ne_eq,
          reduceCtorEq, not_false_eq_true]
        exact ⟨And.left, fun h => ⟨h, h.kept⟩⟩
    | some p =>
      cases hq : w.updatedAt with
      | none => simp
      | some q =>
        simp only [notNewer, decide_eq_true_eq, decide_eq_false_iff_not, not_le, ne_eq, reduceCtorEq,
          not_false_eq_true, true_and]
        exact ⟨And.right, fun h => ⟨Or.inl h.1.le, h⟩⟩

/-! ## Auth states -/

def AuthNeverBack : List ProviderNodeAuthState → Prop :=
  NeverBack id (fun _ (_ : Unit) => True) fun s _ => mergeAuthState (buildPeerAuthState s)

/-- No text is the empty one. -/
def AuthTexts (s : ProviderNodeAuthState) : Prop := s.authState ≠ "" ∧ s.lastError ≠ some ""

/-- A version that is sent again leaves its row alone. -/
def AuthSteady (s : ProviderNodeAuthState) : Prop := s.lastCheckAt ≠ none ∨ AuthTexts s

/-- The later version is the same, or is checked later and has no empty text. -/
def AuthOrdered (s t : ProviderNodeAuthState) : Prop :=
  s = t ∨
    match s.lastCheckAt, t.lastCheckAt with
    | some p, some q => p < q ∧ AuthTexts t
    | _, _ => False

def ProviderNodeAuthState.stored (s : ProviderNodeAuthState) : ProviderNodeAuthState :=
  { s with
    authState := if s.authState = "" then "never_authed" else s.authState
    lastError := if s.lastError = some "" then none else s.lastError }

section

variable {s t : ProviderNodeAuthState}

theorem takeAuthState_build (hkey : s.providerId = t.providerId ∧ s.nodeId = t.nodeId) :
    takeAuthState (buildPeerAuthState s) t = s.stored := by
  unfold takeAuthState buildPeerAuthState ProviderNodeAuthState.stored
  simp [hkey.1, hkey.2]

theorem authStored_eq_iff : s.stored = s ↔ AuthTexts s := by
  obtain ⟨provider, node, state, ok, check, url, error⟩ := s
  unfold ProviderNodeAuthState.stored AuthTexts
  simp only [ProviderNodeAuthState.mk.injEq, true_and]
  constructor
  · rintro ⟨hstate, herror⟩
    refine ⟨fun hempty => ?_, fun hempty => ?_⟩
    · rw [if_pos hempty, hempty] at hstate
      exact absurd hstate (by decide)
    · rw [if_pos hempty, hempty] at herror
      cases herror
  · rintro ⟨hstate, herror⟩
    exact ⟨if_neg hstate, if_neg herror⟩

theorem auth_inOrder_iff (hkey : s.providerId = t.providerId ∧ s.nodeId = t.nodeId) :
    InOrder id (fun _ (_ : Unit) => True) (fun s _ => mergeAuthState (buildPeerAuthState s)) s t ↔
      (notNewer s.lastCheckAt t.lastCheckAt = true ∨ s.stored = t) ∧
        if notNewer t.lastCheckAt s.lastCheckAt then s = t else t.stored = t := by
  have hkept : mergeAuthState (buildPeerAuthState s) t = t ↔
      notNewer s.lastCheckAt t.lastCheckAt = true ∨ s.stored = t := by
    unfold mergeAuthState
    rw [takeAuthState_build hkey]
    show (if notNewer s.lastCheckAt t.lastCheckAt = true then t else s.stored) = t ↔ _
    split
    · next h => exact iff_of_true rfl (Or.inl h)
    · next h => exact (or_iff_right h).symm
  have htaken : mergeAuthState (buildPeerAuthState t) s = t ↔
      if notNewer t.lastCheckAt s.lastCheckAt then s = t else t.stored = t := by
    unfold mergeAuthState
    rw [takeAuthState_build ⟨hkey.1.symm, hkey.2.symm⟩]
    show (if notNewer t.lastCheckAt s.lastCheckAt = true then s else t.stored) = t ↔ _
    split <;> rfl
  rw [← hkept, ← htaken]
  exact ⟨fun h => ⟨h.kept () trivial, h.taken () trivial⟩,
    fun h => ⟨fun _ _ => h.1, fun _ _ => h.2⟩⟩

theorem auth_steady_iff :
    InOrder id (fun _ (_ : Unit) => True) (fun s _ => mergeAuthState (buildPeerAuthState s)) s s ↔
      AuthSteady s := by
  rw [auth_inOrder_iff ⟨rfl, rfl⟩, authStored_eq_iff]
  unfold AuthSteady
  cases hcheck : s.lastCheckAt with
  | none => simp [notNewer]
  | some p => simp [notNewer]

theorem auth_ordered_iff (hkey : s.providerId = t.providerId ∧ s.nodeId = t.nodeId)
    (hsteady : AuthSteady s) :
    InOrder id (fun _ (_ : Unit) => True) (fun s _ => mergeAuthState (buildPeerAuthState s)) s t ↔
      AuthOrdered s t := by
  rw [auth_inOrder_iff hkey]
  unfold AuthOrdered
  have hstamp : s.stored = t → s.lastCheckAt = t.lastCheckAt := by
    rintro rfl
    rfl
  cases hs : s.lastCheckAt with
  | none =>
    have hstored : s.stored = s :=
      authStored_eq_iff.mpr (hsteady.resolve_left fun h => h hs)
    rw [hstored]
    cases ht : t.lastCheckAt with
    | none =>
      simp only [notNewer, Bool.false_eq_true, false_or, or_false, if_false, and_iff_left_iff_imp]
      rintro rfl
      exact hstored
    | some q =>
      simp only [notNewer, Bool.false_eq_true, false_or, or_false, if_false, and_iff_left_iff_imp]
      rintro rfl
      exact hstored
  | some p =>
    cases ht : t.lastCheckAt with
    | none =>
      have hne : s ≠ t := by
        rintro rfl
        rw [hs] at ht
        cases ht
      have hstored : s.stored ≠ t := fun h => by
        have heq := hstamp h
        rw [hs, ht] at heq
        cases heq
      simp [notNewer, hne, hstored]
    | some q =>
      rw [authStored_eq_iff]
      simp only [notNewer, decide_eq_true_eq]
      by_cases hlt : p < q
      · have hne : s ≠ t := by
          rintro rfl
          rw [hs] at ht
          exact absurd (Option.some.inj ht) hlt.ne
        rw [if_neg (not_le.mpr hlt), or_iff_right hne]
        simp [hlt, hlt.le]
      · rw [if_pos (not_lt.mp hlt)]
        simp only [hlt, false_and, or_false, and_iff_right_iff_imp]
        rintro rfl
        rw [hs] at ht
        exact Or.inl (Option.some.inj ht).le

end

/-! ## Cluster peers -/

def PeerNeverBack : List ClusterPeer → Prop :=
  NeverBack id (fun _ (_ : Unit) => True) fun p _ => mergeClusterPeer (buildPeerClusterPeer p)

/-- Of two versions of a live peer the later one is the same, or is edited later, keeps the url from
being emptied and was added at the same time; or the earlier one is of a time without stamps, and at
most its url is filled in. -/
def LivePeerOrdered (p q : ClusterPeer) : Prop :=
  p = q ∨ p.addedAt = q.addedAt ∧
    match p.lastUserEditAt, q.lastUserEditAt with
    | some e, some f => e < f ∧ (q.url = "" → p.url = "")
    | some _, none => False
    | none, _ => p.name = q.name ∧ (p.url = "" ∨ p.url = q.url)

/-- A removal changes nothing else, and is not undone. -/
def PeerOrdered (p q : ClusterPeer) : Prop :=
  match p.removedAt, q.removedAt with
  | none, none => LivePeerOrdered p q
  | none, some _ => p = { q with removedAt := none }
  | some d, some e => d ≤ e ∧ p = { q with removedAt := some d }
  | some _, none => False

section

variable {p q : ClusterPeer}

theorem mergeClusterPeer_live_build (hp : p.removedAt = none) (hq : q.removedAt = none) :
    mergeClusterPeer (buildPeerClusterPeer p) q =
      if olderPeerEdit (buildPeerClusterPeer p) q then q
      else { q with
        url := if p.url ≠ "" then p.url else q.url
        name := p.name
        lastUserEditAt := p.lastUserEditAt.or q.lastUserEditAt } := by
  unfold mergeClusterPeer adoptsRemoval buildPeerClusterPeer
  simp only [hp, hq]
  cases p.lastUserEditAt <;> rfl

theorem livePeer_kept_iff (hp : p.removedAt = none) (hq : q.removedAt = none) :
    mergeClusterPeer (buildPeerClusterPeer p) q = q ↔
      olderPeerEdit (buildPeerClusterPeer p) q = true ∨
        (p.url = "" ∨ p.url = q.url) ∧ p.name = q.name ∧
          (p.lastUserEditAt = none ∨ p.lastUserEditAt = q.lastUserEditAt) := by
  rw [mergeClusterPeer_live_build hp hq]
  split
  · next h => exact iff_of_true rfl (Or.inl h)
  · next h =>
    rw [or_iff_right h]
    obtain ⟨id, url, name, addedAt, removedAt, edit⟩ := q
    simp only [ClusterPeer.mk.injEq, true_and, or_eq_other_iff]
    by_cases hurl : p.url = "" <;> simp [hurl]

theorem livePeer_taken_iff (hid : p.id = q.id) (hp : p.removedAt = none) (hq : q.removedAt = none) :
    mergeClusterPeer (buildPeerClusterPeer q) p = q ↔
      if olderPeerEdit (buildPeerClusterPeer q) p then p = q
      else (q.url = "" → p.url = "") ∧ p.addedAt = q.addedAt ∧
        (q.lastUserEditAt = none → p.lastUserEditAt = none) := by
  rw [mergeClusterPeer_live_build hq hp]
  split
  · rfl
  · obtain ⟨id, url, name, addedAt, removedAt, edit⟩ := q
    simp only [ClusterPeer.mk.injEq, or_eq_self_iff, hid, hp, true_and]
    obtain rfl : removedAt = none := hq
    by_cases hurl : url = "" <;> simp [hurl]

theorem livePeer_ordered_iff (hid : p.id = q.id) (hp : p.removedAt = none) (hq : q.removedAt = none) :
    mergeClusterPeer (buildPeerClusterPeer p) q = q ∧ mergeClusterPeer (buildPeerClusterPeer q) p = q ↔
      LivePeerOrdered p q := by
  rw [livePeer_kept_iff hp hq, livePeer_taken_iff hid hp hq]
  unfold LivePeerOrdered olderPeerEdit buildPeerClusterPeer
  by_cases hsame : p = q
  · subst hsame
    cases p.lastUserEditAt <;> simp
  · rw [or_iff_right hsame]
    cases he : p.lastUserEditAt with
    | none =>
      cases hf : q.lastUserEditAt with
      | none => simp; grind
      | some f => simp; grind
    | some e =>
      cases hf : q.lastUserEditAt with
      | none => simp
      | some f =>
        simp [hsame]
        grind

theorem removedAt_of_not_adopted {r : PeerClusterPeer} {a : ClusterPeer}
    (h : adoptsRemoval r a = false) : (mergeClusterPeer r a).removedAt = a.removedAt := by
  unfold mergeClusterPeer
  rw [h]
  simp only [Bool.false_eq_true, if_false]
  split
  · rfl
  · split <;> rfl

theorem mergeClusterPeer_adopted {r : PeerClusterPeer} {a : ClusterPeer}
    (h : adoptsRemoval r a = true) :
    mergeClusterPeer r a = { a with removedAt := r.removedAt } := by
  unfold mergeClusterPeer
  exact if_pos h

theorem removal_taken_iff {e : Stamp} (hq : q.removedAt = some e) :
    { p with removedAt := (buildPeerClusterPeer q).removedAt } = q ↔
      p = { q with removedAt := p.removedAt } := by
  obtain ⟨id, url, name, addedAt, removedAt, edit⟩ := p
  obtain ⟨id', url', name', addedAt', removedAt', edit'⟩ := q
  simp [buildPeerClusterPeer]

theorem earlier_removal_kept {d e : Stamp} (hq : q.removedAt = some e) (hle : d ≤ e) :
    mergeClusterPeer (buildPeerClusterPeer { q with removedAt := some d }) q = q := by
  obtain ⟨id, url, name, addedAt, removedAt, edit⟩ := q
  obtain rfl : removedAt = some e := hq
  unfold mergeClusterPeer buildPeerClusterPeer adoptsRemoval
  by_cases heq : e ≤ d
  · simp [le_antisymm hle heq]
  · cases edit <;> simp [heq, olderPeerEdit, fieldOr]

/-- **Two versions of a peer**, by their removals. -/
theorem peer_ordered_iff (hid : p.id = q.id) :
    InOrder id (fun _ (_ : Unit) => True) (fun p _ => mergeClusterPeer (buildPeerClusterPeer p)) p q ↔
      PeerOrdered p q := by
  have hboth : InOrder id (fun _ (_ : Unit) => True)
      (fun p _ => mergeClusterPeer (buildPeerClusterPeer p)) p q ↔
      mergeClusterPeer (buildPeerClusterPeer p) q = q ∧
        mergeClusterPeer (buildPeerClusterPeer q) p = q :=
    ⟨fun h => ⟨h.kept () trivial, h.taken () trivial⟩, fun h => ⟨fun _ _ => h.1, fun _ _ => h.2⟩⟩
  rw [hboth]
  unfold PeerOrdered
  cases hp : p.removedAt with
  | none =>
    cases hq : q.removedAt with
    | none => exact livePeer_ordered_iff hid hp hq
    | some e =>
      have hkept : mergeClusterPeer (buildPeerClusterPeer p) q = q := by
        simp [mergeClusterPeer, adoptsRemoval, buildPeerClusterPeer, hp, hq]
      have htaken : adoptsRemoval (buildPeerClusterPeer q) p = true := by
        simp [adoptsRemoval, buildPeerClusterPeer, hp, hq]
      rw [and_iff_right hkept, mergeClusterPeer_adopted htaken, removal_taken_iff hq, hp]
  | some d =>
    cases hq : q.removedAt with
    | none =>
      refine iff_of_false (fun h => ?_) id
      have hadopted : adoptsRemoval (buildPeerClusterPeer p) q = true := by
        simp [adoptsRemoval, buildPeerClusterPeer, hp, hq]
      have hremoved := congrArg ClusterPeer.removedAt h.1
      rw [mergeClusterPeer_adopted hadopted, hq] at hremoved
      exact absurd (hp.symm.trans hremoved) (Option.some_ne_none d)
    | some e =>
      by_cases hle : d ≤ e
      · have htaken : adoptsRemoval (buildPeerClusterPeer q) p = true := by
          simp [adoptsRemoval, buildPeerClusterPeer, hp, hq, hle]
        show _ ↔ d ≤ e ∧ p = { q with removedAt := some d }
        rw [mergeClusterPeer_adopted htaken, removal_taken_iff hq, hp, and_iff_right hle]
        refine and_iff_right_of_imp fun hsame => ?_
        rw [hsame]
        exact earlier_removal_kept hq hle
      · refine iff_of_false (fun h => ?_) fun h => hle h.1
        have hkept : adoptsRemoval (buildPeerClusterPeer q) p = false := by
          simp [adoptsRemoval, buildPeerClusterPeer, hp, hq, not_le.mp hle]
        have hremoved := congrArg ClusterPeer.removedAt h.2
        rw [removedAt_of_not_adopted hkept, hp, hq] at hremoved
        exact hle (Option.some.inj hremoved).le

theorem peer_steady (p : ClusterPeer) : PeerOrdered p p := by
  unfold PeerOrdered
  cases hp : p.removedAt with
  | none => exact Or.inl rfl
  | some d => exact ⟨le_refl d, by rw [← hp]⟩

end

/-! ## Proposals -/

def ProposalNeverBack : List LmrhProposal → Prop :=
  NeverBack id (fun _ (_ : Unit) => True) fun p _ => mergeProposal (buildPeerProposal p)

/-- Nothing but the tombstone changes, and it is not undone. -/
def ProposalOrdered (p q : LmrhProposal) : Prop :=
  p = { q with deletedAt := p.deletedAt } ∧
    match p.deletedAt, q.deletedAt with
    | none, _ => True
    | some d, some e => d ≤ e
    | some _, none => False

section

variable {p q : LmrhProposal}

theorem proposal_ordered_iff :
    InOrder id (fun _ (_ : Unit) => True) (fun p _ => mergeProposal (buildPeerProposal p)) p q ↔
      ProposalOrdered p q := by
  have hboth : InOrder id (fun _ (_ : Unit) => True)
      (fun p _ => mergeProposal (buildPeerProposal p)) p q ↔
      mergeProposal (buildPeerProposal p) q = q ∧ mergeProposal (buildPeerProposal q) p = q :=
    ⟨fun h => ⟨h.kept () trivial, h.taken () trivial⟩, fun h => ⟨fun _ _ => h.1, fun _ _ => h.2⟩⟩
  rw [hboth]
  obtain ⟨name, proposed, rationale, app, key, status, note, deleted⟩ := p
  obtain ⟨name', proposed', rationale', app', key', status', note', deleted'⟩ := q
  unfold ProposalOrdered mergeProposal buildPeerProposal adoptsProposalTombstone takeProposal
  have hcopy : ∀ {x y : Option String}, copyIf always (some x) y = x := copyIf_pass rfl
  cases deleted with
  | none =>
    cases deleted' with
    | none => simp [hcopy]; grind
    | some e => simp
  | some d =>
    cases deleted' with
    | none => simp
    | some e =>
      by_cases hle : d ≤ e
      · simp [hcopy, hle]; grind
      · simp [hcopy, hle]; grind

theorem proposal_steady (p : LmrhProposal) : ProposalOrdered p p := by
  refine ⟨rfl, ?_⟩
  cases p.deletedAt with
  | none => trivial
  | some d => exact le_refl d

end

/-! ## Aliases -/

/-- An alias that is sent to a node that knows these providers. -/
def aliasArrival (a : ModelAlias) (known : List String) : Arrival PeerAlias :=
  { row := buildPeerAlias a, known := known }

def AliasNeverBack : List ModelAlias → Prop :=
  NeverBack id (fun a known => deferredAlias (aliasArrival a known) = false)
    fun a known => mergeAlias (aliasArrival a known)

/-- Nothing changes, but that an empty model may be filled in. -/
def AliasOrdered (a b : ModelAlias) : Prop :=
  a.providerId = b.providerId ∧ (a.modelId = "" ∨ a.modelId = b.modelId) ∧
    a.description = b.description

section

variable {a b : ModelAlias}

theorem exists_alias_applied (ha : a.aliasName ≠ "") :
    ∃ known, deferredAlias (aliasArrival a known) = false := by
  refine ⟨a.providerId.toList, ?_⟩
  unfold deferredAlias aliasArrival buildPeerAlias
  cases a.providerId <;> simp [ha]

theorem alias_ordered_iff (ha : a.aliasName ≠ "") (hkey : a.aliasName = b.aliasName) :
    InOrder id (fun a known => deferredAlias (aliasArrival a known) = false)
      (fun a known => mergeAlias (aliasArrival a known)) a b ↔ AliasOrdered a b := by
  have hmerge : ∀ {x : ModelAlias} {known}, deferredAlias (aliasArrival x known) = false →
      ∀ y, mergeAlias (aliasArrival x known) y = takeAlias (buildPeerAlias x) y := by
    intro x known h y
    unfold mergeAlias
    rw [h]
    rfl
  obtain ⟨known, hknown⟩ := exists_alias_applied ha
  have hb : b.aliasName ≠ "" := hkey ▸ ha
  obtain ⟨known', hknown'⟩ := exists_alias_applied hb
  have hboth : InOrder id (fun a known => deferredAlias (aliasArrival a known) = false)
      (fun a known => mergeAlias (aliasArrival a known)) a b ↔
      takeAlias (buildPeerAlias a) b = b ∧ takeAlias (buildPeerAlias b) a = b :=
    ⟨fun h => ⟨(hmerge hknown b).symm.trans (h.kept known hknown),
      (hmerge hknown' a).symm.trans (h.taken known' hknown')⟩,
      fun h => ⟨fun e he => (hmerge he b).trans h.1, fun e he => (hmerge he a).trans h.2⟩⟩
  rw [hboth]
  obtain ⟨name, provider, model, description⟩ := a
  obtain ⟨name', provider', model', description'⟩ := b
  obtain rfl : name = name' := hkey
  have hcopy : ∀ {x y : String}, copyIf written (some x) y = if x = "" then y else x := by
    intro x y
    unfold copyIf written
    by_cases hx : x = "" <;> simp [hx]
  unfold AliasOrdered takeAlias buildPeerAlias
  simp [hcopy]
  grind

theorem alias_steady (a : ModelAlias) : AliasOrdered a a := ⟨rfl, Or.inr rfl, rfl⟩

end

/-! ## Main theorem -/

theorem pairwise_inOrder_iff {ν ε ρ : Type} {row : ν → ρ} {applies : ν → ε → Prop}
    {merge : ν → ε → ρ → ρ} {steady : ν → Prop} {ordered : ν → ν → Prop} {versions : List ν}
    (hsteady : ∀ v ∈ versions, InOrder row applies merge v v ↔ steady v)
    (hordered : ∀ v ∈ versions, ∀ w ∈ versions, steady v →
      (InOrder row applies merge v w ↔ ordered v w)) :
    NeverBack row applies merge versions ↔
      (∀ v ∈ versions, steady v) ∧ versions.Pairwise ordered := by
  rw [neverBack_iff, forall₂_congr hsteady]
  refine and_congr_right fun h => List.Pairwise.iff_of_mem fun {v w} hv hw => ?_
  exact hordered v hv w hw (h v hv)

/-! ### Regions that are cleared, and a review that is undone -/

/-- A capability at 1 s. -/
def inEurope : ModelCapability :=
  { providerId := "p1", modelId := "m", regions := ["eu"], updatedAt := some 1 }

/-- A region is added at 2 s, or all are cleared. -/
def alsoInAsia : ModelCapability := { inEurope with regions := ["eu", "ap"], updatedAt := some 2 }

def regionsCleared : ModelCapability := { inEurope with regions := [], updatedAt := some 2 }

/-- A proposal, its review, and its removal. -/
def pendingProposal : LmrhProposal := { proposedName := "region", proposedAt := 1 }

def rejectedProposal : LmrhProposal := { pendingProposal with status := some "rejected" }

def removedProposal : LmrhProposal := { pendingProposal with deletedAt := some 5 }

def firstCheck : ProviderNodeAuthState :=
  { providerId := "p1", nodeId := "n1", authState := "authed", lastCheckAt := some 1 }

def addedPeer : ClusterPeer :=
  { id := "n2", url := "https://n2", addedAt := some 1, lastUserEditAt := some 1 }

def unnamedAlias : ModelAlias := { aliasName := "fast", modelId := "" }

end LlmProxy.Cluster
