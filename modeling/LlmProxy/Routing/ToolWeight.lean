import LlmProxy.Lib.Ranking
import LlmProxy.Routing.HardConstraints
import LlmProxy.Routing.Router

/-! # Weighing the candidates by their tool success

`_apply_tool_success_weighting`, and the ranking `select_provider` makes of it. A score is multiplied
by the rate, which penalises a candidate as long as the score is positive.

> `tool_weight_iff`: the weighting is a penalty iff no two candidates of one score that is not
> positive, and none of a negative score and its rivals, are put in the wrong order by it.
-/

namespace LlmProxy.Routing

open Ranking (place)
open Result (orRaise_ok)

/-! ## The candidates -/

/-- The candidates of a request with tools, weighed and ranked again. -/
def reweigh (ranked : List Ranked) : List Ranked :=
  (byScore (applyToolSuccessWeighting ranked)).filter (·.score ≠ .negInf)

abbrev Ranked.id (t : Ranked) : String := t.profile.providerId

abbrev Ranked.rate (t : Ranked) : Option Rat := t.profile.toolCallSuccessRate

def Ranked.kept (t : Ranked) : Bool := t.rate.all fun r => toolSuccessHardSkipThreshold ≤ r

def Ranked.value (t : Ranked) : Rat :=
  match t.score with
  | .fin q => q
  | .negInf => 0

def Ranked.weighed (t : Ranked) : Rat := t.value * t.rate.getD 1

/-- The place of a candidate. -/
abbrev placeOf (t : Ranked) (l : List Ranked) : Nat := place Ranked.id t.id l

def Ranked.withRate (t : Ranked) (rate : Rat) : Ranked :=
  { t with profile := { t.profile with toolCallSuccessRate := some rate } }

def lowerRate (id : String) (rate : Rat) (ranked : List Ranked) : List Ranked :=
  ranked.map fun t => if t.id = id then t.withRate rate else t

/-! ## What the weighting is to do -/

variable {R : List Ranked} {a b c d t : Ranked}

/-- Of two candidates with one score the one with the higher rate is not ranked below. -/
def HigherRateFirst (R : List Ranked) : Prop :=
  ∀ a ∈ R, ∀ b ∈ R, a.score = b.score → ∀ ra rb, a.rate = some ra → b.rate = some rb → rb < ra →
    a.id ∈ (reweigh R).map Ranked.id → b.id ∈ (reweigh R).map Ranked.id →
    placeOf a (reweigh R) ≤ placeOf b (reweigh R)

/-- A lower rate does not improve a candidate's place. -/
def LoweringNeverHelps (R : List Ranked) : Prop :=
  ∀ c ∈ R, ∀ r r', c.rate = some r → 0 ≤ r' → r' < r → c.id ∈ (reweigh R).map Ranked.id →
    c.id ∈ (reweigh (lowerRate c.id r' R)).map Ranked.id →
    placeOf c (reweigh R) ≤ placeOf c (reweigh (lowerRate c.id r' R))

/-- Candidates with one rate, or both without, stay in their order. -/
def EqualRatesKeepOrder (R : List Ranked) : Prop :=
  ∀ a ∈ R, ∀ b ∈ R, a.rate = b.rate → placeOf a R < placeOf b R →
    a.id ∈ (reweigh R).map Ranked.id → b.id ∈ (reweigh R).map Ranked.id →
    placeOf a (reweigh R) < placeOf b (reweigh R)

/-- The candidates below the threshold are removed, and no others. -/
def RemovesBelowThreshold (R : List Ranked) : Prop :=
  ((reweigh R).map Ranked.id).Perm ((R.filter Ranked.kept).map Ranked.id)

/-- One value is ahead of another, or level with it and placed before. -/
def Ahead (x y : Rat) (i j : Nat) : Prop := y < x ∨ (x = y ∧ i < j)

/-- Two candidates of one score are in the right order. -/
def LevelScoresFit (R : List Ranked) : Prop :=
  ∀ a ∈ R, ∀ b ∈ R, a.score = b.score → ∀ ra rb, a.rate = some ra → b.rate = some rb →
    toolSuccessHardSkipThreshold ≤ rb → rb < ra →
    0 < a.value ∨ (a.value = 0 ∧ placeOf a R < placeOf b R)

/-- A candidate with a negative score has none before it that it could pass with a lower rate. -/
def NegativeScoresFit (R : List Ranked) : Prop :=
  ∀ c ∈ R, ∀ r, c.rate = some r → toolSuccessHardSkipThreshold ≤ r → c.value < 0 →
    ∀ d ∈ R, d.kept = true → d.id ≠ c.id →
      Ahead d.weighed c.weighed (placeOf d R) (placeOf c R) →
      Ahead d.weighed (c.value * toolSuccessHardSkipThreshold) (placeOf d R) (placeOf c R)

/-! ## Ranked lists -/

/-- What `rank_candidates_with_scores` gives of candidates with different ids. -/
structure RankedList (R : List Ranked) : Prop where
  ids : (R.map Ranked.id).Nodup
  finite : ∀ t ∈ R, t.score = .fin t.value
  descending : R.Pairwise fun a b => b.score.le a.score = true

def Ranked.weigh (t : Ranked) : Ranked :=
  match t.rate with
  | none => t
  | some rate =>
    if rate < toolSuccessHardSkipThreshold then { t with score := .negInf }
    else { t with score := t.score.scale rate }

theorem applyToolSuccessWeighting_eq (R : List Ranked) :
    applyToolSuccessWeighting R = R.map Ranked.weigh := rfl

theorem weigh_id (t : Ranked) : t.weigh.id = t.id := by
  unfold Ranked.weigh
  split
  · rfl
  · split <;> rfl

theorem weigh_score (hfinite : t.score = .fin t.value) :
    t.weigh.score = if t.kept then .fin t.weighed else .negInf := by
  unfold Ranked.weigh Ranked.kept Ranked.weighed
  cases hrate : t.rate with
  | none => simpa using hfinite
  | some rate =>
    by_cases hbelow : rate < toolSuccessHardSkipThreshold
    · simp [hbelow]
    · have hkept : toolSuccessHardSkipThreshold ≤ rate := not_lt.mp hbelow
      simp only [if_neg hbelow, Option.all_some, decide_eq_true hkept, if_true, Option.getD_some]
      rw [hfinite]
      rfl

theorem reweigh_perm (hR : RankedList R) :
    (reweigh R).Perm ((R.filter Ranked.kept).map Ranked.weigh) := by
  have hperm : (reweigh R).Perm ((R.map Ranked.weigh).filter (·.score ≠ .negInf)) := by
    unfold reweigh byScore
    rw [applyToolSuccessWeighting_eq]
    exact PyList.sortBy_perm.filter _
  have hsame : (R.map Ranked.weigh).filter (·.score ≠ .negInf) =
      (R.filter Ranked.kept).map Ranked.weigh := by
    rw [List.filter_map]
    refine congrArg _ (List.filter_congr fun t ht => ?_)
    show decide (t.weigh.score ≠ .negInf) = t.kept
    rw [weigh_score (hR.finite t ht)]
    cases t.kept with
    | true => exact decide_eq_true nofun
    | false => rfl
  exact hsame ▸ hperm

theorem map_weigh_id (l : List Ranked) : (l.map Ranked.weigh).map Ranked.id = l.map Ranked.id := by
  rw [List.map_map]
  exact List.map_congr_left fun t _ => weigh_id t

theorem reweigh_ids (hR : RankedList R) :
    ((reweigh R).map Ranked.id).Perm ((R.filter Ranked.kept).map Ranked.id) := by
  rw [← map_weigh_id (R.filter Ranked.kept)]
  exact (reweigh_perm hR).map _

theorem nodup_reweigh (hR : RankedList R) : ((reweigh R).map Ranked.id).Nodup :=
  (reweigh_ids hR).nodup_iff.mpr (hR.ids.sublist (List.filter_sublist.map _))

theorem mem_reweigh (hR : RankedList R) (ha : a ∈ R) :
    a.weigh ∈ reweigh R ↔ a.kept = true := by
  rw [(reweigh_perm hR).mem_iff, List.mem_map]
  constructor
  · rintro ⟨t, ht, hweigh⟩
    obtain ⟨htR, hkept⟩ := List.mem_filter.mp ht
    have hid : t.id = a.id := by rw [← weigh_id t, hweigh, weigh_id]
    rwa [← List.inj_on_of_nodup_map hR.ids htR ha hid]
  · intro hkept
    exact ⟨a, List.mem_filter.mpr ⟨ha, hkept⟩, rfl⟩

theorem id_mem_reweigh (hR : RankedList R) (ha : a ∈ R) :
    a.id ∈ (reweigh R).map Ranked.id ↔ a.kept = true := by
  rw [(reweigh_ids hR).mem_iff, List.mem_map]
  constructor
  · rintro ⟨t, ht, hid⟩
    obtain ⟨htR, hkept⟩ := List.mem_filter.mp ht
    rwa [← List.inj_on_of_nodup_map hR.ids htR ha hid]
  · intro hkept
    exact ⟨a, List.mem_filter.mpr ⟨ha, hkept⟩, rfl⟩

/-! ## Places -/

def aboveIn (R : List Ranked) (u v : Ranked) : Bool :=
  !u.score.le v.score || (v.score.le u.score && decide (placeOf u R < placeOf v R))

theorem aboveIn_asymm (R : List Ranked) (u v : Ranked) (h : aboveIn R u v = true) :
    aboveIn R v u = false := by
  unfold aboveIn at h ⊢
  rw [Bool.or_eq_true, Bool.and_eq_true, decide_eq_true_eq, Bool.not_eq_true'] at h
  rcases h with hlower | ⟨hle, hplace⟩
  · have hle : v.score.le u.score = true :=
      (Score.le_total u.score v.score).resolve_left (by simp [hlower])
    rw [hle, hlower]
    rfl
  · rw [hle, decide_eq_false (Nat.lt_asymm hplace), Bool.and_false]
    rfl

theorem pairwise_reweigh (hR : RankedList R) :
    (reweigh R).Pairwise fun u v => aboveIn R u v = true := by
  have htotal : ∀ a b : Ranked, b.score.le a.score = true ∨ a.score.le b.score = true :=
    fun a b => Score.le_total _ _
  have htrans : ∀ a b c : Ranked, b.score.le a.score = true → c.score.le b.score = true →
      c.score.le a.score = true := fun a b c hab hbc => Score.le_trans hbc hab
  refine List.Pairwise.filter _ (List.pairwise_iff_forall_sublist.mpr ?_)
  intro u v hsub
  rw [applyToolSuccessWeighting_eq] at hsub
  have hle : v.score.le u.score = true :=
    List.pairwise_iff_forall_sublist.mp (PyList.pairwise_sortBy htotal htrans _) hsub
  unfold aboveIn
  rw [hle, Bool.true_and, Bool.or_eq_true, Bool.not_eq_true', decide_eq_true_eq]
  cases hback : u.score.le v.score with
  | false => exact Or.inl rfl
  | true =>
    have hlevel := PyList.sublist_of_level htotal htrans hsub hle hback
    have hplace := Ranking.place_lt_of_sublist (by rw [map_weigh_id]; exact hR.ids) hlevel
    unfold place at hplace
    rw [map_weigh_id] at hplace
    exact Or.inr hplace

theorem placeOf_weigh (t : Ranked) (l : List Ranked) : placeOf t.weigh l = placeOf t l := by
  unfold placeOf
  rw [weigh_id]

theorem aboveIn_weigh (hR : RankedList R) (ha : a ∈ R) (hb : b ∈ R) (hka : a.kept = true)
    (hkb : b.kept = true) : aboveIn R a.weigh b.weigh = true ↔
      Ahead a.weighed b.weighed (placeOf a R) (placeOf b R) := by
  unfold aboveIn Ahead
  rw [placeOf_weigh, placeOf_weigh, weigh_score (hR.finite a ha), weigh_score (hR.finite b hb),
    if_pos hka, if_pos hkb]
  simp only [Score.le, Bool.or_eq_true, Bool.and_eq_true, Bool.not_eq_true', decide_eq_true_eq,
    decide_eq_false_iff_not, not_le]
  constructor
  · rintro (hlt | ⟨hle, hplace⟩)
    · exact Or.inl hlt
    · exact (lt_or_eq_of_le hle).imp id fun heq => ⟨heq.symm, hplace⟩
  · rintro (hlt | ⟨heq, hplace⟩)
    · exact Or.inl hlt
    · exact Or.inr ⟨le_of_eq heq.symm, hplace⟩

theorem place_reweigh_lt_iff (hR : RankedList R) (ha : a ∈ R) (hb : b ∈ R) (hka : a.kept = true)
    (hkb : b.kept = true) (hne : a.id ≠ b.id) : placeOf a (reweigh R) < placeOf b (reweigh R) ↔
      Ahead a.weighed b.weighed (placeOf a R) (placeOf b R) := by
  rw [← aboveIn_weigh hR ha hb hka hkb, ← placeOf_weigh a, ← placeOf_weigh b]
  refine Ranking.place_lt_iff (pairwise_reweigh hR) (aboveIn_asymm R) (nodup_reweigh hR)
    ((mem_reweigh hR ha).mpr hka) ((mem_reweigh hR hb).mpr hkb) ?_
  rwa [weigh_id, weigh_id]

theorem place_reweigh (hR : RankedList R) (ha : a ∈ R) (hka : a.kept = true) :
    placeOf a (reweigh R) = R.countP fun d => d.kept && aboveIn R d.weigh a.weigh := by
  rw [← placeOf_weigh a, placeOf, Ranking.place_eq_countP (pairwise_reweigh hR) (aboveIn_asymm R)
    (nodup_reweigh hR) ((mem_reweigh hR ha).mpr hka), (reweigh_perm hR).countP_eq, List.countP_map,
    List.countP_filter]
  refine List.countP_congr fun d _ => ?_
  rw [Bool.and_comm]
  rfl

theorem place_inj (hR : RankedList R) (ha : a ∈ R) (hb : b ∈ R) (h : placeOf a R = placeOf b R) :
    a = b :=
  List.inj_on_of_nodup_map hR.ids ha hb
    ((List.idxOf_inj (List.mem_map_of_mem ha)).mp h)

/-! ## Equal rates -/

theorem kept_iff : a.kept = true ↔ ∀ r, a.rate = some r → toolSuccessHardSkipThreshold ≤ r := by
  unfold Ranked.kept
  cases a.rate with
  | none => exact iff_of_true rfl nofun
  | some r =>
    rw [Option.all_some, decide_eq_true_eq]
    exact ⟨fun h r' hr' => Option.some.inj hr' ▸ h, fun h => h r rfl⟩

theorem rate_nonneg (hkept : a.kept = true) : 0 ≤ a.rate.getD 1 := by
  cases hrate : a.rate with
  | none => exact zero_le_one
  | some r =>
    have hthreshold : (0 : Rat) ≤ toolSuccessHardSkipThreshold := by decide +kernel
    exact hthreshold.trans (kept_iff.mp hkept r hrate)

theorem value_le_of_place_lt (hR : RankedList R) (ha : a ∈ R) (hb : b ∈ R)
    (h : placeOf a R < placeOf b R) : b.value ≤ a.value := by
  have hle := Ranking.related_of_place_lt hR.descending hR.ids ha hb h
  rw [hR.finite a ha, hR.finite b hb] at hle
  exact of_decide_eq_true hle

theorem equalRatesKeepOrder (hR : RankedList R) : EqualRatesKeepOrder R := by
  intro a ha b hb hrate hplace hina hinb
  have hka := (id_mem_reweigh hR ha).mp hina
  have hkb := (id_mem_reweigh hR hb).mp hinb
  have hne : a.id ≠ b.id := by
    intro hid
    unfold placeOf at hplace
    rw [hid] at hplace
    exact Nat.lt_irrefl _ hplace
  rw [place_reweigh_lt_iff hR ha hb hka hkb hne]
  have hweighed : b.weighed ≤ a.weighed := by
    unfold Ranked.weighed
    rw [hrate]
    exact mul_le_mul_of_nonneg_right (value_le_of_place_lt hR ha hb hplace) (rate_nonneg hkb)
  exact (lt_or_eq_of_le hweighed).imp id fun heq => ⟨heq.symm, hplace⟩

/-! ## Equal scores -/

theorem higherRateFirst_iff (hR : RankedList R) : HigherRateFirst R ↔ LevelScoresFit R := by
  have hkept : ∀ {t : Ranked} {r : Rat}, t.rate = some r →
      (t.kept = true ↔ toolSuccessHardSkipThreshold ≤ r) := by
    intro t r hrate
    rw [kept_iff]
    exact ⟨fun h => h r hrate, fun h r' hr' => Option.some.inj (hrate.symm.trans hr') ▸ h⟩
  have hbelow : ∀ {a b : Ranked} {ra rb : Rat}, a ∈ R → b ∈ R → a.score = b.score →
      a.rate = some ra → b.rate = some rb → rb < ra →
      (¬ Ahead b.weighed a.weighed (placeOf b R) (placeOf a R) ↔
        0 < a.value ∨ (a.value = 0 ∧ placeOf a R < placeOf b R)) := by
    intro a b ra rb ha hb hscore hra hrb hlt
    have hvalue : b.value = a.value := by
      unfold Ranked.value
      rw [hscore]
    have hne : placeOf a R ≠ placeOf b R := fun hplace => by
      rw [place_inj hR ha hb hplace, hrb] at hra
      exact absurd (Option.some.inj hra) (ne_of_lt hlt)
    unfold Ahead Ranked.weighed
    rw [hra, hrb, hvalue, Option.getD_some, Option.getD_some, not_or, not_lt, not_and]
    rcases lt_trichotomy a.value 0 with hneg | hzero | hpos
    · refine iff_of_false (fun h => ?_) ?_
      · exact absurd h.1 (not_le.mpr (mul_lt_mul_of_neg_left hlt hneg))
      · rintro (hpos | ⟨hzero, -⟩)
        · exact absurd hpos (lt_asymm hneg)
        · exact absurd hzero (ne_of_lt hneg)
    · rw [hzero, zero_mul, zero_mul]
      constructor
      · rintro ⟨-, hplace⟩
        exact Or.inr ⟨rfl, lt_of_le_of_ne (not_lt.mp (hplace rfl)) hne⟩
      · rintro (hpos | ⟨-, hplace⟩)
        · exact absurd hpos (lt_irrefl 0)
        · exact ⟨le_refl 0, fun _ => lt_asymm hplace⟩
    · refine iff_of_true ⟨?_, fun heq => ?_⟩ (Or.inl hpos)
      · exact le_of_lt (mul_lt_mul_of_pos_left hlt hpos)
      · exact absurd heq (ne_of_lt (mul_lt_mul_of_pos_left hlt hpos))
  have hplaced : ∀ {a b : Ranked} {ra rb : Rat}, a ∈ R → b ∈ R → a.rate = some ra →
      b.rate = some rb → rb < ra → a.kept = true → b.kept = true →
      (placeOf a (reweigh R) ≤ placeOf b (reweigh R) ↔
        ¬ Ahead b.weighed a.weighed (placeOf b R) (placeOf a R)) := by
    intro a b ra rb ha hb hra hrb hlt hka hkb
    have hne : b.id ≠ a.id := fun hid => by
      rw [List.inj_on_of_nodup_map hR.ids hb ha hid, hra] at hrb
      exact absurd (Option.some.inj hrb).symm (ne_of_lt hlt)
    rw [← not_lt, place_reweigh_lt_iff hR hb ha hkb hka hne]
  constructor
  · intro h a ha b hb hscore ra rb hra hrb hthreshold hlt
    have hka := (hkept hra).mpr (hthreshold.trans (le_of_lt hlt))
    have hkb := (hkept hrb).mpr hthreshold
    have hplace := h a ha b hb hscore ra rb hra hrb hlt ((id_mem_reweigh hR ha).mpr hka)
      ((id_mem_reweigh hR hb).mpr hkb)
    exact (hbelow ha hb hscore hra hrb hlt).mp ((hplaced ha hb hra hrb hlt hka hkb).mp hplace)
  · intro h a ha b hb hscore ra rb hra hrb hlt hina hinb
    have hka := (id_mem_reweigh hR ha).mp hina
    have hkb := (id_mem_reweigh hR hb).mp hinb
    have hfit := h a ha b hb hscore ra rb hra hrb ((hkept hrb).mp hkb) hlt
    exact (hplaced ha hb hra hrb hlt hka hkb).mpr ((hbelow ha hb hscore hra hrb hlt).mpr hfit)

/-! ## Lower rates -/

def Ranked.lowered (id : String) (rate : Rat) (t : Ranked) : Ranked :=
  if t.id = id then t.withRate rate else t

theorem lowered_id (id : String) (rate : Rat) (t : Ranked) : (t.lowered id rate).id = t.id := by
  unfold Ranked.lowered
  split <;> rfl

theorem lowered_score (id : String) (rate : Rat) (t : Ranked) :
    (t.lowered id rate).score = t.score := by
  unfold Ranked.lowered
  split <;> rfl

theorem lowerRate_ids (id : String) (rate : Rat) (R : List Ranked) :
    (lowerRate id rate R).map Ranked.id = R.map Ranked.id := by
  unfold lowerRate
  rw [List.map_map]
  exact List.map_congr_left fun t _ => lowered_id id rate t

theorem RankedList.lowerRate (hR : RankedList R) (id : String) (rate : Rat) :
    RankedList (lowerRate id rate R) := by
  refine ⟨by rw [lowerRate_ids]; exact hR.ids, fun t ht => ?_, List.pairwise_map.mpr ?_⟩
  · obtain ⟨u, hu, rfl⟩ := List.mem_map.mp ht
    have hscore := lowered_score id rate u
    have hvalue : (u.lowered id rate).value = u.value := by
      unfold Ranked.value
      rw [hscore]
    show (u.lowered id rate).score = .fin (u.lowered id rate).value
    rw [hscore, hvalue]
    exact hR.finite u hu
  · refine hR.descending.imp fun {u v} h => ?_
    show (v.lowered id rate).score.le (u.lowered id rate).score = true
    rw [lowered_score, lowered_score]
    exact h

theorem countP_le_iff {l : List Ranked} {f g : Ranked → Bool}
    (h : ∀ d ∈ l, g d = true → f d = true) :
    l.countP f ≤ l.countP g ↔ ∀ d ∈ l, f d = true → g d = true := by
  refine ⟨fun hle => ?_, fun hfg => List.countP_mono_left hfg⟩
  induction l with
  | nil => exact List.forall_mem_nil _
  | cons x l ih =>
    obtain ⟨hx, hl⟩ := List.forall_mem_cons.mp h
    have hmono : l.countP g ≤ l.countP f := List.countP_mono_left hl
    rw [List.countP_cons, List.countP_cons] at hle
    cases hg : g x with
    | true =>
      rw [hg, hx hg, if_pos rfl] at hle
      exact List.forall_mem_cons.mpr ⟨fun _ => hg, ih hl (Nat.le_of_succ_le_succ hle)⟩
    | false =>
      rw [hg, if_neg Bool.false_ne_true] at hle
      cases hf : f x with
      | true =>
        rw [hf, if_pos rfl] at hle
        omega
      | false =>
        rw [hf, if_neg Bool.false_ne_true] at hle
        exact List.forall_mem_cons.mpr ⟨fun h => absurd (hf.symm.trans h) (by decide), ih hl hle⟩

theorem lower_iff (hR : RankedList R) (hc : c ∈ R) {r r' : Rat} (hrate : c.rate = some r)
    (hthreshold : toolSuccessHardSkipThreshold ≤ r') (hlt : r' < r) :
    placeOf c (reweigh R) ≤ placeOf c (reweigh (lowerRate c.id r' R)) ↔
      (c.value < 0 → ∀ d ∈ R, d.kept = true → d.id ≠ c.id →
        Ahead d.weighed c.weighed (placeOf d R) (placeOf c R) →
        Ahead d.weighed (c.value * r') (placeOf d R) (placeOf c R)) := by
  have hR' := hR.lowerRate c.id r'
  have hkc : c.kept = true := kept_iff.mpr fun q hq => by
    rw [← Option.some.inj (hrate.symm.trans hq)]
    exact hthreshold.trans (le_of_lt hlt)
  have hlowered : c.lowered c.id r' = c.withRate r' := if_pos rfl
  have hc' : c.withRate r' ∈ lowerRate c.id r' R := by
    rw [← hlowered]
    exact List.mem_map_of_mem hc
  have hkc' : (c.withRate r').kept = true := decide_eq_true hthreshold
  have hplaces : ∀ d : Ranked, placeOf d (lowerRate c.id r' R) = placeOf d R := fun d => by
    unfold placeOf place
    rw [lowerRate_ids]
  have hself : ∀ (l : List Ranked) (u : Ranked), aboveIn l u u = false := fun l u => by
    by_contra habove
    have habove := Bool.not_eq_false _ ▸ habove
    exact absurd (habove.symm.trans (aboveIn_asymm l u u habove)) (by decide)
  have hf : ∀ d ∈ R, ((d.kept && aboveIn R d.weigh c.weigh) = true ↔
      d.kept = true ∧ d.id ≠ c.id ∧ Ahead d.weighed c.weighed (placeOf d R) (placeOf c R)) := by
    intro d hd
    rw [Bool.and_eq_true]
    refine and_congr_right fun hkd => ?_
    by_cases hid : d.id = c.id
    · rw [List.inj_on_of_nodup_map hR.ids hd hc hid, hself]
      exact iff_of_false Bool.false_ne_true fun h => h.1 rfl
    · rw [aboveIn_weigh hR hd hc hkd hkc]
      exact (and_iff_right hid).symm
  have hg : ∀ d ∈ R, (((d.lowered c.id r').kept &&
      aboveIn (lowerRate c.id r' R) (d.lowered c.id r').weigh (c.withRate r').weigh) = true ↔
      d.kept = true ∧ d.id ≠ c.id ∧
        Ahead d.weighed (c.value * r') (placeOf d R) (placeOf c R)) := by
    intro d hd
    by_cases hid : d.id = c.id
    · obtain rfl := List.inj_on_of_nodup_map hR.ids hd hc hid
      rw [hlowered, hself, Bool.and_false]
      exact iff_of_false Bool.false_ne_true fun h => h.2.1 rfl
    · have hsame : d.lowered c.id r' = d := if_neg hid
      have hd' : d.lowered c.id r' ∈ lowerRate c.id r' R := List.mem_map_of_mem hd
      rw [hsame] at hd'
      rw [hsame, Bool.and_eq_true]
      refine and_congr_right fun hkd => ?_
      rw [aboveIn_weigh hR' hd' hc' hkd hkc', hplaces, hplaces]
      exact (and_iff_right hid).symm
  have hcount : placeOf c (reweigh (lowerRate c.id r' R)) = R.countP fun d =>
      (d.lowered c.id r').kept &&
        aboveIn (lowerRate c.id r' R) (d.lowered c.id r').weigh (c.withRate r').weigh := by
    have hplace := place_reweigh hR' hc' hkc'
    rw [lowerRate, List.countP_map] at hplace
    exact hplace
  rw [place_reweigh hR hc hkc, hcount]
  by_cases hneg : c.value < 0
  · have hhigher : c.weighed < c.value * r' := by
      unfold Ranked.weighed
      rw [hrate, Option.getD_some]
      exact mul_lt_mul_of_neg_left hlt hneg
    rw [countP_le_iff]
    · refine ⟨fun h _ d hd hkd hid hahead => ?_, fun h d hd hfd => ?_⟩
      · exact ((hg d hd).mp (h d hd ((hf d hd).mpr ⟨hkd, hid, hahead⟩))).2.2
      · obtain ⟨hkd, hid, hahead⟩ := (hf d hd).mp hfd
        exact (hg d hd).mpr ⟨hkd, hid, h hneg d hd hkd hid hahead⟩
    · intro d hd hgd
      obtain ⟨hkd, hid, hahead⟩ := (hg d hd).mp hgd
      refine (hf d hd).mpr ⟨hkd, hid, Or.inl ?_⟩
      rcases hahead with hlower | ⟨heq, -⟩
      · exact hhigher.trans hlower
      · rw [heq]
        exact hhigher
  · refine iff_of_true (List.countP_mono_left fun d hd hfd => ?_) fun h => absurd h hneg
    obtain ⟨hkd, hid, hahead⟩ := (hf d hd).mp hfd
    refine (hg d hd).mpr ⟨hkd, hid, ?_⟩
    have hlower : c.value * r' ≤ c.weighed := by
      unfold Ranked.weighed
      rw [hrate, Option.getD_some]
      exact mul_le_mul_of_nonneg_left (le_of_lt hlt) (not_lt.mp hneg)
    rcases hahead with hahead | ⟨heq, hplace⟩
    · exact Or.inl (lt_of_le_of_lt hlower hahead)
    · exact (lt_or_eq_of_le hlower).imp (fun h => heq ▸ h) fun h => ⟨heq.trans h.symm, hplace⟩

theorem loweringNeverHelps_iff (hR : RankedList R) : LoweringNeverHelps R ↔ NegativeScoresFit R := by
  have hnonneg : (0 : Rat) ≤ toolSuccessHardSkipThreshold := by decide +kernel
  constructor
  · intro h c hc r hrate hthreshold hneg d hd hkd hid hahead
    have hkc : c.kept = true := kept_iff.mpr fun q hq =>
      Option.some.inj (hrate.symm.trans hq) ▸ hthreshold
    rcases lt_or_eq_of_le hthreshold with hlt | heq
    · -- the lowest rate that is kept passes all that any lower rate passes
      have hlowered : c.lowered c.id toolSuccessHardSkipThreshold =
          c.withRate toolSuccessHardSkipThreshold := if_pos rfl
      have hc' : c.withRate toolSuccessHardSkipThreshold ∈
          lowerRate c.id toolSuccessHardSkipThreshold R := by
        rw [← hlowered]
        exact List.mem_map_of_mem hc
      have hin' := (id_mem_reweigh (hR.lowerRate c.id toolSuccessHardSkipThreshold) hc').mpr
        (decide_eq_true (le_refl _))
      have hplace := h c hc r _ hrate hnonneg hlt ((id_mem_reweigh hR hc).mpr hkc) hin'
      exact (lower_iff hR hc hrate (le_refl _) hlt).mp hplace hneg d hd hkd hid hahead
    · have hweighed : c.weighed = c.value * toolSuccessHardSkipThreshold := by
        unfold Ranked.weighed
        rw [hrate, Option.getD_some, heq]
      rwa [← hweighed]
  · intro h c hc r r' hrate _ hlt _ hin'
    have hlowered : c.lowered c.id r' = c.withRate r' := if_pos rfl
    have hc' : c.withRate r' ∈ lowerRate c.id r' R := by
      rw [← hlowered]
      exact List.mem_map_of_mem hc
    have hkc' := (id_mem_reweigh (hR.lowerRate c.id r') hc').mp hin'
    have hthreshold : toolSuccessHardSkipThreshold ≤ r' := of_decide_eq_true hkc'
    refine (lower_iff hR hc hrate hthreshold hlt).mpr fun hneg d hd hkd hid hahead => ?_
    have hfit := h c hc r hrate (hthreshold.trans (le_of_lt hlt)) hneg d hd hkd hid hahead
    have hmono : c.value * r' ≤ c.value * toolSuccessHardSkipThreshold :=
      mul_le_mul_of_nonpos_left hthreshold (le_of_lt hneg)
    rcases hfit with hlower | ⟨heq, hplace⟩
    · exact Or.inl (lt_of_le_of_lt hmono hlower)
    · exact (lt_or_eq_of_le hmono).imp (fun hlower => heq ▸ hlower) fun hsame =>
        ⟨heq.trans hsame.symm, hplace⟩

/-! ## What is ranked -/

theorem ids_of_profile (R : List Ranked) :
    R.map Ranked.id = (R.map (·.profile)).map (·.providerId) := by
  rw [List.map_map]
  rfl

/-- **What is ranked** has a finite score, and stands by descending score. -/
theorem rankedList_of_rank {profiles : List CapabilityProfile} {hint : Option LMRHHint}
    (hids : (profiles.map (·.providerId)).Nodup)
    (h : rankCandidatesWithScores profiles hint = .ok R) : RankedList R := by
  cases hint with
  | none =>
    obtain rfl := Except.ok.inj h
    have htotal : ∀ a b : CapabilityProfile, decide (a.priority ≤ b.priority) = true ∨
        decide (b.priority ≤ a.priority) = true := fun a b => by
      simpa using le_total a.priority b.priority
    have htrans : ∀ a b c : CapabilityProfile, decide (a.priority ≤ b.priority) = true →
        decide (b.priority ≤ c.priority) = true → decide (a.priority ≤ c.priority) = true :=
      fun a b c hab hbc => decide_eq_true ((of_decide_eq_true hab).trans (of_decide_eq_true hbc))
    refine ⟨?_, fun t ht => ?_, List.pairwise_map.mpr ?_⟩
    · rw [List.map_map]
      exact (PyList.sortBy_perm.map _).nodup_iff.mpr hids
    · obtain ⟨p, -, rfl⟩ := List.mem_map.mp ht
      rfl
    · refine (PyList.pairwise_sortBy htotal htrans profiles).imp fun {a b} hab => ?_
      refine decide_eq_true (Rat.intCast_le_intCast.mpr ?_)
      have hle := of_decide_eq_true hab
      omega
  | some hint =>
    have hall : ∃ ranked, scoreAll hint profiles = .ok ranked ∧ R = byScore ranked := by
      cases hscored : scoreAll hint profiles with
      | error message =>
        simp only [rankCandidatesWithScores, hscored] at h
        cases h
      | ok ranked =>
        simp only [rankCandidatesWithScores, hscored] at h
        exact ⟨ranked, rfl, (Except.ok.inj h).symm⟩
    obtain ⟨ranked, hscored, rfl⟩ := hall
    obtain ⟨hperm, hdescending, -⟩ := byScore_stable ranked
    refine ⟨?_, fun t ht => ?_, hdescending⟩
    · rw [ids_of_profile]
      have hsub : ((byScore ranked).map (·.profile)).Subperm profiles := by
        rw [scoreAll_eq hscored] at hperm ⊢
        exact (hperm.map _).subperm.trans finite_subperm
      obtain ⟨l, hl, hsublist⟩ := hsub
      exact (hl.map _).nodup_iff.mp (hids.sublist (hsublist.map _))
    · have hmem := hperm.mem_iff.mp ht
      rw [scoreAll_eq hscored, List.mem_filterMap] at hmem
      obtain ⟨p, -, hfinite⟩ := hmem
      unfold finiteScore at hfinite
      split at hfinite
      · obtain rfl := Option.some.inj hfinite
        rfl
      · cases hfinite

/-- A lower rate of the profile is a lower rate of the candidate, and nothing else. -/
def CapabilityProfile.lowered (id : String) (rate : Rat) (p : CapabilityProfile) :
    CapabilityProfile :=
  if p.providerId = id then { p with toolCallSuccessRate := some rate } else p

theorem scoreDim_withRate (p : CapabilityProfile) (rate : Option Rat) (d : HintDimension) :
    scoreDim { p with toolCallSuccessRate := rate } d = scoreDim p d := rfl

theorem scoreDims_withRate (p : CapabilityProfile) (rate : Option Rat) (dims : List HintDimension)
    (score : Rat) (unmet : List String) :
    scoreDims { p with toolCallSuccessRate := rate } dims score unmet =
      scoreDims p dims score unmet := by
  induction dims generalizing score unmet with
  | nil => rfl
  | cons d dims ih => simp only [scoreDims, scoreDim_withRate, ih]

theorem scoreCandidate_lowered (id : String) (rate : Rat) (p : CapabilityProfile)
    (hint : LMRHHint) : scoreCandidate (p.lowered id rate) hint = scoreCandidate p hint := by
  unfold CapabilityProfile.lowered
  split
  · unfold scoreCandidate
    rw [scoreDims_withRate]
    rfl
  · rfl

theorem lowered_mk (id : String) (rate : Rat) (p : CapabilityProfile) (unmet : List String)
    (score : Score) : (⟨p.lowered id rate, unmet, score⟩ : Ranked) =
      Ranked.lowered id rate ⟨p, unmet, score⟩ := by
  unfold CapabilityProfile.lowered Ranked.lowered
  split <;> rfl

theorem finiteScore_lowered (id : String) (rate : Rat) (hint : LMRHHint) (p : CapabilityProfile) :
    finiteScore hint (p.lowered id rate) = (finiteScore hint p).map (Ranked.lowered id rate) := by
  unfold finiteScore
  rw [scoreCandidate_lowered]
  split
  · rw [Option.map_some, lowered_mk]
  · rfl

/-- **The ranking of candidates with a lower rate** is the ranking as it was, with the lower rate. -/
theorem rank_lowered {profiles : List CapabilityProfile} {hint : Option LMRHHint}
    (h : rankCandidatesWithScores profiles hint = .ok R) (id : String) (rate : Rat) :
    rankCandidatesWithScores (profiles.map (CapabilityProfile.lowered id rate)) hint =
      .ok (lowerRate id rate R) := by
  cases hint with
  | none =>
    obtain rfl := Except.ok.inj h
    have hpriority : ∀ p : CapabilityProfile, (p.lowered id rate).priority = p.priority := fun p => by
      unfold CapabilityProfile.lowered
      split <;> rfl
    refine congrArg Except.ok ?_
    rw [PyList.sortBy_map fun a b => by rw [hpriority a, hpriority b], List.map_map, lowerRate,
      List.map_map]
    refine List.map_congr_left fun p _ => ?_
    show (⟨p.lowered id rate, [], _⟩ : Ranked) = _
    rw [hpriority, lowered_mk]
    rfl
  | some hint =>
    cases hscored : scoreAll hint profiles with
    | error message =>
      simp only [rankCandidatesWithScores, hscored] at h
      cases h
    | ok ranked =>
      simp only [rankCandidatesWithScores, hscored] at h
      obtain rfl := Except.ok.inj h
      have hall : ∀ p ∈ profiles.map (CapabilityProfile.lowered id rate),
          ∃ r, scoreCandidate p hint = .ok r := by
        intro p hp
        obtain ⟨q, hq, rfl⟩ := List.mem_map.mp hp
        rw [scoreCandidate_lowered]
        exact scoreAll_ok_iff.mp ⟨ranked, hscored⟩ q hq
      obtain ⟨ranked', hscored'⟩ := scoreAll_ok_iff.mpr hall
      have hmap : ranked' = ranked.map (Ranked.lowered id rate) := by
        rw [scoreAll_eq hscored', scoreAll_eq hscored, List.filterMap_map, List.map_filterMap]
        refine List.filterMap_congr fun p _ => ?_
        exact finiteScore_lowered id rate hint p
      simp only [rankCandidatesWithScores, hscored', hmap, byScore]
      refine congrArg Except.ok (PyList.sortBy_map (fun a b => ?_) ranked)
      rw [lowered_score, lowered_score]

/-- **The weighting is a penalty** iff the level and the negative scores fit. -/
theorem tool_weight_iff (profiles : List CapabilityProfile) (hint : Option LMRHHint)
    (R : List Ranked) (hids : (profiles.map (·.providerId)).Nodup)
    (hrank : rankCandidatesWithScores profiles hint = .ok R) :
    HigherRateFirst R ∧ LoweringNeverHelps R ∧ EqualRatesKeepOrder R ∧ RemovesBelowThreshold R ↔
      LevelScoresFit R ∧ NegativeScoresFit R := by
  have hR := rankedList_of_rank hids hrank
  rw [higherRateFirst_iff hR, loweringNeverHelps_iff hR]
  exact and_congr_right fun _ => and_iff_left ⟨equalRatesKeepOrder hR, reweigh_ids hR⟩

/-- Two providers that are over their budget, the second of them better at tools. -/
def overBudget (id : String) (rate : Rat) : CapabilityProfile where
  providerId := id
  providerType := "openai"
  modelId := "gpt-4o"
  priority := 100
  overDailyBudget := true
  toolCallSuccessRate := some rate

def chatHint : LMRHHint where
  raw := "task=chat"
  dimensions := [{ key := "task", value := "chat" }]

/-- Candidates with positive scores: a slow one with a higher rate and a quick one. -/
def inBudget (id : String) (rate : Rat) : CapabilityProfile :=
  { overBudget id rate with overDailyBudget := false }

theorem in_budget_penalty : ∃ R,
    rankCandidatesWithScores [inBudget "p1" (1 / 2), inBudget "p2" (9 / 10)] (some chatHint) = .ok R ∧
      HigherRateFirst R ∧ LoweringNeverHelps R ∧ EqualRatesKeepOrder R ∧ RemovesBelowThreshold R := by
  refine ⟨[⟨inBudget "p1" (1 / 2), [], .fin 10⟩, ⟨inBudget "p2" (9 / 10), [], .fin 10⟩],
    by decide +kernel, ?_⟩
  refine (tool_weight_iff [inBudget "p1" (1 / 2), inBudget "p2" (9 / 10)] (some chatHint) _
    (by decide) (by decide +kernel)).mpr ⟨?_, ?_⟩
  · intro a ha b hb _ ra rb _ _ _ _
    have hvalue : ∀ t ∈ [(⟨inBudget "p1" (1 / 2), [], .fin 10⟩ : Ranked),
        ⟨inBudget "p2" (9 / 10), [], .fin 10⟩], t.value = 10 := by
      intro t ht
      rcases List.mem_cons.mp ht with rfl | ht
      · rfl
      · rw [List.mem_singleton.mp ht]
        rfl
    rw [hvalue a ha]
    exact Or.inl (by decide +kernel)
  · intro c hc r _ _ hneg
    rcases List.mem_cons.mp hc with rfl | hc
    · exact absurd hneg (by decide +kernel)
    · rw [List.mem_singleton.mp hc] at hneg
      exact absurd hneg (by decide +kernel)

theorem rank_lowered_p1 : rankCandidatesWithScores
    ([inBudget "p1" (1 / 2), inBudget "p2" (9 / 10)].map (CapabilityProfile.lowered "p1" 0))
      (some chatHint) = .ok (lowerRate "p1" 0
        [⟨inBudget "p1" (1 / 2), [], .fin 10⟩, ⟨inBudget "p2" (9 / 10), [], .fin 10⟩]) :=
  rank_lowered (by decide +kernel) "p1" 0

/-- Of two candidates over their budget the one that is worse at tools is ranked first. -/
theorem over_budget_inverted :
    rankCandidatesWithScores [overBudget "p1" (1 / 2), overBudget "p2" (9 / 10)] (some chatHint) =
        .ok [⟨overBudget "p1" (1 / 2), [], .fin (-40)⟩, ⟨overBudget "p2" (9 / 10), [], .fin (-40)⟩] ∧
      ¬ HigherRateFirst [⟨overBudget "p1" (1 / 2), [], .fin (-40)⟩,
        ⟨overBudget "p2" (9 / 10), [], .fin (-40)⟩] := by
  refine ⟨by decide +kernel, fun h => ?_⟩
  have hplace := h ⟨overBudget "p2" (9 / 10), [], .fin (-40)⟩ (by simp)
    ⟨overBudget "p1" (1 / 2), [], .fin (-40)⟩ (by simp) rfl (9 / 10) (1 / 2) rfl rfl
    (by decide +kernel) (by decide +kernel) (by decide +kernel)
  exact absurd hplace (by decide +kernel)

end LlmProxy.Routing
