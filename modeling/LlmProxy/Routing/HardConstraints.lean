import LlmProxy.Routing.HintParser
import LlmProxy.Routing.Scoring

/-! # Hard constraints

What a `;require` does to a candidate, and what the order of the dimensions does.

> `routing_returns_iff`: a hint is scored for every candidate iff a number that cannot be read only
> stands behind a constraint the candidate fails;
> `required_hard_iff`: no required dimension is left unmet iff none is of an unknown scale.
-/

namespace LlmProxy.Routing

variable {profile : CapabilityProfile} {hint : LMRHHint} {profiles : List CapabilityProfile}
  {d : HintDimension} {q : Rat} {unmet : List String}

/-- `rank_candidates`. -/
def rankCandidates (profiles : List CapabilityProfile) (hint : Option LMRHHint) :
    Except String (List (CapabilityProfile × List String)) :=
  match hint with
  | none => .ok ((PyList.sortBy (fun a b => a.priority ≤ b.priority) profiles).map fun p => (p, []))
  | some h =>
    match scoreAll h profiles with
    | .error message => .error message
    | .ok scored => .ok ((byScore scored).map fun t => (t.profile, t.unmet))

/-! ## The scored candidates -/

/-- The candidate with its score, where that is finite. -/
def finiteScore (hint : LMRHHint) (p : CapabilityProfile) : Option Ranked :=
  match scoreCandidate p hint with
  | .ok (.fin q, unmet) => some ⟨p, unmet, .fin q⟩
  | _ => none

theorem profile_of_finiteScore {p : CapabilityProfile} {t : Ranked} (h : finiteScore hint p = some t) :
    t.profile = p := by
  unfold finiteScore at h
  split at h
  · exact congrArg Ranked.profile (Option.some.inj h).symm
  · cases h

theorem scoreAll_cons {p : CapabilityProfile} {rest : List CapabilityProfile} {score : Score}
    {more : List Ranked} (hp : scoreCandidate p hint = .ok (score, unmet))
    (hrest : scoreAll hint rest = .ok more) : scoreAll hint (p :: rest) =
      .ok (if score = .negInf then more else ⟨p, unmet, score⟩ :: more) := by
  simp only [scoreAll, hp, hrest]

theorem scoreAll_cons_ok {p : CapabilityProfile} {rest : List CapabilityProfile}
    {ranked : List Ranked} (h : scoreAll hint (p :: rest) = .ok ranked) :
    ∃ score unmet more, scoreCandidate p hint = .ok (score, unmet) ∧
      scoreAll hint rest = .ok more := by
  cases hp : scoreCandidate p hint with
  | error message =>
    simp only [scoreAll, hp] at h
    cases h
  | ok r =>
    cases hrest : scoreAll hint rest with
    | error message =>
      simp only [scoreAll, hp, hrest] at h
      cases h
    | ok more => exact ⟨r.1, r.2, more, rfl, rfl⟩

theorem scoreAll_ok_iff :
    (∃ ranked, scoreAll hint profiles = .ok ranked) ↔
      ∀ p ∈ profiles, ∃ r, scoreCandidate p hint = .ok r := by
  induction profiles with
  | nil => exact iff_of_true ⟨[], rfl⟩ (List.forall_mem_nil _)
  | cons p rest ih =>
    rw [List.forall_mem_cons, ← ih]
    constructor
    · rintro ⟨ranked, h⟩
      obtain ⟨score, unmet, more, hp, hrest⟩ := scoreAll_cons_ok h
      exact ⟨⟨_, hp⟩, more, hrest⟩
    · rintro ⟨⟨⟨score, unmet⟩, hp⟩, more, hrest⟩
      exact ⟨_, scoreAll_cons hp hrest⟩

theorem scoreAll_eq {ranked : List Ranked} (h : scoreAll hint profiles = .ok ranked) :
    ranked = profiles.filterMap (finiteScore hint) := by
  induction profiles generalizing ranked with
  | nil => exact (Except.ok.inj h).symm
  | cons p rest ih =>
    obtain ⟨score, unmet, more, hp, hrest⟩ := scoreAll_cons_ok h
    have hranked := Except.ok.inj (h.symm.trans (scoreAll_cons hp hrest))
    rw [hranked, List.filterMap_cons, ← ih hrest]
    cases score with
    | negInf =>
      have hnone : finiteScore hint p = none := by simp only [finiteScore, hp]
      rw [hnone]
      rfl
    | fin q =>
      have hsome : finiteScore hint p = some ⟨p, unmet, .fin q⟩ := by simp only [finiteScore, hp]
      rw [hsome]
      rfl

theorem finite_subperm :
    ((profiles.filterMap (finiteScore hint)).map (·.profile)).Subperm profiles := by
  refine List.Sublist.subperm ?_
  induction profiles with
  | nil => exact List.Sublist.refl []
  | cons p rest ih =>
    rw [List.filterMap_cons]
    cases hp : finiteScore hint p with
    | none => exact ih.cons p
    | some t =>
      rw [List.map_cons, profile_of_finiteScore hp]
      exact ih.cons_cons p

/-! ## Every header is scored -/

/-- What a hint is to do: every candidate is scored, and the ranking holds some of them. -/
def RoutingReturns (hint : LMRHHint) (profiles : List CapabilityProfile) : Prop :=
  (∀ p ∈ profiles, ∃ r, scoreCandidate p hint = .ok r) ∧
  ∃ ranked, rankCandidatesWithScores profiles (some hint) = .ok ranked ∧
    (ranked.map (·.profile)).Subperm profiles

/-- **A hint is scored** for every candidate iff a number that cannot be read only stands behind a
constraint the candidate fails. -/
theorem routing_returns_iff (hint : LMRHHint) (profiles : List CapabilityProfile) :
    RoutingReturns hint profiles ↔ ∀ p ∈ profiles, ReadsOn p hint.dimensions := by
  have hscored : (∀ p ∈ profiles, ∃ r, scoreCandidate p hint = .ok r) ↔
      ∀ p ∈ profiles, ReadsOn p hint.dimensions :=
    forall₂_congr fun p _ => scoreCandidate_ok_iff
  unfold RoutingReturns
  rw [← hscored]
  refine and_iff_left_of_imp fun hall => ?_
  obtain ⟨ranked, hranked⟩ := scoreAll_ok_iff.mpr hall
  refine ⟨byScore ranked, ?_, ?_⟩
  · simp only [rankCandidatesWithScores, hranked]
  · have hperm : ((byScore ranked).map (·.profile)).Perm (ranked.map (·.profile)) :=
      PyList.sortBy_perm.map _
    rw [scoreAll_eq hranked] at hperm ⊢
    exact hperm.subperm.trans finite_subperm

/-- `safety-min=very high`, which no dictionary of RFC 8941 can be. -/
def wordyHint : LMRHHint :=
  { raw := "safety-min=very high", dimensions := [{ key := "safety-min", value := "very high" }] }

theorem wordy_safety_raises :
    parseHint (fun _ => none) (some "safety-min=very high") = .ok (some wordyHint) ∧
      ¬ RoutingReturns wordyHint
        [{ providerId := "p1", providerType := "openai", modelId := "gpt-4o" }] := by
  refine ⟨by decide +kernel, ?_⟩
  rw [routing_returns_iff]
  intro hreads
  obtain ⟨e, he, -⟩ := hreads _ List.mem_cons_self [] { key := "safety-min", value := "very high" }
    [] rfl ⟨by decide, by decide +kernel⟩
  cases he

/-! ## What a required dimension does -/

/-- A scale of refusals and the value of it are not in the tables. -/
def HintDimension.UnknownScale (d : HintDimension) : Prop :=
  (d.key = "refusal-rate" ∧ refusalRateCeil (PyStr.lower d.value) = none) ∨
  (d.key = "refuse-tolerance" ∧ refuseTolerance (PyStr.lower d.value) = none)

/-- A profile that is scored on the dimension as it wants, or not at all. -/
def Meets (profile : CapabilityProfile) (d : HintDimension) : Prop :=
  (∃ points, scoreDim profile d = .met points) ∨ scoreDim profile d = .ignored

theorem judge_isUnmet {satisfied : Bool} {points : Rat}
    (h : (judge d satisfied points).isUnmet = true) : d.required = false := by
  unfold judge at h
  split at h
  · cases h
  · split at h
    · cases h
    · next hsoft => exact Bool.not_eq_true _ ▸ hsoft

theorem judgeInt_isUnmet {satisfied : Int → Bool} {points : Rat}
    (h : (judgeInt d satisfied points).isUnmet = true) : d.required = false := by
  unfold judgeInt at h
  split at h
  · exact judge_isUnmet h
  · cases h

/-- **A required dimension is unmet** only for want of a known value. -/
theorem required_isUnmet_iff (hreq : d.required = true) :
    (scoreDim profile d).isUnmet = true ↔ d.UnknownScale := by
  constructor
  · intro h
    have hsoft : ∀ {satisfied : Bool} {points : Rat},
        (judge d satisfied points).isUnmet ≠ true := fun hunmet =>
      absurd (hreq.symm.trans (judge_isUnmet hunmet)) (by decide)
    have hsoftInt : ∀ {satisfied : Int → Bool} {points : Rat},
        (judgeInt d satisfied points).isUnmet ≠ true := fun hunmet =>
      absurd (hreq.symm.trans (judgeInt_isUnmet hunmet)) (by decide)
    unfold scoreDim at h
    split at h
    · exact absurd h hsoft
    · exact absurd h hsoftInt
    · exact absurd h hsoftInt
    · exact absurd h hsoft
    · exact absurd h hsoft
    · split at h
      · split at h <;> cases h
      · exact absurd h hsoft
    · exact absurd h hsoftInt
    · exact absurd h hsoft
    · exact absurd h hsoft
    · exact absurd h hsoft
    · dsimp only at h
      rw [hreq] at h
      split at h <;> cases h
    · exact absurd h hsoft
    · exact absurd h hsoft
    · next hkey =>
      split at h
      · next hnone => exact Or.inl ⟨hkey, hnone⟩
      · exact absurd h hsoft
    · next hkey =>
      split at h
      · next hnone => exact Or.inr ⟨hkey, hnone⟩
      · exact absurd h hsoft
    · cases h
  · rintro (⟨hkey, hnone⟩ | ⟨hkey, hnone⟩)
    · have hmissed : scoreDim profile d = .missed := by simp only [scoreDim, hkey, hnone]
      rw [hmissed]
      rfl
    · have hmissed : scoreDim profile d = .missed := by simp only [scoreDim, hkey, hnone]
      rw [hmissed]
      rfl

def HintDimension.withRequired (d : HintDimension) (b : Bool) : HintDimension :=
  { d with required := b }

theorem judge_withRequired {satisfied : Bool} {points : Rat} (b : Bool)
    (h : (∃ points', judge d satisfied points = .met points') ∨ judge d satisfied points = .ignored) :
    judge (d.withRequired b) satisfied points = judge d satisfied points := by
  cases satisfied with
  | true => rfl
  | false =>
    unfold judge at h
    rw [if_neg Bool.false_ne_true] at h
    rcases h with ⟨points', h⟩ | h <;> split at h <;> cases h

theorem judgeInt_withRequired {satisfied : Int → Bool} {points : Rat} (b : Bool)
    (h : (∃ points', judgeInt d satisfied points = .met points') ∨
      judgeInt d satisfied points = .ignored) :
    judgeInt (d.withRequired b) satisfied points = judgeInt d satisfied points := by
  unfold judgeInt at h ⊢
  have hvalue : (d.withRequired b).value = d.value := rfl
  rw [hvalue]
  split
  · next n hn =>
    simp only [hn] at h
    exact judge_withRequired b h
  · rfl

/-- **A dimension that is met** is met as well when it is required, and when it is not. -/
theorem scoreDim_withRequired (b : Bool) (h : Meets profile d) :
    scoreDim profile (d.withRequired b) = scoreDim profile d := by
  have hkey : (d.withRequired b).key = d.key := rfl
  have hvalue : (d.withRequired b).value = d.value := rfl
  have hsovereign : (d.withRequired b).sovereign = d.sovereign := rfl
  unfold Meets at h
  unfold scoreDim at h ⊢
  rw [hkey, hvalue, hsovereign]
  split
  · next hcase =>
    simp only [hcase] at h
    exact judge_withRequired b h
  · next hcase =>
    simp only [hcase] at h
    exact judgeInt_withRequired b h
  · next hcase =>
    simp only [hcase] at h
    exact judgeInt_withRequired b h
  · next hcase =>
    simp only [hcase] at h
    exact judge_withRequired b h
  · next hcase =>
    simp only [hcase] at h
    exact judge_withRequired b h
  · next hcase =>
    simp only [hcase] at h
    split
    · rfl
    · next hregions =>
      rw [if_neg hregions] at h
      exact judge_withRequired b h
  · next hcase =>
    simp only [hcase] at h
    exact judgeInt_withRequired b h
  · next hcase =>
    simp only [hcase] at h
    exact judge_withRequired b h
  · next hcase =>
    simp only [hcase] at h
    exact judge_withRequired b h
  · next hcase =>
    simp only [hcase] at h
    exact judge_withRequired b h
  · next hcase =>
    simp only [hcase] at h
    dsimp only
    cases hexcluded : ((listValue d.value).map PyStr.lower).contains (PyStr.lower profile.providerName)
        || ((listValue d.value).map PyStr.lower).contains (PyStr.lower profile.providerType) with
    | true =>
      rw [if_pos hexcluded] at h
      rcases h with ⟨points, h⟩ | h <;> split at h <;> cases h
    | false => rfl
  · next hcase =>
    simp only [hcase] at h
    exact judge_withRequired b h
  · next hcase =>
    simp only [hcase] at h
    exact judge_withRequired b h
  · next hcase =>
    simp only [hcase] at h
    split
    · rfl
    · next ceil hceil =>
      simp only [hceil] at h
      exact judge_withRequired b h
  · next hcase =>
    simp only [hcase] at h
    split
    · rfl
    · next range hrange =>
      simp only [hrange] at h
      exact judge_withRequired b h
  · rfl

/-! ## The order of the dimensions -/

theorem stops_iff_of_number (hnum : ¬ d.NoInteger) :
    (scoreDim profile d).stops = true ↔ scoreDim profile d = .failed := by
  rw [DimVerdict.stops_iff, scoreDim_invalid_iff]
  exact or_iff_left hnum

theorem scoreCandidate_of_numbers (profile : CapabilityProfile)
    (hnum : ∀ d ∈ hint.dimensions, ¬ d.NoInteger) :
    (∃ d ∈ hint.dimensions, scoreDim profile d = .failed) ∧
      (∃ keys, scoreCandidate profile hint = .ok (.negInf, keys)) ∨
    (∀ d ∈ hint.dimensions, (scoreDim profile d).stops = false) ∧
      scoreCandidate profile hint =
        .ok (.fin (pointsOf profile hint.dimensions + baseScore profile),
          (unmetDims profile hint.dimensions).map (·.key)) := by
  rcases goesOn_or_stops profile hint.dimensions with hgoes | ⟨before, d, after, heq, hbefore, hd⟩
  · exact Or.inr ⟨hgoes, scoreCandidate_eq_fin_iff.mpr ⟨hgoes, rfl, rfl⟩⟩
  · have hmem : d ∈ hint.dimensions := heq ▸ List.mem_append_right before List.mem_cons_self
    have hfailed := (stops_iff_of_number (hnum d hmem)).mp hd
    refine Or.inl ⟨⟨d, hmem, hfailed⟩, [d.key], ?_⟩
    unfold scoreCandidate
    rw [heq, scoreDims_of_failed hbefore hfailed]

theorem pointsOf_perm {dims dims' : List HintDimension} (h : dims.Perm dims') :
    pointsOf profile dims = pointsOf profile dims' := (h.map _).sum_eq

theorem unmetDims_perm {dims dims' : List HintDimension} (h : dims.Perm dims') :
    (unmetDims profile dims).Perm (unmetDims profile dims') := h.filter _

/-! ## Stable rankings -/

/-- The elements of a list by descending score, and in their order where the scores are equal. -/
structure StableDescending (xs ys : List Ranked) : Prop where
  perm : ys.Perm xs
  descending : ys.Pairwise fun a b => b.score.le a.score = true
  stable : ∀ s, ys.filter (·.score = s) = xs.filter (·.score = s)

theorem Score.le_total (a b : Score) : a.le b = true ∨ b.le a = true := by
  cases a with
  | negInf => exact Or.inl rfl
  | fin x =>
    cases b with
    | negInf => exact Or.inr rfl
    | fin y => exact (Rat.le_total).imp (fun h => decide_eq_true h) fun h => decide_eq_true h

theorem Score.le_trans {a b c : Score} (hab : a.le b = true) (hbc : b.le c = true) :
    a.le c = true := by
  cases a with
  | negInf => rfl
  | fin x =>
    cases b with
    | negInf => cases hab
    | fin y =>
      cases c with
      | negInf => cases hbc
      | fin z => exact decide_eq_true ((of_decide_eq_true hab).trans (of_decide_eq_true hbc))

theorem Score.le_refl (a : Score) : a.le a = true := (Score.le_total a a).elim id id

theorem byScore_stable (xs : List Ranked) : StableDescending xs (byScore xs) := by
  have htotal : ∀ a b : Ranked, b.score.le a.score = true ∨ a.score.le b.score = true :=
    fun a b => Score.le_total _ _
  have htrans : ∀ a b c : Ranked, b.score.le a.score = true → c.score.le b.score = true →
      c.score.le a.score = true := fun a b c hab hbc => Score.le_trans hbc hab
  refine ⟨PyList.sortBy_perm, PyList.pairwise_sortBy htotal htrans xs, fun s => ?_⟩
  unfold byScore
  rw [PyList.filter_sortBy htotal htrans]
  refine PyList.sortBy_of_pairwise (List.pairwise_of_forall_mem_list ?_)
  intro a ha b hb
  have hscore : ∀ t ∈ xs.filter (·.score = s), t.score = s := fun t ht =>
    of_decide_eq_true (List.mem_filter.mp ht).2
  rw [hscore a ha, hscore b hb]
  exact Score.le_refl s

/-! ## Required dimensions are hard -/

/-- With a finite score, no required dimension is among the unmet ones. -/
def RequiredAreHard (profile : CapabilityProfile) (hint : LMRHHint) : Prop :=
  ∀ q unmet, scoreCandidate profile hint = .ok (.fin q, unmet) →
    unmet = (unmetDims profile hint.dimensions).map (·.key) ∧
    ∀ d ∈ unmetDims profile hint.dimensions, d.required = false

/-- In another order the dimensions give the same score, and leave the same ones unmet. -/
def OrderIrrelevant (profile : CapabilityProfile) (hint : LMRHHint) : Prop :=
  ∀ hint' : LMRHHint, hint'.dimensions.Perm hint.dimensions →
    ∃ r r', scoreCandidate profile hint = .ok r ∧ scoreCandidate profile hint' = .ok r' ∧
      r'.1 = r.1 ∧ (r.1 ≠ .negInf → r'.2.Perm r.2)

/-- A dimension that is met may be required or not. -/
def FlagIrrelevant (profile : CapabilityProfile) (hint : LMRHHint) : Prop :=
  ∀ before d after b, hint.dimensions = before ++ d :: after → Meets profile d →
    scoreCandidate profile { hint with dimensions := before ++ d.withRequired b :: after } =
      scoreCandidate profile hint

/-- The candidates with a finite score are ranked by it, with their scores and without. -/
def RanksFinite (hint : LMRHHint) (profiles : List CapabilityProfile) : Prop :=
  ∃ ranked, rankCandidatesWithScores profiles (some hint) = .ok ranked ∧
    StableDescending (profiles.filterMap (finiteScore hint)) ranked ∧
    rankCandidates profiles (some hint) = .ok (ranked.map fun t => (t.profile, t.unmet))

/-- A required dimension of an unknown scale is there with one that fails. -/
def ScalesKnown (profile : CapabilityProfile) (hint : LMRHHint) : Prop :=
  ∀ d ∈ hint.dimensions, d.required = true → d.UnknownScale →
    ∃ e ∈ hint.dimensions, scoreDim profile e = .failed

theorem requiredAreHard_iff (hnum : ∀ d ∈ hint.dimensions, ¬ d.NoInteger) :
    RequiredAreHard profile hint ↔ ScalesKnown profile hint := by
  constructor
  · intro hhard d hd hreq hscale
    rcases scoreCandidate_of_numbers profile hnum with ⟨hfailed, -⟩ | ⟨-, hscore⟩
    · exact hfailed
    · have hunmet : d ∈ unmetDims profile hint.dimensions :=
        List.mem_filter.mpr ⟨hd, (required_isUnmet_iff hreq).mpr hscale⟩
      have hsoft := (hhard _ _ hscore).2 d hunmet
      exact absurd (hreq.symm.trans hsoft) (by decide)
  · intro hknown q unmet hscore
    obtain ⟨hgoes, -, hunmet⟩ := scoreCandidate_eq_fin_iff.mp hscore
    refine ⟨hunmet, fun d hd => ?_⟩
    obtain ⟨hmem, hmissed⟩ := List.mem_filter.mp hd
    by_contra hhard
    have hreq : d.required = true := Bool.not_eq_false _ ▸ hhard
    obtain ⟨e, he, hfailed⟩ := hknown d hmem hreq ((required_isUnmet_iff hreq).mp hmissed)
    have hgoesOn := hgoes e he
    rw [hfailed] at hgoesOn
    exact absurd hgoesOn (by decide)

theorem orderIrrelevant (hnum : ∀ d ∈ hint.dimensions, ¬ d.NoInteger) :
    OrderIrrelevant profile hint := by
  intro hint' hperm
  have hnum' : ∀ d ∈ hint'.dimensions, ¬ d.NoInteger := fun d hd => hnum d (hperm.mem_iff.mp hd)
  have hfails : ∀ {l l' : List HintDimension}, l.Perm l' →
      (∃ d ∈ l, scoreDim profile d = .failed) → ¬ ∀ d ∈ l', (scoreDim profile d).stops = false := by
    rintro l l' hl ⟨d, hd, hfailed⟩ hgoes
    have hgoesOn := hgoes d (hl.mem_iff.mp hd)
    rw [hfailed] at hgoesOn
    exact absurd hgoesOn (by decide)
  rcases scoreCandidate_of_numbers profile hnum with
    ⟨hfailed, keys, hscore⟩ | ⟨hgoes, hscore⟩
  · rcases scoreCandidate_of_numbers profile hnum' with
      ⟨-, keys', hscore'⟩ | ⟨hgoes', -⟩
    · exact ⟨_, _, hscore, hscore', rfl, fun hfinite => absurd rfl hfinite⟩
    · exact absurd hgoes' (hfails hperm.symm hfailed)
  · rcases scoreCandidate_of_numbers profile hnum' with
      ⟨hfailed', -⟩ | ⟨-, hscore'⟩
    · exact absurd hgoes (hfails hperm hfailed')
    · refine ⟨_, _, hscore, hscore', ?_, fun _ => (unmetDims_perm hperm).map _⟩
      rw [pointsOf_perm hperm]

theorem scoreDims_congr {before after : List HintDimension} {d' : HintDimension}
    (hkey : d'.key = d.key) (hverdict : scoreDim profile d' = scoreDim profile d) (score : Rat)
    (unmet : List String) : scoreDims profile (before ++ d' :: after) score unmet =
      scoreDims profile (before ++ d :: after) score unmet := by
  induction before generalizing score unmet with
  | nil => simp only [List.nil_append, scoreDims, hkey, hverdict]
  | cons e before ih => simp only [List.cons_append, scoreDims, ih]

theorem flagIrrelevant (profile : CapabilityProfile) (hint : LMRHHint) :
    FlagIrrelevant profile hint := by
  intro before d after b heq hmeets
  have hkey : (d.withRequired b).key = d.key := rfl
  unfold scoreCandidate
  rw [heq, scoreDims_congr hkey (scoreDim_withRequired b hmeets)]

theorem ranksFinite (hnum : ∀ d ∈ hint.dimensions, ¬ d.NoInteger)
    (profiles : List CapabilityProfile) : RanksFinite hint profiles := by
  have hall : ∀ p ∈ profiles, ∃ r, scoreCandidate p hint = .ok r := fun p _ => by
    rcases scoreCandidate_of_numbers p hnum with ⟨-, keys, hscore⟩ | ⟨-, hscore⟩
    · exact ⟨_, hscore⟩
    · exact ⟨_, hscore⟩
  obtain ⟨scored, hscored⟩ := scoreAll_ok_iff.mpr hall
  refine ⟨byScore scored, ?_, ?_, ?_⟩
  · simp only [rankCandidatesWithScores, hscored]
  · rw [scoreAll_eq hscored]
    exact byScore_stable _
  · simp only [rankCandidates, hscored]

/-- **Required dimensions are hard, and order is irrelevant**, iff a required dimension of an unknown
scale only comes with one that fails. -/
theorem required_hard_iff (profile : CapabilityProfile) (hint : LMRHHint)
    (profiles : List CapabilityProfile) (hnum : ∀ d ∈ hint.dimensions, ¬ d.NoInteger) :
    RequiredAreHard profile hint ∧ OrderIrrelevant profile hint ∧ FlagIrrelevant profile hint ∧
      RanksFinite hint profiles ↔ ScalesKnown profile hint := by
  rw [requiredAreHard_iff hnum]
  exact and_iff_left ⟨orderIrrelevant hnum, flagIrrelevant profile hint, ranksFinite hnum profiles⟩

/-- A strict caller, and a candidate that is as safe as can be. -/
def strictHint : LMRHHint where
  raw := "refusal-rate=strict;require"
  dimensions := [{ key := "refusal-rate", value := "strict", required := true }]

def plainProfile : CapabilityProfile where
  providerId := "p1"
  providerType := "openai"
  modelId := "gpt-4o"

theorem strict_hard :
    RequiredAreHard plainProfile strictHint ∧ OrderIrrelevant plainProfile strictHint ∧
      FlagIrrelevant plainProfile strictHint ∧ RanksFinite strictHint [plainProfile] := by
  refine (required_hard_iff plainProfile strictHint [plainProfile] ?_).mpr ?_
  · rintro d hd ⟨hkey, -⟩
    rw [List.mem_singleton.mp hd] at hkey
    exact absurd hkey (by decide)
  · intro d hd _ hscale
    rw [List.mem_singleton.mp hd] at hscale
    rcases hscale with ⟨-, hnone⟩ | ⟨hkey, -⟩
    · exact absurd hnone (by decide)
    · exact absurd hkey (by decide)

/-- A required scale that is misspelt is left unmet, with a finite score. -/
theorem misspelt_scale_unmet :
    ¬ RequiredAreHard plainProfile
      { raw := "refusal-rate=stric;require"
        dimensions := [{ key := "refusal-rate", value := "stric", required := true }] } := by
  intro hhard
  have hscore : scoreCandidate plainProfile
      { raw := "refusal-rate=stric;require"
        dimensions := [{ key := "refusal-rate", value := "stric", required := true }] } =
      .ok (.fin 90, ["refusal-rate"]) := by decide +kernel
  have hsoft := (hhard _ _ hscore).2 { key := "refusal-rate", value := "stric", required := true }
    (by decide)
  exact absurd hsoft (by decide)

end LlmProxy.Routing
