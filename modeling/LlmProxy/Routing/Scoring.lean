import LlmProxy.Routing.Lmrh

/-! # What a candidate scores

The loop of `score_candidate` stops at the first dimension that fails or cannot be read; otherwise
it adds up what the dimensions are worth, in whatever order they stand.

> `scoreCandidate_eq_fin_iff`: the candidates with a finite score, and that score;
> `scoreCandidate_ok_iff`: the candidates that are scored at all.
-/

namespace LlmProxy.Routing

variable {profile : CapabilityProfile} {hint : LMRHHint} {dims before after : List HintDimension}
  {d : HintDimension} {score q : Rat} {unmet : List String}

/-! ## Verdicts -/

def DimVerdict.points : DimVerdict → Rat
  | .met points => points
  | .penalised points => -points
  | _ => 0

/-- The verdicts that put the dimension among the unmet ones. -/
def DimVerdict.isUnmet : DimVerdict → Bool
  | .missed => true
  | .penalised _ => true
  | _ => false

def DimVerdict.stops : DimVerdict → Bool
  | .failed => true
  | .invalid _ => true
  | _ => false

/-- The dimensions that a profile is scored on and does not meet. -/
def unmetDims (profile : CapabilityProfile) (dims : List HintDimension) : List HintDimension :=
  dims.filter fun d => (scoreDim profile d).isUnmet

def pointsOf (profile : CapabilityProfile) (dims : List HintDimension) : Rat :=
  (dims.map fun d => (scoreDim profile d).points).sum

/-- A dimension whose value must be an integer. -/
def intKeys : List String := ["safety-min", "safety-max", "context-length"]

/-- A dimension whose value is no integer, and must be one. -/
def HintDimension.NoInteger (d : HintDimension) : Prop :=
  d.key ∈ intKeys ∧ PyNum.int? d.value = none

theorem judge_not_invalid {satisfied : Bool} {points : Rat} {message : String} :
    judge d satisfied points ≠ .invalid message := by
  unfold judge
  split
  · nofun
  · split <;> nofun

theorem judgeInt_invalid_iff {satisfied : Int → Bool} {points : Rat} :
    (∃ message, judgeInt d satisfied points = .invalid message) ↔ PyNum.int? d.value = none := by
  unfold judgeInt
  cases PyNum.int? d.value with
  | none => exact iff_of_true ⟨_, rfl⟩ rfl
  | some n =>
    refine iff_of_false ?_ nofun
    rintro ⟨message, h⟩
    exact judge_not_invalid h

theorem scoreDim_invalid_iff :
    (∃ message, scoreDim profile d = .invalid message) ↔ d.NoInteger := by
  have hint : ∀ {satisfied : Int → Bool} {points : Rat}, d.key ∈ intKeys →
      ((∃ message, judgeInt d satisfied points = .invalid message) ↔ d.NoInteger) := fun hkey =>
    judgeInt_invalid_iff.trans (and_iff_right hkey).symm
  have hother : ∀ {v : DimVerdict}, d.key ∉ intKeys → (∀ message, v ≠ .invalid message) →
      ((∃ message, v = .invalid message) ↔ d.NoInteger) := fun hkey hv =>
    iff_of_false (fun ⟨message, h⟩ => hv message h) fun h => hkey h.1
  have hjudge : ∀ {satisfied : Bool} {points : Rat}, d.key ∉ intKeys →
      ((∃ message, judge d satisfied points = .invalid message) ↔ d.NoInteger) := fun hkey =>
    hother hkey fun message => judge_not_invalid
  unfold scoreDim
  split
  · next hkey => exact hjudge (by rw [hkey]; decide)
  · next hkey => exact hint (by rw [hkey]; decide)
  · next hkey => exact hint (by rw [hkey]; decide)
  · next hkey => exact hjudge (by rw [hkey]; decide)
  · next hkey => exact hjudge (by rw [hkey]; decide)
  · next hkey =>
    refine hother (by rw [hkey]; decide) fun message => ?_
    split
    · split <;> nofun
    · exact judge_not_invalid
  · next hkey => exact hint (by rw [hkey]; decide)
  · next hkey => exact hjudge (by rw [hkey]; decide)
  · next hkey => exact hjudge (by rw [hkey]; decide)
  · next hkey => exact hjudge (by rw [hkey]; decide)
  · next hkey =>
    refine hother (by rw [hkey]; decide) fun message => ?_
    dsimp only
    split
    · split <;> nofun
    · nofun
  · next hkey => exact hjudge (by rw [hkey]; decide)
  · next hkey => exact hjudge (by rw [hkey]; decide)
  · next hkey =>
    refine hother (by rw [hkey]; decide) fun message => ?_
    split
    · nofun
    · exact judge_not_invalid
  · next hkey =>
    refine hother (by rw [hkey]; decide) fun message => ?_
    split
    · nofun
    · exact judge_not_invalid
  · refine hother (fun hkey => ?_) fun message => nofun
    simp only [intKeys, List.mem_cons, List.not_mem_nil, or_false] at hkey
    rcases hkey with hmin | hmax | hlength
    · exact ‹d.key = "safety-min" → False› hmin
    · exact ‹d.key = "safety-max" → False› hmax
    · exact ‹d.key = "context-length" → False› hlength

theorem DimVerdict.stops_iff {v : DimVerdict} :
    v.stops = true ↔ v = .failed ∨ ∃ message, v = .invalid message := by
  cases v with
  | failed => exact iff_of_true rfl (Or.inl rfl)
  | invalid message => exact iff_of_true rfl (Or.inr ⟨message, rfl⟩)
  | _ => exact iff_of_false Bool.false_ne_true (by rintro (h | ⟨message, h⟩) <;> cases h)

theorem HintDimension.NoInteger.stops (h : d.NoInteger) (profile : CapabilityProfile) :
    (scoreDim profile d).stops = true :=
  DimVerdict.stops_iff.mpr (Or.inr (scoreDim_invalid_iff.mpr h))

theorem HintDimension.NoInteger.not_failed (h : d.NoInteger) : scoreDim profile d ≠ .failed := by
  obtain ⟨message, hinvalid⟩ : ∃ message, scoreDim profile d = .invalid message :=
    scoreDim_invalid_iff.mpr h
  rw [hinvalid]
  nofun

/-! ## The loop -/

theorem scoreDims_of_goesOn (h : ∀ d ∈ dims, (scoreDim profile d).stops = false) (score : Rat)
    (unmet : List String) : scoreDims profile dims score unmet =
      .ok (.fin (score + pointsOf profile dims), unmet ++ (unmetDims profile dims).map (·.key)) := by
  induction dims generalizing score unmet with
  | nil =>
    simp only [scoreDims, pointsOf, unmetDims, List.map_nil, List.sum_nil, List.filter_nil,
      add_zero, List.append_nil]
  | cons d dims ih =>
    obtain ⟨hd, hdims⟩ := List.forall_mem_cons.mp h
    have hpoints : pointsOf profile (d :: dims) =
        (scoreDim profile d).points + pointsOf profile dims := rfl
    have hunmet : unmetDims profile (d :: dims) =
        (if (scoreDim profile d).isUnmet then [d] else []) ++ unmetDims profile dims := by
      unfold unmetDims
      rw [List.filter_cons]
      split <;> rfl
    rw [hpoints, hunmet]
    unfold scoreDims
    cases hverdict : scoreDim profile d with
    | met points =>
      show scoreDims profile dims (score + points) unmet = _
      rw [ih hdims]
      simp only [DimVerdict.points, DimVerdict.isUnmet, Bool.false_eq_true, if_false,
        List.nil_append, add_assoc]
    | missed =>
      show scoreDims profile dims score (unmet ++ [d.key]) = _
      rw [ih hdims]
      simp only [DimVerdict.points, DimVerdict.isUnmet, if_true, List.append_assoc, List.map_append,
        List.map_cons, List.map_nil, zero_add]
    | penalised points =>
      show scoreDims profile dims (score - points) (unmet ++ [d.key]) = _
      rw [ih hdims]
      simp only [DimVerdict.points, DimVerdict.isUnmet, if_true, List.append_assoc, List.map_append,
        List.map_cons, List.map_nil, sub_eq_add_neg, add_assoc]
    | ignored =>
      show scoreDims profile dims score unmet = _
      rw [ih hdims]
      simp only [DimVerdict.points, DimVerdict.isUnmet, Bool.false_eq_true, if_false,
        List.nil_append, zero_add]
    | failed =>
      rw [hverdict] at hd
      exact absurd hd (by decide)
    | invalid message =>
      rw [hverdict] at hd
      exact absurd hd.symm Bool.false_ne_true

theorem scoreDims_append (h : ∀ e ∈ before, (scoreDim profile e).stops = false)
    (dims : List HintDimension) (score : Rat) (unmet : List String) : ∃ score' unmet', scoreDims profile (before ++ dims) score unmet =
      scoreDims profile dims score' unmet' := by
  induction before generalizing score unmet with
  | nil => exact ⟨score, unmet, rfl⟩
  | cons e before ih =>
    obtain ⟨he, hbefore⟩ := List.forall_mem_cons.mp h
    rw [List.cons_append, scoreDims]
    cases hverdict : scoreDim profile e with
    | met points => exact ih hbefore _ _
    | missed => exact ih hbefore _ _
    | penalised points => exact ih hbefore _ _
    | ignored => exact ih hbefore _ _
    | failed =>
      rw [hverdict] at he
      exact absurd he (by decide)
    | invalid message =>
      rw [hverdict] at he
      exact absurd he.symm Bool.false_ne_true

theorem scoreDims_of_failed (h : ∀ e ∈ before, (scoreDim profile e).stops = false)
    (hd : scoreDim profile d = .failed) (score : Rat) (unmet : List String) :
    scoreDims profile (before ++ d :: after) score unmet = .ok (.negInf, [d.key]) := by
  obtain ⟨score', unmet', happend⟩ := scoreDims_append h (d :: after) score unmet
  rw [happend]
  simp only [scoreDims, hd]

theorem scoreDims_of_invalid {message : String}
    (h : ∀ e ∈ before, (scoreDim profile e).stops = false)
    (hd : scoreDim profile d = .invalid message) (score : Rat) (unmet : List String) :
    scoreDims profile (before ++ d :: after) score unmet = .error message := by
  obtain ⟨score', unmet', happend⟩ := scoreDims_append h (d :: after) score unmet
  rw [happend]
  simp only [scoreDims, hd]

theorem goesOn_or_stops (profile : CapabilityProfile) (dims : List HintDimension) :
    (∀ d ∈ dims, (scoreDim profile d).stops = false) ∨
    ∃ before d after, dims = before ++ d :: after ∧
      (∀ e ∈ before, (scoreDim profile e).stops = false) ∧ (scoreDim profile d).stops = true := by
  induction dims with
  | nil => exact Or.inl nofun
  | cons d dims ih =>
    cases hd : (scoreDim profile d).stops with
    | true => exact Or.inr ⟨[], d, dims, rfl, nofun, hd⟩
    | false =>
      rcases ih with hdims | ⟨before, e, after, rfl, hbefore, he⟩
      · exact Or.inl (List.forall_mem_cons.mpr ⟨hd, hdims⟩)
      · exact Or.inr ⟨d :: before, e, after, rfl, List.forall_mem_cons.mpr ⟨hd, hbefore⟩, he⟩

/-! ## The candidate -/

/-- **The candidates with a finite score**: nothing stops the loop. -/
theorem scoreCandidate_eq_fin_iff : scoreCandidate profile hint = .ok (.fin q, unmet) ↔
    (∀ d ∈ hint.dimensions, (scoreDim profile d).stops = false) ∧
      q = pointsOf profile hint.dimensions + baseScore profile ∧
      unmet = (unmetDims profile hint.dimensions).map (·.key) := by
  unfold scoreCandidate
  rcases goesOn_or_stops profile hint.dimensions with hgoes | ⟨before, d, after, heq, hbefore, hd⟩
  · rw [scoreDims_of_goesOn hgoes, and_iff_right hgoes, zero_add, List.nil_append, Except.ok.injEq,
      Prod.mk.injEq, Score.fin.injEq]
    exact and_congr eq_comm eq_comm
  · have hstops : ¬ ∀ e ∈ hint.dimensions, (scoreDim profile e).stops = false := fun hgoes => by
      have hgoesOn := hgoes d (heq ▸ List.mem_append_right before List.mem_cons_self)
      exact absurd (hd.symm.trans hgoesOn) (by decide)
    refine iff_of_false ?_ fun h => hstops h.1
    rw [heq]
    rcases DimVerdict.stops_iff.mp hd with hfailed | ⟨message, hinvalid⟩
    · rw [scoreDims_of_failed hbefore hfailed]
      nofun
    · rw [scoreDims_of_invalid hbefore hinvalid]
      nofun

/-- A dimension that cannot be read stands behind one that fails. -/
def ReadsOn (profile : CapabilityProfile) (dims : List HintDimension) : Prop :=
  ∀ before d after, dims = before ++ d :: after → d.NoInteger →
    ∃ e ∈ before, scoreDim profile e = .failed

theorem not_mem_of_noInteger (hno : d.NoInteger)
    (h : ∀ e ∈ before, (scoreDim profile e).stops = false) : d ∉ before := fun hmem =>
  absurd ((hno.stops profile).symm.trans (h d hmem)) (by decide)

/-- **The candidates that are scored**: every dimension that cannot be read stands behind one that
fails. -/
theorem scoreCandidate_ok_iff :
    (∃ r, scoreCandidate profile hint = .ok r) ↔ ReadsOn profile hint.dimensions := by
  unfold scoreCandidate
  rcases goesOn_or_stops profile hint.dimensions with hgoes | ⟨before, d, after, heq, hbefore, hd⟩
  · rw [scoreDims_of_goesOn hgoes]
    refine iff_of_true ⟨_, rfl⟩ fun before d after heq hno => ?_
    have hmem : d ∈ hint.dimensions := heq ▸ List.mem_append_right before List.mem_cons_self
    exact absurd hmem (not_mem_of_noInteger hno hgoes)
  · rcases DimVerdict.stops_iff.mp hd with hfailed | ⟨message, hinvalid⟩
    · rw [heq, scoreDims_of_failed hbefore hfailed]
      refine iff_of_true ⟨_, rfl⟩ fun before' d' after' heq' hno => ?_
      rcases List.append_eq_append_iff.mp heq' with ⟨front, rfl, hfront⟩ | ⟨front, rfl, hback⟩
      · cases front with
        | nil =>
          obtain ⟨rfl, -⟩ := List.cons.inj hfront
          exact absurd hfailed hno.not_failed
        | cons e front =>
          obtain ⟨rfl, -⟩ := List.cons.inj hfront
          exact ⟨d, List.mem_append_right before List.mem_cons_self, hfailed⟩
      · cases front with
        | nil =>
          obtain ⟨rfl, -⟩ := List.cons.inj hback
          exact absurd hfailed hno.not_failed
        | cons e front =>
          obtain ⟨rfl, -⟩ := List.cons.inj hback
          exact absurd (List.mem_append_right before' List.mem_cons_self)
            (not_mem_of_noInteger hno hbefore)
    · rw [heq, scoreDims_of_invalid hbefore hinvalid]
      refine iff_of_false (fun ⟨r, h⟩ => by cases h) fun hreads => ?_
      obtain ⟨e, he, hfailed⟩ :=
        hreads before d after rfl (scoreDim_invalid_iff.mp ⟨message, hinvalid⟩)
      have hgoesOn := hbefore e he
      rw [hfailed] at hgoesOn
      exact absurd hgoesOn (by decide)

end LlmProxy.Routing
