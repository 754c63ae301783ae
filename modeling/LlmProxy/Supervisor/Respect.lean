import LlmProxy.Supervisor.Review

/-! # The supervisor and the operator

The lock is looked at twice, before the classifier is called and again before the suggestion is
applied, and the new priority is reckoned from the old one; but all of it is read from the object
the scan has loaded, which an operator's commit during the call does not reach. A priority of zero
is taken for a missing one, and a skip is moved to the suggested moment from wherever it stood.

> `supervisor_respects`: in every run whose commits are `Undisturbed`, each review leaves the row as
> `Respectful` says.
-/

namespace LlmProxy.Supervisor

open LlmProxy.Cluster (Stamp)
open LlmProxy.Providers (Provider FlushClock)
open Interleaving Trace

variable {cfg : Settings} {rows : List Provider} {r : Review} {loaded new current after : Provider}
  {began : Option Provider} {clk : FlushClock} {data : VerdictData} {t : Task}

/-! ## What a review may do -/

/-- A skip does not end earlier than it did. -/
def NotEarlier (old new : Option Stamp) : Prop := ∀ x, old = some x → ∃ y, new = some y ∧ x ≤ y

/-- The row before a review's commit and behind it. Of an operator's edits since the classifier was
called (`began`) the commit undoes none. -/
structure Respectful (cap : Int) (began : Option Provider) (current after : Provider) : Prop where
  locked : current.manualOverrideUntil ≠ none →
    after.priority = current.priority ∧ after.autoSkipUntil = current.autoSkipUntil
  bounded : current.manualOverrideUntil = none →
    (1 ≤ after.priority - current.priority ∧ after.priority - current.priority ≤ cap ∧
        after.autoSkipUntil = current.autoSkipUntil) ∨
      after.priority = current.priority ∧ NotEarlier current.autoSkipUntil after.autoSkipUntil
  kept : ∀ b, began = some b →
    (b.priority ≠ current.priority → after.priority = current.priority) ∧
      (b.autoSkipUntil ≠ current.autoSkipUntil → after.autoSkipUntil = current.autoSkipUntil) ∧
      (b.autoSkipReason ≠ current.autoSkipReason → after.autoSkipReason = current.autoSkipReason)
  others :
    { after with
      priority := current.priority
      autoSkipUntil := current.autoSkipUntil
      autoSkipReason := current.autoSkipReason
      updatedAt := current.updatedAt
      lastUserEditAt := current.lastUserEditAt } = current

/-- The stretch that ends a review leaves its provider as `Respectful` says, and every other one as
it was. -/
def Respected (cfg : Settings) (rows : List Provider) : Task → Prop
  | .classifying r provider began =>
    (∀ current, getRow rows provider.id = some current →
      ∃ after, getRow (next cfg rows (.classifying r provider began)).1 provider.id = some after ∧
        Respectful cfg.maxPriorityDelta began current after) ∧
    ∀ id, id ≠ provider.id →
      getRow (next cfg rows (.classifying r provider began)).1 id = getRow rows id
  | .scan r => (next cfg rows (.scan r)).1 = rows
  | .loaded r provider => (next cfg rows (.loaded r provider)).1 = rows
  | _ => True

/-! ## The condition -/

/-- What a classifier's answer asks for, if it is applied at all. -/
inductive Suggestion where
  | priority (delta : Int)
  | skip (hours : Int)
  deriving DecidableEq

def suggestion (cfg : Settings) (data : VerdictData) : Option Suggestion :=
  if cfg.autoApply && (bindable data.reasoning && bindable data.suggestedPriorityDelta &&
      bindable data.suggestedAutoSkipHours) then
    if data.verdict = "deprioritize" then
      (intOf data.suggestedPriorityDelta).toOption.map .priority
    else if data.verdict = "disable" then (intOf data.suggestedAutoSkipHours).toOption.map .skip
    else none
  else none

def suggested (cfg : Settings) (r : Review) : Option Suggestion :=
  (classifyWithLlm r.answer).bind (suggestion cfg)

def skipEnd (cfg : Settings) (now : Stamp) (hours : Int) : Stamp :=
  now + clamp hours cfg.maxAutoSkipHours * microsPerHour

/-- What the row a review commits over has to be.
* No lock has been set.
* For a lower priority, the priority is the loaded one and the one at the classifier's call, it is
  not zero, and the cap allows a step.
* For a skip, the operator has not touched the skip since the call, and it does not end later. -/
def Clean (cfg : Settings) (r : Review) (provider : Provider) (began : Option Provider)
    (current : Provider) : Option Suggestion → Prop
  | none => True
  | some (.priority _) =>
    current.manualOverrideUntil = none ∧ current.priority = provider.priority ∧
      (∀ b, b ∈ began → b.priority = current.priority) ∧ current.priority ≠ 0 ∧
      1 ≤ cfg.maxPriorityDelta
  | some (.skip hours) =>
    current.manualOverrideUntil = none ∧
      (∀ b, b ∈ began → b.autoSkipUntil = current.autoSkipUntil ∧
        b.autoSkipReason = current.autoSkipReason) ∧
      ∀ x, x ∈ current.autoSkipUntil → x ≤ skipEnd cfg r.now hours

instance (provider current : Provider) : (s : Option Suggestion) →
    Decidable (Clean cfg r provider began current s)
  | none => .isTrue trivial
  | some (.priority _) => by unfold Clean; infer_instance
  | some (.skip _) => by unfold Clean; infer_instance

/-- The row of the review is clean when it commits. -/
def Undisturbed (cfg : Settings) (rows : List Provider) : Task → Prop
  | .classifying r provider began =>
    ∀ current, current ∈ getRow rows provider.id →
      Clean cfg r provider began current (suggested cfg r)
  | _ => True

instance : (t : Task) → Decidable (Undisturbed cfg rows t)
  | .classifying r provider began =>
    inferInstanceAs (Decidable (∀ current, current ∈ getRow rows provider.id →
      Clean cfg r provider began current (suggested cfg r)))
  | .scan _ | .loaded _ _ | .edit _ | .done | .raised _ => .isTrue trivial

/-! ## One commit -/

theorem clamp_bounds (value : Int) {cap : Int} (h : 1 ≤ cap) :
    1 ≤ clamp value cap ∧ clamp value cap ≤ cap := by
  unfold clamp
  omega

theorem reviewed_cases (hlock : loaded.manualOverrideUntil = none)
    (h : reviewed cfg r.now loaded data = .ok new) :
    new = loaded ∨
      (∃ delta, suggestion cfg data = some (.priority delta) ∧
        new = { loaded with
          priority := (if loaded.priority = 0 then 10 else loaded.priority) +
            clamp delta cfg.maxPriorityDelta }) ∨
      ∃ hours reason, suggestion cfg data = some (.skip hours) ∧
        new = { loaded with
          autoSkipUntil := some (skipEnd cfg r.now hours)
          autoSkipReason := some reason } := by
  unfold reviewed at h
  split at h
  · next hbind =>
    split at h
    · next hgo =>
      have happly : cfg.autoApply = true := (Bool.and_eq_true_iff.mp hgo).1
      have hsug : suggestion cfg data =
          if data.verdict = "deprioritize" then
            (intOf data.suggestedPriorityDelta).toOption.map .priority
          else if data.verdict = "disable" then
            (intOf data.suggestedAutoSkipHours).toOption.map .skip
          else none := by
        unfold suggestion
        rw [happly, hbind]
        rfl
      unfold applySuggestion at h
      have hopen : ¬ loaded.manualOverrideUntil.isSome = true := by
        rw [hlock]
        exact Bool.false_ne_true
      rw [if_neg hopen] at h
      by_cases hdep : data.verdict = "deprioritize"
      · rw [if_pos hdep] at h hsug
        cases hint : intOf data.suggestedPriorityDelta with
        | error e =>
          rw [hint] at h
          cases h
        | ok delta =>
          rw [hint] at h hsug
          exact Or.inr (Or.inl ⟨delta, hsug, (Except.ok.inj h).symm⟩)
      · rw [if_neg hdep] at h hsug
        by_cases hdis : data.verdict = "disable"
        · rw [if_pos hdis] at h hsug
          cases hint : intOf data.suggestedAutoSkipHours with
          | error e =>
            rw [hint] at h
            cases h
          | ok hours =>
            rw [hint] at h hsug
            exact Or.inr (Or.inr ⟨hours, _, hsug, (Except.ok.inj h).symm⟩)
        · rw [if_neg hdis] at h
          exact Or.inl (Except.ok.inj h).symm
    · exact Or.inl (Except.ok.inj h).symm
  · cases h

theorem respectful_refl (cap : Int) (began : Option Provider) (current : Provider) :
    Respectful cap began current current where
  locked := fun _ => ⟨rfl, rfl⟩
  bounded := fun _ => Or.inr ⟨rfl, fun x hx => ⟨x, hx, le_refl x⟩⟩
  kept := fun _ _ => ⟨fun _ => rfl, fun _ => rfl, fun _ => rfl⟩
  others := rfl

theorem respectful_priority {delta : Int}
    (h : Clean cfg r loaded began current (some (.priority delta)))
    (hnew : new = { loaded with
      priority := (if loaded.priority = 0 then 10 else loaded.priority) +
        clamp delta cfg.maxPriorityDelta }) :
    Respectful cfg.maxPriorityDelta began current (writeRow clk loaded new current) := by
  obtain ⟨hlock, hsame, hbegan, hzero, hcap⟩ := h
  obtain ⟨hone, hle⟩ := clamp_bounds delta hcap
  have hpriority : new.priority = loaded.priority + clamp delta cfg.maxPriorityDelta := by
    rw [hnew, if_neg (hsame ▸ hzero)]
  have hne : new.priority ≠ loaded.priority := by omega
  have hwrite : writeRow clk loaded new current =
      { current with
        priority := new.priority
        updatedAt := some (Cluster.serverNow clk.db)
        lastUserEditAt := some clk.unix } := by
    unfold writeRow
    rw [if_neg (fun heq => hne (by rw [heq])), Session.column_of_ne hne, hnew]
    simp only [Session.column_same]
  rw [hwrite]
  exact
    { locked := fun hset => absurd hlock hset
      bounded := fun _ => Or.inl ⟨by dsimp only; omega, by dsimp only; omega, rfl⟩
      kept := fun b hb => ⟨fun hedit => absurd (hbegan b hb) hedit, fun _ => rfl, fun _ => rfl⟩
      others := rfl }

theorem respectful_skip {hours : Int} {reason : String}
    (h : Clean cfg r loaded began current (some (.skip hours)))
    (hnew : new = { loaded with
      autoSkipUntil := some (skipEnd cfg r.now hours)
      autoSkipReason := some reason }) :
    Respectful cfg.maxPriorityDelta began current (writeRow clk loaded new current) := by
  obtain ⟨hlock, hbegan, hend⟩ := h
  unfold writeRow
  split
  · exact respectful_refl _ _ _
  · refine
      { locked := fun hset => absurd hlock hset
        bounded := fun _ => Or.inr ⟨?_, ?_⟩
        kept := fun b hb => ⟨fun _ => ?_, fun hedit => absurd (hbegan b hb).1 hedit,
          fun hedit => absurd (hbegan b hb).2 hedit⟩
        others := ?_ }
    · dsimp only
      rw [hnew, Session.column_same]
    · intro x hx
      rcases Session.column_cases loaded.autoSkipUntil new.autoSkipUntil current.autoSkipUntil with
        ⟨heq, -⟩ | heq
      · exact ⟨skipEnd cfg r.now hours, by rw [heq, hnew], hend x hx⟩
      · exact ⟨x, by rw [heq, hx], le_refl x⟩
    · dsimp only
      rw [hnew, Session.column_same]
    · rfl

theorem writeRow_self (clk : FlushClock) (loaded current : Provider) :
    writeRow clk loaded loaded current = current := if_pos rfl

theorem respectful_commit (hlock : loaded.manualOverrideUntil = none)
    (hdata : classifyWithLlm r.answer = some data)
    (hreviewed : reviewed cfg r.now loaded data = .ok new)
    (h : Clean cfg r loaded began current (suggested cfg r)) :
    Respectful cfg.maxPriorityDelta began current (writeRow clk loaded new current) := by
  have hsug : suggested cfg r = suggestion cfg data := by
    unfold suggested
    rw [hdata]
    rfl
  rw [hsug] at h
  rcases reviewed_cases hlock hreviewed with hsame | ⟨delta, hask, hnew⟩ | ⟨hours, reason, hask, hnew⟩
  · rw [hsame, writeRow_self]
    exact respectful_refl _ _ _
  · exact respectful_priority (hask ▸ h) hnew
  · exact respectful_skip (hask ▸ h) hnew

/-! ## Rows by id -/

theorem writeRow_id (clk : FlushClock) (loaded new current : Provider) :
    (writeRow clk loaded new current).id = current.id := by
  unfold writeRow
  split <;> rfl

theorem getRow_setRow_self {f : Provider → Provider} (hf : ∀ p, (f p).id = p.id) (id : String) :
    getRow (setRow rows id f) id = (getRow rows id).map f := by
  induction rows with
  | nil => rfl
  | cons p rows ih =>
    by_cases hp : p.id = id
    · simp [getRow, setRow, hp, hf]
    · have hskip : getRow (setRow (p :: rows) id f) id = getRow (setRow rows id f) id := by
        simp [getRow, setRow, hp]
      have hrest : getRow (p :: rows) id = getRow rows id := by simp [getRow, hp]
      rw [hskip, hrest, ih]

theorem getRow_setRow_other {f : Provider → Provider} (hf : ∀ p, (f p).id = p.id) {id id' : String}
    (hne : id' ≠ id) : getRow (setRow rows id f) id' = getRow rows id' := by
  induction rows with
  | nil => rfl
  | cons p rows ih =>
    have hcons : ∀ q qs, getRow (q :: qs) id' = if q.id = id' then some q else getRow qs id' :=
      fun q qs => by
        by_cases hq : q.id = id' <;> simp [getRow, hq]
    show getRow ((if p.id = id then f p else p) :: setRow rows id f) id' = _
    rw [hcons, hcons, ih]
    by_cases hp : p.id = id
    · rw [if_pos hp, hf, hp, if_neg hne.symm, if_neg hne.symm]
    · rw [if_neg hp]

/-! ## Every run -/

/-- The object under review was loaded without a lock. -/
def Unlocked : Task → Prop
  | .classifying _ provider _ => provider.manualOverrideUntil = none
  | _ => True

theorem next_unlocked (cfg : Settings) (rows : List Provider) (t : Task) :
    Unlocked (next cfg rows t).2 := by
  cases t with
  | scan r =>
    simp only [next]
    split <;> trivial
  | loaded r provider =>
    simp only [next]
    split
    · trivial
    · next hgo =>
      simp only [Bool.or_eq_true, not_or, Bool.not_eq_true, Option.isSome_eq_false_iff,
        Option.isNone_iff_eq_none] at hgo
      exact hgo.1
  | classifying r provider began =>
    simp only [next]
    split
    · trivial
    · split <;> trivial
  | edit p => trivial
  | done => trivial
  | raised e => trivial

/-- **One stretch** of a review on a clean row. -/
theorem respected_of_undisturbed (hlock : Unlocked t) (h : Undisturbed cfg rows t) :
    Respected cfg rows t := by
  cases t with
  | scan r =>
    simp only [Respected, next]
    split <;> rfl
  | loaded r provider =>
    simp only [Respected, next]
    split <;> rfl
  | classifying r provider began =>
    have hidle : (next cfg rows (.classifying r provider began)).1 = rows →
        Respected cfg rows (.classifying r provider began) := fun hsame => by
      refine ⟨fun current hrow => ⟨current, by rw [hsame]; exact hrow, respectful_refl _ _ _⟩, ?_⟩
      intro id _
      rw [hsame]
    cases hdata : classifyWithLlm r.answer with
    | none => exact hidle (by simp only [next, hdata])
    | some data =>
      cases hrev : reviewed cfg r.now provider data with
      | error e => exact hidle (by simp only [next, hdata, hrev])
      | ok new =>
        have hnext : (next cfg rows (.classifying r provider began)).1 =
            setRow rows provider.id (writeRow r.clk provider new) := by
          simp only [next, hdata, hrev]
        refine ⟨fun current hrow => ⟨writeRow r.clk provider new current, ?_, ?_⟩, fun id hid => ?_⟩
        · rw [hnext, getRow_setRow_self (writeRow_id _ _ _), hrow]
          rfl
        · exact respectful_commit hlock hdata hrev (h current hrow)
        · rw [hnext, getRow_setRow_other (writeRow_id _ _ _) hid]
  | edit p => trivial
  | done => trivial
  | raised e => trivial

theorem supervisor_outline (cfg : Settings) : Outline start (next cfg) (fun _ => True)
    (fun _ t => Unlocked t) (fun _ _ => True) where
  start := by
    intro s c _
    cases c <;> trivial
  shared := fun _ _ _ _ _ => trivial
  own := fun s t _ _ _ => next_unlocked cfg s t
  other := fun _ _ _ _ _ _ hu => hu

/-- **The supervisor respects the operator** in every run, of any reviews and any edits interleaved,
in which the row of each review is clean when it commits. -/
theorem supervisor_respects (cfg : Settings) (rows : List Provider) (as : List (Act Call))
    (h : Along (step start (next cfg)) (Guarded (Undisturbed cfg)) ⟨rows, fun _ => none⟩ as) :
    Along (step start (next cfg)) (Guarded (Respected cfg)) ⟨rows, fun _ => none⟩ as := by
  have hguard : ∀ (p : Pool (List Provider) Task) (a : Act Call), Guarded (fun _ _ => True) p a :=
    fun p a => by
      cases a with
      | call i c => trivial
      | resume i => exact fun _ _ => trivial
  refine along_of_guard (I := Safe (fun _ => True) fun _ t => Unlocked t) ?_ ?_
    ⟨trivial, fun _ _ hnone => by cases hnone⟩ h
  · intro p a hsafe hg
    cases a with
    | call i c => trivial
    | resume i => exact fun t hi => respected_of_undisturbed (hsafe.calls i t hi) (hg t hi)
  · intro p a hsafe _
    exact step_safe (supervisor_outline cfg) a hsafe (hguard p a)

/-! ### One provider -/

def steady : Provider := { id := "p1", name := "C1", providerType := "anthropic", priority := 5 }

def answeredWith (text : String) : Review :=
  { providerId := "p1", answer := some text, now := 0, clk := ⟨7, 7⟩ }

def byTwo : Review :=
  answeredWith "\x7b\"verdict\": \"deprioritize\", \"suggested_priority_delta\": 2\x7d"

def byOneHour : Review :=
  answeredWith "\x7b\"verdict\": \"disable\", \"suggested_auto_skip_hours\": 1\x7d"

/-- A review of the provider, with an operator's edit behind the select and the lock check. -/
def around (r : Review) (edit : Provider) : List (Act Call) :=
  [.call 0 (.review r), .resume 0, .resume 0, .call 1 (.edit edit), .resume 1, .resume 0]

def columnsAfter (p : Provider) (as : List (Act Call)) : Option (Int × Option Stamp) :=
  (getRow (run (step start (next { autoApply := true })) ⟨[p], fun _ => none⟩ as).shared "p1").map
    fun p => (p.priority, p.autoSkipUntil)

theorem supervisor_respects_rename :
    Along (step start (next { autoApply := true })) (Guarded (Respected { autoApply := true }))
      ⟨[steady], fun _ => none⟩ (around byTwo { steady with name := "C2" }) :=
  supervisor_respects { autoApply := true } [steady] _ (by decide +kernel)

/-- A lock set during the classifier call does not stop the review; a priority set during it is
overwritten; one of zero is raised by twelve; and a skip of ten hours is cut to one. -/
theorem supervisor_overrides :
    columnsAfter steady (around byTwo { steady with manualOverrideUntil := some 1 }) =
        some (7, none) ∧
      columnsAfter steady (around byTwo { steady with priority := 50 }) = some (7, none) ∧
      columnsAfter { steady with priority := 0 } (around byTwo { steady with priority := 0 }) =
        some (12, none) ∧
      columnsAfter { steady with autoSkipUntil := some (10 * microsPerHour) }
        (around byOneHour { steady with autoSkipUntil := some (10 * microsPerHour) }) =
        some (5, some microsPerHour) := by
  decide +kernel

end LlmProxy.Supervisor
