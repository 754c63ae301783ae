import LlmProxy.Dispatch.Retry

/-! # Runs of the retry wrapper

The loop of `acompletion_with_retry` (`app/routing/retry.py`) with its calls, for any budget and
any registry of retired models.

> `retry_ends_iff`: a run ends with the answer or the exception of its last call, unless a
> retired model is replaced at the last attempt or a wait overflows.

The two exits are told by the outcomes alone: `FallsOff` and `Overflows` say which attempts are
rate limited up to them. Each is carried along the loop by what one attempt does to it
(`fallsOff_limited`, `overflows_limited`, `overflows_bumped`). So is who answers: the model that is
asked for (`AnswersAsked`), or its replacement once it is gone (`AnswersReplaced`).

Mirroring notes.
* The wait is left out, apart from `(2 ** attempt) * 2.0`, which raises `OverflowError` from the
  1024th attempt on.
* `normalize_messages_for_bridge` and the update of `default_model` are left out: neither reads
  or makes a call.
-/

namespace LlmProxy.Dispatch

open LlmProxy.Streaming (Completion)

/-- What leaves `acompletion_with_retry` as an exception. -/
inductive RetryError where
  | emergencyStop
  | upstream (exc : Failure)
  | overflow
  deriving DecidableEq

/-- A call of `litellm.acompletion`: the model it names and what it comes to. -/
structure RetryCall (α : Type) where
  model : String
  outcome : LitellmOutcome α

/-- A run: its calls in order, and what the caller gets; `none` is Python's `None`. -/
structure RetryRun (α : Type) where
  calls : List (RetryCall α)
  result : Except RetryError (Option (α × String))

/-- `registry.get(model)`, where the empty string is falsy. -/
def registered (registry : String → Option String) (model : String) : Option String :=
  (registry model).filter (· ≠ "")

/-- `_replacement_for`, in any registry. -/
def replacementIn (registry : String → Option String) (model : String) : Option String :=
  match registered registry model with
  | some direct => some direct
  | none =>
    (registered registry (stripPrefix model)).map fun bareRepl =>
      if hasSlash model && !hasSlash bareRepl then (splitSlash model).1 ++ "/" ++ bareRepl
      else bareRepl

def shippedRegistry (model : String) : Option String := List.lookup model modelDeprecations

/-- The first attempt at which `(2 ** attempt) * 2.0` overflows. -/
def overflowAttempt : Nat := 1024

variable {α : Type}

def RetryRun.after (call : RetryCall α) (run : RetryRun α) : RetryRun α :=
  { run with calls := call :: run.calls }

/-- The body of the loop, from the `attempt`-th on with `left` to go. -/
def retryLoop (registry : String → Option String) (outcome : Nat → LitellmOutcome α) :
    Nat → Nat → Bool → String → RetryRun α
  | 0, _, _, _ => { calls := [], result := .ok none }
  | left + 1, attempt, bumped, model =>
    let call : RetryCall α := ⟨model, outcome attempt⟩
    match outcome attempt with
    | .answered answer => { calls := [call], result := .ok (some (answer, model)) }
    | .notFound exc =>
      if bumped then { calls := [call], result := .error (.upstream exc) }
      else
        match replacementIn registry model with
        | none => { calls := [call], result := .error (.upstream exc) }
        | some replacement =>
          (retryLoop registry outcome left (attempt + 1) true replacement).after call
    | .rateLimited exc =>
      if Breaker.isBillingError exc.message || left = 0 then
        { calls := [call], result := .error (.upstream exc) }
      else if overflowAttempt ≤ attempt then { calls := [call], result := .error .overflow }
      else (retryLoop registry outcome left (attempt + 1) bumped model).after call
    | .raised exc => { calls := [call], result := .error (.upstream exc) }

/-- `acompletion_with_retry`. -/
def acompletionWithRetryRun (stopped : Bool) (registry : String → Option String) (maxRetries : Nat)
    (outcome : Nat → LitellmOutcome α) (model : String) : RetryRun α :=
  if stopped then { calls := [], result := .error .emergencyStop }
  else retryLoop registry outcome (maxRetries + 1) 0 false model

/-! ## With the shipped registry -/

theorem registered_shipped (model : String) :
    registered shippedRegistry model = List.lookup model modelDeprecations := by
  have hvalues : ∀ entry ∈ modelDeprecations, entry.2 ≠ "" := by decide
  unfold registered shippedRegistry
  cases hlookup : List.lookup model modelDeprecations with
  | none => rfl
  | some replacement =>
    obtain ⟨before, after, heq, -⟩ := List.lookup_eq_some_iff.mp hlookup
    have hmem : (model, replacement) ∈ modelDeprecations := by
      rw [heq]
      exact List.mem_append_right _ List.mem_cons_self
    simp [Option.filter, hvalues _ hmem]

theorem replacementIn_shipped (model : String) :
    replacementIn shippedRegistry model = replacementFor model := by
  have hdirect := registered_shipped model
  have hbare := registered_shipped (stripPrefix model)
  cases hlookup : List.lookup model modelDeprecations with
  | none => simp [replacementIn, replacementFor, hdirect, hbare, hlookup]
  | some direct => simp [replacementIn, replacementFor, hdirect, hlookup]

theorem retryLoop_result {outcome : Nat → LitellmOutcome α} {left attempt : Nat} {bumped : Bool}
    {model : String} (hfew : left + attempt ≤ overflowAttempt) :
    (retryLoop shippedRegistry outcome left attempt bumped model).result =
      (retryFrom outcome left attempt bumped model).mapError .upstream := by
  induction left generalizing attempt bumped model with
  | zero => rfl
  | succ left ih =>
    have hbelow : ¬ overflowAttempt ≤ attempt := by omega
    have hnext : left + (attempt + 1) ≤ overflowAttempt := by omega
    unfold retryLoop retryFrom
    rw [replacementIn_shipped]
    cases outcome attempt with
    | answered answer => rfl
    | raised exc => rfl
    | notFound exc =>
      cases bumped with
      | true => rfl
      | false =>
        cases replacementFor model with
        | none => rfl
        | some replacement => exact ih hnext
    | rateLimited exc =>
      show (ite _ _ (ite _ _ _) : RetryRun α).result = _
      rw [if_neg hbelow]
      dsimp only
      split
      · rfl
      · exact ih hnext

theorem acompletionWithRetryRun_result (outcome : Nat → LitellmOutcome α) (model : String) :
    (acompletionWithRetryRun false shippedRegistry 3 outcome model).result =
      (answeredWithRetry outcome model).mapError .upstream :=
  retryLoop_result (by decide)
/-! ## Runs that end with their last call -/

/-- What the caller gets of a run whose last call is this one. -/
def RetryCall.ending (call : RetryCall α) : Except RetryError (Option (α × String)) :=
  match call.outcome with
  | .answered answer => .ok (some (answer, call.model))
  | .notFound exc => .error (.upstream exc)
  | .rateLimited exc => .error (.upstream exc)
  | .raised exc => .error (.upstream exc)

/-- The run answers with the completion of its last call, or raises its exception. -/
def RetryRun.Ends (run : RetryRun α) : Prop :=
  ∃ call, run.calls.getLast? = some call ∧ run.result = call.ending

def LitellmOutcome.IsRateLimit : LitellmOutcome α → Prop
  | .rateLimited _ => True
  | _ => False

instance decidableIsRateLimit : (o : LitellmOutcome α) → Decidable o.IsRateLimit
  | .answered _ => isFalse id
  | .notFound _ => isFalse id
  | .rateLimited _ => isTrue trivial
  | .raised _ => isFalse id

/-- The calls of a run are within its budget: rate limits take up one attempt each, and a retired
model one more call. -/
structure RetryRun.Within (run : RetryRun α) (maxRetries : Nat) : Prop where
  called : 1 ≤ run.calls.length
  limits : run.calls.countP (·.outcome.IsRateLimit) ≤ maxRetries + 1
  all : run.calls.length ≤ maxRetries + 1 + 1

/-- A rate limit that is waited out. -/
def LitellmOutcome.Limited : LitellmOutcome α → Prop
  | .rateLimited exc => Breaker.isBillingError exc.message = false
  | _ => False

def LitellmOutcome.Gone : LitellmOutcome α → Prop
  | .notFound _ => True
  | _ => False

/-- All attempts from `n` up to `m` are rate limited. -/
def AllLimited (outcome : Nat → LitellmOutcome α) (n m : Nat) : Prop :=
  ∀ i, n ≤ i → i < m → (outcome i).Limited

/-- All are but one, whose model is gone. -/
def OneGone (outcome : Nat → LitellmOutcome α) (n m : Nat) : Prop :=
  ∃ g, n ≤ g ∧ g < m ∧ (outcome g).Gone ∧ AllLimited outcome n g ∧ AllLimited outcome (g + 1) m

/-- The loop runs off its end: after rate limits only, the model is gone at the last attempt and
has a replacement. -/
def FallsOff (replaced : Prop) (outcome : Nat → LitellmOutcome α) (n last : Nat) : Prop :=
  replaced ∧ AllLimited outcome n last ∧ (outcome last).Gone

/-- A wait overflows: an attempt from the 1024th on, but not the last, is rate limited, and so
are all before it, but for one at which a model with a replacement is gone. -/
def Overflows (replaced : Prop) (outcome : Nat → LitellmOutcome α) (n last : Nat) : Prop :=
  ∃ m, n ≤ m ∧ overflowAttempt ≤ m ∧ m < last ∧ (outcome m).Limited ∧
    (AllLimited outcome n m ∨ (replaced ∧ OneGone outcome n m))

theorem allLimited_self (outcome : Nat → LitellmOutcome α) (n : Nat) : AllLimited outcome n n := by
  intro i hle hlt
  omega

theorem allLimited_step {outcome : Nat → LitellmOutcome α} {n m : Nat} (hlt : n < m) :
    AllLimited outcome n m ↔ (outcome n).Limited ∧ AllLimited outcome (n + 1) m := by
  constructor
  · intro h
    refine ⟨h n (le_refl n) hlt, ?_⟩
    intro i hle hi
    exact h i (by omega) hi
  · intro h i hle hi
    by_cases heq : i = n
    · rw [heq]
      exact h.1
    · exact h.2 i (by omega) hi

theorem oneGone_limited {outcome : Nat → LitellmOutcome α} {n m : Nat}
    (hlimited : (outcome n).Limited) (hgone : ¬ (outcome n).Gone) :
    OneGone outcome n m ↔ OneGone outcome (n + 1) m := by
  constructor
  · intro ⟨g, hle, hlt, hg, hbefore, hafter⟩
    have hne : g ≠ n := by
      intro heq
      exact hgone (heq ▸ hg)
    have hstep : n < g := by omega
    exact ⟨g, by omega, hlt, hg, ((allLimited_step hstep).mp hbefore).2, hafter⟩
  · intro ⟨g, hle, hlt, hg, hbefore, hafter⟩
    have hstep : n < g := by omega
    exact ⟨g, by omega, hlt, hg, (allLimited_step hstep).mpr ⟨hlimited, hbefore⟩, hafter⟩

theorem oneGone_gone {outcome : Nat → LitellmOutcome α} {n m : Nat} (hlt : n < m)
    (hlimited : ¬ (outcome n).Limited) (hgone : (outcome n).Gone) :
    OneGone outcome n m ↔ AllLimited outcome (n + 1) m := by
  constructor
  · intro ⟨g, hle, hg, _, hbefore, hafter⟩
    by_cases heq : g = n
    · rw [← heq]
      exact hafter
    · exact absurd (hbefore n (le_refl n) (by omega)) hlimited
  · intro h
    exact ⟨n, le_refl n, hlt, hgone, allLimited_self outcome n, h⟩

/-! ## Answers, told by the outcomes -/

/-- The model that is asked for answers, after rate limits only. -/
def AnswersAsked (outcome : Nat → LitellmOutcome α) (n last : Nat) (answer : α) : Prop :=
  ∃ k, n ≤ k ∧ k < last ∧ outcome k = .answered answer ∧ AllLimited outcome n k

/-- Another one answers, after the model was gone. -/
def AnswersReplaced (outcome : Nat → LitellmOutcome α) (n last : Nat) (answer : α) : Prop :=
  ∃ k, n ≤ k ∧ k < last ∧ outcome k = .answered answer ∧ OneGone outcome n k

/-- A call of the model is answered: by itself, or by its replacement in the registry. -/
def Replies (model : String) (outcome : Nat → LitellmOutcome α) (answer : α) : Prop :=
  AnswersAsked outcome 0 4 answer ∨
    (replacementFor model).isSome ∧ AnswersReplaced outcome 0 4 answer

/-- A call of the model raises: it is not answered, and does not run off its end. -/
def Raises (model : String) (outcome : Nat → LitellmOutcome α) : Prop :=
  (∀ answer, ¬ Replies model outcome answer) ∧
    ¬ FallsOff (replacementFor model).isSome outcome 0 3

theorem answersAsked_step {outcome : Nat → LitellmOutcome α} {n last : Nat} (hlt : n < last)
    {answer : α} : AnswersAsked outcome n last answer ↔ outcome n = .answered answer ∨
      (outcome n).Limited ∧ AnswersAsked outcome (n + 1) last answer := by
  constructor
  · rintro ⟨k, hle, hk, hanswer, hall⟩
    rcases hle.eq_or_lt with rfl | hstep
    · exact Or.inl hanswer
    · obtain ⟨hlimited, hrest⟩ := (allLimited_step hstep).mp hall
      exact Or.inr ⟨hlimited, k, hstep, hk, hanswer, hrest⟩
  · rintro (hanswer | ⟨hlimited, k, hle, hk, hanswer, hrest⟩)
    · exact ⟨n, le_refl n, hlt, hanswer, allLimited_self outcome n⟩
    · have hstep : n < k := hle
      exact ⟨k, hstep.le, hk, hanswer, (allLimited_step hstep).mpr ⟨hlimited, hrest⟩⟩

theorem answersReplaced_gone {outcome : Nat → LitellmOutcome α} {n last : Nat}
    (hlimited : ¬ (outcome n).Limited) (hgone : (outcome n).Gone) {answer : α} :
    AnswersReplaced outcome n last answer ↔ AnswersAsked outcome (n + 1) last answer := by
  constructor
  · rintro ⟨k, -, hk, hanswer, hone⟩
    obtain ⟨g, hle, hlt, -⟩ := id hone
    have hstep : n < k := hle.trans_lt hlt
    exact ⟨k, hstep, hk, hanswer, (oneGone_gone hstep hlimited hgone).mp hone⟩
  · rintro ⟨k, hle, hk, hanswer, hall⟩
    have hstep : n < k := hle
    exact ⟨k, hstep.le, hk, hanswer, (oneGone_gone hstep hlimited hgone).mpr hall⟩

theorem answersReplaced_limited {outcome : Nat → LitellmOutcome α} {n last : Nat}
    (hlimited : (outcome n).Limited) (hgone : ¬ (outcome n).Gone) {answer : α} :
    AnswersReplaced outcome n last answer ↔ AnswersReplaced outcome (n + 1) last answer := by
  constructor
  · rintro ⟨k, -, hk, hanswer, hone⟩
    obtain ⟨g, hle, hlt, -⟩ := id hone
    have hstep : n < k := hle.trans_lt hlt
    exact ⟨k, hstep, hk, hanswer, (oneGone_limited hlimited hgone).mp hone⟩
  · rintro ⟨k, hle, hk, hanswer, hone⟩
    have hstep : n < k := hle
    exact ⟨k, hstep.le, hk, hanswer, (oneGone_limited hlimited hgone).mpr hone⟩

theorem not_answersReplaced {outcome : Nat → LitellmOutcome α} {n : Nat} (last : Nat)
    (hlimited : ¬ (outcome n).Limited) (hgone : ¬ (outcome n).Gone) (answer : α) :
    ¬ AnswersReplaced outcome n last answer := by
  rintro ⟨k, -, -, -, g, hle, hlt, hg, hbefore, -⟩
  rcases hle.eq_or_lt with rfl | hstep
  · exact hgone hg
  · exact hlimited (hbefore n (le_refl n) hstep)

/-! ## What one attempt does to the two exits -/

theorem fallsOff_limited {replaced : Prop} {outcome : Nat → LitellmOutcome α} {n last : Nat}
    (hlt : n < last) (hlimited : (outcome n).Limited) :
    FallsOff replaced outcome n last ↔ FallsOff replaced outcome (n + 1) last := by
  unfold FallsOff
  rw [allLimited_step hlt]
  simp only [hlimited, true_and]

theorem overflows_limited {replaced : Prop} {outcome : Nat → LitellmOutcome α} {n last : Nat}
    (hlimited : (outcome n).Limited) (hgone : ¬ (outcome n).Gone)
    (hbelow : ¬ (overflowAttempt ≤ n ∧ n < last)) :
    Overflows replaced outcome n last ↔ Overflows replaced outcome (n + 1) last := by
  constructor
  · intro ⟨m, hle, hover, hlast, hm, hpath⟩
    have hstep : n < m := by
      by_cases heq : m = n
      · rw [heq] at hover hlast
        exact absurd ⟨hover, hlast⟩ hbelow
      · omega
    rw [allLimited_step hstep, oneGone_limited hlimited hgone] at hpath
    exact ⟨m, by omega, hover, hlast, hm, hpath.imp And.right id⟩
  · intro ⟨m, hle, hover, hlast, hm, hpath⟩
    have hstep : n < m := by omega
    refine ⟨m, by omega, hover, hlast, hm, ?_⟩
    rw [allLimited_step hstep, oneGone_limited hlimited hgone]
    exact hpath.imp (And.intro hlimited) id

theorem overflows_bumped {replaced : Prop} {outcome : Nat → LitellmOutcome α} {n last : Nat}
    (hreplaced : replaced) (hlimited : ¬ (outcome n).Limited) (hgone : (outcome n).Gone) :
    Overflows replaced outcome n last ↔ Overflows False outcome (n + 1) last := by
  constructor
  · intro ⟨m, hle, hover, hlast, hm, hpath⟩
    have hstep : n < m := by
      by_cases heq : m = n
      · rw [heq] at hm
        exact absurd hm hlimited
      · omega
    refine ⟨m, by omega, hover, hlast, hm, ?_⟩
    rw [allLimited_step hstep, oneGone_gone hstep hlimited hgone] at hpath
    rcases hpath with hall | hone
    · exact absurd hall.1 hlimited
    · exact Or.inl hone.2
  · intro ⟨m, hle, hover, hlast, hm, hpath⟩
    have hstep : n < m := by omega
    refine ⟨m, by omega, hover, hlast, hm, ?_⟩
    rw [oneGone_gone hstep hlimited hgone]
    rcases hpath with hall | hnone
    · exact Or.inr ⟨hreplaced, hall⟩
    · exact hnone.1.elim

theorem not_exits_of_stop {replaced : Prop} {outcome : Nat → LitellmOutcome α} {n last : Nat}
    (hlimited : ¬ (outcome n).Limited) (hgone : ¬ (replaced ∧ (outcome n).Gone)) (hle : n ≤ last) :
    ¬ FallsOff replaced outcome n last ∧ ¬ Overflows replaced outcome n last := by
  constructor
  · intro ⟨hreplaced, hall, hlast⟩
    by_cases heq : n = last
    · rw [heq] at hgone
      exact hgone ⟨hreplaced, hlast⟩
    · exact hlimited (hall n (le_refl n) (by omega))
  · intro ⟨m, hnm, hover, hlast, hm, hpath⟩
    have hstep : n < m := by
      by_cases heq : m = n
      · rw [heq] at hm
        exact absurd hm hlimited
      · omega
    rcases hpath with hall | hone
    · exact hlimited (hall n (le_refl n) hstep)
    · obtain ⟨hreplaced, g, hng, hgm, hg, hbefore, _⟩ := hone
      by_cases heq : g = n
      · rw [heq] at hg
        exact hgone ⟨hreplaced, hg⟩
      · exact hlimited (hbefore n (le_refl n) (by omega))

/-! ## Who answers -/

theorem retryFrom_answered_iff {outcome : Nat → LitellmOutcome α} {left n last : Nat} {bumped : Bool}
    {model model' : String} {answer : α} (hlast : n + left = last) :
    retryFrom outcome left n bumped model = .ok (some (answer, model')) ↔
      (AnswersAsked outcome n last answer ∧ model' = model) ∨
        bumped = false ∧ replacementFor model = some model' ∧
          AnswersReplaced outcome n last answer := by
  induction left generalizing n bumped model with
  | zero =>
    have hnone : ∀ {k}, n ≤ k → ¬ k < last := by omega
    refine iff_of_false (fun h => nomatch h) ?_
    rintro (⟨⟨k, hle, hlt, -⟩, -⟩ | ⟨-, -, k, hle, hlt, -⟩)
    · exact hnone hle hlt
    · exact hnone hle hlt
  | succ left ih =>
    have hstep := @answersAsked_step α outcome n last (by omega) answer
    have hrest : n + 1 + left = last := by omega
    unfold retryFrom
    rw [hstep]
    cases hout : outcome n with
    | answered first =>
      have hlimited : ¬ (outcome n).Limited := by rw [hout]; exact id
      have hgone : ¬ (outcome n).Gone := by rw [hout]; exact id
      have hnever := not_answersReplaced last hlimited hgone answer
      rw [hout] at hlimited
      simp [hlimited, hnever, eq_comm]
    | raised exc =>
      have hlimited : ¬ (outcome n).Limited := by rw [hout]; exact id
      have hgone : ¬ (outcome n).Gone := by rw [hout]; exact id
      have hnever := not_answersReplaced last hlimited hgone answer
      rw [hout] at hlimited
      simp [hlimited, hnever]
    | notFound exc =>
      have hlimited : ¬ (outcome n).Limited := by rw [hout]; exact id
      have hgone : (outcome n).Gone := by rw [hout]; exact trivial
      rw [answersReplaced_gone hlimited hgone]
      rw [hout] at hlimited
      cases bumped with
      | true => simp [hlimited]
      | false =>
        cases hreplacement : replacementFor model with
        | none => simp [hlimited]
        | some replacement =>
          simp [hlimited, ih hrest, eq_comm, and_comm]
    | rateLimited exc =>
      have hgone : ¬ (outcome n).Gone := by rw [hout]; exact id
      by_cases hbilling : Breaker.isBillingError exc.message = true
      · have hlimited : ¬ (outcome n).Limited := by
          rw [hout]
          exact fun h => Bool.noConfusion (hbilling.symm.trans h)
        have hnever := not_answersReplaced last hlimited hgone answer
        rw [hout] at hlimited
        simp [hlimited, hnever, hbilling]
      · have hfalse : Breaker.isBillingError exc.message = false := eq_false_of_ne_true hbilling
        have hlimited : (outcome n).Limited := by rw [hout]; exact hfalse
        rw [answersReplaced_limited hlimited hgone]
        rw [hout] at hlimited
        cases left with
        | zero =>
          have hnone : ∀ {k}, n + 1 ≤ k → ¬ k < last := by omega
          have hasked : ¬ AnswersAsked outcome (n + 1) last answer :=
            fun ⟨k, hle, hlt, _⟩ => hnone hle hlt
          have hreplaced : ¬ AnswersReplaced outcome (n + 1) last answer :=
            fun ⟨k, hle, hlt, _⟩ => hnone hle hlt
          simp [hasked, hreplaced]
        | succ left => simp [hlimited, hfalse, ih hrest]

theorem retryFrom_none_iff {outcome : Nat → LitellmOutcome α} {left n : Nat} {bumped : Bool}
    {model : String} :
    retryFrom outcome (left + 1) n bumped model = .ok none ↔
      FallsOff (bumped = false ∧ (replacementFor model).isSome) outcome n (n + left) := by
  induction left generalizing n bumped model with
  | zero =>
    unfold retryFrom FallsOff
    simp only [Nat.add_zero, allLimited_self, true_and]
    cases hout : outcome n with
    | answered answer => simp [LitellmOutcome.Gone]
    | raised exc => simp [LitellmOutcome.Gone]
    | rateLimited exc => simp [LitellmOutcome.Gone]
    | notFound exc =>
      cases bumped with
      | true => simp
      | false =>
        cases replacementFor model with
        | none => simp
        | some replacement => simp [LitellmOutcome.Gone, retryFrom]
  | succ left ih =>
    have hlt : n < n + (left + 1) := by omega
    have hlast : n + (left + 1) = n + 1 + left := by omega
    by_cases hlimited : (outcome n).Limited
    · rw [fallsOff_limited hlt hlimited, hlast, ← ih]
      rw [retryFrom]
      cases hout : outcome n with
      | rateLimited exc =>
        rw [hout] at hlimited
        have hfalse : Breaker.isBillingError exc.message = false := hlimited
        simp [hfalse]
      | answered answer => rw [hout] at hlimited; exact hlimited.elim
      | raised exc => rw [hout] at hlimited; exact hlimited.elim
      | notFound exc => rw [hout] at hlimited; exact hlimited.elim
    · have hnever : ¬ FallsOff (bumped = false ∧ (replacementFor model).isSome) outcome n
          (n + (left + 1)) := fun h => hlimited (h.2.1 n (le_refl n) hlt)
      refine iff_of_false ?_ hnever
      rw [retryFrom]
      cases hout : outcome n with
      | answered answer => simp
      | raised exc => simp
      | rateLimited exc =>
        rw [hout] at hlimited
        have hbilling : Breaker.isBillingError exc.message = true := by
          simpa [LitellmOutcome.Limited] using hlimited
        simp [hbilling]
      | notFound exc =>
        cases bumped with
        | true => simp
        | false =>
          cases replacementFor model with
          | none => simp
          | some replacement => simp [ih, FallsOff]

theorem answeredWithRetry_some_iff {outcome : Nat → LitellmOutcome α} {model model' : String}
    {answer : α} : answeredWithRetry outcome model = .ok (some (answer, model')) ↔
      (AnswersAsked outcome 0 4 answer ∧ model' = model) ∨
        replacementFor model = some model' ∧ AnswersReplaced outcome 0 4 answer := by
  unfold answeredWithRetry
  rw [retryFrom_answered_iff (Nat.zero_add 4)]
  simp

theorem replies_iff {outcome : Nat → LitellmOutcome α} {model : String} {answer : α} :
    Replies model outcome answer ↔
      ∃ model', answeredWithRetry outcome model = .ok (some (answer, model')) := by
  simp only [answeredWithRetry_some_iff, Replies, Option.isSome_iff_exists]
  constructor
  · rintro (hasked | ⟨⟨model', hreplacement⟩, hreplaced⟩)
    · exact ⟨model, Or.inl ⟨hasked, rfl⟩⟩
    · exact ⟨model', Or.inr ⟨hreplacement, hreplaced⟩⟩
  · rintro ⟨model', ⟨hasked, -⟩ | ⟨hreplacement, hreplaced⟩⟩
    · exact Or.inl hasked
    · exact Or.inr ⟨⟨model', hreplacement⟩, hreplaced⟩

theorem raises_iff {outcome : Nat → LitellmOutcome α} {model : String} :
    Raises model outcome ↔ ∃ exc, answeredWithRetry outcome model = .error exc := by
  have hnone : FallsOff (replacementFor model).isSome outcome 0 3 ↔
      answeredWithRetry outcome model = .ok none := by
    have h := @retryFrom_none_iff α outcome 3 0 false model
    simp only [true_and, Nat.zero_add] at h
    exact h.symm
  unfold Raises
  rw [hnone, forall_congr' fun _ => not_congr replies_iff]
  cases answeredWithRetry outcome model with
  | error exc => simp
  | ok result =>
    cases result with
    | none => simp
    | some answer =>
      refine iff_of_false (fun h => h.1 answer.1 ⟨answer.2, rfl⟩) fun ⟨_, h⟩ => nomatch h

/-! ## The loop -/

theorem retryLoop_length (registry : String → Option String) (outcome : Nat → LitellmOutcome α)
    (left attempt : Nat) (bumped : Bool) (model : String) :
    (retryLoop registry outcome left attempt bumped model).calls.length ≤ left := by
  induction left generalizing attempt bumped model with
  | zero => exact le_refl 0
  | succ left ih =>
    have hone : 1 ≤ left + 1 := Nat.le_add_left 1 left
    have hmore : ∀ call bumped' model',
        ((retryLoop registry outcome left (attempt + 1) bumped' model').after call).calls.length ≤
          left + 1 := fun _ bumped' model' => Nat.succ_le_succ (ih (attempt + 1) bumped' model')
    unfold retryLoop
    split
    · exact hone
    · split
      · exact hone
      · split
        · exact hone
        · exact hmore _ _ _
    · split
      · exact hone
      · split
        · exact hone
        · exact hmore _ _ _
    · exact hone

theorem retryLoop_called (registry : String → Option String) (outcome : Nat → LitellmOutcome α)
    (left attempt : Nat) (bumped : Bool) (model : String) :
    1 ≤ (retryLoop registry outcome (left + 1) attempt bumped model).calls.length := by
  have hmore : ∀ (call : RetryCall α) (run : RetryRun α), 1 ≤ (run.after call).calls.length :=
    fun _ run => Nat.le_add_left 1 run.calls.length
  unfold retryLoop
  split
  · exact le_refl 1
  · split
    · exact le_refl 1
    · split
      · exact le_refl 1
      · exact hmore _ _
  · split
    · exact le_refl 1
    · split
      · exact le_refl 1
      · exact hmore _ _
  · exact le_refl 1

theorem ends_after {run : RetryRun α} (call : RetryCall α) (hcalled : 1 ≤ run.calls.length) :
    (run.after call).Ends ↔ run.Ends := by
  have hlast : (run.after call).calls.getLast? = run.calls.getLast? := by
    show (call :: run.calls).getLast? = run.calls.getLast?
    cases hcalls : run.calls with
    | nil =>
      rw [hcalls] at hcalled
      exact absurd hcalled (Nat.not_succ_le_zero 0)
    | cons first rest => rw [List.getLast?_cons_cons]
  unfold RetryRun.Ends
  rw [hlast]
  exact Iff.rfl

theorem not_ends_none {run : RetryRun α} (h : run.result = .ok none) : ¬ run.Ends := by
  intro ⟨call, _, hresult⟩
  rw [h] at hresult
  unfold RetryCall.ending at hresult
  split at hresult <;> cases hresult

theorem not_ends_overflow {run : RetryRun α} (h : run.result = .error .overflow) :
    ¬ run.Ends := by
  intro ⟨call, _, hresult⟩
  rw [h] at hresult
  unfold RetryCall.ending at hresult
  split at hresult <;> cases hresult

theorem ends_single {call : RetryCall α} {result : Except RetryError (Option (α × String))}
    (h : result = call.ending) : RetryRun.Ends { calls := [call], result := result } :=
  ⟨call, rfl, h⟩

theorem retryLoop_ends_iff (registry : String → Option String) (outcome : Nat → LitellmOutcome α)
    (left attempt : Nat) (bumped : Bool) (model : String) :
    (retryLoop registry outcome (left + 1) attempt bumped model).Ends ↔
      ¬ FallsOff (bumped = false ∧ (replacementIn registry model).isSome) outcome attempt
          (attempt + left) ∧
        ¬ Overflows (bumped = false ∧ (replacementIn registry model).isSome) outcome attempt
          (attempt + left) := by
  induction left using Nat.strong_induction_on generalizing attempt bumped model with
  | _ left ih =>
    have hle : attempt ≤ attempt + left := Nat.le_add_right attempt left
    unfold retryLoop
    cases hout : outcome attempt with
    | answered answer =>
      have hlimited : ¬ (outcome attempt).Limited := by rw [hout]; exact id
      have hgone : ¬ (outcome attempt).Gone := by rw [hout]; exact id
      exact iff_of_true (ends_single rfl)
        (not_exits_of_stop hlimited (fun h => hgone h.2) hle)
    | raised exc =>
      have hlimited : ¬ (outcome attempt).Limited := by rw [hout]; exact id
      have hgone : ¬ (outcome attempt).Gone := by rw [hout]; exact id
      exact iff_of_true (ends_single rfl)
        (not_exits_of_stop hlimited (fun h => hgone h.2) hle)
    | notFound exc =>
      have hlimited : ¬ (outcome attempt).Limited := by rw [hout]; exact id
      have hgone : (outcome attempt).Gone := by rw [hout]; exact trivial
      cases bumped with
      | true =>
        exact iff_of_true (ends_single rfl)
          (not_exits_of_stop hlimited (fun h => Bool.noConfusion h.1.1) hle)
      | false =>
        cases hreplacement : replacementIn registry model with
        | none =>
          exact iff_of_true (ends_single rfl)
            (not_exits_of_stop hlimited (fun h => Bool.noConfusion h.1.2) hle)
        | some replacement =>
          -- the replacement is called with the attempts that are left, if any are
          cases left with
          | zero =>
            have hoff : FallsOff (false = false ∧ (some replacement).isSome = true) outcome
                attempt (attempt + 0) := ⟨⟨rfl, rfl⟩, allLimited_self outcome attempt, hgone⟩
            exact iff_of_false (not_ends_none rfl) (fun h => h.1 hoff)
          | succ left =>
            have hlast : attempt + (left + 1) = attempt + 1 + left := by omega
            have hrest := ih left (Nat.lt_succ_self left) (attempt + 1) true replacement
            refine (ends_after _ (retryLoop_called registry outcome left (attempt + 1) true
              replacement)).trans (hrest.trans ?_)
            rw [hlast, overflows_bumped ⟨rfl, rfl⟩ hlimited hgone]
            have hoff : ¬ FallsOff (false = false ∧ (some replacement).isSome = true) outcome
                attempt (attempt + 1 + left) :=
              fun h => hlimited (h.2.1 attempt (le_refl attempt) (by omega))
            have hnone : (true = false ∧ (replacementIn registry replacement).isSome = true) ↔
                False := ⟨fun h => Bool.noConfusion h.1, False.elim⟩
            rw [propext hnone]
            exact and_congr_left' (iff_of_true (fun h => h.1) hoff)
    | rateLimited exc =>
      have hgone : ¬ (outcome attempt).Gone := by rw [hout]; exact id
      by_cases hbilling : Breaker.isBillingError exc.message = true
      · have hlimited : ¬ (outcome attempt).Limited := by
          rw [hout]
          intro h
          exact Bool.noConfusion (hbilling.symm.trans h)
        dsimp only
        rw [hbilling, Bool.true_or, if_pos rfl]
        exact iff_of_true (ends_single rfl)
          (not_exits_of_stop hlimited (fun h => hgone h.2) hle)
      · have hfalse : Breaker.isBillingError exc.message = false := eq_false_of_ne_true hbilling
        have hlimited : (outcome attempt).Limited := by rw [hout]; exact hfalse
        dsimp only
        rw [hfalse, Bool.false_or]
        cases left with
        | zero =>
          rw [if_pos (decide_eq_true rfl)]
          refine iff_of_true (ends_single rfl) ⟨fun h => hgone h.2.2, ?_⟩
          intro ⟨m, hnm, _, hlast, _⟩
          omega
        | succ left =>
          have hlast : attempt + (left + 1) = attempt + 1 + left := by omega
          rw [if_neg (by simp)]
          by_cases hover : overflowAttempt ≤ attempt
          · rw [if_pos hover]
            have hpath : Overflows (bumped = false ∧ (replacementIn registry model).isSome = true)
                outcome attempt (attempt + (left + 1)) :=
              ⟨attempt, le_refl attempt, hover, by omega, hlimited,
                Or.inl (allLimited_self outcome attempt)⟩
            exact iff_of_false (not_ends_overflow rfl) (fun h => h.2 hpath)
          · rw [if_neg hover]
            have hrest := ih left (Nat.lt_succ_self left) (attempt + 1) bumped model
            refine (ends_after _ (retryLoop_called registry outcome left (attempt + 1) bumped
              model)).trans (hrest.trans ?_)
            rw [hlast, fallsOff_limited (by omega) hlimited,
              overflows_limited hlimited hgone (fun h => hover h.1)]

/-- **A run ends with the answer or the exception of its last call**, within its budget, if and
only if no retired model is replaced at the last attempt and no wait overflows. -/
theorem retry_ends_iff (registry : String → Option String) (maxRetries : Nat)
    (outcome : Nat → LitellmOutcome α) (model : String) :
    ((acompletionWithRetryRun false registry maxRetries outcome model).Ends ∧
        (acompletionWithRetryRun false registry maxRetries outcome model).Within maxRetries) ↔
      ¬ FallsOff (replacementIn registry model).isSome outcome 0 maxRetries ∧
        ¬ Overflows (replacementIn registry model).isSome outcome 0 maxRetries := by
  have hends := retryLoop_ends_iff registry outcome maxRetries 0 false model
  have hlength := retryLoop_length registry outcome (maxRetries + 1) 0 false model
  have hcalled := retryLoop_called registry outcome maxRetries 0 false model
  have hwithin : (retryLoop registry outcome (maxRetries + 1) 0 false model).Within maxRetries :=
    ⟨hcalled, le_trans List.countP_le_length hlength, Nat.le_succ_of_le hlength⟩
  rw [Nat.zero_add] at hends
  simp only [true_and] at hends
  exact ⟨fun h => hends.mp h.1, fun h => ⟨hends.mpr h, hwithin⟩⟩

def goneAtLast (n : Nat) : LitellmOutcome Completion :=
  if n < 3 then .rateLimited ⟨"RateLimitError", "Rate limit exceeded"⟩
  else .notFound ⟨"NotFoundError", "models/gemini-2.0-flash is not found"⟩

/-- The caller gets `None`, without a completion. -/
theorem goneAtLast_returns_none :
    (acompletionWithRetryRun false shippedRegistry 3 goneAtLast "gemini/gemini-2.0-flash").result =
        .ok none ∧
      ¬ (acompletionWithRetryRun false shippedRegistry 3 goneAtLast
        "gemini/gemini-2.0-flash").Ends := by
  have hresult : (acompletionWithRetryRun false shippedRegistry 3 goneAtLast
      "gemini/gemini-2.0-flash").result = .ok none := by rfl
  exact ⟨hresult, not_ends_none hresult⟩

end LlmProxy.Dispatch
