import LlmProxy.Cluster.KeyEdits
import LlmProxy.Dispatch.Coherence

/-! # Runs of the refusal cascade

`maybe_cascade_on_refusal` (`app/api/_refusal_cascade.py`) with its dispatches, for a key row as
`verify_api_key` (`app/auth/keys.py`) hands it on.

> `cascade_obeys_iff`: the cascade keeps to the budget of the row exactly when no more providers
> are on offer, or one of the first of them answers.

The column `refusal_retry_max_attempts` never reaches the loop: the record has no field for it,
and a zero would be replaced by the default. Everything else the cascade does as it should:
`Faithful` holds of every run (`cascadeRun_faithful`).

Mirroring notes.
* An attempt answers when its dispatch returns, the result is converted and no refusal is found
  in it; one that raises or cannot be converted has no response and counts as failed.
* The rows of the activity log are left out.
-/

namespace LlmProxy.Dispatch

open LlmProxy.Providers
open LlmProxy.Routing
open LlmProxy.Streaming (Completion Response toAnthropicResponse)

/-! ## The key -/

/-- A stored key; its id is drawn by `secrets.token_hex(8)`. -/
structure StoredKey extends Cluster.KeyRow where
  nonempty : id ≠ ""

/-- The record `verify_api_key` returns for the row it finds. -/
def StoredKey.record (key : StoredKey) : ApiKeyRecord where
  id := key.id
  nonempty := key.nonempty
  keyType := key.keyType
  refusalRetryEnabled := key.refusalRetryEnabled
  refusalRetryStreamingHeartbeat := key.refusalRetryStreamingHeartbeat

/-- What the column documents: three when it is null, no attempt when it is 0. -/
def StoredKey.budget (key : StoredKey) : Nat :=
  match key.refusalRetryMaxAttempts with
  | none => 3
  | some n => n.toNat

/-- `getattr(key_record, "refusal_retry_max_attempts", None)`: the record has no such field. -/
def ApiKeyRecord.refusalRetryMaxAttempts (_ : ApiKeyRecord) : Option Int := none

/-- `max_attempts`. -/
def ApiKeyRecord.maxAttempts (key : ApiKeyRecord) : Int :=
  match key.refusalRetryMaxAttempts with
  | none => defaultMaxAttempts
  -- a zero is false
  | some n => if n = 0 then defaultMaxAttempts else n

/-! ## The loop -/

/-- What the dispatches of a run come to. -/
abbrev Dispatcher := Nat → RouteResult → Except Failure Completion

section

variable (env : CascadeEnv) (dispatch : Dispatcher)

inductive AttemptEnd where
  | failed (exc : Failure)
  | unconvertible (exc : String)
  | refused (served : Served)
  | answered (served : Served)

def AttemptEnd.answer : AttemptEnd → Option Served
  | .answered served => some served
  | _ => none

/-- The `n`-th attempt, on the route it was given. -/
def attemptOn (n : Nat) (alt : RouteResult) : AttemptEnd :=
  match dispatch n alt with
  | .error exc => .failed exc
  | .ok result =>
    match toAnthropicResponse (env.tokenHex n) result with
    | .error exc => .unconvertible exc
    | .ok response =>
      if env.refuses response then .refused ⟨alt, result, response⟩
      else .answered ⟨alt, result, response⟩

/-- The loop: the routes it dispatches to, and the answer it accepts. -/
def cascadeLoop (req : RouteRequest) : Nat → Nat → List String →
    List RouteResult × Option Served
  | 0, _, _ => ([], none)
  | left + 1, n, attempted =>
    match selectRoute (env.worlds n) (req.around attempted) with
    | .error _ => ([], none)
    | .ok alt =>
      match (attemptOn env dispatch n alt).answer with
      | some served => ([alt], some served)
      | none =>
        let rest := cascadeLoop req left (n + 1) (attempted ++ [alt.provider.id])
        (alt :: rest.1, rest.2)

end

/-- A run: its dispatches, its result and the response headers it sets. -/
structure CascadeRun where
  dispatches : List RouteResult
  result : CascadeResult
  attemptsMade : Nat
  chainExhausted : Bool
  headers : List (String × String)

def attribution (attempts : Nat) (result : CascadeResult) : List (String × String) :=
  [("X-Refusal-Retry-Attempted", toString attempts),
    ("X-Refusal-Retry-Provider", result.final.route.provider.id),
    ("X-Refusal-Chain-Exhausted", if result.swapped then "false" else "true")]

/-- `maybe_cascade_on_refusal`. -/
def cascadeRun (env : CascadeEnv) (key : ApiKeyRecord) (req : RouteRequest)
    (dispatch : Dispatcher) (initial : Served) : CascadeRun :=
  let first := initial.route.provider.id
  let noOp : CascadeRun := ⟨[], ⟨false, initial, [first]⟩, 0, false, []⟩
  if !key.refusalRetryEnabled then noOp
  else if !env.refuses initial.anthropic then noOp
  else
    let (dispatches, accepted) := cascadeLoop env dispatch req key.maxAttempts.toNat 0 [first]
    let auditTrail := first :: dispatches.map (·.provider.id)
    let result : CascadeResult := ⟨accepted.isSome, accepted.getD initial, auditTrail⟩
    ⟨dispatches, result, auditTrail.length - 1, !result.swapped,
      attribution (auditTrail.length - 1) result⟩

/-! ## Providers on offer -/

section

variable (env : CascadeEnv) (dispatch : Dispatcher) (req : RouteRequest)

/-- The routes selected one after the other, each around those before it, as long as no attempt
answers. -/
def offeredFrom : Nat → Nat → List String → List RouteResult
  | 0, _, _ => []
  | left + 1, n, attempted =>
    match selectRoute (env.worlds n) (req.around attempted) with
    | .error _ => []
    | .ok alt => alt :: offeredFrom left (n + 1) (attempted ++ [alt.provider.id])

/-- The `i`-th attempt on these routes answers; they are those from the `n`-th on. -/
def AnswersAt (n : Nat) (routes : List RouteResult) (i : Nat) : Prop :=
  ∃ alt, routes[i]? = some alt ∧ (attemptOn env dispatch (n + i) alt).answer.isSome

def firstAnswer (n : Nat) : List RouteResult → Option Served
  | [] => none
  | alt :: rest => (attemptOn env dispatch n alt).answer.or (firstAnswer (n + 1) rest)

end

section

variable {env : CascadeEnv} {dispatch : Dispatcher} {req : RouteRequest}

theorem cascadeLoop_raised {left n : Nat} {attempted : List String} {e : RoutingError}
    (h : selectRoute (env.worlds n) (req.around attempted) = .error e) :
    cascadeLoop env dispatch req (left + 1) n attempted = ([], none) := by
  rw [cascadeLoop, h]

theorem cascadeLoop_answered {left n : Nat} {attempted : List String} {alt : RouteResult}
    {served : Served} (h : selectRoute (env.worlds n) (req.around attempted) = .ok alt)
    (hanswer : (attemptOn env dispatch n alt).answer = some served) :
    cascadeLoop env dispatch req (left + 1) n attempted = ([alt], some served) := by
  rw [cascadeLoop, h]
  simp only [hanswer]

theorem cascadeLoop_failed {left n : Nat} {attempted : List String} {alt : RouteResult}
    (h : selectRoute (env.worlds n) (req.around attempted) = .ok alt)
    (hanswer : (attemptOn env dispatch n alt).answer = none) :
    cascadeLoop env dispatch req (left + 1) n attempted =
      (alt :: (cascadeLoop env dispatch req left (n + 1) (attempted ++ [alt.provider.id])).1,
        (cascadeLoop env dispatch req left (n + 1) (attempted ++ [alt.provider.id])).2) := by
  rw [cascadeLoop, h]
  simp only [hanswer]

theorem answersAt_zero {n : Nat} {alt : RouteResult} {rest : List RouteResult} :
    AnswersAt env dispatch n (alt :: rest) 0 ↔ (attemptOn env dispatch n alt).answer.isSome := by
  simp [AnswersAt]

theorem answersAt_succ {n i : Nat} {alt : RouteResult} {rest : List RouteResult} :
    AnswersAt env dispatch n (alt :: rest) (i + 1) ↔ AnswersAt env dispatch (n + 1) rest i := by
  have hindex : n + (i + 1) = n + 1 + i := by omega
  simp only [AnswersAt, List.getElem?_cons_succ, hindex]

/-- **The dispatches of the loop** are as many as the providers on offer, or end with the first
answer. -/
theorem length_cascadeLoop_le_iff (left n b : Nat) (attempted : List String) :
    (cascadeLoop env dispatch req left n attempted).1.length ≤ b ↔
      (offeredFrom env req left n attempted).length ≤ b ∨
        ∃ i < b, AnswersAt env dispatch n (offeredFrom env req left n attempted) i := by
  induction left generalizing n b attempted with
  | zero => simp [cascadeLoop, offeredFrom]
  | succ left ih =>
    cases hselect : selectRoute (env.worlds n) (req.around attempted) with
    | error e =>
      rw [cascadeLoop_raised hselect, offeredFrom, hselect]
      simp
    | ok alt =>
      have hoffered : offeredFrom env req (left + 1) n attempted =
          alt :: offeredFrom env req left (n + 1) (attempted ++ [alt.provider.id]) := by
        rw [offeredFrom, hselect]
      rw [hoffered]
      cases hanswer : (attemptOn env dispatch n alt).answer with
      | some served =>
        rw [cascadeLoop_answered hselect hanswer]
        constructor
        · intro hb
          exact Or.inr ⟨0, hb, answersAt_zero.mpr (by rw [hanswer]; rfl)⟩
        · rintro (hb | ⟨i, hi, -⟩)
          · rw [List.length_cons] at hb
            rw [List.length_singleton]
            omega
          · exact Nat.lt_of_le_of_lt (Nat.zero_le i) hi
      | none =>
        rw [cascadeLoop_failed hselect hanswer]
        cases b with
        | zero => simp
        | succ b =>
          simp only [List.length_cons, Nat.add_le_add_iff_right]
          rw [ih (n + 1) b]
          constructor
          · rintro (hfew | ⟨i, hi, hanswers⟩)
            · exact Or.inl hfew
            · exact Or.inr ⟨i + 1, Nat.succ_lt_succ hi, answersAt_succ.mpr hanswers⟩
          · rintro (hfew | ⟨i, hi, hanswers⟩)
            · exact Or.inl hfew
            · cases i with
              | zero =>
                have hsome := answersAt_zero.mp hanswers
                rw [hanswer] at hsome
                cases hsome
              | succ i =>
                exact Or.inr ⟨i, Nat.lt_of_succ_lt_succ hi, answersAt_succ.mp hanswers⟩

theorem cascadeLoop_accepted (left n : Nat) (attempted : List String) :
    (cascadeLoop env dispatch req left n attempted).2 =
      firstAnswer env dispatch n (cascadeLoop env dispatch req left n attempted).1 := by
  induction left generalizing n attempted with
  | zero => rfl
  | succ left ih =>
    cases hselect : selectRoute (env.worlds n) (req.around attempted) with
    | error e =>
      rw [cascadeLoop_raised hselect]
      rfl
    | ok alt =>
      cases hanswer : (attemptOn env dispatch n alt).answer with
      | some served =>
        rw [cascadeLoop_answered hselect hanswer]
        simp [firstAnswer, hanswer]
      | none =>
        rw [cascadeLoop_failed hselect hanswer]
        simp [firstAnswer, hanswer, ih]

theorem cascadeLoop_nodup (left n : Nat) (attempted : List String) (h : attempted.Nodup) :
    (attempted ++ (cascadeLoop env dispatch req left n attempted).1.map (·.provider.id)).Nodup := by
  induction left generalizing n attempted with
  | zero => simpa [cascadeLoop] using h
  | succ left ih =>
    cases hselect : selectRoute (env.worlds n) (req.around attempted) with
    | error e =>
      rw [cascadeLoop_raised hselect]
      simpa using h
    | ok alt =>
      have hfresh : alt.provider.id ∉ attempted := (selectRoute_route hselect).1.notExcludedIds
      have hnodup : (attempted ++ [alt.provider.id]).Nodup := by
        rw [List.nodup_append]
        refine ⟨h, List.nodup_singleton _, ?_⟩
        intro id hid other hother
        rw [List.mem_singleton.mp hother]
        exact fun heq => hfresh (heq ▸ hid)
      cases hanswer : (attemptOn env dispatch n alt).answer with
      | some served =>
        rw [cascadeLoop_answered hselect hanswer]
        exact hnodup
      | none =>
        rw [cascadeLoop_failed hselect hanswer]
        have hrest := ih (n + 1) _ hnodup
        rw [List.append_assoc] at hrest
        exact hrest

end

section

variable (env : CascadeEnv) (key : StoredKey) (req : RouteRequest) (dispatch : Dispatcher)
  (initial : Served)

/-- The dispatches, result and headers of a run agree with its attempts. -/
structure Faithful (run : CascadeRun) : Prop where
  distinct : (initial.route.provider.id :: run.dispatches.map (·.provider.id)).Nodup
  swapped : run.result.swapped = true ↔ ∃ i, AnswersAt env dispatch 0 run.dispatches i
  final : run.result.final = (firstAnswer env dispatch 0 run.dispatches).getD initial
  attempts : run.attemptsMade = run.dispatches.length
  headers : run.headers =
    if env.refuses initial.anthropic then attribution run.dispatches.length run.result else []

structure ObeysBudget (run : CascadeRun) : Prop extends Faithful env dispatch initial run where
  within : run.dispatches.length ≤ key.budget

/-- The providers on offer to a cascade. -/
def cascadeOffers : List RouteResult :=
  offeredFrom env req defaultMaxAttempts 0 [initial.route.provider.id]

end

section

variable {env : CascadeEnv} {dispatch : Dispatcher}

theorem isSome_firstAnswer_iff (n : Nat) (routes : List RouteResult) :
    (firstAnswer env dispatch n routes).isSome = true ↔
      ∃ i, AnswersAt env dispatch n routes i := by
  induction routes generalizing n with
  | nil => simp [firstAnswer, AnswersAt]
  | cons alt rest ih =>
    rw [firstAnswer, Option.isSome_or, Bool.or_eq_true, ih (n + 1)]
    constructor
    · rintro (hfirst | ⟨i, hi⟩)
      · exact ⟨0, answersAt_zero.mpr hfirst⟩
      · exact ⟨i + 1, answersAt_succ.mpr hi⟩
    · rintro ⟨i, hi⟩
      cases i with
      | zero => exact Or.inl (answersAt_zero.mp hi)
      | succ i => exact Or.inr ⟨i, answersAt_succ.mp hi⟩

theorem cascadeRun_faithful (env : CascadeEnv) {key : ApiKeyRecord}
    (hon : key.refusalRetryEnabled = true) (req : RouteRequest) (dispatch : Dispatcher)
    (initial : Served) :
    Faithful env dispatch initial (cascadeRun env key req dispatch initial) := by
  unfold cascadeRun
  rw [hon]
  cases hrefuses : env.refuses initial.anthropic with
  | false =>
    exact
      { distinct := List.nodup_singleton _
        swapped := by simp [AnswersAt]
        final := rfl
        attempts := rfl
        headers := by simp [hrefuses] }
  | true =>
    let loop := cascadeLoop env dispatch req key.maxAttempts.toNat 0 [initial.route.provider.id]
    have hnodup : ([initial.route.provider.id] ++ loop.1.map (·.provider.id)).Nodup :=
      cascadeLoop_nodup _ _ _ (List.nodup_singleton _)
    have haccepted : loop.2 = firstAnswer env dispatch 0 loop.1 := cascadeLoop_accepted _ _ _
    exact
      { distinct := hnodup
        swapped := by
          rw [← isSome_firstAnswer_iff]
          exact Iff.of_eq (congrArg (fun a => a.isSome = true) haccepted)
        final := congrArg (fun a => a.getD initial) haccepted
        attempts := by simp
        headers := by simp [hrefuses] }

theorem dispatches_cascadeRun {key : StoredKey} (hon : key.refusalRetryEnabled = true)
    (req : RouteRequest) {initial : Served} (hrefuses : env.refuses initial.anthropic = true) :
    (cascadeRun env key.record req dispatch initial).dispatches =
      (cascadeLoop env dispatch req defaultMaxAttempts 0 [initial.route.provider.id]).1 := by
  have hon' : key.record.refusalRetryEnabled = true := hon
  unfold cascadeRun
  rw [hon', hrefuses]
  rfl

end

/-- **The budget of the cascade.** For every key with the cascade switched on, every sequence of
worlds and of attempt outcomes, the run keeps to the budget of the row exactly when the first
response is none of a refusal, no more providers are on offer than the budget, or one of the
first of them, as many as the budget, answers. -/
theorem cascade_obeys_iff (env : CascadeEnv) (key : StoredKey) (hint : Option LMRHHint)
    (hasImages : Bool) (dispatch : Dispatcher) (initial : Served)
    (hon : key.refusalRetryEnabled = true) :
    ObeysBudget env key dispatch initial
        (cascadeRun env key.record (cascadeRequest hint hasImages key.record) dispatch initial) ↔
      env.refuses initial.anthropic = false ∨
        (cascadeOffers env (cascadeRequest hint hasImages key.record) initial).length ≤
          key.budget ∨
        ∃ i < key.budget, AnswersAt env dispatch 0
          (cascadeOffers env (cascadeRequest hint hasImages key.record) initial) i := by
  have hfaithful : Faithful env dispatch initial
      (cascadeRun env key.record (cascadeRequest hint hasImages key.record) dispatch initial) :=
    cascadeRun_faithful env hon _ dispatch initial
  have hiff : ObeysBudget env key dispatch initial
      (cascadeRun env key.record (cascadeRequest hint hasImages key.record) dispatch initial) ↔
        (cascadeRun env key.record (cascadeRequest hint hasImages key.record) dispatch
          initial).dispatches.length ≤ key.budget :=
    ⟨fun h => h.within, fun h => ⟨hfaithful, h⟩⟩
  rw [hiff]
  cases hrefuses : env.refuses initial.anthropic with
  | false =>
    have hnone : (cascadeRun env key.record (cascadeRequest hint hasImages key.record) dispatch
        initial).dispatches = [] := by
      unfold cascadeRun
      simp [hrefuses]
    rw [hnone]
    simp
  | true =>
    rw [dispatches_cascadeRun hon _ hrefuses]
    simp only [Bool.true_eq_false, false_or]
    exact length_cascadeLoop_le_iff _ _ _ _

/-! ## The result -/

/-- The runs of `maybeCascadeOnRefusal` end with this result. -/
theorem result_cascadeFrom {env : CascadeEnv} {req : RouteRequest} {dispatch : Dispatcher}
    {initial : Served} (left n : Nat) (attempted : List String) :
    (cascadeFrom env req (fun n alt => Logged.lift (dispatch n alt)) initial left n
        attempted).result =
      .ok ⟨(cascadeLoop env dispatch req left n attempted).2.isSome,
        (cascadeLoop env dispatch req left n attempted).2.getD initial,
        attempted ++
          (cascadeLoop env dispatch req left n attempted).1.map (·.provider.id)⟩ := by
  induction left generalizing n attempted with
  | zero =>
    simp only [cascadeFrom, cascadeLoop, List.map_nil, List.append_nil]
    rfl
  | succ left ih =>
    cases hselect : selectRoute (env.worlds n) (req.around attempted) with
    | error e =>
      rw [cascadeLoop_raised hselect, cascadeFrom, hselect]
      simp only [List.map_nil, List.append_nil]
      rfl
    | ok alt =>
      have hrest := ih (n + 1) (attempted ++ [alt.provider.id])
      rw [List.append_assoc] at hrest
      have hstep : ∀ f : Except Failure Completion → Run CascadeResult,
          (Logged.attempt (Logged.lift (dispatch n alt)) >>= f).result =
            (f (dispatch n alt)).result := fun _ => rfl
      rw [cascadeFrom, hselect]
      simp only [hstep]
      cases hdispatch : dispatch n alt with
      | error exc =>
        rw [cascadeLoop_failed hselect (by simp [attemptOn, hdispatch, AttemptEnd.answer])]
        exact hrest
      | ok result =>
        cases hconvert : toAnthropicResponse (env.tokenHex n) result with
        | error exc =>
          rw [cascadeLoop_failed hselect
            (by simp [attemptOn, hdispatch, hconvert, AttemptEnd.answer])]
          simp only [hconvert]
          exact hrest
        | ok response =>
          simp only [hconvert]
          cases hrefuses : env.refuses response with
          | true =>
            rw [cascadeLoop_failed hselect
              (by simp [attemptOn, hdispatch, hconvert, hrefuses, AttemptEnd.answer])]
            exact hrest
          | false =>
            have hanswer : (attemptOn env dispatch n alt).answer =
                some ⟨alt, result, response⟩ := by
              simp [attemptOn, hdispatch, hconvert, hrefuses, AttemptEnd.answer]
            rw [cascadeLoop_answered hselect hanswer]
            rfl

theorem result_maybeCascadeOnRefusal (env : CascadeEnv) (key : ApiKeyRecord) (req : RouteRequest)
    (dispatch : Dispatcher) (initial : Served) :
    (maybeCascadeOnRefusal env key req (fun n alt => Logged.lift (dispatch n alt)) initial).result =
      .ok (cascadeRun env key req dispatch initial).result := by
  unfold maybeCascadeOnRefusal cascadeRun
  cases key.refusalRetryEnabled with
  | false => rfl
  | true =>
    cases env.refuses initial.anthropic with
    | false => rfl
    | true => exact result_cascadeFrom defaultMaxAttempts 0 [initial.route.provider.id]

/-! ## A fixed key -/

theorem measuringKey_id : ("k1" : String) ≠ "" := by decide

/-- A key that asks for no attempts. -/
def measuringKey : StoredKey where
  id := "k1"
  name := "measuring"
  keyHash := "h1"
  keyPrefix := "llmp-m"
  refusalRetryEnabled := true
  refusalRetryMaxAttempts := some 0
  nonempty := measuringKey_id

def gptCascade : CascadeEnv where
  worlds _ := gptWorld
  isalnum _ := false
  tokenHex _ _ := ""

def refusedResponse : Response where
  id := "msg_1"
  content := [.text "REFUSED: no"]
  model := "claude-sonnet-4-6"
  stopReason := "end_turn"
  inputTokens := 3
  outputTokens := 4
  cacheCreation := 0
  cacheRead := 0

/-- The first row refuses. -/
def refusedFirst : Served := ⟨claudeRoute, refusedAnswer, refusedResponse⟩

/-- Every dispatch fails. -/
def unavailable : Dispatcher := fun _ _ => .error ⟨"APIError", "unavailable"⟩

/-- The same key with a budget of two. -/
def retryingKey : StoredKey := { measuringKey with refusalRetryMaxAttempts := some 2 }

def willingAnswer : Completion :=
  { refusedAnswer with choices := [⟨some "Here you are.", [], some "stop"⟩] }

/-- The second row answers it. -/
theorem retryingKey_obeys :
    ObeysBudget gptCascade retryingKey (fun _ _ => .ok willingAnswer) refusedFirst
      (cascadeRun gptCascade retryingKey.record (cascadeRequest none false retryingKey.record)
        (fun _ _ => .ok willingAnswer) refusedFirst) := by
  obtain ⟨r, hselect, -⟩ := gptRow_selected
  have hfirst : selectRoute (gptCascade.worlds 0)
      ((cascadeRequest none false retryingKey.record).around ["p1"]) = .ok r := hselect
  have hoffers : (cascadeOffers gptCascade (cascadeRequest none false retryingKey.record)
      refusedFirst)[0]? = some r := by
    unfold cascadeOffers
    rw [show defaultMaxAttempts = 2 + 1 from rfl, offeredFrom,
      show [refusedFirst.route.provider.id] = ["p1"] from rfl, hfirst]
    rfl
  exact (cascade_obeys_iff gptCascade retryingKey none false _ refusedFirst rfl).mpr
    (Or.inr (Or.inr ⟨0, by decide, r, hoffers, by rfl⟩))

/-- The second row is called for it all the same. -/
theorem measuringKey_dispatches :
    ¬ ObeysBudget gptCascade measuringKey unavailable refusedFirst
        (cascadeRun gptCascade measuringKey.record
          (cascadeRequest none false measuringKey.record) unavailable refusedFirst) := by
  intro h
  obtain ⟨r, hselect, -⟩ := gptRow_selected
  have hrefuses : gptCascade.refuses refusedFirst.anthropic = true := detectRefusal_marker _
  have hon : measuringKey.refusalRetryEnabled = true := rfl
  have hwithin := h.within
  rw [dispatches_cascadeRun hon _ hrefuses] at hwithin
  have hoffer : selectRoute (gptCascade.worlds 0)
      ((cascadeRequest none false measuringKey.record).around ["p1"]) = .ok r := hselect
  have hfails : (attemptOn gptCascade unavailable 0 r).answer = none := rfl
  rw [show defaultMaxAttempts = 2 + 1 from rfl,
    show [refusedFirst.route.provider.id] = ["p1"] from rfl,
    cascadeLoop_failed hoffer hfails] at hwithin
  exact Nat.not_succ_le_zero _ hwithin

end LlmProxy.Dispatch
