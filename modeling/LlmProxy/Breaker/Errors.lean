import LlmProxy.Breaker.State
import LlmProxy.Lib.PyStr

/-! # What a failed call does to its provider

The string classifiers of `app/routing/circuit_breaker.py`, the rest of `record_auth_failure`
and the breaker part of `record_outcome` (`app/monitoring/helpers.py`).

> `caller_errors_never_trip`: an error that is the caller's own leaves the provider's breaker and
> auth streak alone, except when it also reads as an auth error, and except when only
> `classify_error` files it as a bad request: `record_outcome` asks `is_auth_error` first and
> does not ask `classify_error` at all.

Mirroring notes.
* The activity row, the metrics and `_persist_auto_skip` are not modelled; whether the latter is
  called is part of the result.
* The tables of one provider are one record: an entry that is absent is empty or 0.
-/

namespace LlmProxy.Breaker

/-! ## The classifiers -/

def billingErrorPatterns : List String :=
  ["insufficient_quota", "insufficient credit", "quota exceeded",
    "exceeded your current quota", "exceeded your quota", "billing", "payment required",
    "subscription"]

def callerSideErrorPatterns : List String :=
  ["missing corresponding tool call", "request.messages.content: string expected",
    "invalid user message at index", "invalid 'messages[",
    "missing corresponding tool call for tool response"]

def authErrorPatterns : List String :=
  ["authentication_error", "invalid x-api-key", "invalid api key", "invalid authentication",
    "unauthorized", "401", "403", "permission_denied", "expired_token", "invalid_token",
    "invalid_grant", "missing gemini api key", "missing openai api key",
    "missing anthropic api key", "the api_key client option must be set", "incorrect api key",
    "invalid_api_key", "api key not valid"]

def rateLimitPatterns : List String :=
  ["rate_limit", "rate limit", "too many requests", "ratelimit", "429", "quota exceeded",
    "throttled"]

def timeoutPatterns : List String :=
  ["timed out", "timeout", "deadline exceeded", "read timeout", "connect timeout"]

def networkPatterns : List String :=
  ["connection refused", "connection reset", "name or service not known",
    "temporary failure in name resolution", "dns", "no route to host", "network is unreachable",
    "ssl", "tls", "readerror", "writeerror", "remoteprotocolerror", "localprotocolerror",
    "proxyerror", "server disconnected", "without sending a response", "bridge unreachable"]

def upstream5xxPatterns : List String :=
  ["500", "502", "503", "504", "529", "overloaded_error", "overloaded",
    "internal server error", "bad gateway", "service unavailable", "gateway timeout"]

def clientErrorOverridePatterns : List String :=
  ["badrequesterror", "contextwindowexceeded", "contentpolicyviolation", "unsupportedparams",
    "invalid_request_error", "too_many_tokens", "invalid user message"]

def badRequestPatterns : List String :=
  ["400", "404", "405", "409", "410", "413", "415", "422", "not found", "invalid_request",
    "invalid request", "validation error", "malformed", "bad request", "badrequesterror",
    "contextwindowexceeded", "contentpolicyviolation", "unsupportedparams",
    "invalid user message", "xaiexception - invalid user message",
    "openrouterexception - invalid user message", "upstream returned no choices",
    "upstream returned empty choices"]

/-- `any(p in error_text.lower() for p in patterns)`. -/
def mentions (patterns : List String) (errorText : String) : Bool :=
  patterns.any fun p => PyStr.contains (PyStr.searchLower errorText) p

def isBillingError : String → Bool := mentions billingErrorPatterns

def isCallerSideError : String → Bool := mentions callerSideErrorPatterns

/-- `is_auth_error`; the empty text is tested apart. -/
def isAuthError (errorText : String) : Bool :=
  if errorText = "" then false else mentions authErrorPatterns errorText

inductive ErrorClass where
  | auth
  | billing
  | rateLimit
  | timeout
  | network
  | upstream5xx
  | badRequest
  | unknown
  deriving DecidableEq, Repr

/-- `classify_error`: the first bucket that matches. -/
def classifyError (errorText : String) : ErrorClass :=
  if errorText = "" then .unknown
  else if isAuthError errorText then .auth
  else if isBillingError errorText then .billing
  else if mentions rateLimitPatterns errorText then .rateLimit
  else if mentions timeoutPatterns errorText then .timeout
  else if mentions networkPatterns errorText then .network
  else if mentions clientErrorOverridePatterns errorText then .badRequest
  else if mentions upstream5xxPatterns errorText then .upstream5xx
  else if mentions badRequestPatterns errorText then .badRequest
  else .unknown

/-! ## The tables of a provider -/

/-- An entry of `_auth_failed`. -/
structure AuthFailed where
  since : Time
  lastError : String
  deriving DecidableEq, Repr

/-- What the module keeps of one provider: its breaker, `_auth_failed`, `_auth_failure_history`
and `_auth_failure_streak`. -/
structure ProviderState where
  breaker : LocalState := {}
  authFailed : Option AuthFailed := none
  authFailureHistory : List Time := []
  authFailureStreak : Nat := 0
  deriving DecidableEq, Repr

def persistentAuthThreshold : Nat := 3

/-- Half an hour. -/
def persistentAuthWindowSec : Time := 1800

/-- `clear_auth_failure`. -/
def ProviderState.clearAuthFailure (p : ProviderState) : ProviderState :=
  { p with authFailed := none, authFailureHistory := [], authFailureStreak := 0 }

/-- `record_auth_failure`, and whether it goes on to `_persist_auto_skip`. -/
def ProviderState.recordAuthFailure (p : ProviderState) (errorText : String) (clk : AuthClock) :
    ProviderState × Bool :=
  let history := (p.authFailureHistory ++ [clk.recordedAt]).filter fun t =>
    clk.recordedAt - persistentAuthWindowSec < t
  let streak := p.authFailureStreak + 1
  ({ breaker := p.breaker.recordAuthFailure clk.openedAt clk.heldAt
     authFailed := some ⟨clk.since, String.ofList (errorText.toList.take 300)⟩
     authFailureHistory := history
     authFailureStreak := streak },
    decide (persistentAuthThreshold ≤ history.length ∨ persistentAuthThreshold ≤ streak))

/-! ## `record_outcome` -/

/-- What `record_outcome` tells the breaker. -/
inductive Outcome where
  | success
  | failure (billingError : Bool)
  | authFailure
  deriving DecidableEq, Repr

/-- The outcome of a failed call. A probe's auth error counts as a plain failure; an error of the
caller's is none. -/
def failedOutcome (errorStr : String) (isProbe : Bool) : Option Outcome :=
  if isAuthError errorStr then some (if isProbe then .failure false else .authFailure)
  else if isCallerSideError errorStr then none
  else some (.failure (isBillingError errorStr))

/-- The breaker function an outcome calls, at the clock it reads; a success also clears what auth
failures have left. -/
def ProviderState.apply (cfg : Config) (p : ProviderState) (errorStr : String) (now : Time)
    (clk : AuthClock) : Outcome → ProviderState × Bool
  | .success => ({ p with breaker := p.breaker.recordSuccess cfg }.clearAuthFailure, false)
  | .failure billingError =>
    ({ p with breaker := p.breaker.recordFailure cfg billingError now }, false)
  | .authFailure => p.recordAuthFailure errorStr clk

/-- `record_outcome`, and whether it goes on to `_persist_auto_skip`. -/
def ProviderState.recordOutcome (cfg : Config) (p : ProviderState) (success : Bool)
    (errorStr : String) (isProbe : Bool) (now : Time) (clk : AuthClock) : ProviderState × Bool :=
  match if success then some .success else failedOutcome errorStr isProbe with
  | some outcome => p.apply cfg errorStr now clk outcome
  | none => (p, false)

/-! ## Errors of the caller's -/

/-- Breaker state, failure counter, hold-down and auth streak are as before. -/
def ProviderState.Untouched (p p' : ProviderState) : Prop :=
  p'.breaker.state = p.breaker.state ∧ p'.breaker.failures = p.breaker.failures ∧
    p'.breaker.holdDownUntil = p.breaker.holdDownUntil ∧
    p'.authFailureStreak = p.authFailureStreak

theorem recordFailure_failures (cfg : Config) (s : LocalState) (billingError : Bool) (now : Time) :
    (s.recordFailure cfg billingError now).failures = s.failures + 1 := by
  cases billingError with
  | true => rfl
  | false =>
    by_cases htrips : s.Trips cfg
    · rw [recordFailure_trips htrips]
      rfl
    · rw [recordFailure_counts htrips]

theorem not_untouched_of_failedOutcome {errorStr : String} {isProbe : Bool} {outcome : Outcome}
    (h : failedOutcome errorStr isProbe = some outcome) (cfg : Config) (p : ProviderState)
    (now : Time) (clk : AuthClock) :
    ¬ p.Untouched (p.recordOutcome cfg false errorStr isProbe now clk).1 := by
  have hrecord : p.recordOutcome cfg false errorStr isProbe now clk =
      p.apply cfg errorStr now clk outcome := by
    simp only [ProviderState.recordOutcome, Bool.false_eq_true, if_false, h]
  rw [hrecord]
  intro hsame
  cases outcome with
  | success =>
    unfold failedOutcome at h
    split_ifs at h <;> exact Outcome.noConfusion (Option.some.inj h)
  | failure billingError =>
    have hcount : (p.breaker.recordFailure cfg billingError now).failures = p.breaker.failures :=
      hsame.2.1
    rw [recordFailure_failures] at hcount
    omega
  | authFailure =>
    have hstreak : p.authFailureStreak + 1 = p.authFailureStreak := hsame.2.2.2
    omega

theorem untouched_of_no_outcome {errorStr : String} {isProbe : Bool}
    (h : failedOutcome errorStr isProbe = none) (cfg : Config) (p : ProviderState) (now : Time)
    (clk : AuthClock) : p.Untouched (p.recordOutcome cfg false errorStr isProbe now clk).1 := by
  have hrecord : p.recordOutcome cfg false errorStr isProbe now clk = (p, false) := by
    simp only [ProviderState.recordOutcome, Bool.false_eq_true, if_false, h]
  rw [hrecord]
  exact ⟨rfl, rfl, rfl, rfl⟩

theorem failedOutcome_eq_none_iff {errorStr : String} {isProbe : Bool} :
    failedOutcome errorStr isProbe = none ↔
      isAuthError errorStr = false ∧ isCallerSideError errorStr = true := by
  unfold failedOutcome
  split_ifs <;> simp [*]

/-- `classify_error` looks for auth errors first. -/
theorem not_auth_of_badRequest {errorStr : String} (h : classifyError errorStr = .badRequest) :
    isAuthError errorStr = false := by
  unfold classifyError at h
  rw [Bool.eq_false_iff]
  intro hauth
  split_ifs at h

/-- **Errors of the caller's.** They leave the provider alone exactly when the error, if it is a
caller-side one, does not also read as an auth error and, if it is filed as a bad request, is a
caller-side one. Neither the provider nor the clock matters. -/
theorem caller_errors_never_trip (cfg : Config) (p : ProviderState) (errorStr : String)
    (isProbe : Bool) (now : Time) (clk : AuthClock) :
    ((isCallerSideError errorStr = true ∨ classifyError errorStr = .badRequest) →
      p.Untouched (p.recordOutcome cfg false errorStr isProbe now clk).1) ↔
    (isCallerSideError errorStr = true → isAuthError errorStr = false) ∧
      (classifyError errorStr = .badRequest → isCallerSideError errorStr = true) := by
  have huntouched : p.Untouched (p.recordOutcome cfg false errorStr isProbe now clk).1 ↔
      isAuthError errorStr = false ∧ isCallerSideError errorStr = true := by
    rw [← @failedOutcome_eq_none_iff errorStr isProbe]
    constructor
    · intro hsame
      by_contra hsome
      obtain ⟨outcome, h⟩ := Option.ne_none_iff_exists'.mp hsome
      exact not_untouched_of_failedOutcome h cfg p now clk hsame
    · exact fun hnone => untouched_of_no_outcome hnone cfg p now clk
  rw [huntouched]
  constructor
  · intro h
    exact ⟨fun hcaller => (h (Or.inl hcaller)).1, fun hbad => (h (Or.inr hbad)).2⟩
  · rintro ⟨hnotAuth, hcallerSide⟩ (hcaller | hbad)
    · exact ⟨hnotAuth hcaller, hcaller⟩
    · exact ⟨not_auth_of_badRequest hbad, hcallerSide hbad⟩

/-- A request beyond the model's token limit, as the client library words it. -/
def tokenLimitError : String := "litellm.BadRequestError: max_tokens is too large"

theorem tokenLimitError_counted :
    ¬ ∀ (cfg : Config) (p : ProviderState) (errorStr : String) (isProbe : Bool) (now : Time)
      (clk : AuthClock), (isCallerSideError errorStr = true ∨ classifyError errorStr = .badRequest) →
        p.Untouched (p.recordOutcome cfg false errorStr isProbe now clk).1 := by
  intro h
  have hbad : classifyError tokenLimitError = .badRequest := by decide +kernel
  have hcount := (h {} {} tokenLimitError false 0 ⟨0, 0, 0, 0⟩ (Or.inr hbad)).2.1
  revert hcount
  decide +kernel

end LlmProxy.Breaker
