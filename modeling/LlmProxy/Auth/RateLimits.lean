import Mathlib.Logic.Function.Basic
import Mathlib.Data.Rat.Floor
import LlmProxy.Lib.SlidingWindow

/-! # Rate limits of a key

`app/auth/rate_limit_state.py` and the rate-limit part of `verify_api_key` (`app/auth/keys.py`):
three checks in a fixed order over per-process state, each of which tests and records.

Mirroring notes.
* `time.monotonic()` and `time.time()` are two clocks, read once for one call of `verify_api_key`:
  there is no `await` between its checks.
* A check that raises ends the call; what the checks before it recorded stays.
* `get_tier` is a look-up by name; a key stands here with the tier it finds.
-/

namespace LlmProxy.Auth

/-- A 429 with its `Retry-After` header. -/
structure RateLimited where
  detail : String
  retryAfter : String
  deriving DecidableEq, Repr

structure RateLimitTier where
  rpm : Option Int := none
  rpd : Option Int := none
  burst : Option Int := none
  deriving DecidableEq, Repr

/-- The rate limits of a key: its tier and its own limit. -/
structure KeyLimits where
  tier : Option RateLimitTier := none
  rateLimitRpm : Option Int := none
  deriving DecidableEq, Repr

/-- `_rpm_windows`, `_rpd_buckets` and `_burst_counters`. -/
structure RateState where
  rpmWindows : String → List Rat := fun _ => []
  rpdBuckets : String → Option (Int × Nat) := fun _ => none
  burstCounters : String → Int := fun _ => 0

/-- `verify_api_key` for the key of that id, at a time of either clock. -/
structure VerifyCall where
  keyId : String
  monotonic : Rat
  time : Rat
  deriving DecidableEq, Repr

def VerifyCall.day (c : VerifyCall) : Int := ⌊c.time / 86400⌋

def perNodeLimit (nodes : Nat) (limit : Int) : Int := max 1 (limit / (max 1 nodes : Nat))

/-- `_check_rate_limit`. -/
def checkRateLimit (nodes : Nat) (c : VerifyCall) (limitRpm : Int) (s : RateState) :
    RateState × Option RateLimited :=
  let window := SlidingWindow.expire (c.monotonic - 60) (s.rpmWindows c.keyId)
  if perNodeLimit nodes limitRpm ≤ (window.length : Int) then
    ({ s with rpmWindows := Function.update s.rpmWindows c.keyId window },
      some ⟨"Rate limit exceeded: " ++ toString limitRpm ++ " requests/minute (cluster-wide)", "60"⟩)
  else
    ({ s with rpmWindows := Function.update s.rpmWindows c.keyId (window ++ [c.monotonic]) }, none)

/-- The bucket of the day, empty when there is none or it is another day's. -/
def todaysBucket (bucket : Option (Int × Nat)) (today : Int) : Int × Nat :=
  match bucket with
  | none => (today, 0)
  | some (day, count) => if day ≠ today then (today, 0) else (day, count)

/-- `_check_rpd`. -/
def checkRpd (nodes : Nat) (c : VerifyCall) (limitRpd : Int) (s : RateState) :
    RateState × Option RateLimited :=
  let bucket := todaysBucket (s.rpdBuckets c.keyId) c.day
  if perNodeLimit nodes limitRpd ≤ (bucket.2 : Int) then
    (s, some ⟨"Daily rate limit exceeded: " ++ toString limitRpd ++
      " requests/day (cluster-wide)", "3600"⟩)
  else
    ({ s with rpdBuckets := Function.update s.rpdBuckets c.keyId (some (bucket.1, bucket.2 + 1)) },
      none)

/-- `_check_burst`. -/
def checkBurst (c : VerifyCall) (limit : Int) (s : RateState) : RateState × Option RateLimited :=
  if limit ≤ s.burstCounters c.keyId then
    (s, some ⟨"Concurrency limit exceeded: " ++ toString limit ++ " in-flight requests", "5"⟩)
  else (s, none)

def checkWhen (limit : Option Int) (check : Int → RateState → RateState × Option RateLimited)
    (s : RateState) : RateState × Option RateLimited :=
  match limit with
  | none => (s, none)
  | some limit => check limit s

def thenCheck (first : RateState × Option RateLimited)
    (next : RateState → RateState × Option RateLimited) : RateState × Option RateLimited :=
  match first.2 with
  | some refused => (first.1, some refused)
  | none => next first.1

/-- The rate limits of `verify_api_key`: those of the tier, then the key's own. -/
def verifyRateLimits (nodes : Nat) (k : KeyLimits) (c : VerifyCall) (s : RateState) :
    RateState × Option RateLimited :=
  let tier := k.tier.getD {}
  thenCheck
    (thenCheck
      (thenCheck (checkWhen tier.rpm (checkRateLimit nodes c) s)
        (checkWhen tier.rpd (checkRpd nodes c)))
      (checkWhen tier.burst (checkBurst c)))
    (checkWhen k.rateLimitRpm (checkRateLimit nodes c))

end LlmProxy.Auth
