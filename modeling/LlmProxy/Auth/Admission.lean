import Mathlib.Tactic.Ring
import LlmProxy.Lib.Trace
import LlmProxy.Auth.RateLimits

/-! # Who is admitted

The calls of `verify_api_key` on one node, in any order of keys and at nondecreasing times. Beside
the code's state stands the log of the calls it admitted, which no check reads.

What the three checks do depends on two numbers only: the times of the key that are still in its
window, and its count of the day. `outcome` is the calls on these numbers.

> `verify_outcome`   a call does to the state what `outcome` says;
> `Logged`           the window and the bucket are those of the admitted calls;
> `admission_iff`    the law of admission, and exactly when the code keeps it.
-/

namespace LlmProxy.Auth

open SlidingWindow (expire Trails)
open Trace

/-! ## The checks on two numbers -/

/-- What a call records, and whether it is admitted. -/
structure Outcome where
  entries : Nat
  counted : Bool
  admitted : Bool
  deriving DecidableEq, Repr

def KeyLimits.tierRpm (k : KeyLimits) : Option Int := k.tier.bind RateLimitTier.rpm

def KeyLimits.rpd (k : KeyLimits) : Option Int := k.tier.bind RateLimitTier.rpd

/-- The number is below the share of the limit, where there is one. -/
def below (nodes : Nat) (limit : Option Int) (count : Nat) : Bool :=
  limit.all fun limit => (count : Int) < perNodeLimit nodes limit

def setCount (limit : Option Int) : Nat := if limit.isSome then 1 else 0

@[simp] theorem below_none (nodes count : Nat) : below nodes none count = true := rfl

@[simp] theorem setCount_none : setCount none = 0 := rfl

@[simp] theorem setCount_some (limit : Int) : setCount (some limit) = 1 := rfl

def outcome (nodes : Nat) (k : KeyLimits) (live count : Nat) : Outcome :=
  if !below nodes k.tierRpm live then ⟨0, false, false⟩
  else if !below nodes k.rpd count then ⟨setCount k.tierRpm, false, false⟩
  else if !below nodes k.rateLimitRpm (live + setCount k.tierRpm) then
    ⟨setCount k.tierRpm, k.rpd.isSome, false⟩
  else ⟨setCount k.tierRpm + setCount k.rateLimitRpm, k.rpd.isSome, true⟩

variable {nodes : Nat} {c : VerifyCall} {s : RateState} {k : KeyLimits}

/-- The times in the window once the call has popped it. -/
def live (s : RateState) (c : VerifyCall) : List Rat :=
  expire (c.monotonic - 60) (s.rpmWindows c.keyId)

/-- The state part way through the checks: `window` is the number of times recorded since the window
was popped, if it was, and `day` whether the bucket has counted the call. -/
def midway (s : RateState) (c : VerifyCall) (window : Option Nat) (day : Bool) : RateState :=
  { s with
    rpmWindows :=
      match window with
      | none => s.rpmWindows
      | some entries => Function.update s.rpmWindows c.keyId
          (live s c ++ List.replicate entries c.monotonic)
    rpdBuckets :=
      if day then
        Function.update s.rpdBuckets c.keyId
          (some (c.day, (todaysBucket (s.rpdBuckets c.keyId) c.day).2 + 1))
      else s.rpdBuckets }

theorem live_midway (window : Option Nat) (day : Bool) :
    live (midway s c window day) c =
      live s c ++ List.replicate (window.getD 0) c.monotonic := by
  cases window with
  | none => exact (List.append_nil _).symm
  | some entries =>
    have hwindow : (midway s c (some entries) day).rpmWindows c.keyId =
        live s c ++ List.replicate entries c.monotonic := Function.update_self _ _ _
    unfold live at hwindow ⊢
    rw [hwindow]
    refine SlidingWindow.expire_append_expire fun t ht => ?_
    rw [List.eq_of_mem_replicate ht]
    linarith

theorem update_midway (window : Option Nat) (day : Bool) (entries : Nat) :
    { midway s c window day with
      rpmWindows := Function.update (midway s c window day).rpmWindows c.keyId
        (live (midway s c window day) c ++ List.replicate entries c.monotonic) } =
      midway s c (some (window.getD 0 + entries)) day := by
  rw [live_midway, List.append_assoc, List.replicate_append_replicate]
  cases window with
  | none => rfl
  | some recorded =>
    unfold midway
    simp only [Function.update_idem, Option.getD_some]

theorem checkRateLimit_midway (nodes : Nat) (s : RateState) (c : VerifyCall) (limit : Option Int)
    (window : Option Nat) (day : Bool) :
    below nodes limit ((live s c).length + window.getD 0) = true ∧
        (∃ window', checkWhen limit (checkRateLimit nodes c) (midway s c window day) =
            (midway s c window' day, none) ∧
          window'.getD 0 = window.getD 0 + setCount limit) ∨
      below nodes limit ((live s c).length + window.getD 0) = false ∧
        ∃ window' e, checkWhen limit (checkRateLimit nodes c) (midway s c window day) =
            (midway s c window' day, some e) ∧ window'.getD 0 = window.getD 0 := by
  cases limit with
  | none => exact Or.inl ⟨rfl, window, rfl, rfl⟩
  | some limit =>
    have hlength : (live (midway s c window day) c).length =
        (live s c).length + window.getD 0 := by
      rw [live_midway, List.length_append, List.length_replicate]
    unfold below
    rw [Option.all_some, ← hlength]
    by_cases h : ((live (midway s c window day) c).length : Int) < perNodeLimit nodes limit
    · refine Or.inl ⟨decide_eq_true h, some (window.getD 0 + 1), ?_, rfl⟩
      rw [← update_midway]
      exact if_neg (not_le.mpr h)
    · refine Or.inr ⟨decide_eq_false h, some (window.getD 0), ⟨"Rate limit exceeded: " ++
        toString limit ++ " requests/minute (cluster-wide)", "60"⟩, ?_, rfl⟩
      have hpopped := update_midway (s := s) (c := c) window day 0
      rw [List.replicate_zero, List.append_nil, Nat.add_zero] at hpopped
      rw [← hpopped]
      exact if_pos (not_lt.mp h)

theorem todaysBucket_day (bucket : Option (Int × Nat)) (today : Int) :
    (todaysBucket bucket today).1 = today := by
  unfold todaysBucket
  split
  · rfl
  · split
    · rfl
    · next hsame => exact not_not.mp hsame

theorem checkRpd_midway (nodes : Nat) (s : RateState) (c : VerifyCall) (limit : Option Int)
    (window : Option Nat) :
    below nodes limit (todaysBucket (s.rpdBuckets c.keyId) c.day).2 = true ∧
        checkWhen limit (checkRpd nodes c) (midway s c window false) =
          (midway s c window limit.isSome, none) ∨
      below nodes limit (todaysBucket (s.rpdBuckets c.keyId) c.day).2 = false ∧
        ∃ e, checkWhen limit (checkRpd nodes c) (midway s c window false) =
          (midway s c window false, some e) := by
  cases limit with
  | none => exact Or.inl ⟨rfl, rfl⟩
  | some limit =>
    unfold below
    rw [Option.all_some]
    by_cases h : ((todaysBucket (s.rpdBuckets c.keyId) c.day).2 : Int) < perNodeLimit nodes limit
    · refine Or.inl ⟨decide_eq_true h, (if_neg (not_le.mpr h)).trans ?_⟩
      unfold midway
      simp only [Bool.false_eq_true, if_false, Option.isSome_some, if_true, todaysBucket_day]
    · exact Or.inr ⟨decide_eq_false h, ⟨"Daily rate limit exceeded: " ++ toString limit ++
        " requests/day (cluster-wide)", "3600"⟩, if_pos (not_lt.mp h)⟩

/-- What a call has done to the state. -/
def Does (o : Outcome) (s : RateState) (c : VerifyCall) (r : RateState × Option RateLimited) :
    Prop :=
  r.2.isNone = o.admitted ∧ ∃ window, r.1 = midway s c window o.counted ∧ window.getD 0 = o.entries

theorem verifyRateLimits_eq (hburst : k.tier.bind RateLimitTier.burst = none) :
    verifyRateLimits nodes k c s =
      thenCheck
        (thenCheck (checkWhen k.tierRpm (checkRateLimit nodes c) (midway s c none false))
          (checkWhen k.rpd (checkRpd nodes c)))
        (checkWhen k.rateLimitRpm (checkRateLimit nodes c)) := by
  have hskip : ∀ r, thenCheck r (checkWhen none (checkBurst c)) = r := by
    rintro ⟨s', _ | e⟩ <;> rfl
  unfold verifyRateLimits KeyLimits.tierRpm KeyLimits.rpd
  cases htier : k.tier with
  | none => exact congrArg (thenCheck · _) (hskip _)
  | some tier =>
    rw [htier] at hburst
    change tier.burst = none at hburst
    simp only [Option.getD_some, hburst, hskip]
    rfl

/-- **A call of `verify_api_key`** does what the two numbers say. -/
theorem verify_outcome (nodes : Nat) (s : RateState) (c : VerifyCall)
    (hburst : k.tier.bind RateLimitTier.burst = none) :
    Does
      (outcome nodes k (live s c).length (todaysBucket (s.rpdBuckets c.keyId) c.day).2) s c
      (verifyRateLimits nodes k c s) := by
  rw [verifyRateLimits_eq hburst]
  unfold outcome
  obtain ⟨htier, w₁, hcheck₁, hw₁⟩ | ⟨htier, w₁, e, hcheck₁, hw₁⟩ :=
    checkRateLimit_midway nodes s c k.tierRpm none false
  · rw [Option.getD_none, Nat.add_zero] at htier
    rw [Option.getD_none, Nat.zero_add] at hw₁
    rw [htier, hcheck₁]
    obtain ⟨hday, hcheck₂⟩ | ⟨hday, e, hcheck₂⟩ :=
      checkRpd_midway nodes s c k.rpd w₁
    · rw [hday]
      have hfirst : thenCheck (midway s c w₁ false, none) (checkWhen k.rpd (checkRpd nodes c)) =
          (midway s c w₁ k.rpd.isSome, none) := hcheck₂
      rw [hfirst, ← hw₁]
      obtain ⟨hown, w₂, hcheck₃, hw₂⟩ | ⟨hown, w₂, e, hcheck₃, hw₂⟩ :=
        checkRateLimit_midway nodes s c k.rateLimitRpm w₁ k.rpd.isSome
      · rw [hown]
        exact ⟨congrArg (fun r => Option.isNone (Prod.snd r)) hcheck₃, w₂,
          congrArg Prod.fst hcheck₃, hw₂⟩
      · rw [hown]
        exact ⟨congrArg (fun r => Option.isNone (Prod.snd r)) hcheck₃, w₂,
          congrArg Prod.fst hcheck₃, hw₂⟩
    · rw [hday]
      have hfirst : thenCheck (midway s c w₁ false, none) (checkWhen k.rpd (checkRpd nodes c)) =
          (midway s c w₁ false, some e) := hcheck₂
      rw [hfirst]
      exact ⟨rfl, w₁, rfl, hw₁⟩
  · rw [Option.getD_none, Nat.add_zero] at htier
    rw [htier, hcheck₁]
    exact ⟨rfl, w₁, rfl, hw₁⟩

/-! ## The law -/

/-- The node: its state, the calls it has admitted, and the last call. -/
structure Desk extends RateState where
  admitted : List VerifyCall := []
  last : Option VerifyCall := none

def Desk.step (nodes : Nat) (limits : String → KeyLimits) (s : Desk) (c : VerifyCall) : Desk :=
  let r := verifyRateLimits nodes (limits c.keyId) c s.toRateState
  { toRateState := r.1
    admitted := if r.2.isNone then s.admitted ++ [c] else s.admitted
    last := some c }

/-- The admitted calls of the key in the minute up to the call. -/
def recent (s : Desk) (c : VerifyCall) : Nat :=
  s.admitted.countP fun a =>
    a.keyId = c.keyId && (c.monotonic - 60 ≤ a.monotonic && a.monotonic ≤ c.monotonic)

/-- The admitted calls of the key on the day of the call. -/
def sameDay (s : Desk) (c : VerifyCall) : Nat :=
  s.admitted.countP fun a => a.keyId = c.keyId && a.day = c.day

/-- Both numbers are below the shares of the limits that apply. -/
def allowed (nodes : Nat) (k : KeyLimits) (minute day : Nat) : Bool :=
  below nodes k.tierRpm minute && below nodes k.rateLimitRpm minute && below nodes k.rpd day

/-- The call has taken nothing of any limit. -/
def Unconsumed (s s' : RateState) (c : VerifyCall) : Prop :=
  s'.rpdBuckets = s.rpdBuckets ∧ ∀ key,
    expire (c.monotonic - 60) (s'.rpmWindows key) = expire (c.monotonic - 60) (s.rpmWindows key)

/-- The call is admitted exactly if it is allowed, and takes nothing if it is not admitted. -/
def Lawful (nodes : Nat) (limits : String → KeyLimits) (s : Desk) (c : VerifyCall) : Prop :=
  let r := verifyRateLimits nodes (limits c.keyId) c s.toRateState
  (r.2.isNone = true ↔ allowed nodes (limits c.keyId) (recent s c) (sameDay s c) = true) ∧
    (r.2.isNone = false → Unconsumed s.toRateState r.1 c)

/-- No check refuses what another has recorded, and two rate limits still agree although each
records the call in the one window. -/
def clean (nodes : Nat) (k : KeyLimits) (minute day : Nat) : Bool :=
  match k.tierRpm, k.rateLimitRpm with
  | none, none => true
  | some rpm, none => !below nodes (some rpm) minute || below nodes k.rpd day
  | none, some rpm => k.rpd.isNone || !below nodes k.rpd day || below nodes (some rpm) minute
  | some rpm, some own =>
    if below nodes (some rpm) (2 * minute) then
      below nodes k.rpd day && below nodes (some own) (2 * minute + 1)
    else
      !(below nodes (some rpm) minute && below nodes (some own) minute && below nodes k.rpd day)

/-- How many times an admitted call is recorded in the window. -/
def perCall (k : KeyLimits) : Nat := setCount k.tierRpm + setCount k.rateLimitRpm

theorem outcome_admitted {live count : Nat} (h : (outcome nodes k live count).admitted = true) :
    outcome nodes k live count = ⟨perCall k, k.rpd.isSome, true⟩ := by
  unfold outcome at h ⊢
  split
  · next hc => rw [if_pos hc] at h; cases h
  · next hc =>
    rw [if_neg hc] at h
    split
    · next hd => rw [if_pos hd] at h; cases h
    · next hd =>
      rw [if_neg hd] at h
      split
      · next ho => rw [if_pos ho] at h; cases h
      · rfl

theorem below_mono {limit : Option Int} {m n : Nat} (hle : m ≤ n)
    (h : below nodes limit n = true) : below nodes limit m = true := by
  cases limit with
  | none => rfl
  | some limit =>
    unfold below at h ⊢
    rw [Option.all_some, decide_eq_true_eq] at h ⊢
    omega

/-- **The law on the two numbers**: where each admitted call stands in the window as often as there
are rate limits, a call keeps the law exactly if it is clean. -/
theorem outcome_lawful_iff (nodes : Nat) (k : KeyLimits) (minute day : Nat) :
    ((outcome nodes k (perCall k * minute) day).admitted = true ↔
          allowed nodes k minute day = true) ∧
        ((outcome nodes k (perCall k * minute) day).admitted = false →
          (outcome nodes k (perCall k * minute) day).entries = 0 ∧
            (outcome nodes k (perCall k * minute) day).counted = false) ↔
      clean nodes k minute day = true := by
  unfold outcome allowed clean perCall
  cases k.tierRpm with
  | none =>
    cases k.rateLimitRpm with
    | none => cases below nodes k.rpd day <;> simp
    | some own =>
      cases k.rpd with
      | none => cases hmin : below nodes (some own) minute <;> simp [hmin]
      | some rpd =>
        cases below nodes (some rpd) day <;> cases hmin : below nodes (some own) minute <;>
          simp [hmin]
  | some rpm =>
    cases k.rateLimitRpm with
    | none =>
      cases hmin : below nodes (some rpm) minute <;> cases below nodes k.rpd day <;> simp [hmin]
    | some own =>
      have htwice : (setCount (some rpm) + setCount (some own)) * minute = 2 * minute := rfl
      rw [htwice, setCount_some]
      -- twice the number is below a limit only if the number is
      cases hmin : below nodes (some rpm) (2 * minute) with
      | false =>
        cases hfirst : below nodes (some rpm) minute <;>
          cases hsecond : below nodes (some own) minute <;>
          cases below nodes k.rpd day <;> simp [hmin, hfirst, hsecond]
      | true =>
        have hfirst := below_mono (by omega : minute ≤ 2 * minute) hmin
        cases hday : below nodes k.rpd day with
        | false => simp [hmin]
        | true =>
          cases hown : below nodes (some own) (2 * minute + 1) with
          | false => simp [hmin, hown]
          | true =>
            have hsecond := below_mono (by omega : minute ≤ 2 * minute + 1) hown
            simp [hmin, hown, hfirst, hsecond]

/-! ## The window and the bucket of a run -/

/-- The times the window has been given: each admitted call of the key, once for each limit. -/
def timesOf (k : KeyLimits) (key : String) (log : List VerifyCall) : List Rat :=
  (log.filter (·.keyId = key)).flatMap fun a => List.replicate (perCall k) a.monotonic

theorem timesOf_append (key : String) (log : List VerifyCall) (c : VerifyCall) :
    timesOf k key (log ++ [c]) =
      timesOf k key log ++ (if c.keyId = key then List.replicate (perCall k) c.monotonic else []) := by
  unfold timesOf
  rw [List.filter_append, List.flatMap_append]
  by_cases hkey : c.keyId = key <;> simp [hkey]

theorem length_timesOf (key : String) (log : List VerifyCall) (cutoff : Rat) :
    ((timesOf k key log).filter (cutoff ≤ ·)).length =
      perCall k * log.countP fun a => a.keyId = key && cutoff ≤ a.monotonic := by
  induction log with
  | nil => rfl
  | cons a log ih =>
    have hcons : timesOf k key (a :: log) =
        (if a.keyId = key then List.replicate (perCall k) a.monotonic else []) ++
          timesOf k key log := by
      unfold timesOf
      by_cases hkey : a.keyId = key <;> simp [hkey]
    rw [hcons, List.filter_append, List.length_append, ih, List.countP_cons]
    by_cases hkey : a.keyId = key
    · by_cases hcut : cutoff ≤ a.monotonic
      · simp [hkey, hcut, Nat.mul_add, Nat.add_comm]
      · simp [hkey, hcut]
    · simp [hkey]

theorem timesOf_sorted (key : String) {log : List VerifyCall}
    (h : log.Pairwise fun a b => a.monotonic ≤ b.monotonic) :
    (timesOf k key log).Pairwise (· ≤ ·) := by
  unfold timesOf
  refine List.pairwise_flatMap.mpr ⟨fun _ _ => ?_, ?_⟩
  · exact List.pairwise_replicate.mpr (Or.inr (le_refl _))
  · refine (h.filter _).imp fun hle t ht u hu => ?_
    rw [List.eq_of_mem_replicate ht, List.eq_of_mem_replicate hu]
    exact hle

/-- The call is not before the last one. -/
def After (s : Desk) (c : VerifyCall) : Prop :=
  ∀ l, s.last = some l → l.monotonic ≤ c.monotonic ∧ l.day ≤ c.day

/-- The window and the bucket are those of the admitted calls, as any later call finds them. -/
structure Logged (limits : String → KeyLimits) (s : Desk) : Prop where
  sorted : s.admitted.Pairwise fun a b => a.monotonic ≤ b.monotonic
  earlier : ∀ c, After s c → ∀ a ∈ s.admitted, a.monotonic ≤ c.monotonic ∧ a.day ≤ c.day
  window : ∀ key c, After s c →
    Trails (timesOf (limits key) key s.admitted) (s.rpmWindows key) (c.monotonic - 60)
  bucket : ∀ c, After s c → (limits c.keyId).rpd.isSome = true →
    (todaysBucket (s.rpdBuckets c.keyId) c.day).2 = sameDay s c

variable {limits : String → KeyLimits} {d : Desk}

theorem logged_start : Logged limits {} :=
  ⟨List.Pairwise.nil, fun _ _ _ ha => absurd ha List.not_mem_nil,
    fun _ _ _ => SlidingWindow.trails_refl [] _, fun _ _ _ => rfl⟩

theorem length_live (h : Logged limits d) (hc : After d c) :
    (live d.toRateState c).length = perCall (limits c.keyId) * recent d c := by
  unfold live
  rw [(h.window c.keyId c hc).expire_eq_filter (timesOf_sorted c.keyId h.sorted), length_timesOf]
  refine congrArg _ (List.countP_congr fun _ ha => ?_)
  have hle := (h.earlier c hc _ ha).1
  simp [hle]

/-- **The two numbers of a call** are those of the log. -/
theorem outcome_eq (h : Logged limits d) (hc : After d c) :
    outcome nodes (limits c.keyId) (live d.toRateState c).length
        (todaysBucket (d.rpdBuckets c.keyId) c.day).2 =
      outcome nodes (limits c.keyId) (perCall (limits c.keyId) * recent d c) (sameDay d c) := by
  rw [length_live h hc]
  cases hrpd : (limits c.keyId).rpd with
  | none =>
    unfold outcome
    rw [hrpd]
    rfl
  | some rpd => rw [h.bucket c hc (by rw [hrpd]; rfl)]

theorem unconsumed_midway_iff (s : RateState) (c : VerifyCall) (window : Option Nat) (day : Bool) :
    Unconsumed s (midway s c window day) c ↔ window.getD 0 = 0 ∧ day = false := by
  have hlive := live_midway (s := s) (c := c) window day
  unfold live at hlive
  constructor
  · rintro ⟨hbuckets, hwindows⟩
    refine ⟨?_, ?_⟩
    · have hown := hlive.symm.trans (hwindows c.keyId)
      have hempty := List.append_right_eq_self.mp hown
      rwa [List.replicate_eq_nil_iff] at hempty
    · cases day with
      | false => rfl
      | true =>
        have hown := congrFun hbuckets c.keyId
        change Function.update s.rpdBuckets c.keyId _ c.keyId = _ at hown
        rw [Function.update_self] at hown
        have hcount := congrArg (fun b => (todaysBucket b c.day).2) hown
        simp [todaysBucket] at hcount
  · rintro ⟨hentries, rfl⟩
    refine ⟨rfl, fun key => ?_⟩
    by_cases hkey : key = c.keyId
    · rw [hkey, hlive, hentries, List.replicate_zero, List.append_nil]
    · cases window with
      | none => rfl
      | some entries =>
        refine congrArg _ ?_
        exact Function.update_of_ne hkey _ _

/-- **One call** keeps the law exactly if it is clean. -/
theorem lawful_iff (hburst : ∀ key, (limits key).tier.bind RateLimitTier.burst = none)
    (h : Logged limits d) (hc : After d c) :
    Lawful nodes limits d c ↔
      clean nodes (limits c.keyId) (recent d c) (sameDay d c) = true := by
  obtain ⟨hanswer, window, hstate, hentries⟩ :=
    verify_outcome nodes d.toRateState c (hburst c.keyId)
  rw [outcome_eq h hc] at hanswer hstate hentries
  rw [← outcome_lawful_iff]
  unfold Lawful
  simp only
  rw [hanswer, hstate, unconsumed_midway_iff, hentries]

theorem sameDay_append {d' : Desk} {log : List VerifyCall} (c' : VerifyCall)
    (hlog : d'.admitted = log ++ [c]) :
    sameDay d' c' = log.countP (fun a => a.keyId = c'.keyId && a.day = c'.day) +
      (if c.keyId = c'.keyId ∧ c.day = c'.day then 1 else 0) := by
  unfold sameDay
  rw [hlog, List.countP_append, List.countP_singleton]
  by_cases hkey : c.keyId = c'.keyId <;> by_cases hday : c.day = c'.day <;> simp [hkey, hday]

/-- The state and the log after a call that was admitted and recorded by each check, or that was
refused and recorded by none. -/
theorem Logged.midway (h : Logged limits d) (hc : After d c) {d' : Desk} {window : Option Nat}
    {day : Bool} (hlast : d'.last = some c)
    (hstate : d'.toRateState = Auth.midway d.toRateState c window day)
    (hlog : d'.admitted = d.admitted ++ [c] ∧ window.getD 0 = perCall (limits c.keyId) ∧
        day = (limits c.keyId).rpd.isSome ∨
      d'.admitted = d.admitted ∧ window.getD 0 = 0 ∧ day = false) : Logged limits d' := by
  have hnext : ∀ c', After d' c' → After d c' ∧ c.monotonic ≤ c'.monotonic ∧ c.day ≤ c'.day := by
    intro c' hc'
    obtain ⟨hmono, hday⟩ := hc' c hlast
    exact ⟨fun l hl => ⟨le_trans (hc l hl).1 hmono, le_trans (hc l hl).2 hday⟩, hmono, hday⟩
  have hwindows : d'.rpmWindows = (Auth.midway d.toRateState c window day).rpmWindows :=
    congrArg RateState.rpmWindows hstate
  have hbuckets : d'.rpdBuckets = (Auth.midway d.toRateState c window day).rpdBuckets :=
    congrArg RateState.rpdBuckets hstate
  have htimes : ∀ key, timesOf (limits key) key d'.admitted = timesOf (limits key) key d.admitted ++
      (if c.keyId = key then List.replicate (window.getD 0) c.monotonic else []) := by
    intro key
    obtain ⟨hadmitted, hentries, -⟩ | ⟨hadmitted, hentries, -⟩ := hlog
    · rw [hadmitted, timesOf_append, hentries]
      by_cases hkey : c.keyId = key
      · rw [hkey]
      · rw [if_neg hkey, if_neg hkey]
    · rw [hadmitted, hentries, List.replicate_zero, ite_self, List.append_nil]
  refine ⟨?_, fun c' hc' a ha => ?_, fun key c' hc' => ?_, fun c' hc' hrpd => ?_⟩
  · obtain ⟨hadmitted, -⟩ | ⟨hadmitted, -⟩ := hlog
    · rw [hadmitted, List.pairwise_append]
      refine ⟨h.sorted, List.pairwise_singleton _ _, fun a ha b hb => ?_⟩
      rw [List.mem_singleton.mp hb]
      exact (h.earlier c hc a ha).1
    · rw [hadmitted]
      exact h.sorted
  · obtain ⟨hafter, hle⟩ := hnext c' hc'
    obtain ⟨hadmitted, -⟩ | ⟨hadmitted, -⟩ := hlog
    · rw [hadmitted] at ha
      rcases List.mem_append.mp ha with ha | ha
      · exact h.earlier c' hafter a ha
      · rw [List.mem_singleton.mp ha]
        exact hle
    · rw [hadmitted] at ha
      exact h.earlier c' hafter a ha
  · obtain ⟨hafter, hmono, -⟩ := hnext c' hc'
    rw [htimes key, hwindows]
    by_cases hkey : c.keyId = key
    · rw [if_pos hkey, ← hkey]
      cases window with
      | none =>
        rw [Option.getD_none, List.replicate_zero, List.append_nil]
        exact h.window c.keyId c' hafter
      | some entries =>
        have hown : (Auth.midway d.toRateState c (some entries) day).rpmWindows c.keyId =
            live d.toRateState c ++ List.replicate entries c.monotonic := Function.update_self _ _ _
        rw [hown]
        exact ((h.window c.keyId c hc).expire.append _).later (by linarith)
    · rw [if_neg hkey, List.append_nil]
      have hother : (Auth.midway d.toRateState c window day).rpmWindows key =
          d.rpmWindows key := by
        cases window with
        | none => rfl
        | some entries => exact Function.update_of_ne (Ne.symm hkey) _ _
      rw [hother]
      exact h.window key c' hafter
  · obtain ⟨hafter, -, hday⟩ := hnext c' hc'
    have hbefore := h.bucket c' hafter hrpd
    obtain ⟨hadmitted, -, hcounted⟩ | ⟨hadmitted, -, hcounted⟩ := hlog
    · rw [hbuckets, sameDay_append c' hadmitted]
      by_cases hkey : c'.keyId = c.keyId
      · rw [hkey] at hrpd hbefore
        have hown : (Auth.midway d.toRateState c window day).rpdBuckets c.keyId =
            some (c.day, (todaysBucket (d.rpdBuckets c.keyId) c.day).2 + 1) := by
          rw [hcounted, hrpd]
          exact Function.update_self _ _ _
        rw [hkey, hown, h.bucket c hc hrpd]
        by_cases htoday : c.day = c'.day
        · rw [if_pos ⟨rfl, htoday⟩]
          simp only [todaysBucket, htoday, ne_eq, not_true, if_false]
          unfold sameDay
          rw [htoday]
        · rw [if_neg (fun hboth => htoday hboth.2)]
          simp only [todaysBucket, ne_eq, htoday, not_false_iff, if_true]
          -- no call has been admitted on a later day than that of this one
          refine (List.countP_eq_zero.mpr fun a ha => ?_).symm
          have hle := (h.earlier c hc a ha).2
          have hne : a.day ≠ c'.day := by omega
          simp [hne]
      · have hother : (Auth.midway d.toRateState c window day).rpdBuckets c'.keyId =
            d.rpdBuckets c'.keyId := by
          cases day with
          | false => rfl
          | true => exact Function.update_of_ne hkey _ _
        rw [hother, hbefore, if_neg (fun hboth => hkey hboth.1.symm)]
        rfl
    · have hsame : (Auth.midway d.toRateState c window day).rpdBuckets = d.rpdBuckets := by
        rw [hcounted]
        rfl
      rw [hbuckets, hsame, hbefore]
      unfold sameDay
      rw [hadmitted]

/-- **A clean call** leaves the window and the bucket those of the admitted calls. -/
theorem logged_step (hburst : ∀ key, (limits key).tier.bind RateLimitTier.burst = none)
    (h : Logged limits d) (hc : After d c)
    (hclean : clean nodes (limits c.keyId) (recent d c) (sameDay d c) = true) :
    Logged limits (d.step nodes limits c) := by
  obtain ⟨hanswer, window, hstate, hentries⟩ :=
    verify_outcome nodes d.toRateState c (hburst c.keyId)
  rw [outcome_eq h hc] at hanswer hstate hentries
  obtain ⟨-, hrefused⟩ := (outcome_lawful_iff nodes (limits c.keyId) _ _).mpr hclean
  refine h.midway hc rfl hstate ?_
  have hlog : (d.step nodes limits c).admitted =
      if (verifyRateLimits nodes (limits c.keyId) c d.toRateState).2.isNone = true then
        d.admitted ++ [c] else d.admitted := rfl
  rw [hlog, hanswer]
  cases hadmitted : (outcome nodes (limits c.keyId)
      (perCall (limits c.keyId) * recent d c) (sameDay d c)).admitted with
  | true =>
    rw [outcome_admitted hadmitted] at hentries ⊢
    exact Or.inl ⟨if_pos rfl, hentries, rfl⟩
  | false =>
    obtain ⟨hnone, huncounted⟩ := hrefused hadmitted
    exact Or.inr ⟨if_neg Bool.false_ne_true, hentries.trans hnone, huncounted⟩

theorem day_le {c c' : VerifyCall} (h : c.time ≤ c'.time) : c.day ≤ c'.day := by
  refine Int.floor_le_floor ?_
  linarith

theorem along_after {calls : List VerifyCall} (hc : ∀ c ∈ calls, After d c)
    (hsorted : calls.Pairwise fun c c' => c.monotonic ≤ c'.monotonic ∧ c.time ≤ c'.time) :
    Along (Desk.step nodes limits) After d calls := by
  induction calls generalizing d with
  | nil => trivial
  | cons c calls ih =>
    obtain ⟨hfirst, hrest⟩ := List.pairwise_cons.mp hsorted
    refine ⟨hc c List.mem_cons_self, ih (fun c' hc' l hl => ?_) hrest⟩
    obtain ⟨hmono, htime⟩ := hfirst c' hc'
    rw [← Option.some.inj hl]
    exact ⟨hmono, day_le htime⟩

theorem lawful_along_iff (hburst : ∀ key, (limits key).tier.bind RateLimitTier.burst = none)
    {calls : List VerifyCall}
    (hsorted : calls.Pairwise fun c c' => c.monotonic ≤ c'.monotonic ∧ c.time ≤ c'.time) :
    Along (Desk.step nodes limits) (Lawful nodes limits) {} calls ↔
      Along (Desk.step nodes limits)
        (fun d c => clean nodes (limits c.keyId) (recent d c) (sameDay d c) = true) {} calls :=
  along_iff (V := After) (I := Logged limits) (fun _ _ h hc => lawful_iff hburst h hc)
    (fun _ _ h hc hclean => logged_step hburst h hc hclean) logged_start
    (along_after (fun _ _ _ hl => nomatch hl) hsorted)

/-- **The admission law**: for keys without a concurrency limit and calls at nondecreasing times, each
call is admitted exactly if the admitted calls of its key in the last minute and on its day are below
the shares of all limits that apply, and takes nothing if it is refused, exactly if each call is
`clean`. -/
theorem admission_iff (nodes : Nat) (limits : String → KeyLimits)
    (hburst : ∀ key, (limits key).tier.bind RateLimitTier.burst = none) (calls : List VerifyCall)
    (hsorted : calls.Pairwise fun c c' => c.monotonic ≤ c'.monotonic ∧ c.time ≤ c'.time) :
    Along (Desk.step nodes limits) (Lawful nodes limits) {} calls ↔
      Along (Desk.step nodes limits)
        (fun d c => clean nodes (limits c.keyId) (recent d c) (sameDay d c) = true) {} calls :=
  lawful_along_iff hburst hsorted

/-! ### Limits of four -/

/-- A tier of `rpm` and `rpd`, and a limit of the key's own. -/
def limitedTo (rpm rpd own : Option Int) (_ : String) : KeyLimits :=
  { tier := some { rpm := rpm, rpd := rpd }, rateLimitRpm := own }

def secondApart (n : Nat) : List VerifyCall :=
  (List.range n).map fun i => ⟨"k", i, i⟩

theorem admission_two_days :
    Along (Desk.step 2 (limitedTo (some 4) (some 6) none))
      (Lawful 2 (limitedTo (some 4) (some 6) none)) {}
      [⟨"k", 0, 86300⟩, ⟨"k", 1, 86301⟩, ⟨"k", 2, 86302⟩, ⟨"k", 100, 86400⟩] :=
  (admission_iff 2 (limitedTo (some 4) (some 6) none) (fun _ => rfl) _ (by decide)).mpr
    (by decide +kernel)

/-- **Three calls of four are admitted as two, and a refused call uses up the day**: with a tier limit
and an own limit of four a minute the third call of a minute is refused; with an own limit of one a
minute and a daily limit of two, the second call of a minute uses up the day. -/
theorem admission_fails :
    ¬ Along (Desk.step 1 (limitedTo (some 4) none (some 4)))
        (Lawful 1 (limitedTo (some 4) none (some 4))) {} (secondApart 3) ∧
      ¬ Along (Desk.step 1 (limitedTo none (some 2) (some 1)))
        (Lawful 1 (limitedTo none (some 2) (some 1))) {} (secondApart 2) := by
  have hthree : (secondApart 3).Pairwise
      fun c c' => c.monotonic ≤ c'.monotonic ∧ c.time ≤ c'.time := by decide +kernel
  have htwo : (secondApart 2).Pairwise
      fun c c' => c.monotonic ≤ c'.monotonic ∧ c.time ≤ c'.time := by decide +kernel
  rw [lawful_along_iff (fun _ => rfl) hthree, lawful_along_iff (fun _ => rfl) htwo]
  decide +kernel

end LlmProxy.Auth
