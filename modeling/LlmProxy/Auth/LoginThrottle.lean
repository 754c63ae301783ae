import Mathlib.Algebra.Order.Field.Rat
import Mathlib.Data.Rat.Floor
import LlmProxy.Lib.Dict
import LlmProxy.Lib.PyList
import LlmProxy.Lib.SlidingWindow

/-! # Failed logins

`app/auth/login_throttle.py`: ten failures of one address in five minutes lock it out for a quarter
of an hour. A lock is looked at when it is asked for, and is deleted, with the failures, at the next
failure of any address after its end.

> `lockedOut_iff`: an address is locked out as long as a failure that tripped is recent;
> `Follows.failure`: a failure keeps the maps what the history of the address makes them.

Mirroring notes.
* A time is the exact value of its float.
* `seconds_remaining` reads; its calls stand nowhere in a sequence.
-/

namespace LlmProxy.Auth

open SlidingWindow

/-- `MAX_FAILURES`. -/
def maxFailures : Nat := 10

/-- `WINDOW_SEC`. -/
def windowSec : Rat := 300

/-- `LOCKOUT_SEC`. -/
def lockoutSec : Rat := 900

/-- `MAX_TRACKED_IPS`. -/
def maxTrackedIps : Nat := 10000

/-- `_failures` and `_locked_until`. -/
structure Throttle where
  failures : Dict String (List Rat)
  lockedUntil : Dict String Rat

def Throttle.empty : Throttle := ⟨Dict.empty, Dict.empty⟩

/-- Both maps without an address; this is all of `record_success`. -/
def recordSuccess (s : Throttle) (ip : String) : Throttle :=
  ⟨s.failures.erase ip, s.lockedUntil.erase ip⟩

/-- `_expire_locks`. -/
def expireLocks (s : Throttle) (now : Rat) : Throttle :=
  ((s.lockedUntil.items.filter (·.2 ≤ now)).map Prod.fst).foldl recordSuccess s

/-- `_enforce_size_cap`, with the cap it reads. -/
def enforceSizeCap (cap : Nat) (s : Throttle) : Throttle :=
  if s.failures.items.length ≤ cap then s
  else
    let coldest := PyList.sortBy (fun a b => a.2.getLast?.getD 0 ≤ b.2.getLast?.getD 0)
      s.failures.items
    ((coldest.take (s.failures.items.length - cap)).map Prod.fst).foldl recordSuccess s

/-- The answer of `seconds_remaining`, by the end of the lock. -/
def remaining (til : Option Rat) (now : Rat) : Int :=
  match til with
  | none => 0
  | some til => if til ≤ now then 0 else ⌊til - now⌋ + 1

/-- `seconds_remaining`. -/
def secondsRemaining (s : Throttle) (ip : String) (now : Rat) : Int :=
  remaining (s.lockedUntil.get? ip) now

/-- `record_failure`: the maps, and the lockout seconds if it trips. -/
def recordFailure (s : Throttle) (ip : String) (now : Rat) : Throttle × Rat :=
  let s := expireLocks s now
  let attempts := expire (now - windowSec) ((s.failures.get? ip).getD [] ++ [now])
  let s := enforceSizeCap maxTrackedIps { s with failures := s.failures.set ip attempts }
  if maxFailures ≤ attempts.length then
    ({ s with lockedUntil := s.lockedUntil.set ip (now + lockoutSec) }, lockoutSec)
  else (s, 0)

inductive LoginCall
  | failure (ip : String) (now : Rat)
  | success (ip : String)

def LoginCall.ip : LoginCall → String
  | .failure ip _ => ip
  | .success ip => ip

def loginStep (s : Throttle) : LoginCall → Throttle
  | .failure ip now => (recordFailure s ip now).1
  | .success ip => recordSuccess s ip

def loginRun (calls : List LoginCall) : Throttle := calls.foldl loginStep Throttle.empty

/-! ## The law of one address -/

inductive Login
  | failure (now : Rat)
  | success
  deriving DecidableEq

/-- The failures that still count, unless the lock has run out. -/
def stillCounted (til : Option Rat) (failures : List Rat) (now : Rat) : List Rat :=
  match til with
  | some til => if til ≤ now then [] else failures
  | none => failures

mutual

/-- The failures that count, the latest first: since the last success, and since the last lock
ran out. -/
def counted : List Login → List Rat
  | [] => []
  | .success :: _ => []
  | .failure now :: earlier => now :: stillCounted (lockEnd earlier) (counted earlier) now

/-- The end of the lock that is there after the last call: one that it sets, or an earlier one. -/
def lockEnd : List Login → Option Rat
  | [] => none
  | .success :: _ => none
  | .failure now :: earlier =>
    if maxFailures ≤ ((now :: stillCounted (lockEnd earlier) (counted earlier) now).filter
      (now - windowSec ≤ ·)).length then some (now + lockoutSec)
    else (lockEnd earlier).filter (now < ·)

end

/-- A failure is the last of as many as are too many, in its window. -/
def Trips (now : Rat) (earlier : List Login) : Prop :=
  maxFailures ≤ ((counted (.failure now :: earlier)).filter (now - windowSec ≤ ·)).length

/-- With no success since, a failure of the last quarter of an hour tripped. The latest call is
first. -/
def LockedOut (history : List Login) (now : Rat) : Prop :=
  ∃ later time earlier, history = later ++ .failure time :: earlier ∧ .success ∉ later ∧
    now - lockoutSec < time ∧ time ≤ now ∧ Trips time earlier

def failureTimes (history : List Login) : List Rat :=
  history.filterMap fun
    | .failure now => some now
    | .success => none

theorem lockEnd_failure (now : Rat) (earlier : List Login) :
    (Trips now earlier ∧ lockEnd (.failure now :: earlier) = some (now + lockoutSec)) ∨
      (¬ Trips now earlier ∧
        lockEnd (.failure now :: earlier) = (lockEnd earlier).filter (now < ·)) := by
  by_cases htrips : Trips now earlier
  · have hcount := htrips
    unfold Trips at hcount
    rw [counted] at hcount
    rw [lockEnd, if_pos hcount]
    exact .inl ⟨htrips, rfl⟩
  · have hcount := htrips
    unfold Trips at hcount
    rw [counted] at hcount
    rw [lockEnd, if_neg hcount]
    exact .inr ⟨htrips, rfl⟩

theorem lockedOut_failure {time now : Rat} {earlier : List Login} (htime : time ≤ now) :
    LockedOut (.failure time :: earlier) now ↔
      (now - lockoutSec < time ∧ Trips time earlier) ∨ LockedOut earlier now := by
  constructor
  · rintro ⟨later, t, before, heq, hsuccess, hrecent, hle, htrips⟩
    cases later with
    | nil =>
      obtain ⟨hhead, rfl⟩ := List.cons.inj heq
      obtain rfl := Login.failure.inj hhead
      exact .inl ⟨hrecent, htrips⟩
    | cons call later =>
      obtain ⟨rfl, rfl⟩ := List.cons.inj heq
      exact .inr ⟨later, t, before, rfl, fun hmem => hsuccess (List.mem_cons_of_mem _ hmem),
        hrecent, hle, htrips⟩
  · rintro (⟨hrecent, htrips⟩ | ⟨later, t, before, rfl, hsuccess, hrecent, hle, htrips⟩)
    · exact ⟨[], time, earlier, rfl, List.not_mem_nil, hrecent, htime, htrips⟩
    · refine ⟨.failure time :: later, t, before, rfl, fun hmem => ?_, hrecent, hle, htrips⟩
      rcases List.mem_cons.mp hmem with heq | hmem
      · cases heq
      · exact hsuccess hmem

theorem not_lockedOut_nil (now : Rat) : ¬ LockedOut [] now := by
  rintro ⟨later, t, before, heq, -⟩
  cases later <;> cases heq

theorem not_lockedOut_success (earlier : List Login) (now : Rat) :
    ¬ LockedOut (.success :: earlier) now := by
  rintro ⟨later, t, before, heq, hsuccess, -⟩
  cases later with
  | nil => cases heq
  | cons call later =>
    obtain ⟨rfl, -⟩ := List.cons.inj heq
    exact hsuccess List.mem_cons_self

/-- **The lock is there** as long as a failure that tripped is recent. -/
theorem lockedOut_iff {history : List Login} {now : Rat}
    (hclock : (failureTimes history).Pairwise (· ≥ ·)) (hnow : ∀ t ∈ failureTimes history, t ≤ now) :
    LockedOut history now ↔ ∃ til, lockEnd history = some til ∧ now < til := by
  induction history with
  | nil => exact iff_of_false (not_lockedOut_nil now) fun ⟨_, h, _⟩ => by cases h
  | cons call earlier ih =>
    cases call with
    | success =>
      refine iff_of_false (not_lockedOut_success earlier now) fun ⟨_, h, _⟩ => ?_
      rw [lockEnd] at h
      cases h
    | failure time =>
      have htimes : failureTimes (.failure time :: earlier) = time :: failureTimes earlier := rfl
      rw [htimes] at hclock hnow
      obtain ⟨hbefore, hrest⟩ := List.pairwise_cons.mp hclock
      obtain ⟨htime, hnow'⟩ := List.forall_mem_cons.mp hnow
      rw [lockedOut_failure htime]
      rcases lockEnd_failure time earlier with ⟨htrips, hend⟩ | ⟨htrips, hend⟩
      · rw [hend]
        constructor
        · rintro (⟨hrecent, -⟩ | ⟨later, t, before, heq, -, hrecent, -, -⟩)
          · exact ⟨_, rfl, by linarith⟩
          · have hmem : t ∈ failureTimes earlier := by
              rw [heq]
              exact List.mem_filterMap.mpr ⟨.failure t, by simp, rfl⟩
            have hle : t ≤ time := hbefore t hmem
            exact ⟨_, rfl, by linarith⟩
        · rintro ⟨til, htil, hlt⟩
          rw [← Option.some.inj htil] at hlt
          exact .inl ⟨by linarith, htrips⟩
      · rw [hend, or_iff_right fun h => htrips h.2, ih hrest hnow']
        refine exists_congr fun til => and_congr_left fun hlt => ?_
        rw [Option.filter_eq_some_iff, decide_eq_true_eq]
        exact (and_iff_left (htime.trans_lt hlt)).symm

/-! ## The maps -/

theorem erase_get? {ν : Type} (d : Dict String ν) (k j : String) :
    (d.erase k).get? j = if j = k then none else d.get? j := by
  unfold Dict.erase Dict.get?
  show ((d.items.filter (·.1 ≠ k)).find? (·.1 = j)).map Prod.snd = _
  rw [List.find?_filter]
  split
  · next heq =>
    rw [List.find?_eq_none.mpr fun p _ h => ?_]
    · rfl
    · simp only [ne_eq, decide_not, Bool.not_eq_eq_eq_not, Bool.not_true, decide_eq_false_iff_not,
        decide_eq_true_eq] at h
      exact h.1 (h.2.trans heq)
  · next hne =>
    congr 2
    funext p
    by_cases hp : p.1 = j
    · simp [hp, hne]
    · simp [hp]

section

variable {s : Throttle} {ips : List String}

theorem foldl_success_failures :
    (ips.foldl recordSuccess s).failures.items = s.failures.items.filter (·.1 ∉ ips) := by
  induction ips generalizing s with
  | nil => simp
  | cons ip ips ih =>
    rw [List.foldl_cons, ih]
    unfold recordSuccess Dict.erase
    rw [List.filter_filter]
    refine List.filter_congr fun p _ => ?_
    simp [Bool.and_comm]

theorem foldl_success_get? (j : String) :
    (ips.foldl recordSuccess s).failures.get? j =
        (if j ∈ ips then none else s.failures.get? j) ∧
      (ips.foldl recordSuccess s).lockedUntil.get? j =
        if j ∈ ips then none else s.lockedUntil.get? j := by
  induction ips generalizing s with
  | nil => simp
  | cons ip ips ih =>
    obtain ⟨hfailures, hlocks⟩ := @ih (recordSuccess s ip)
    rw [List.foldl_cons, hfailures, hlocks]
    unfold recordSuccess
    rw [erase_get?, erase_get?]
    by_cases hj : j ∈ ips
    · simp [hj]
    · by_cases heq : j = ip
      · simp [heq]
      · simp [hj, heq]

theorem expireLocks_get? (now : Rat) (j : String) :
    ((∃ til, s.lockedUntil.get? j = some til ∧ til ≤ now) ∧
        (expireLocks s now).failures.get? j = none ∧
        (expireLocks s now).lockedUntil.get? j = none) ∨
      ((∀ til, s.lockedUntil.get? j = some til → now < til) ∧
        (expireLocks s now).failures.get? j = s.failures.get? j ∧
        (expireLocks s now).lockedUntil.get? j = s.lockedUntil.get? j) := by
  have hmem : j ∈ (s.lockedUntil.items.filter (·.2 ≤ now)).map Prod.fst ↔
      ∃ til, s.lockedUntil.get? j = some til ∧ til ≤ now := by
    rw [List.mem_map]
    constructor
    · rintro ⟨p, hp, rfl⟩
      obtain ⟨hitem, hle⟩ := List.mem_filter.mp hp
      exact ⟨p.2, Dict.get?_eq_some_of_mem hitem, of_decide_eq_true hle⟩
    · rintro ⟨til, hget, hle⟩
      exact ⟨(j, til), List.mem_filter.mpr ⟨Dict.mem_of_get? hget, decide_eq_true hle⟩, rfl⟩
  obtain ⟨hfailures, hlocks⟩ := @foldl_success_get? s
    ((s.lockedUntil.items.filter (·.2 ≤ now)).map Prod.fst) j
  by_cases hexpired : ∃ til, s.lockedUntil.get? j = some til ∧ til ≤ now
  · rw [if_pos (hmem.mpr hexpired)] at hfailures hlocks
    exact .inl ⟨hexpired, hfailures, hlocks⟩
  · rw [if_neg (mt hmem.mp hexpired)] at hfailures hlocks
    exact .inr ⟨fun til hget => not_le.mp fun hle => hexpired ⟨til, hget, hle⟩, hfailures, hlocks⟩

omit s ips in
theorem length_filter_take {α : Type} {items coldest : List (String × α)}
    (hperm : coldest.Perm items) (n : Nat) :
    (items.filter (·.1 ∉ (coldest.take (items.length - n)).map Prod.fst)).length ≤ n := by
  have hgone : (coldest.take (items.length - n)).filter
      (fun p => p.1 ∉ (coldest.take (items.length - n)).map Prod.fst) = [] :=
    List.filter_eq_nil_iff.mpr fun p hp => by
      rw [decide_eq_true_eq, not_not]
      exact List.mem_map_of_mem hp
  rw [← (hperm.filter _).length_eq]
  calc (coldest.filter (·.1 ∉ (coldest.take (items.length - n)).map Prod.fst)).length
      = ((coldest.take (items.length - n) ++ coldest.drop (items.length - n)).filter
          (·.1 ∉ (coldest.take (items.length - n)).map Prod.fst)).length := by
        rw [List.take_append_drop]
    _ = ((coldest.drop (items.length - n)).filter
          (·.1 ∉ (coldest.take (items.length - n)).map Prod.fst)).length := by
        rw [List.filter_append, hgone, List.nil_append]
    _ ≤ (coldest.drop (items.length - n)).length := List.length_filter_le _ _
    _ ≤ n := by
        rw [List.length_drop, hperm.length_eq]
        omega

/-- **The cap** holds after the trim, whatever the maps were. -/
theorem length_enforceSizeCap (cap : Nat) (s : Throttle) :
    (enforceSizeCap cap s).failures.items.length ≤ cap := by
  unfold enforceSizeCap
  split
  · next hle => exact hle
  · rw [foldl_success_failures]
    exact length_filter_take PyList.sortBy_perm cap

theorem mem_enforceSizeCap {cap : Nat} {q : String × List Rat}
    (h : q ∈ (enforceSizeCap cap s).failures.items) : q ∈ s.failures.items := by
  unfold enforceSizeCap at h
  split at h
  · exact h
  · rw [foldl_success_failures] at h
    exact List.mem_of_mem_filter h

theorem length_recordFailure (s : Throttle) (ip : String) (now : Rat) :
    (recordFailure s ip now).1.failures.items.length ≤ maxTrackedIps := by
  unfold recordFailure
  dsimp only
  split <;> exact length_enforceSizeCap _ _

end

/-! ## One call -/

/-- The maps hold what the history of an address leaves; or its lock has run out, and they hold
nothing any more. -/
def Follows (s : Throttle) (ip : String) (history : List Login) (now : Rat) : Prop :=
  (s.lockedUntil.get? ip = lockEnd history ∧
    Trails (counted history).reverse ((s.failures.get? ip).getD []) (now - windowSec)) ∨
  ∃ til, lockEnd history = some til ∧ til ≤ now ∧ s.lockedUntil.get? ip = none ∧
    s.failures.get? ip = none

section

variable {s : Throttle} {ip j : String} {history : List Login} {now now' : Rat}

theorem Follows.later (h : Follows s ip history now) (hle : now ≤ now') :
    Follows s ip history now' := by
  rcases h with ⟨hlock, hwindow⟩ | ⟨til, hend, htil, hgone⟩
  · exact .inl ⟨hlock, Trails.later hwindow (by linarith)⟩
  · exact .inr ⟨til, hend, htil.trans hle, hgone⟩

theorem Follows.expireLocks (h : Follows s ip history now) :
    Follows (expireLocks s now) ip history now ∧
      (expireLocks s now).lockedUntil.get? ip = (lockEnd history).filter (now < ·) ∧
      Trails (stillCounted (lockEnd history) (counted history) now).reverse
        (((Auth.expireLocks s now).failures.get? ip).getD []) (now - windowSec) := by
  have hstill : ∀ til, lockEnd history = some til → til ≤ now →
      (lockEnd history).filter (now < ·) = none ∧
        stillCounted (lockEnd history) (counted history) now = [] := by
    intro til hend htil
    rw [hend]
    refine ⟨?_, if_pos htil⟩
    rw [Option.filter_some, if_neg (by simpa using htil)]
  rcases h with ⟨hlock, hwindow⟩ | ⟨til, hend, htil, hlock, hfailures⟩
  · rcases @expireLocks_get? s now ip with ⟨⟨til, hget, hle⟩, hfailures', hlock'⟩ |
      ⟨hlive, hfailures', hlock'⟩
    · have hend : lockEnd history = some til := hlock.symm.trans hget
      obtain ⟨hnone, hempty⟩ := hstill til hend hle
      refine ⟨.inr ⟨til, hend, hle, hlock', hfailures'⟩, by rw [hlock', hnone], ?_⟩
      rw [hempty, hfailures']
      exact trails_refl _ _
    · have hkept : (lockEnd history).filter (now < ·) = lockEnd history ∧
          stillCounted (lockEnd history) (counted history) now = counted history := by
        cases hend : lockEnd history with
        | none => exact ⟨rfl, rfl⟩
        | some til =>
          have hlt := hlive til (hlock.trans hend)
          refine ⟨?_, if_neg (not_le.mpr hlt)⟩
          rw [Option.filter_some, if_pos (decide_eq_true hlt)]
      rw [hkept.1, hkept.2, hlock', hfailures']
      refine ⟨.inl ⟨by rw [hlock', hlock], by rw [hfailures']; exact hwindow⟩, hlock, hwindow⟩
  · obtain ⟨hnone, hempty⟩ := hstill til hend htil
    have hgone : (Auth.expireLocks s now).failures.get? ip = none ∧
        (Auth.expireLocks s now).lockedUntil.get? ip = none := by
      rcases @expireLocks_get? s now ip with ⟨-, h, h'⟩ | ⟨-, h, h'⟩
      · exact ⟨h, h'⟩
      · exact ⟨h.trans hfailures, h'.trans hlock⟩
    refine ⟨.inr ⟨til, hend, htil, hgone.2, hgone.1⟩, by rw [hgone.2, hnone], ?_⟩
    rw [hempty, hgone.1]
    exact trails_refl _ _

theorem counted_sublist (history : List Login) :
    (counted history).Sublist (failureTimes history) := by
  induction history with
  | nil => exact List.Sublist.refl _
  | cons call earlier ih =>
    cases call with
    | success => exact List.nil_sublist _
    | failure time =>
      rw [counted]
      refine List.Sublist.cons_cons time ?_
      unfold stillCounted
      split
      · split
        · exact List.nil_sublist _
        · exact ih
      · exact ih

/-- **A failure** keeps the maps what the history makes them, for an address with room. -/
theorem Follows.failure (h : Follows s ip history now)
    (hclock : (failureTimes (.failure now :: history)).Pairwise (· ≥ ·))
    (hroom : ∀ attempts, ((Auth.expireLocks s now).failures.set ip attempts).items.length ≤
      maxTrackedIps) :
    Follows (recordFailure s ip now).1 ip (.failure now :: history) now := by
  obtain ⟨-, hlock, hwindow⟩ := h.expireLocks
  have hall : (counted (.failure now :: history)).reverse =
      (stillCounted (lockEnd history) (counted history) now).reverse ++ [now] := by
    rw [counted, List.reverse_cons]
  have hgrown := Trails.append hwindow [now]
  rw [← hall] at hgrown
  have hsorted : (counted (.failure now :: history)).reverse.Pairwise (· ≤ ·) :=
    List.pairwise_reverse.mpr (hclock.sublist (counted_sublist _))
  have hlength : (expire (now - windowSec)
      (((Auth.expireLocks s now).failures.get? ip).getD [] ++ [now])).length =
        ((counted (.failure now :: history)).filter (now - windowSec ≤ ·)).length := by
    rw [hgrown.expire_eq_filter hsorted, List.filter_reverse, List.length_reverse]
  unfold recordFailure enforceSizeCap
  dsimp only
  rw [if_pos (hroom _), hlength]
  rcases lockEnd_failure now history with ⟨htrips, hend⟩ | ⟨htrips, hend⟩
  · unfold Trips at htrips
    rw [if_pos htrips]
    refine .inl ⟨?_, ?_⟩
    · rw [hend, Dict.get?_set_self]
    · rw [Dict.get?_set_self]
      exact hgrown.expire
  · unfold Trips at htrips
    rw [if_neg htrips]
    refine .inl ⟨hlock.trans hend.symm, ?_⟩
    rw [Dict.get?_set_self]
    exact hgrown.expire

theorem Follows.otherFailure (h : Follows s j history now) (hne : j ≠ ip)
    (hroom : ∀ attempts, ((Auth.expireLocks s now).failures.set ip attempts).items.length ≤
      maxTrackedIps) :
    Follows (recordFailure s ip now).1 j history now := by
  have hexpired := h.expireLocks.1
  unfold recordFailure enforceSizeCap
  dsimp only
  rw [if_pos (hroom _)]
  unfold Follows at hexpired ⊢
  split
  · rw [Dict.get?_set_of_ne _ _ hne, Dict.get?_set_of_ne _ _ hne]
    exact hexpired
  · rw [Dict.get?_set_of_ne _ _ hne]
    exact hexpired

theorem follows_success (s : Throttle) (ip : String) (history : List Login) (now : Rat) :
    Follows (recordSuccess s ip) ip (.success :: history) now := by
  unfold recordSuccess
  refine .inl ⟨?_, ?_⟩
  · rw [erase_get?, if_pos rfl]
    rfl
  · rw [erase_get?, if_pos rfl]
    exact trails_refl _ _

theorem Follows.otherSuccess (h : Follows s j history now) (hne : j ≠ ip) :
    Follows (recordSuccess s ip) j history now := by
  unfold Follows recordSuccess at *
  rw [erase_get?, erase_get?, if_neg hne, if_neg hne]
  exact h

end

end LlmProxy.Auth
