import Mathlib.Data.Finset.Card
import Mathlib.Data.List.Induction
import LlmProxy.Auth.LoginThrottle

/-! # Runs of the login throttle

Sequences of failures and successes of any addresses. The maps follow the history of each address
(`follows_loginRun`), as long as there are no more addresses than the cap lets in.

> `throttle_right`: the verdict on an address is what its own calls make it, and the map of the
> failures keeps its size.
-/

namespace LlmProxy.Auth

open SlidingWindow

/-! ## Runs -/

def ownHistory (ip : String) (calls : List LoginCall) : List Login :=
  (calls.filterMap fun
    | .failure j now => if j = ip then some (.failure now) else none
    | .success j => if j = ip then some .success else none).reverse

def callTimes (calls : List LoginCall) : List Rat :=
  calls.filterMap fun
    | .failure _ now => some now
    | .success _ => none

section

variable {calls : List LoginCall} {ip : String} {now : Rat}

theorem ownHistory_failure (calls : List LoginCall) (ip j : String) (now : Rat) :
    ownHistory ip (calls ++ [.failure j now]) =
      if j = ip then .failure now :: ownHistory ip calls else ownHistory ip calls := by
  unfold ownHistory
  rw [List.filterMap_append, List.reverse_append]
  split
  · next h => simp [h]
  · next h => simp [h]

theorem ownHistory_success (calls : List LoginCall) (ip j : String) :
    ownHistory ip (calls ++ [.success j]) =
      if j = ip then .success :: ownHistory ip calls else ownHistory ip calls := by
  unfold ownHistory
  rw [List.filterMap_append, List.reverse_append]
  split
  · next h => simp [h]
  · next h => simp [h]

theorem callTimes_failure (calls : List LoginCall) (ip : String) (now : Rat) :
    callTimes (calls ++ [.failure ip now]) = callTimes calls ++ [now] := by
  unfold callTimes
  rw [List.filterMap_append]
  rfl

theorem callTimes_success (calls : List LoginCall) (ip : String) :
    callTimes (calls ++ [.success ip]) = callTimes calls := by
  unfold callTimes
  rw [List.filterMap_append]
  exact List.append_nil _

theorem ownTimes_sublist (ip : String) (calls : List LoginCall) :
    (failureTimes (ownHistory ip calls)).reverse.Sublist (callTimes calls) := by
  induction calls using List.reverseRecOn with
  | nil => exact List.Sublist.refl _
  | append_singleton calls call ih =>
    cases call with
    | failure j now =>
      rw [ownHistory_failure, callTimes_failure]
      split
      · have htimes : failureTimes (.failure now :: ownHistory ip calls) =
            now :: failureTimes (ownHistory ip calls) := rfl
        rw [htimes, List.reverse_cons]
        exact ih.append (List.Sublist.refl _)
      · exact ih.trans (List.sublist_append_left _ _)
    | success j =>
      rw [ownHistory_success, callTimes_success]
      split
      · exact ih
      · exact ih

theorem ownTimes_sorted (hclock : (callTimes calls).Pairwise (· ≤ ·)) (ip : String) :
    (failureTimes (ownHistory ip calls)).Pairwise (· ≥ ·) :=
  List.pairwise_reverse.mp (hclock.sublist (ownTimes_sublist ip calls))

theorem ownTimes_le (hnow : ∀ t ∈ callTimes calls, t ≤ now) :
    ∀ t ∈ failureTimes (ownHistory ip calls), t ≤ now := fun t ht =>
  hnow t ((ownTimes_sublist ip calls).subset (List.mem_reverse.mpr ht))

theorem keys_loginRun (calls : List LoginCall) :
    ∀ p ∈ (loginRun calls).failures.items, p.1 ∈ calls.map LoginCall.ip := by
  induction calls using List.reverseRecOn with
  | nil => exact fun p hp => absurd hp List.not_mem_nil
  | append_singleton calls call ih =>
    have hrun : loginRun (calls ++ [call]) = loginStep (loginRun calls) call := by
      unfold loginRun
      rw [List.foldl_append]
      rfl
    intro p hp
    rw [hrun] at hp
    rw [List.map_append]
    cases call with
    | success ip => exact List.mem_append_left _ (ih p (Dict.mem_erase.mp hp).1)
    | failure ip now =>
      have hset : ∀ attempts, ∀ q ∈ ((expireLocks (loginRun calls) now).failures.set ip
          attempts).items, q.1 ∈ calls.map LoginCall.ip ++ [ip] := by
        intro attempts q hq
        rcases Dict.mem_set hq with rfl | hq
        · exact List.mem_append_right _ (List.mem_singleton_self _)
        · unfold expireLocks at hq
          rw [foldl_success_failures] at hq
          exact List.mem_append_left _ (ih q (List.mem_of_mem_filter hq))
      have hin : p ∈ (recordFailure (loginRun calls) ip now).1.failures.items := hp
      unfold recordFailure at hin
      dsimp only at hin
      split at hin
      · exact hset _ p (mem_enforceSizeCap hin)
      · exact hset _ p (mem_enforceSizeCap hin)

def addresses (calls : List LoginCall) : Finset String := (calls.map LoginCall.ip).toFinset

theorem room (hfew : (addresses (calls ++ [.failure ip now])).card ≤ maxTrackedIps)
    (attempts : List Rat) :
    ((expireLocks (loginRun calls) now).failures.set ip attempts).items.length ≤
      maxTrackedIps := by
  refine le_trans ?_ hfew
  have hnodup := ((expireLocks (loginRun calls) now).failures.set ip attempts).nodup
  rw [← List.length_map, ← List.toFinset_card_of_nodup hnodup]
  refine Finset.card_le_card fun j hj => ?_
  obtain ⟨q, hq, rfl⟩ := List.mem_map.mp (List.mem_toFinset.mp hj)
  unfold addresses
  rw [List.mem_toFinset, List.map_append]
  rcases Dict.mem_set hq with rfl | hq
  · exact List.mem_append_right _ (List.mem_singleton_self _)
  · unfold expireLocks at hq
    rw [foldl_success_failures] at hq
    exact List.mem_append_left _ (keys_loginRun calls q (List.mem_of_mem_filter hq))

/-- **The maps after a run** are what each address made them. -/
theorem follows_loginRun (hclock : (callTimes calls).Pairwise (· ≤ ·))
    (hfew : (addresses calls).card ≤ maxTrackedIps) (ip : String)
    (hnow : ∀ t ∈ callTimes calls, t ≤ now) :
    Follows (loginRun calls) ip (ownHistory ip calls) now := by
  induction calls using List.reverseRecOn generalizing now with
  | nil => exact .inl ⟨rfl, trails_refl _ _⟩
  | append_singleton calls call ih =>
    have hrun : loginRun (calls ++ [call]) = loginStep (loginRun calls) call := by
      unfold loginRun
      rw [List.foldl_append]
      rfl
    have hfewer : (addresses calls).card ≤ maxTrackedIps := by
      refine le_trans (Finset.card_le_card fun j hj => ?_) hfew
      unfold addresses at hj ⊢
      rw [List.mem_toFinset] at hj ⊢
      rw [List.map_append]
      exact List.mem_append_left _ hj
    rw [hrun]
    cases call with
    | success j =>
      rw [callTimes_success] at hclock hnow
      rw [ownHistory_success]
      split
      · next heq =>
        rw [heq]
        exact follows_success _ _ _ _
      · next hne => exact (ih hclock hfewer hnow).otherSuccess (Ne.symm hne)
    | failure j time =>
      have hsorted := ownTimes_sorted hclock ip
      rw [callTimes_failure] at hclock hnow
      rw [ownHistory_failure] at hsorted ⊢
      obtain ⟨hbefore, -, hlast⟩ := List.pairwise_append.mp hclock
      have hkept := ih hbefore hfewer fun t ht => hlast t ht time (List.mem_singleton_self _)
      have htime : time ≤ now := hnow time (by simp)
      refine Follows.later ?_ htime
      split
      · next heq =>
        rw [if_pos heq] at hsorted
        rw [heq] at hfew ⊢
        exact hkept.failure hsorted (room hfew)
      · next hne => exact hkept.otherFailure (Ne.symm hne) (room hfew)

/-- **The answer** is read off the history of the address. -/
theorem secondsRemaining_loginRun (hclock : (callTimes calls).Pairwise (· ≤ ·))
    (hfew : (addresses calls).card ≤ maxTrackedIps) (ip : String)
    (hnow : ∀ t ∈ callTimes calls, t ≤ now) :
    secondsRemaining (loginRun calls) ip now = remaining (lockEnd (ownHistory ip calls)) now := by
  unfold secondsRemaining
  rcases follows_loginRun hclock hfew ip hnow with ⟨hlock, -⟩ | ⟨til, hend, htil, hlock, -⟩
  · rw [hlock]
  · rw [hlock, hend]
    exact (if_pos htil).symm

theorem remaining_pos_iff {til : Option Rat} :
    0 < remaining til now ↔ ∃ u, til = some u ∧ now < u := by
  cases til with
  | none => simp [remaining]
  | some u =>
    unfold remaining
    dsimp only
    split
    · next hle => simp [hle]
    · next hlt =>
      have hfloor : 0 ≤ ⌊u - now⌋ := Int.floor_nonneg.mpr (by linarith)
      exact iff_of_true (by omega) ⟨u, rfl, not_le.mp hlt⟩

theorem lockEnd_le {history : List Login} (hnow : ∀ t ∈ failureTimes history, t ≤ now) {til : Rat}
    (h : lockEnd history = some til) : til ≤ now + lockoutSec := by
  induction history with
  | nil => cases h
  | cons call earlier ih =>
    cases call with
    | success => cases h
    | failure time =>
      have htimes : failureTimes (.failure time :: earlier) = time :: failureTimes earlier := rfl
      rw [htimes] at hnow
      obtain ⟨htime, hbefore⟩ := List.forall_mem_cons.mp hnow
      rcases lockEnd_failure time earlier with ⟨-, hend⟩ | ⟨-, hend⟩
      · rw [hend] at h
        rw [← Option.some.inj h]
        linarith
      · rw [hend, Option.filter_eq_some_iff] at h
        exact ih hbefore h.1

theorem remaining_le {history : List Login} (hnow : ∀ t ∈ failureTimes history, t ≤ now) :
    (remaining (lockEnd history) now : Rat) ≤ lockoutSec + 1 := by
  have hsec : (0 : Rat) ≤ lockoutSec := by decide
  cases hend : lockEnd history with
  | none =>
    show ((0 : Int) : Rat) ≤ _
    rw [Int.cast_zero]
    linarith
  | some til =>
    have hle := lockEnd_le hnow hend
    unfold remaining
    dsimp only
    split
    · rw [Int.cast_zero]
      linarith
    · have hfloor : ((⌊til - now⌋ : Int) : Rat) ≤ til - now := Int.floor_le _
      rw [Int.cast_add, Int.cast_one]
      linarith

end

/-! ## Main theorem -/

/-- What the throttle says of an address, after calls among which there are few addresses. -/
structure ThrottleLawful (calls : List LoginCall) : Prop where
  verdict : ∀ ip now, (∀ t ∈ callTimes calls, t ≤ now) →
    (0 < secondsRemaining (loginRun calls) ip now ↔ LockedOut (ownHistory ip calls) now)
  bounded : ∀ ip now, (∀ t ∈ callTimes calls, t ≤ now) →
    (secondsRemaining (loginRun calls) ip now : Rat) ≤ lockoutSec + 1
  ends : ∀ ip now, (∀ t ∈ callTimes calls, t + lockoutSec ≤ now) →
    secondsRemaining (loginRun calls) ip now = 0
  own : ∀ ip now, (∀ t ∈ callTimes calls, t ≤ now) →
    secondsRemaining (loginRun calls) ip now =
      secondsRemaining (loginRun (calls.filter (·.ip = ip))) ip now

section

variable {calls : List LoginCall}

theorem ownHistory_filter (ip : String) (calls : List LoginCall) :
    ownHistory ip (calls.filter (·.ip = ip)) = ownHistory ip calls := by
  unfold ownHistory
  rw [List.filterMap_filter]
  congr 2
  funext call
  cases call with
  | failure j now =>
    by_cases h : j = ip
    · simp [LoginCall.ip, h]
    · simp [LoginCall.ip, h]
  | success j =>
    by_cases h : j = ip
    · simp [LoginCall.ip, h]
    · simp [LoginCall.ip, h]

theorem throttle_lawful (hclock : (callTimes calls).Pairwise (· ≤ ·))
    (hfew : (addresses calls).card ≤ maxTrackedIps) : ThrottleLawful calls where
  verdict ip now hnow := by
    rw [secondsRemaining_loginRun hclock hfew ip hnow, remaining_pos_iff,
      lockedOut_iff (ownTimes_sorted hclock ip) (ownTimes_le hnow)]
  bounded ip now hnow := by
    rw [secondsRemaining_loginRun hclock hfew ip hnow]
    exact remaining_le (ownTimes_le hnow)
  ends ip now hend := by
    have hsec : (0 : Rat) < lockoutSec := by decide
    have hnow : ∀ t ∈ callTimes calls, t ≤ now := fun t ht => by
      have := hend t ht
      linarith
    have hbefore : ∀ t ∈ callTimes calls, t ≤ now - lockoutSec := fun t ht => by
      have := hend t ht
      linarith
    have hnone : ∀ til, lockEnd (ownHistory ip calls) = some til → til ≤ now := fun til htil => by
      have hle := lockEnd_le (@ownTimes_le _ ip _ hbefore) htil
      linarith
    rw [secondsRemaining_loginRun hclock hfew ip hnow]
    cases htil : lockEnd (ownHistory ip calls) with
    | none => rfl
    | some til => exact if_pos (hnone til htil)
  own ip now hnow := by
    have hsub : (calls.filter (·.ip = ip)).Sublist calls := List.filter_sublist
    have htimes : (callTimes (calls.filter (·.ip = ip))).Sublist (callTimes calls) :=
      hsub.filterMap _
    have hfew' : (addresses (calls.filter (·.ip = ip))).card ≤ maxTrackedIps := by
      refine le_trans (Finset.card_le_card fun j hj => ?_) hfew
      unfold addresses at hj ⊢
      rw [List.mem_toFinset] at hj ⊢
      exact (hsub.map LoginCall.ip).subset hj
    rw [secondsRemaining_loginRun hclock hfew ip hnow,
      secondsRemaining_loginRun (hclock.sublist htimes) hfew' ip fun t ht =>
        hnow t (htimes.subset ht), ownHistory_filter]

end

/-- **The throttle is right**: with few addresses each is judged by its own failures, and with
any number of them the map stays within its bound. -/
theorem throttle_right :
    (∀ calls, (callTimes calls).Pairwise (· ≤ ·) → (addresses calls).card ≤ maxTrackedIps →
      ThrottleLawful calls) ∧
    ∀ calls ip now,
      (recordFailure (loginRun calls) ip now).1.failures.items.length ≤ maxTrackedIps :=
  ⟨fun _ hclock hfew => throttle_lawful hclock hfew, fun _ _ _ => length_recordFailure _ _ _⟩

/-! ### Ten failures -/

/-- Ten failures of an address, among which another one logs in. -/
def tenFailures : List LoginCall :=
  (List.range 10).flatMap fun k => [.failure "198.51.100.7" k, .success "192.0.2.1"]

theorem throttle_tenFailures : ThrottleLawful tenFailures ∧
    ((recordFailure (loginRun tenFailures) "192.0.2.1" 10).1.failures.items.length ≤
      maxTrackedIps) :=
  ⟨throttle_right.1 tenFailures (by decide) (by decide), throttle_right.2 _ _ _⟩

example : (secondsRemaining (loginRun tenFailures) "198.51.100.7" 10,
    secondsRemaining (loginRun tenFailures) "198.51.100.7" 909,
    secondsRemaining (loginRun tenFailures) "192.0.2.1" 10) = (900, 0, 0) := by decide +kernel

end LlmProxy.Auth
