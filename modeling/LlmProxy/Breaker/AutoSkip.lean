import LlmProxy.Breaker.Errors
import LlmProxy.Providers.Background

/-! # Escalation of auth failures

`record_outcome` (`app/monitoring/helpers.py`) and `clear_auth_failure`
(`app/routing/circuit_breaker.py`) in sequence, with the row `_persist_auto_skip` writes. The
window of `record_auth_failure` never holds more failures than the streak counts, so that the
streak decides.

> `auth_failures_escalate`: the third auth failure of users since the last success or clear puts
> the skip a day ahead, and so does each one after it; nothing else moves the skip.

Mirroring notes.
* The writes of the requests and their costs, before and after, and that of the skip are assumed to
  succeed.
-/

namespace LlmProxy.Breaker

open LlmProxy.Providers
open LlmProxy.Cluster (Stamp)

/-- A call: `record_outcome` with the clocks it reads, the last one in `_persist_auto_skip`, or
`clear_auth_failure`. -/
inductive AuthCall
  | outcome (success : Bool) (errorStr keyRecordId : String) (now : Time) (clk : AuthClock)
      (skippedAt : Stamp) (flushed : FlushClock)
  | clear

/-- What the module keeps of a provider, and the table of the providers. -/
structure GuardedNode where
  kept : ProviderState := {}
  table : List Provider

def isProbe (keyRecordId : String) : Bool := keyRecordId == "probe-keepalive"

def authStep (cfg : Config) (providerId : String) (s : GuardedNode) : AuthCall → GuardedNode
  | .clear => { s with kept := s.kept.clearAuthFailure }
  | .outcome success errorStr keyRecordId now clk skippedAt flushed =>
    let recorded := s.kept.recordOutcome cfg success errorStr (isProbe keyRecordId) now clk
    { kept := recorded.1
      table :=
        if recorded.2 then persistAutoSkip flushed skippedAt providerId s.table else s.table }

def authRun (cfg : Config) (providerId : String) (table : List Provider) (calls : List AuthCall) :
    GuardedNode :=
  calls.foldl (authStep cfg providerId) { table }

def skipUntil (providerId : String) (table : List Provider) : Option Stamp :=
  (table.find? fun p => p.id == providerId).bind Provider.autoSkipUntil

def AuthCall.userAuthFailure : AuthCall → Bool
  | .outcome success errorStr keyRecordId _ _ _ _ =>
    !success && !isProbe keyRecordId && isAuthError errorStr
  | .clear => false

def AuthCall.endsStreak : AuthCall → Bool
  | .outcome success _ _ _ _ _ _ => success
  | .clear => true

/-- The time `_persist_auto_skip` reads. -/
def AuthCall.skippedAt : AuthCall → Stamp
  | .outcome _ _ _ _ _ skippedAt _ => skippedAt
  | .clear => 0

/-- The auth failures of users since the last success or clear. -/
def consecutive (calls : List AuthCall) : Nat :=
  ((calls.reverse.takeWhile (!·.endsStreak)).filter AuthCall.userAuthFailure).length

/-! ## One call -/

section

variable {cfg : Config} {p : ProviderState} {providerId : String} {s : GuardedNode}

theorem recordOutcome_cases (success : Bool) (errorStr keyRecordId : String) (now : Time)
    (clk : AuthClock) :
    (success = true ∧
      (p.recordOutcome cfg success errorStr (isProbe keyRecordId) now clk).2 = false ∧
      (p.recordOutcome cfg success errorStr (isProbe keyRecordId) now clk).1.authFailureStreak = 0 ∧
      (p.recordOutcome cfg success errorStr (isProbe keyRecordId) now clk).1.authFailureHistory =
        []) ∨
    (success = false ∧ isProbe keyRecordId = false ∧ isAuthError errorStr = true ∧
      p.recordOutcome cfg success errorStr (isProbe keyRecordId) now clk =
        p.recordAuthFailure errorStr clk) ∨
    (success = false ∧ (isProbe keyRecordId = true ∨ isAuthError errorStr = false) ∧
      (p.recordOutcome cfg success errorStr (isProbe keyRecordId) now clk).2 = false ∧
      (p.recordOutcome cfg success errorStr (isProbe keyRecordId) now clk).1.authFailureStreak =
        p.authFailureStreak ∧
      (p.recordOutcome cfg success errorStr (isProbe keyRecordId) now clk).1.authFailureHistory =
        p.authFailureHistory) := by
  unfold ProviderState.recordOutcome failedOutcome
  cases success with
  | true => exact .inl ⟨rfl, rfl, rfl, rfl⟩
  | false =>
    rw [if_neg Bool.false_ne_true]
    generalize isBillingError errorStr = billingError
    generalize isCallerSideError errorStr = callerSide
    cases isAuthError errorStr with
    | true =>
      cases isProbe keyRecordId with
      | true => exact .inr (.inr ⟨rfl, .inl rfl, rfl, rfl, rfl⟩)
      | false => exact .inr (.inl ⟨rfl, rfl, rfl, rfl⟩)
    | false =>
      cases callerSide with
      | true => exact .inr (.inr ⟨rfl, .inr rfl, rfl, rfl, rfl⟩)
      | false => exact .inr (.inr ⟨rfl, .inr rfl, rfl, rfl, rfl⟩)

theorem history_recordAuthFailure (errorStr : String) (clk : AuthClock) :
    (p.recordAuthFailure errorStr clk).1.authFailureHistory.length ≤
      p.authFailureHistory.length + 1 := by
  unfold ProviderState.recordAuthFailure
  refine (List.length_filter_le _ _).trans ?_
  rw [List.length_append]
  exact Nat.le_refl _

theorem consecutive_concat (calls : List AuthCall) (call : AuthCall) :
    consecutive (calls ++ [call]) =
      if call.endsStreak then 0
      else consecutive calls + if call.userAuthFailure then 1 else 0 := by
  unfold consecutive
  rw [List.reverse_append, List.reverse_singleton, List.singleton_append, List.takeWhile_cons]
  cases call.endsStreak with
  | true => rfl
  | false =>
    rw [Bool.not_false, if_pos rfl, if_neg Bool.false_ne_true, List.filter_cons]
    cases call.userAuthFailure with
    | true => rfl
    | false => rfl

/-- The row of the provider, and what the streak stands for. -/
structure Counts (providerId : String) (s : GuardedNode) (n : Nat) : Prop where
  row : ∃ row, s.table.find? (fun p => p.id == providerId) = some row ∧
    row.nodeLocalSession = false
  streak : s.kept.authFailureStreak = n
  window : s.kept.authFailureHistory.length ≤ n

theorem flush_autoSkipUntil (clk : FlushClock) (old new : Provider) :
    (flush clk old new).autoSkipUntil = new.autoSkipUntil := by
  obtain ⟨u, e, h⟩ := flush_cases clk old new
  rw [h]

theorem flush_nodeLocalSession (clk : FlushClock) (old new : Provider) :
    (flush clk old new).nodeLocalSession = new.nodeLocalSession := by
  obtain ⟨u, e, h⟩ := flush_cases clk old new
  rw [h]
  rfl

/-- **The write** puts the skip a day ahead, or finds it further. -/
theorem persistAutoSkip_row {table : List Provider} {row : Provider} (clk : FlushClock)
    (now : Stamp) (hrow : table.find? (fun p => p.id == providerId) = some row)
    (hsession : row.nodeLocalSession = false) :
    ∃ row' til, (persistAutoSkip clk now providerId table).find? (fun p => p.id == providerId) =
        some row' ∧ row'.nodeLocalSession = false ∧ row'.autoSkipUntil = some til ∧
      autoSkipWindow now ≤ til ∧
      ∀ before, row.autoSkipUntil = some before → before ≤ til := by
  have hid : ∀ p : Provider, (autoSkipWrites now p).id = p.id ∧
      (autoSkipWrites now p).nodeLocalSession = p.nodeLocalSession := by
    intro p
    unfold autoSkipWrites
    split
    · exact ⟨rfl, rfl⟩
    · split <;> exact ⟨rfl, rfl⟩
  have hfind : (persistAutoSkip clk now providerId table).find? (fun p => p.id == providerId) =
      some (flush clk row (autoSkipWrites now row)) := by
    unfold persistAutoSkip
    rw [Table.find?_updateFirst_self (fun p => by rw [flush_id, (hid p).1]), hrow]
    rfl
  have hwrites : ∃ til, (autoSkipWrites now row).autoSkipUntil = some til ∧
      autoSkipWindow now ≤ til ∧ ∀ before, row.autoSkipUntil = some before → before ≤ til := by
    unfold autoSkipWrites
    rw [if_neg (by rw [hsession]; exact Bool.false_ne_true)]
    unfold Provider.skippedBeyond
    cases huntil : row.autoSkipUntil with
    | none => exact ⟨_, rfl, le_refl _, fun _ h => by cases h⟩
    | some til =>
      by_cases hlt : autoSkipWindow now < til
      · refine ⟨til, ?_, hlt.le, fun before h => (Option.some.inj h).ge⟩
        dsimp only
        rw [if_pos (decide_eq_true hlt), huntil]
      · refine ⟨autoSkipWindow now, ?_, le_refl _, fun before h => ?_⟩
        · dsimp only
          rw [if_neg (by simpa using hlt)]
        · rw [← Option.some.inj h]
          exact not_lt.mp hlt
  obtain ⟨til, huntil, hle, hkeeps⟩ := hwrites
  refine ⟨_, til, hfind, ?_, ?_, hle, hkeeps⟩
  · rw [flush_nodeLocalSession, (hid row).2, hsession]
  · rw [flush_autoSkipUntil, huntil]

/-- The skip is a day ahead where there is cause, is what it was where there is none, and is never
earlier. -/
structure Escalates (providerId : String) (before after : List Provider) (call : AuthCall)
    (failures : Nat) : Prop where
  persists : call.userAuthFailure = true → 3 ≤ failures →
    ∃ til, skipUntil providerId after = some til ∧ autoSkipWindow call.skippedAt ≤ til
  stays : ¬ (call.userAuthFailure = true ∧ 3 ≤ failures) →
    skipUntil providerId after = skipUntil providerId before
  keeps : ∀ til, skipUntil providerId before = some til →
    ∃ til', skipUntil providerId after = some til' ∧ til ≤ til'

theorem escalates_same {table : List Provider} {call : AuthCall} {failures : Nat}
    (h : ¬ (call.userAuthFailure = true ∧ 3 ≤ failures)) :
    Escalates providerId table table call failures :=
  ⟨fun huser hmany => absurd ⟨huser, hmany⟩ h, fun _ => rfl, fun til htil => ⟨til, htil, le_refl _⟩⟩

theorem Counts.refused {n : Nat} (h : Counts providerId s n) (errorStr : String) (clk : AuthClock)
    (skippedAt : Stamp) (flushed : FlushClock) {call : AuthCall}
    (huser : call.userAuthFailure = true) (hat : call.skippedAt = skippedAt) {after : GuardedNode}
    (hafter : after = { kept := (s.kept.recordAuthFailure errorStr clk).1
                        table := if (s.kept.recordAuthFailure errorStr clk).2 then
                            persistAutoSkip flushed skippedAt providerId s.table else s.table }) :
    Counts providerId after (n + 1) ∧ Escalates providerId s.table after.table call (n + 1) := by
  obtain ⟨⟨row, hrow, hsession⟩, hstreak, hwindow⟩ := h
  have hshort : (s.kept.recordAuthFailure errorStr clk).1.authFailureHistory.length ≤ n + 1 :=
    (history_recordAuthFailure errorStr clk).trans (Nat.succ_le_succ hwindow)
  have hlonger : (s.kept.recordAuthFailure errorStr clk).1.authFailureStreak = n + 1 :=
    congrArg (· + 1) hstreak
  have hskips : (s.kept.recordAuthFailure errorStr clk).2 = true ↔ 3 ≤ n + 1 := by
    have hflag : (s.kept.recordAuthFailure errorStr clk).2 = decide
        (persistentAuthThreshold ≤
            (s.kept.recordAuthFailure errorStr clk).1.authFailureHistory.length ∨
          persistentAuthThreshold ≤
            (s.kept.recordAuthFailure errorStr clk).1.authFailureStreak) := rfl
    rw [hflag, decide_eq_true_eq, hlonger]
    unfold persistentAuthThreshold
    omega
  by_cases hmany : 3 ≤ n + 1
  · obtain ⟨row', til, hfind, hsession', huntil, hle, hkeeps⟩ :=
      persistAutoSkip_row flushed skippedAt hrow hsession
    have hskip : skipUntil providerId (persistAutoSkip flushed skippedAt providerId s.table) =
        some til := by
      unfold skipUntil
      rw [hfind]
      exact huntil
    rw [if_pos (hskips.mpr hmany)] at hafter
    rw [hafter]
    refine ⟨⟨⟨row', hfind, hsession'⟩, hlonger, hshort⟩,
      fun _ _ => ⟨til, hskip, by rw [hat]; exact hle⟩, fun hnot => absurd ⟨huser, hmany⟩ hnot,
      fun before hbefore => ⟨til, hskip, ?_⟩⟩
    unfold skipUntil at hbefore
    rw [hrow] at hbefore
    exact hkeeps before hbefore
  · rw [if_neg (mt hskips.mp hmany)] at hafter
    rw [hafter]
    exact ⟨⟨⟨row, hrow, hsession⟩, hlonger, hshort⟩,
      escalates_same fun h => hmany h.2⟩

/-- **A step** keeps count, and escalates from the third failure on. -/
theorem Counts.step {calls : List AuthCall} (h : Counts providerId s (consecutive calls))
    (call : AuthCall) :
    Counts providerId (authStep cfg providerId s call) (consecutive (calls ++ [call])) ∧
      Escalates providerId s.table (authStep cfg providerId s call).table call
        (consecutive (calls ++ [call])) := by
  rw [consecutive_concat]
  cases call with
  | clear => exact ⟨⟨h.row, rfl, Nat.zero_le _⟩, escalates_same fun hcause => by cases hcause.1⟩
  | outcome success errorStr keyRecordId now clk skippedAt flushed =>
    unfold authStep
    dsimp only
    rcases @recordOutcome_cases cfg s.kept success errorStr keyRecordId now clk with
      ⟨rfl, hskip, hstreak, hwindow⟩ | ⟨rfl, hprobe, hauth, hrecord⟩ |
      ⟨rfl, hnot, hskip, hstreak, hwindow⟩
    · rw [hskip, if_neg Bool.false_ne_true]
      refine ⟨⟨h.row, hstreak, ?_⟩, escalates_same fun hcause => by cases hcause.1⟩
      rw [hwindow]
      exact Nat.zero_le _
    · have huser : AuthCall.userAuthFailure
          (.outcome false errorStr keyRecordId now clk skippedAt flushed) = true := by
        show (!false && !isProbe keyRecordId && isAuthError errorStr) = true
        rw [hprobe, hauth]
        rfl
      rw [huser, if_pos rfl]
      exact h.refused errorStr clk skippedAt flushed huser rfl (by rw [hrecord])
    · have huser : AuthCall.userAuthFailure
          (.outcome false errorStr keyRecordId now clk skippedAt flushed) = false := by
        show (!false && !isProbe keyRecordId && isAuthError errorStr) = false
        rcases hnot with hprobe | hauth
        · rw [hprobe]
          rfl
        · rw [hauth, Bool.and_false]
      rw [hskip, if_neg Bool.false_ne_true, huser, if_neg Bool.false_ne_true, Nat.add_zero]
      refine ⟨⟨h.row, hstreak.trans h.streak, ?_⟩, escalates_same fun hcause => ?_⟩
      · rw [hwindow]
        exact h.window
      · rw [huser] at hcause
        cases hcause.1

end

/-! ## Main theorem -/

section

variable {cfg : Config} {providerId : String} {table : List Provider} {row : Provider}

theorem counts_run (hrow : table.find? (fun p => p.id == providerId) = some row)
    (hsession : row.nodeLocalSession = false) (calls : List AuthCall) :
    Counts providerId (authRun cfg providerId table calls) (consecutive calls) := by
  induction calls using List.reverseRecOn with
  | nil => exact ⟨⟨row, hrow, hsession⟩, rfl, Nat.le_refl _⟩
  | append_singleton calls call ih =>
    unfold authRun at ih ⊢
    rw [List.foldl_append]
    exact (ih.step call).1

/-- **Auth failures escalate** exactly when they are consecutive. -/
theorem auth_failures_escalate (cfg : Config)
    (hrow : table.find? (fun p => p.id == providerId) = some row)
    (hsession : row.nodeLocalSession = false) (calls : List AuthCall) (call : AuthCall) :
    Escalates providerId (authRun cfg providerId table calls).table
      (authRun cfg providerId table (calls ++ [call])).table call
      (consecutive (calls ++ [call])) := by
  have hcounts := @counts_run cfg _ _ _ hrow hsession calls
  have hrun : authRun cfg providerId table (calls ++ [call]) =
      authStep cfg providerId (authRun cfg providerId table calls) call := by
    unfold authRun
    rw [List.foldl_append]
    rfl
  rw [hrun]
  exact (hcounts.step call).2

end

/-! ### A key that is revoked -/

def revokedProvider : Provider := { id := "p1", name := "cohere", providerType := "cohere" }

def refusedUser (t : Nat) : AuthCall :=
  .outcome false "401" "key-1" t ⟨t, t, t, t⟩ (1000000 * t) ⟨1000000 * t, t⟩

theorem auth_failures_escalate_revoked :
    Escalates "p1" (authRun {} "p1" [revokedProvider] [refusedUser 1, refusedUser 2]).table
      (authRun {} "p1" [revokedProvider]
        ([refusedUser 1, refusedUser 2] ++ [refusedUser 4000])).table (refusedUser 4000)
      (consecutive ([refusedUser 1, refusedUser 2] ++ [refusedUser 4000])) :=
  @auth_failures_escalate "p1" [revokedProvider] revokedProvider {} rfl rfl
    [refusedUser 1, refusedUser 2] (refusedUser 4000)

end LlmProxy.Breaker
