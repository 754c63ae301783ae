import Mathlib
import LlmProxy.Lib.PyList
import LlmProxy.Lib.Trace
import LlmProxy.Cluster.Providers

/-! # Background writers and the edit stamp

`last_user_edit_at` is meant to date an operator's edit, so that a node whose rows only
ever change through the sync and through background jobs cannot outrank an edit made
elsewhere. Three writers are at stake: the merge of a peer's provider row, the priority
tie-break `normalize_priority_ties` (`app/api/providers.py`), which runs after every sync
and at start-up, and `_persist_auto_skip` (`app/routing/circuit_breaker.py`).

None of them sets the stamp on its own behalf. The `before_update` listener does: it stamps
the row with the current time as soon as a column outside `_BACKGROUND_COLUMNS` changed and
the stamp did not. `priority`, `enabled`, `auto_skip_until` and `auto_skip_reason` are
outside, so

> the merge dates an edit exactly when it changes a user column and leaves the stamp as it
> was (`SilentEdit`): a tombstone on an enabled row, or an accepted row that carries no
> stamp or the row's own;
> the tie-break does exactly when there is a tie;
> the auto-skip does exactly when it writes something new.

`background_stamps_iff` has the three conditions, and that under them no run of merges and
jobs takes a row's stamp above the stamps it started from and was sent.
-/

namespace LlmProxy.Providers

open LlmProxy.Cluster

/-! ## The tie-break -/

/-- `deleted_at IS NULL AND enabled`. -/
def Provider.routable (p : Provider) : Bool := p.deletedAt.isNone && p.enabled

/-- `ORDER BY priority, created_at, id`. -/
def tieOrder (a b : Provider) : Bool :=
  if a.priority ≠ b.priority then a.priority ≤ b.priority
  else if a.createdAt ≠ b.createdAt then a.createdAt ≤ b.createdAt
  else a.id ≤ b.id

/-- `while new_pri in seen_priorities: new_pri += 1`, for at most the given number of
turns; as many turns as there are priorities seen are enough (`nextFree_not_mem`). -/
def nextFree (seen : List Int) : Nat → Int → Int
  | 0, p => p
  | n + 1, p => if p ∈ seen then nextFree seen n (p + 1) else p

/-- The loop: the rows moved, each with its new priority. -/
def breakTies (seen : List Int) : List Provider → List (Provider × Int)
  | [] => []
  | row :: rows =>
    if row.priority ∈ seen then
      let new := nextFree seen seen.length row.priority
      (row, new) :: breakTies (new :: seen) rows
    else breakTies (row.priority :: seen) rows

/-- The rows `normalize_priority_ties` moves. A row stands for its ORM object; ids are the
table's primary key. -/
def tieMoves (table : List Provider) : List (Provider × Int) :=
  breakTies [] (PyList.sortBy tieOrder (table.filter Provider.routable))

def moveRow (clk : FlushClock) (moves : List (Provider × Int)) (p : Provider) : Provider :=
  match moves.find? (fun m => m.1 == p) with
  | some m => flush clk p { p with priority := m.2 }
  | none => p

/-- `normalize_priority_ties`: the table, and the number of rows moved. -/
def normalizePriorityTies (clk : FlushClock) (table : List Provider) : List Provider × Nat :=
  (table.map (moveRow clk (tieMoves table)), (tieMoves table).length)

theorem le_nextFree (seen : List Int) (n : Nat) (p : Int) : p ≤ nextFree seen n p := by
  induction n generalizing p with
  | zero => exact le_refl p
  | succ n ih =>
    unfold nextFree
    split
    · have := ih (p + 1)
      omega
    · exact le_refl p

theorem nextFree_mem_all {seen : List Int} {n : Nat} {p : Int} (h : nextFree seen n p ∈ seen) :
    ∀ k ≤ n, p + (k : Int) ∈ seen := by
  induction n generalizing p with
  | zero =>
    intro k hk
    rw [Nat.le_zero.mp hk]
    simpa [nextFree] using h
  | succ n ih =>
    unfold nextFree at h
    by_cases hp : p ∈ seen
    · rw [if_pos hp] at h
      intro k hk
      cases k with
      | zero => simpa using hp
      | succ k =>
        have hnext := ih h k (by omega)
        rw [show p + ((k + 1 : Nat) : Int) = p + 1 + k by omega]
        exact hnext
    · rw [if_neg hp] at h
      exact absurd h hp

/-- The loop of the source ends on a free slot: there are fewer priorities seen than slots
tried. -/
theorem nextFree_not_mem (seen : List Int) (p : Int) : nextFree seen seen.length p ∉ seen := by
  intro hmem
  have hall := nextFree_mem_all hmem
  have hsub : (List.range (seen.length + 1)).map (fun k : Nat => p + (k : Int)) ⊆ seen := by
    intro q hq
    obtain ⟨k, hk, rfl⟩ := List.mem_map.mp hq
    exact hall k (by rw [List.mem_range] at hk; omega)
  have hnodup : ((List.range (seen.length + 1)).map (fun k : Nat => p + (k : Int))).Nodup := by
    refine List.Nodup.map (fun a b hab => ?_) List.nodup_range
    have hab' : p + (a : Int) = p + (b : Int) := hab
    omega
  have hlen := (List.subperm_of_subset hnodup hsub).length_le
  rw [List.length_map, List.length_range] at hlen
  omega

theorem breakTies_moves {rows : List Provider} {seen : List Int} {m : Provider × Int}
    (h : m ∈ breakTies seen rows) : m.1 ∈ rows ∧ m.1.priority < m.2 := by
  induction rows generalizing seen with
  | nil => cases h
  | cons row rows ih =>
    unfold breakTies at h
    by_cases hp : row.priority ∈ seen
    · rw [if_pos hp] at h
      rcases List.mem_cons.mp h with rfl | h
      · refine ⟨List.mem_cons_self, ?_⟩
        -- the slot the row is on is taken, so the first turn leaves it
        cases seen with
        | nil => cases hp
        | cons s seen =>
          show row.priority < nextFree (s :: seen) (seen.length + 1) row.priority
          unfold nextFree
          rw [if_pos hp]
          have := le_nextFree (s :: seen) seen.length (row.priority + 1)
          omega
      · exact ⟨List.mem_cons_of_mem _ (ih h).1, (ih h).2⟩
    · rw [if_neg hp] at h
      exact ⟨List.mem_cons_of_mem _ (ih h).1, (ih h).2⟩

theorem breakTies_eq_nil_iff {rows : List Provider} {seen : List Int} :
    breakTies seen rows = [] ↔
      (∀ row ∈ rows, row.priority ∉ seen) ∧ rows.Pairwise fun a b => a.priority ≠ b.priority := by
  induction rows generalizing seen with
  | nil => simp [breakTies]
  | cons row rows ih =>
    unfold breakTies
    by_cases hp : row.priority ∈ seen
    · simp [hp]
    · rw [if_neg hp, ih]
      rw [List.pairwise_cons, List.forall_mem_cons]
      constructor
      · rintro ⟨hseen, hpair⟩
        refine ⟨⟨hp, fun q hq hmem => ?_⟩, fun q hq heq => ?_, hpair⟩
        · exact hseen q hq (List.mem_cons_of_mem _ hmem)
        · exact hseen q hq (heq ▸ List.mem_cons_self)
      · rintro ⟨⟨-, hseen⟩, hrow, hpair⟩
        refine ⟨fun q hq hmem => ?_, hpair⟩
        rcases List.mem_cons.mp hmem with heq | hmem
        · exact hrow q hq heq.symm
        · exact hseen q hq hmem

theorem tieMoves_eq_nil_iff {table : List Provider} :
    tieMoves table = [] ↔
      (table.filter Provider.routable).Pairwise fun a b => a.priority ≠ b.priority := by
  unfold tieMoves
  rw [breakTies_eq_nil_iff]
  have hperm := List.perm_insertionSort (fun a b => tieOrder a b = true)
    (table.filter Provider.routable)
  have hsort := hperm.pairwise_iff (R := fun a b => a.priority ≠ b.priority) fun h => h.symm
  constructor
  · intro h
    exact hsort.mp h.2
  · intro h
    exact ⟨fun _ _ => List.not_mem_nil, hsort.mpr h⟩

theorem tieMoves_moves {table : List Provider} {m : Provider × Int} (h : m ∈ tieMoves table) :
    m.1 ∈ table ∧ m.1.priority < m.2 := by
  obtain ⟨hmem, hlt⟩ := breakTies_moves h
  rw [PyList.mem_sortBy, List.mem_filter] at hmem
  exact ⟨hmem.1, hlt⟩

/-! ## The auto-skip -/

/-- `extra_config.get("node_local_session")`, as a truth value. -/
def Provider.nodeLocalSession (p : Provider) : Bool :=
  match p.extraConfig.find? (fun kv => kv.1 == "node_local_session") with
  | some kv => jsonTruthy kv.2
  | none => false

/-- `now + 24h`. -/
def autoSkipWindow (now : Stamp) : Stamp := now + 24 * 3600 * 1000000

def Provider.skippedBeyond (p : Provider) (limit : Stamp) : Bool :=
  match p.autoSkipUntil with
  | some u => limit < u
  | none => false

/-- The writes of `_persist_auto_skip` on the row it found. -/
def autoSkipWrites (now : Stamp) (p : Provider) : Provider :=
  if p.nodeLocalSession then p
  else if p.skippedBeyond (autoSkipWindow now) then p
  else
    { p with
      autoSkipUntil := some (autoSkipWindow now)
      autoSkipReason := some "persistent_auth_failure" }

/-- `_persist_auto_skip`. -/
def persistAutoSkip (clk : FlushClock) (now : Stamp) (providerId : String)
    (table : List Provider) : List Provider :=
  Table.updateFirst (fun p => p.id == providerId)
    (fun p => flush clk p (autoSkipWrites now p)) table

/-! ## What a flush does to the stamp -/

theorem flush_lastUserEditAt (clk : FlushClock) (old new : Provider) :
    (flush clk old new).lastUserEditAt =
      if new.lastUserEditAt ≠ old.lastUserEditAt then new.lastUserEditAt
      else if new.userColumns ≠ old.userColumns then some clk.unix
      else old.lastUserEditAt := by
  unfold flush
  by_cases h : new = old
  · rw [if_pos h, h]
    simp
  · rw [if_neg h]
    dsimp only
    by_cases hs : new.lastUserEditAt = old.lastUserEditAt
    · simp only [hs, ne_eq, not_true, if_false]
    · simp only [ne_eq, hs, not_false_iff, if_true]

/-- A write that leaves the stamp alone keeps it, at every clock, exactly when it changes
background columns only. -/
theorem flush_keeps_stamp_iff {old new : Provider}
    (hstamp : new.lastUserEditAt = old.lastUserEditAt) :
    (∀ clk, (flush clk old new).lastUserEditAt = old.lastUserEditAt) ↔
      new.userColumns = old.userColumns := by
  constructor
  · intro h
    by_contra hcols
    -- a clock that reads anything but the stamp the row has
    have hclk := h ⟨0, old.lastUserEditAt.getD 0 + 1⟩
    rw [flush_lastUserEditAt, if_neg (by simp [hstamp]), if_pos hcols] at hclk
    cases hold : old.lastUserEditAt with
    | none =>
      rw [hold] at hclk
      cases hclk
    | some s =>
      rw [hold] at hclk
      exact absurd (Option.some.inj hclk) (ne_of_gt (Int.lt_succ s))
  · intro h clk
    rw [flush_lastUserEditAt, if_neg (by simp [hstamp]), if_neg (by simp [h])]

/-- The auto-skip finds nothing to write: the provider keeps per-node sessions, is skipped
for longer already, or has this very skip. -/
def Provider.autoSkipMoot (p : Provider) (now : Stamp) : Prop :=
  p.nodeLocalSession = true ∨ p.skippedBeyond (autoSkipWindow now) = true ∨
    (p.autoSkipUntil = some (autoSkipWindow now) ∧
      p.autoSkipReason = some "persistent_auth_failure")

theorem autoSkipWrites_stamp (now : Stamp) (p : Provider) :
    (autoSkipWrites now p).lastUserEditAt = p.lastUserEditAt := by
  unfold autoSkipWrites
  split
  · rfl
  · split <;> rfl

theorem autoSkipWrites_userColumns_iff {now : Stamp} {p : Provider} :
    (autoSkipWrites now p).userColumns = p.userColumns ↔ p.autoSkipMoot now := by
  unfold autoSkipWrites Provider.autoSkipMoot
  by_cases hnode : p.nodeLocalSession = true
  · simp [hnode]
  by_cases hbeyond : p.skippedBeyond (autoSkipWindow now) = true
  · simp [hbeyond]
  rw [if_neg hnode, if_neg hbeyond]
  constructor
  · intro h
    have huntil := congrArg Provider.autoSkipUntil h
    have hreason := congrArg Provider.autoSkipReason h
    exact Or.inr (Or.inr ⟨huntil.symm, hreason.symm⟩)
  · rintro (h | h | ⟨huntil, hreason⟩)
    · exact absurd h hnode
    · exact absurd h hbeyond
    unfold Provider.userColumns
    rw [huntil, hreason]

theorem moveRow_stamp_iff {table : List Provider} {p : Provider} :
    (∀ clk, (moveRow clk (tieMoves table) p).lastUserEditAt = p.lastUserEditAt) ↔
      ∀ m ∈ tieMoves table, m.1 ≠ p := by
  unfold moveRow
  cases hfind : (tieMoves table).find? (fun m => m.1 == p) with
  | none =>
    rw [List.find?_eq_none] at hfind
    simp only [implies_true, true_iff]
    intro m hm heq
    exact hfind m hm (beq_iff_eq.mpr heq)
  | some m =>
    have hm := List.mem_of_find?_eq_some hfind
    have heq : m.1 = p := by simpa using List.find?_some hfind
    refine Iff.trans (@flush_keeps_stamp_iff p { p with priority := m.2 } rfl) ?_
    constructor
    · intro hcols
      -- the new priority is above the old one
      have hlt := (tieMoves_moves hm).2
      have hsame : m.2 = p.priority := congrArg Provider.priority hcols
      rw [heq] at hlt
      omega
    · intro hnone
      exact absurd heq (hnone m hm)

/-! ## The merge -/

/-- The merge changes a column the operator owns and leaves the stamp as it was. -/
def SilentEdit (r : PeerProvider) (e : Provider) : Prop :=
  if r.deletedAt.isSome ∧ e.deletedAt = none then e.enabled = true
  else deletionOutranks r e = false ∧ acceptsEdit r e = true ∧
    (r.lastUserEditAt = none ∨ r.lastUserEditAt = e.lastUserEditAt) ∧
    (takeFields r e).userColumns ≠ e.userColumns

/-- Stamps in order of rank: an unstamped row is below every stamped one. -/
def rank : Option EditStamp → WithBot EditStamp
  | none => ⊥
  | some s => s

theorem acceptsEdit_unstamped {r : PeerProvider} {e : Provider} (h : acceptsEdit r e = true)
    (hr : r.lastUserEditAt = none) : e.lastUserEditAt = none := by
  cases he : e.lastUserEditAt with
  | none => rfl
  | some l =>
    unfold acceptsEdit at h
    rw [hr, he] at h
    cases h

theorem exists_outranking (a b : Option EditStamp) :
    ∃ s, ¬ rank (some s) ≤ max (rank a) (rank b) := by
  refine ⟨max (a.getD 0) (b.getD 0) + 1, ?_⟩
  have habove : ∀ c : Option EditStamp, c.getD 0 ≤ max (a.getD 0) (b.getD 0) →
      rank c < rank (some (max (a.getD 0) (b.getD 0) + 1)) := by
    intro c hc
    cases c with
    | none => exact WithBot.bot_lt_coe _
    | some s => exact WithBot.coe_lt_coe.mpr (Int.lt_add_one_of_le hc)
  rw [not_le]
  exact max_lt (habove a (le_max_left _ _)) (habove b (le_max_right _ _))

/-- A write that leaves the stamp alone stays within a bound, at every clock, exactly when
it changes background columns only. -/
theorem flush_rank_le_iff {old new : Provider} (b : Option EditStamp)
    (hstamp : new.lastUserEditAt = old.lastUserEditAt) :
    (∀ clk, rank (flush clk old new).lastUserEditAt ≤ max (rank old.lastUserEditAt) (rank b)) ↔
      new.userColumns = old.userColumns := by
  constructor
  · intro h
    by_contra hcols
    obtain ⟨s, hs⟩ := exists_outranking old.lastUserEditAt b
    have hclk := h ⟨0, s⟩
    rw [flush_lastUserEditAt, if_neg (by simp [hstamp]), if_pos hcols] at hclk
    exact hs hclk
  · intro h clk
    rw [(flush_keeps_stamp_iff hstamp).mpr h clk]
    exact le_max_left _ _

theorem merge_rank_le_iff (r : PeerProvider) (e : Provider) :
    (∀ clk, rank (mergeProvider clk r e).lastUserEditAt ≤
        max (rank e.lastUserEditAt) (rank r.lastUserEditAt)) ↔ ¬ SilentEdit r e := by
  unfold mergeProvider mergeProviderRow SilentEdit
  simp only [Bool.and_eq_true, Option.isNone_iff_eq_none]
  by_cases hdead : r.deletedAt.isSome = true ∧ e.deletedAt = none
  · -- the tombstone: of the user columns it touches `enabled` alone
    simp only [if_pos hdead]
    refine Iff.trans (flush_rank_le_iff r.lastUserEditAt ?_) ?_
    · rfl
    rw [Bool.not_eq_true]
    constructor
    · intro hcols
      exact (congrArg Provider.enabled hcols).symm
    · intro hoff
      unfold Provider.userColumns
      rw [hoff]
  simp only [if_neg hdead]
  have hsame : ∀ clk, rank (flush clk e e).lastUserEditAt ≤
      max (rank e.lastUserEditAt) (rank r.lastUserEditAt) :=
    (flush_rank_le_iff r.lastUserEditAt rfl).mpr rfl
  cases hout : deletionOutranks r e with
  | true => simpa using hsame
  | false =>
    cases hacc : acceptsEdit r e with
    | false => simpa using hsame
    | true =>
      simp only [Bool.false_eq_true, if_false, if_true, true_and]
      by_cases hstamp : (takeFields r e).lastUserEditAt = e.lastUserEditAt
      · -- the accepted row brings no stamp, or the one that is there
        have hsilent : r.lastUserEditAt = none ∨ r.lastUserEditAt = e.lastUserEditAt := by
          cases hr : r.lastUserEditAt with
          | none => exact Or.inl rfl
          | some s =>
            right
            rw [← hstamp]
            show some s = r.lastUserEditAt.orElse fun _ => e.lastUserEditAt
            rw [hr]
            rfl
        rw [flush_rank_le_iff r.lastUserEditAt hstamp]
        simp [hsilent]
      · have hpeer : (takeFields r e).lastUserEditAt = r.lastUserEditAt := by
          cases hr : r.lastUserEditAt with
          | none =>
            refine absurd ?_ hstamp
            show (r.lastUserEditAt.orElse fun _ => e.lastUserEditAt) = e.lastUserEditAt
            rw [hr]
            rfl
          | some s =>
            show (r.lastUserEditAt.orElse fun _ => e.lastUserEditAt) = some s
            rw [hr]
            rfl
        have hle : ∀ clk, rank (flush clk e (takeFields r e)).lastUserEditAt ≤
            max (rank e.lastUserEditAt) (rank r.lastUserEditAt) := by
          intro clk
          rw [flush_lastUserEditAt, if_pos hstamp, hpeer]
          exact le_max_right _ _
        have hnot : ¬ (r.lastUserEditAt = none ∨ r.lastUserEditAt = e.lastUserEditAt) := by
          rintro (hr | hr)
          · exact hstamp (by rw [hpeer, hr, acceptsEdit_unstamped hacc hr])
          · exact hstamp (by rw [hpeer, hr])
        simp [hle, hnot]

/-! ## Runs of merges and jobs -/

/-- What changes a node's provider table while no operator touches it. -/
inductive Job where
  | merge (clk : FlushClock) (r : PeerProvider)
  | normalize (clk : FlushClock)
  | autoSkip (clk : FlushClock) (now : Stamp) (providerId : String)

def runJob (table : List Provider) : Job → List Provider
  | .merge clk r => applyProvider clk table r
  | .normalize clk => (normalizePriorityTies clk table).1
  | .autoSkip clk now providerId => persistAutoSkip clk now providerId table

/-- The job dates no edit. -/
def Quiet (table : List Provider) : Job → Prop
  | .merge _ r => ∀ e, Table.target (providerKeys r) table = some e → ¬ SilentEdit r e
  | .normalize _ =>
    (table.filter Provider.routable).Pairwise fun a b => a.priority ≠ b.priority
  | .autoSkip _ now providerId =>
    ∀ p, table.find? (fun p => p.id == providerId) = some p → p.autoSkipMoot now

theorem normalize_stamps_iff (table : List Provider) :
    (∀ clk, (normalizePriorityTies clk table).1.map Provider.lastUserEditAt =
        table.map Provider.lastUserEditAt) ↔
      (table.filter Provider.routable).Pairwise fun a b => a.priority ≠ b.priority := by
  rw [← tieMoves_eq_nil_iff]
  unfold normalizePriorityTies
  simp only [List.map_map, List.map_inj_left, Function.comp_apply]
  constructor
  · intro h
    rw [List.eq_nil_iff_forall_not_mem]
    intro m hm
    have hrow := fun clk => h clk m.1 (tieMoves_moves hm).1
    exact moveRow_stamp_iff.mp hrow m hm rfl
  · intro h clk p _
    refine moveRow_stamp_iff.mpr (fun m hm => ?_) clk
    rw [h] at hm
    cases hm

theorem autoSkip_stamps_iff (now : Stamp) (providerId : String) (table : List Provider) :
    (∀ clk, (persistAutoSkip clk now providerId table).map Provider.lastUserEditAt =
        table.map Provider.lastUserEditAt) ↔
      ∀ p, table.find? (fun p => p.id == providerId) = some p → p.autoSkipMoot now := by
  unfold persistAutoSkip
  simp only [Table.map_updateFirst_eq_iff]
  constructor
  · intro h p hp
    rw [← autoSkipWrites_userColumns_iff,
      ← flush_keeps_stamp_iff (autoSkipWrites_stamp now p)]
    exact fun clk => h clk p hp
  · intro h clk p hp
    exact (flush_keeps_stamp_iff (autoSkipWrites_stamp now p)).mpr
      (autoSkipWrites_userColumns_iff.mpr (h p hp)) clk

theorem runJob_rank_le {table : List Provider} {job : Job} {b : WithBot EditStamp}
    (hquiet : Quiet table job) (htable : ∀ p ∈ table, rank p.lastUserEditAt ≤ b)
    (hpeer : ∀ clk r, job = .merge clk r → rank r.lastUserEditAt ≤ b) :
    ∀ p ∈ runJob table job, rank p.lastUserEditAt ≤ b := by
  intro p hp
  -- a job that keeps the column of stamps keeps every bound on it
  have hcolumn : ∀ table' : List Provider, table'.map Provider.lastUserEditAt =
      table.map Provider.lastUserEditAt → p ∈ table' → rank p.lastUserEditAt ≤ b := by
    intro table' hmap hmem
    have hin : p.lastUserEditAt ∈ table.map Provider.lastUserEditAt :=
      hmap ▸ List.mem_map_of_mem hmem
    obtain ⟨q, hq, hqp⟩ := List.mem_map.mp hin
    rw [← hqp]
    exact htable q hq
  cases job with
  | merge clk r =>
    rcases Table.mem_upsert hp with hold | ⟨e, he, rfl⟩ | ⟨-, hnew⟩
    · exact htable p hold
    · refine le_trans ((merge_rank_le_iff r e).mpr (hquiet e he) clk) ?_
      exact max_le (htable e (Table.target_mem he)) (hpeer clk r rfl)
    · -- a row inserted here carries the peer's stamp
      unfold insertProvider at hnew
      split at hnew
      · cases hnew
      · cases hnew
        exact hpeer clk r rfl
  | normalize clk => exact hcolumn _ ((normalize_stamps_iff table).mpr hquiet clk) hp
  | autoSkip clk now providerId =>
    exact hcolumn _ ((autoSkip_stamps_iff now providerId table).mpr hquiet clk) hp

theorem runJobs_rank_le {jobs : List Job} {table : List Provider} {b : WithBot EditStamp}
    (hquiet : Trace.Along runJob Quiet table jobs)
    (htable : ∀ p ∈ table, rank p.lastUserEditAt ≤ b)
    (hpeers : ∀ clk r, .merge clk r ∈ jobs → rank r.lastUserEditAt ≤ b) :
    ∀ p ∈ Trace.run runJob table jobs, rank p.lastUserEditAt ≤ b := by
  induction jobs generalizing table with
  | nil => exact htable
  | cons job jobs ih =>
    refine ih hquiet.2 ?_ fun clk r h => hpeers clk r (List.mem_cons_of_mem job h)
    refine runJob_rank_le hquiet.1 htable fun clk r h => hpeers clk r ?_
    rw [h]
    exact List.mem_cons_self

/-- **When a background change does not count as an admin edit.** At every clock reading:
the merge of a peer row keeps `last_user_edit_at` within the two stamps exactly when it is
no silent edit; the tie-break leaves every stamp as it is exactly when no two routable rows
share a priority; the auto-skip, exactly when it has nothing new to write. A node all of
whose merges and jobs are of that kind never holds a stamp above those it started with and
those its peers sent. -/
theorem background_stamps_iff (r : PeerProvider) (e : Provider) (table : List Provider)
    (now : Stamp) (providerId : String) (jobs : List Job) (b : WithBot EditStamp) :
    ((∀ clk, rank (mergeProvider clk r e).lastUserEditAt ≤
        max (rank e.lastUserEditAt) (rank r.lastUserEditAt)) ↔ ¬ SilentEdit r e) ∧
    ((∀ clk, (normalizePriorityTies clk table).1.map Provider.lastUserEditAt =
        table.map Provider.lastUserEditAt) ↔
      (table.filter Provider.routable).Pairwise fun a b => a.priority ≠ b.priority) ∧
    ((∀ clk, (persistAutoSkip clk now providerId table).map Provider.lastUserEditAt =
        table.map Provider.lastUserEditAt) ↔
      ∀ p, table.find? (fun p => p.id == providerId) = some p → p.autoSkipMoot now) ∧
    (Trace.Along runJob Quiet table jobs → (∀ p ∈ table, rank p.lastUserEditAt ≤ b) →
      (∀ clk r, .merge clk r ∈ jobs → rank r.lastUserEditAt ≤ b) →
      ∀ p ∈ Trace.run runJob table jobs, rank p.lastUserEditAt ≤ b) := by
  refine ⟨merge_rank_le_iff r e, normalize_stamps_iff table,
    autoSkip_stamps_iff now providerId table, ?_⟩
  intro hquiet htable hpeers
  exact runJobs_rank_le hquiet htable hpeers

/-- An operator disabled the provider on a peer at 100 and deleted it there; the row here
was last edited at 50. Merging the tombstone at 1000 dates an edit at 1000. The tie-break
and the auto-skip date one as well. -/
theorem background_counts_as_edit :
    let row : Provider :=
      { id := "p1", name := "a", providerType := "openai", lastUserEditAt := some 50 }
    let twin : Provider := { row with id := "p2", name := "b" }
    let peer : PeerProvider :=
      { id := "p1", name := "a", providerType := "openai", enabled := some false
        deletedAt := some 7, lastUserEditAt := some 100 }
    (mergeProvider ⟨0, 1000⟩ peer row).lastUserEditAt = some 1000 ∧
      ¬ rank (some 1000) ≤ max (rank row.lastUserEditAt) (rank peer.lastUserEditAt) ∧
      (normalizePriorityTies ⟨0, 1000⟩ [row, twin]).1.map Provider.lastUserEditAt =
        [some 50, some 1000] ∧
      (persistAutoSkip ⟨0, 1000⟩ 0 "p1" [row]).map Provider.lastUserEditAt = [some 1000] := by
  decide +kernel

end LlmProxy.Providers
