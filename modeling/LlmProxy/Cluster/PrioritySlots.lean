import LlmProxy.Cluster.PriorityOrder
import LlmProxy.Providers.Admin

/-! # The least slots

`normalize_priority_ties` and `_bump_priority_conflicts` (`app/api/providers.py`). The rows come in
the order of their priorities, and everything from the priority of the row to the last slot given
is taken; so the next slot is the priority of the row or the one above the last, whichever is
higher, and none below it would do.

> `priority_slots_right`: the tie-break gives the least distinct priorities that keep the order, and
> an insertion moves the rows of one run by one.

Mirroring notes.
* `by_priority` is read through the rows: a bucket is gone through before the rows of the next
  priority, and never again.
* `_bump_priority_conflicts` is followed by the flush of the call it is made in.
-/

namespace LlmProxy.Cluster

open LlmProxy.Providers Ranking

/-! ## Slots of a sorted list -/

theorem mem_of_lt_nextFree {seen : List Int} {n : Nat} {p q : Int} (hle : p ≤ q)
    (hlt : q < nextFree seen n p) : q ∈ seen := by
  induction n generalizing p with
  | zero =>
    unfold nextFree at hlt
    omega
  | succ n ih =>
    unfold nextFree at hlt
    split at hlt
    · next hp =>
      by_cases heq : p = q
      · exact heq ▸ hp
      · exact ih (by omega) hlt
    · omega

/-- The slots above a slot: each is the priority of its row, or the one above the last. -/
def climb (top : Int) : List Int → List Int
  | [] => []
  | p :: ps => max p (top + 1) :: climb (max p (top + 1)) ps

theorem slots_eq_climb {seen ps : List Int} {low top : Int} (hsorted : ps.Pairwise (· ≤ ·))
    (hlow : ∀ p ∈ ps, low ≤ p) (hfull : ∀ q, low ≤ q → q ≤ top → q ∈ seen)
    (htop : ∀ s ∈ seen, s ≤ top) : slots seen ps = climb top ps := by
  induction ps generalizing seen low top with
  | nil => rfl
  | cons p ps ih =>
    obtain ⟨hp, hps⟩ := List.forall_mem_cons.mp hlow
    obtain ⟨habove, hrest⟩ := List.pairwise_cons.mp hsorted
    have hslot : (if p ∈ seen then nextFree seen seen.length p else p) = max p (top + 1) := by
      split
      · next hmem =>
        have hfree := nextFree_not_mem seen p
        have hge := le_nextFree seen seen.length p
        have hnot : ¬ nextFree seen seen.length p ≤ top := fun hle => hfree (hfull _ (by omega) hle)
        have hnext : ¬ top + 1 < nextFree seen seen.length p := by
          intro hlt
          have := htop _ (mem_of_lt_nextFree (by have := htop p hmem; omega) hlt)
          omega
        have := htop p hmem
        omega
      · next hmem =>
        have hnot : ¬ p ≤ top := fun hle => hmem (hfull p hp hle)
        omega
    have hcons : slots seen (p :: ps) = (if p ∈ seen then nextFree seen seen.length p else p) ::
        slots ((if p ∈ seen then nextFree seen seen.length p else p) :: seen) ps := rfl
    rw [hcons, hslot, climb]
    congr 1
    refine ih hrest habove (fun q hpq hq => ?_) fun s hs => ?_
    · by_cases hle : q ≤ top
      · exact List.mem_cons_of_mem _ (hfull q (by omega) hle)
      · rw [show q = max p (top + 1) by omega]
        exact List.mem_cons_self
    · rcases List.mem_cons.mp hs with rfl | hs
      · exact le_refl _
      · have := htop s hs
        omega

theorem climb_rises (top : Int) (ps : List Int) :
    (∀ s ∈ climb top ps, top < s) ∧ (climb top ps).Pairwise (· < ·) := by
  induction ps generalizing top with
  | nil => exact ⟨fun _ h => absurd h List.not_mem_nil, List.Pairwise.nil⟩
  | cons p ps ih =>
    obtain ⟨habove, hrises⟩ := ih (max p (top + 1))
    unfold climb
    refine ⟨fun s hs => ?_, List.pairwise_cons.mpr ⟨habove, hrises⟩⟩
    rcases List.mem_cons.mp hs with rfl | hs
    · omega
    · have := habove s hs
      omega

section

variable {α : Type _} {prio f : α → Int}

theorem le_climb {xs : List α} {top : Int} :
    ∀ e ∈ xs.zip (climb top (xs.map prio)), prio e.1 ≤ e.2 := by
  induction xs generalizing top with
  | nil => exact fun _ h => absurd h List.not_mem_nil
  | cons x xs ih =>
    intro e he
    rw [List.map_cons, climb, List.zip_cons_cons] at he
    rcases List.mem_cons.mp he with rfl | he
    · exact le_max_left _ _
    · exact ih e he

theorem climb_least {xs : List α} {top : Int} (hf : ∀ x ∈ xs, prio x ≤ f x ∧ top < f x)
    (hrises : xs.Pairwise fun x y => f x < f y) :
    ∀ e ∈ xs.zip (climb top (xs.map prio)), e.2 ≤ f e.1 := by
  induction xs generalizing top with
  | nil => exact fun _ h => absurd h List.not_mem_nil
  | cons x xs ih =>
    obtain ⟨⟨hprio, htop⟩, hrest⟩ := List.forall_mem_cons.mp hf
    obtain ⟨habove, hxs⟩ := List.pairwise_cons.mp hrises
    have hslot : max (prio x) (top + 1) ≤ f x := max_le hprio htop
    intro e he
    rw [List.map_cons, climb, List.zip_cons_cons] at he
    rcases List.mem_cons.mp he with rfl | he
    · exact hslot
    · exact ih (fun y hy => ⟨(hrest y hy).1, hslot.trans_lt (habove y hy)⟩) hxs e he

end

/-! ## The tie-break -/

/-- The order of the loop, strictly. -/
def Before (a b : Provider) : Prop :=
  a.priority < b.priority ∨ a.priority = b.priority ∧
    (a.createdAt < b.createdAt ∨ a.createdAt = b.createdAt ∧ a.id < b.id)

theorem Before.asymm {a b : Provider} (hab : Before a b) (hba : Before b a) : False := by
  rcases hab with hlt | ⟨hprio, hlt | ⟨hstamp, hid⟩⟩
  · rcases hba with hlt' | ⟨hprio', -⟩
    · exact lt_asymm hlt hlt'
    · exact hlt.ne' hprio'
  · rcases hba with hlt' | ⟨-, hlt' | ⟨hstamp', -⟩⟩
    · exact hlt'.ne' hprio
    · exact lt_asymm hlt hlt'
    · exact hlt.ne' hstamp'
  · rcases hba with hlt' | ⟨-, hlt' | ⟨-, hid'⟩⟩
    · exact hlt'.ne' hprio
    · exact hlt'.ne' hstamp
    · exact lt_asymm hid hid'

def afterTies (clk : FlushClock) (table : List Provider) (p : Provider) : Provider :=
  moveRow clk (tieMoves table) p

/-- Distinct priorities, in the order of the rows, and the least of that kind. -/
structure NormalizeRight (clk : FlushClock) (table : List Provider) : Prop where
  rows : (normalizePriorityTies clk table).1 = table.map (afterTies clk table)
  distinct : (((normalizePriorityTies clk table).1.filter Provider.routable).map
    Provider.priority).Nodup
  keepsOrder : ∀ p ∈ table, ∀ q ∈ table, p.routable = true → q.routable = true → Before p q →
    (afterTies clk table p).priority < (afterTies clk table q).priority
  noneLower : ∀ p ∈ table, p.priority ≤ (afterTies clk table p).priority
  least : ∀ f : Provider → Int, (∀ p ∈ table, p.routable = true → p.priority ≤ f p) →
    (∀ p ∈ table, ∀ q ∈ table, p.routable = true → q.routable = true → Before p q → f p < f q) →
    ∀ p ∈ table, p.routable = true → (afterTies clk table p).priority ≤ f p
  again : ∀ clk', normalizePriorityTies clk' (normalizePriorityTies clk table).1 =
    ((normalizePriorityTies clk table).1, 0)

section

variable {clk : FlushClock} {table : List Provider} (hids : (table.map Provider.id).Nodup)
include hids

theorem ranked_before : (ranked table).Pairwise Before := by
  have hne := (ranked_nodup hids).and (ranked_sorted table)
  refine hne.imp_of_mem fun {a b} ha hb hab => ?_
  obtain ⟨hdiff, horder⟩ := hab
  rcases tieOrder_iff.mp horder with hlt | ⟨heq, hlt | ⟨hstamp, hid⟩⟩
  · exact .inl hlt
  · exact .inr ⟨heq, .inl hlt⟩
  · refine .inr ⟨heq, .inr ⟨hstamp, lt_of_le_of_ne hid fun hsame => hdiff ?_⟩⟩
    exact eq_of_id hids (mem_ranked.mp ha).1 (mem_ranked.mp hb).1 hsame

omit hids in
theorem rankedSlots_eq_climb :
    ∃ low, (∀ p ∈ ranked table, low ≤ p.priority) ∧
      rankedSlots table = climb (low - 1) ((ranked table).map Provider.priority) := by
  have hsorted : ((ranked table).map Provider.priority).Pairwise (· ≤ ·) :=
    List.pairwise_map.mpr ((ranked_sorted table).imp tieOrder_priority)
  have hlow : ∃ low, ∀ p ∈ (ranked table).map Provider.priority, low ≤ p := by
    cases hps : (ranked table).map Provider.priority with
    | nil => exact ⟨0, fun _ h => absurd h List.not_mem_nil⟩
    | cons p ps =>
      rw [hps] at hsorted
      refine ⟨p, fun q hq => ?_⟩
      rcases List.mem_cons.mp hq with rfl | hq
      · exact le_refl _
      · exact (List.pairwise_cons.mp hsorted).1 q hq
  obtain ⟨low, hlow⟩ := hlow
  refine ⟨low, fun p hp => hlow _ (List.mem_map_of_mem hp), ?_⟩
  exact slots_eq_climb hsorted hlow (fun q hq hq' => absurd hq' (by omega)) fun _ h =>
    absurd h List.not_mem_nil

theorem afterTies_slots :
    (ranked table).map (fun p => (afterTies clk table p).priority) = rankedSlots table :=
  map_eq_slots (length_rankedSlots table).symm fun _ he => moveRow_slot hids he

theorem afterTies_rises : (ranked table).Pairwise fun p q =>
    (afterTies clk table p).priority < (afterTies clk table q).priority := by
  obtain ⟨low, -, hclimb⟩ := @rankedSlots_eq_climb table
  have hrises := (climb_rises (low - 1) ((ranked table).map Provider.priority)).2
  rw [← hclimb, ← @afterTies_slots clk _ hids] at hrises
  exact List.pairwise_map.mp hrises

theorem afterTies_keepsOrder {p q : Provider} (hp : p ∈ ranked table) (hq : q ∈ ranked table)
    (h : Before p q) : (afterTies clk table p).priority < (afterTies clk table q).priority := by
  have hboth := (ranked_before hids).and (@afterTies_rises clk _ hids)
  have hall : ∀ ⦃a⦄, a ∈ ranked table → ∀ ⦃b⦄, b ∈ ranked table → Before a b →
      (afterTies clk table a).priority < (afterTies clk table b).priority :=
    List.Pairwise.forall_of_forall_of_flip (fun _ _ haa => (haa.asymm haa).elim)
      (hboth.imp fun hab _ => hab.2) (hboth.imp fun hab hba => (hab.1.asymm hba).elim)
  exact hall hp hq h

theorem le_afterTies {p : Provider} (hp : p ∈ table) :
    p.priority ≤ (afterTies clk table p).priority := by
  cases hroutable : p.routable with
  | false =>
    unfold afterTies
    rw [moveRow_unranked hroutable]
  | true =>
    obtain ⟨slot, hslot⟩ := exists_slot (mem_ranked.mpr ⟨hp, hroutable⟩)
    obtain ⟨low, -, hclimb⟩ := @rankedSlots_eq_climb table
    unfold afterTies
    rw [moveRow_slot hids hslot]
    rw [hclimb] at hslot
    exact le_climb _ hslot

theorem afterTies_least {f : Provider → Int}
    (hf : ∀ p ∈ table, p.routable = true → p.priority ≤ f p)
    (hrises : ∀ p ∈ table, ∀ q ∈ table, p.routable = true → q.routable = true → Before p q →
      f p < f q) {p : Provider} (hp : p ∈ ranked table) :
    (afterTies clk table p).priority ≤ f p := by
  obtain ⟨slot, hslot⟩ := exists_slot hp
  obtain ⟨low, hlow, hclimb⟩ := @rankedSlots_eq_climb table
  unfold afterTies
  rw [moveRow_slot hids hslot]
  rw [hclimb] at hslot
  refine climb_least (fun q hq => ?_) ?_ _ hslot
  · have hle := hf q (mem_ranked.mp hq).1 (mem_ranked.mp hq).2
    have := hlow q hq
    exact ⟨hle, by omega⟩
  · refine (ranked_before hids).imp_of_mem fun {a b} ha hb hab => ?_
    exact hrises a (mem_ranked.mp ha).1 b (mem_ranked.mp hb).1 (mem_ranked.mp ha).2
      (mem_ranked.mp hb).2 hab

theorem normalize_again (clk' : FlushClock) :
    normalizePriorityTies clk' (normalizePriorityTies clk table).1 =
      ((normalizePriorityTies clk table).1, 0) := by
  have hdistinct := @activePriorities_normalize _ clk hids
  refine Prod.ext (normalize_of_nodup hdistinct) ?_
  have hnone := tieMoves_eq_nil_iff.mpr (List.pairwise_map.mp hdistinct)
  unfold normalizePriorityTies at hnone ⊢
  rw [hnone]
  rfl

theorem normalize_right (clk : FlushClock) : NormalizeRight clk table where
  rows := rfl
  distinct := activePriorities_normalize hids
  keepsOrder _ hp _ hq hroutable hroutable' :=
    afterTies_keepsOrder hids (mem_ranked.mpr ⟨hp, hroutable⟩) (mem_ranked.mpr ⟨hq, hroutable'⟩)
  noneLower _ hp := le_afterTies hids hp
  least _ hf hrises _ hp hroutable :=
    afterTies_least hids hf hrises (mem_ranked.mpr ⟨hp, hroutable⟩)
  again := normalize_again hids

end

/-! ## The insertion -/

/-- The rows `_bump_priority_conflicts` goes through: all but the one that takes the slot. -/
def otherRows (excludeId : Option String) (table : List Provider) : List Provider :=
  table.filter fun p => p.id ≠ excludeId.getD ""

/-- `while current_priority in by_priority`, for at most the given number of turns: the rows
moved, each with its new priority. -/
def bumpChain (snap : List Provider) : Nat → Int → List (Provider × Int)
  | 0, _ => []
  | n + 1, current =>
    match snap.filter fun row => row.priority = current with
    | [] => []
    | row :: rows =>
      (row :: rows).map (fun row => (row, current + 1)) ++ bumpChain snap n (current + 1)

/-- The moves; each turn takes a bucket of at least one row. -/
def bumpMoves (target : Int) (excludeId : Option String) (table : List Provider) :
    List (Provider × Int) :=
  let snap := PyList.sortBy tieOrder (otherRows excludeId table)
  bumpChain snap snap.length target

/-- `_bump_priority_conflicts`, bucket by bucket: the table, and the number of rows moved. -/
def bumpConflicts (clk : FlushClock) (table : List Provider) (target : Int)
    (excludeId : Option String) : List Provider × Nat :=
  (table.map (moveRow clk (bumpMoves target excludeId table)),
    (bumpMoves target excludeId table).length)

def afterBump (clk : FlushClock) (target : Int) (excludeId : Option String) (table : List Provider)
    (p : Provider) : Provider :=
  moveRow clk (bumpMoves target excludeId table) p

/-- The rows of the run that starts at the slot move by one, and nothing else does. -/
structure BumpRight (clk : FlushClock) (target : Int) (excludeId : Option String)
    (table : List Provider) : Prop where
  rows : (bumpConflicts clk table target excludeId).1 =
    table.map (afterBump clk target excludeId table)
  clears : ∀ p ∈ otherRows excludeId table,
    (afterBump clk target excludeId table p).priority ≠ target
  distinct : ((otherRows excludeId table).map fun p =>
    (afterBump clk target excludeId table p).priority).Nodup
  keepsOrder : ∀ p ∈ otherRows excludeId table, ∀ q ∈ otherRows excludeId table,
    p.priority < q.priority →
      (afterBump clk target excludeId table p).priority <
        (afterBump clk target excludeId table q).priority
  run : ∃ k : Nat,
    (∀ i < k, target + (i : Int) ∈ (otherRows excludeId table).map Provider.priority) ∧
    target + (k : Int) ∉ (otherRows excludeId table).map Provider.priority ∧
    (bumpConflicts clk table target excludeId).2 = k ∧
    (∀ p ∈ otherRows excludeId table, target ≤ p.priority → p.priority < target + k →
      (afterBump clk target excludeId table p).priority = p.priority + 1) ∧
    ∀ p ∈ table, (p ∈ otherRows excludeId table →
      p.priority < target ∨ target + k ≤ p.priority) → afterBump clk target excludeId table p = p

section

variable {snap : List Provider} {current : Int} {n : Nat}

theorem mem_bumpChain {m : Provider × Int} :
    m ∈ bumpChain snap n current ↔ m.1 ∈ snap ∧ m.2 = m.1.priority + 1 ∧ current ≤ m.1.priority ∧
      m.1.priority < nextFree (snap.map Provider.priority) n current := by
  induction n generalizing current with
  | zero =>
    unfold bumpChain nextFree
    refine ⟨fun h => absurd h List.not_mem_nil, fun h => ?_⟩
    omega
  | succ n ih =>
    have hpresent : current ∈ snap.map Provider.priority ↔
        (snap.filter fun row => row.priority = current) ≠ [] := by
      rw [ne_eq, List.filter_eq_nil_iff, List.mem_map]
      push Not
      exact exists_congr fun p => and_congr_right fun _ => by simp
    unfold bumpChain nextFree
    cases hrows : snap.filter fun row => row.priority = current with
    | nil =>
      rw [if_neg fun h => hpresent.mp h hrows]
      refine ⟨fun h => absurd h List.not_mem_nil, fun h => ?_⟩
      omega
    | cons row rows =>
      rw [if_pos (hpresent.mpr (by rw [hrows]; exact List.cons_ne_nil _ _))]
      have hge := le_nextFree (snap.map Provider.priority) n (current + 1)
      show m ∈ (row :: rows).map (fun row => (row, current + 1)) ++ bumpChain snap n (current + 1) ↔ _
      rw [List.mem_append, ih, ← hrows, List.mem_map]
      constructor
      · rintro (⟨p, hp, rfl⟩ | ⟨hmem, hnext, hle, hlt⟩)
        · obtain ⟨hmem, hprio⟩ := List.mem_filter.mp hp
          have hat : p.priority = current := of_decide_eq_true hprio
          refine ⟨hmem, ?_, hat.ge, ?_⟩
          · show current + 1 = p.priority + 1
            rw [hat]
          · show p.priority < _
            omega
        · exact ⟨hmem, hnext, by omega, hlt⟩
      · rintro ⟨hmem, hnext, hle, hlt⟩
        by_cases hat : m.1.priority = current
        · refine .inl ⟨m.1, List.mem_filter.mpr ⟨hmem, decide_eq_true hat⟩, ?_⟩
          rw [← hat, ← hnext]
        · exact .inr ⟨hmem, hnext, by omega, hlt⟩

theorem length_bumpChain (hdistinct : (snap.map Provider.priority).Nodup) :
    ((bumpChain snap n current).length : Int) =
      nextFree (snap.map Provider.priority) n current - current := by
  induction n generalizing current with
  | zero =>
    unfold bumpChain nextFree
    rw [List.length_nil]
    omega
  | succ n ih =>
    have hcount : (snap.filter fun row => row.priority = current).length =
        (snap.map Provider.priority).count current := by
      rw [List.count_eq_countP, List.countP_map, List.countP_eq_length_filter]
      rfl
    unfold bumpChain nextFree
    cases hrows : snap.filter fun row => row.priority = current with
    | nil =>
      rw [hrows, List.length_nil, eq_comm, List.count_eq_zero] at hcount
      rw [if_neg hcount, List.length_nil]
      omega
    | cons row rows =>
      have hmem : current ∈ snap.map Provider.priority := by
        by_contra hnot
        rw [List.count_eq_zero.mpr hnot, hrows] at hcount
        cases hcount
      rw [List.count_eq_one_of_mem hdistinct hmem, hrows] at hcount
      rw [if_pos hmem]
      show (((row :: rows).map (fun row => (row, current + 1)) ++
        bumpChain snap n (current + 1)).length : Int) = _
      rw [List.length_append, List.length_map, hcount, Nat.cast_add, ih]
      omega

end

section

variable {clk : FlushClock} {table : List Provider} {target : Int} {excludeId : Option String}

def taken (excludeId : Option String) (table : List Provider) : List Int :=
  (PyList.sortBy tieOrder (otherRows excludeId table)).map Provider.priority

theorem mem_taken {q : Int} : q ∈ taken excludeId table ↔
    q ∈ (otherRows excludeId table).map Provider.priority :=
  (PyList.sortBy_perm.map Provider.priority).mem_iff

/-- The first slot at or above the target that is free. -/
def freeSlot (target : Int) (excludeId : Option String) (table : List Provider) : Int :=
  nextFree (taken excludeId table) (taken excludeId table).length target

theorem mem_bumpMoves {m : Provider × Int} : m ∈ bumpMoves target excludeId table ↔
    m.1 ∈ otherRows excludeId table ∧ m.2 = m.1.priority + 1 ∧ target ≤ m.1.priority ∧
      m.1.priority < freeSlot target excludeId table := by
  unfold bumpMoves freeSlot taken
  rw [mem_bumpChain, PyList.mem_sortBy, List.length_map]

theorem afterBump_row {p : Provider} (hp : p ∈ otherRows excludeId table)
    (hle : target ≤ p.priority) (hlt : p.priority < freeSlot target excludeId table) :
    afterBump clk target excludeId table p = flush clk p { p with priority := p.priority + 1 } := by
  have hmove : (p, p.priority + 1) ∈ bumpMoves target excludeId table :=
    mem_bumpMoves.mpr ⟨hp, rfl, hle, hlt⟩
  unfold afterBump
  cases hfind : (bumpMoves target excludeId table).find? fun m => m.1 == p with
  | none => exact absurd (beq_self_eq_true p) (List.find?_eq_none.mp hfind _ hmove)
  | some m =>
    have hfound := List.find?_some hfind
    have hm : m.1 = p := eq_of_beq hfound
    rw [moveRow_some hfind, (mem_bumpMoves.mp (List.mem_of_find?_eq_some hfind)).2.1, hm]

theorem afterBump_of_mem {p : Provider} (hp : p ∈ otherRows excludeId table)
    (hle : target ≤ p.priority) (hlt : p.priority < freeSlot target excludeId table) :
    (afterBump clk target excludeId table p).priority = p.priority + 1 := by
  rw [afterBump_row hp hle hlt, flush_priority]

theorem afterBump_of_not {p : Provider}
    (h : p ∈ otherRows excludeId table →
      p.priority < target ∨ freeSlot target excludeId table ≤ p.priority) :
    afterBump clk target excludeId table p = p := by
  refine moveRow_none (List.find?_eq_none.mpr fun m hm heq => ?_)
  obtain ⟨hmem, -, hle, hlt⟩ := mem_bumpMoves.mp hm
  rw [eq_of_beq heq] at hmem hle hlt
  have := h hmem
  omega

theorem afterBump_cases {p : Provider} (hp : p ∈ otherRows excludeId table) :
    (target ≤ p.priority ∧ p.priority < freeSlot target excludeId table ∧
      (afterBump clk target excludeId table p).priority = p.priority + 1) ∨
    ((p.priority < target ∨ freeSlot target excludeId table < p.priority) ∧
      (afterBump clk target excludeId table p).priority = p.priority) := by
  have hfree : p.priority ≠ freeSlot target excludeId table := by
    intro heq
    refine nextFree_not_mem (taken excludeId table) target ?_
    exact mem_taken.mpr (List.mem_map.mpr ⟨p, hp, heq⟩)
  by_cases hin : target ≤ p.priority ∧ p.priority < freeSlot target excludeId table
  · exact .inl ⟨hin.1, hin.2, afterBump_of_mem hp hin.1 hin.2⟩
  · refine .inr ⟨by omega, ?_⟩
    rw [afterBump_of_not fun _ => by omega]

theorem bump_keepsOrder {p q : Provider} (hp : p ∈ otherRows excludeId table)
    (hq : q ∈ otherRows excludeId table) (hlt : p.priority < q.priority) :
    (afterBump clk target excludeId table p).priority <
      (afterBump clk target excludeId table q).priority := by
  have hpcases := @afterBump_cases clk _ target _ _ hp
  have hqcases := @afterBump_cases clk _ target _ _ hq
  omega

theorem nextFree_enough {seen : List Int} {n m : Nat} {p : Int} (hle : n ≤ m)
    (h : nextFree seen n p ∉ seen) : nextFree seen m p = nextFree seen n p := by
  induction n generalizing m p with
  | zero =>
    cases m with
    | zero => rfl
    | succ m => exact if_neg h
  | succ n ih =>
    obtain ⟨m, rfl⟩ : ∃ m', m = m' + 1 := ⟨m - 1, by omega⟩
    unfold nextFree at h ⊢
    split
    · next hp =>
      rw [if_pos hp] at h
      exact ih (Nat.le_of_succ_le_succ hle) h
    · rfl

theorem firstFree_eq_nextFree {held : Int → Bool} {seen : List Int}
    (h : ∀ q, held q = true ↔ q ∈ seen) (n : Nat) (p : Int) :
    Providers.firstFree held n p = nextFree seen n p := by
  induction n generalizing p with
  | zero => rfl
  | succ n ih =>
    unfold Providers.firstFree nextFree
    by_cases hp : p ∈ seen
    · rw [if_pos ((h p).mpr hp), if_pos hp, ih]
    · rw [if_neg (mt (h p).mp hp), if_neg hp]

theorem mayMove_iff {p : Provider} (hp : p ∈ table) :
    mayMove excludeId p = true ↔ p ∈ otherRows excludeId table := by
  unfold otherRows mayMove
  rw [List.mem_filter, and_iff_right hp]
  cases excludeId <;> rfl

theorem inTheWay_iff {p : Provider} (hp : p ∈ table) :
    inTheWay target excludeId table p = true ↔ p ∈ otherRows excludeId table ∧
      target ≤ p.priority ∧ p.priority < freeSlot target excludeId table := by
  have hheld : ∀ q : Int, (table.any fun row => mayMove excludeId row && row.priority = q) = true ↔
      q ∈ taken excludeId table := by
    intro q
    rw [mem_taken, List.any_eq_true, List.mem_map]
    constructor
    · rintro ⟨row, hrow, hmoves⟩
      rw [Bool.and_eq_true, decide_eq_true_eq] at hmoves
      exact ⟨row, (mayMove_iff hrow).mp hmoves.1, hmoves.2⟩
    · rintro ⟨row, hrow, hprio⟩
      have hmem := List.mem_of_mem_filter hrow
      refine ⟨row, hmem, ?_⟩
      rw [Bool.and_eq_true, decide_eq_true_eq]
      exact ⟨(mayMove_iff hmem).mpr hrow, hprio⟩
  have hfree : Providers.firstFree
      (fun q => table.any fun row => mayMove excludeId row && row.priority = q) table.length
        target = freeSlot target excludeId table := by
    rw [firstFree_eq_nextFree hheld]
    refine nextFree_enough ?_ (nextFree_not_mem _ _)
    unfold taken
    rw [List.length_map, PyList.sortBy_perm.length_eq]
    exact List.length_filter_le _ _
  unfold inTheWay
  dsimp only
  rw [hfree, Bool.and_eq_true, Bool.and_eq_true, decide_eq_true_eq, decide_eq_true_eq,
    mayMove_iff hp, and_assoc]

/-- **The buckets** move the rows that stand in the way. -/
theorem bumpConflicts_table (clk : FlushClock) (table : List Provider) (target : Int)
    (excludeId : Option String) : (bumpConflicts clk table target excludeId).1 =
      bumpPriorityConflicts clk target excludeId table := by
  refine List.map_congr_left fun p hp => ?_
  show afterBump clk target excludeId table p = _
  cases hway : inTheWay target excludeId table p with
  | true =>
    obtain ⟨hother, hle, hlt⟩ := (inTheWay_iff hp).mp hway
    rw [if_pos rfl]
    exact afterBump_row hother hle hlt
  | false =>
    rw [if_neg Bool.false_ne_true]
    refine afterBump_of_not fun hother => ?_
    by_cases hle : target ≤ p.priority
    · refine .inr (not_lt.mp fun hlt => ?_)
      have hway' := (inTheWay_iff hp).mpr ⟨hother, hle, hlt⟩
      rw [hway] at hway'
      cases hway'
    · exact .inl (not_le.mp hle)

theorem bump_right (hdistinct : ((otherRows excludeId table).map Provider.priority).Nodup) :
    BumpRight clk target excludeId table where
  rows := rfl
  clears p hp := by
    have hge : target ≤ freeSlot target excludeId table := le_nextFree _ _ _
    have hcases := @afterBump_cases clk _ target _ _ hp
    omega
  distinct := by
    refine List.pairwise_map.mpr ((List.pairwise_map.mp hdistinct).imp_of_mem ?_)
    intro p q hp hq hne
    rcases lt_or_gt_of_ne hne with hlt | hlt
    · exact (bump_keepsOrder hp hq hlt).ne
    · exact (bump_keepsOrder hq hp hlt).ne'
  keepsOrder _ hp _ hq hlt := bump_keepsOrder hp hq hlt
  run := by
    have hge : target ≤ freeSlot target excludeId table := le_nextFree _ _ _
    have hcount : ((bumpMoves target excludeId table).length : Int) =
        freeSlot target excludeId table - target := by
      have hnodup : (taken excludeId table).Nodup :=
        (PyList.sortBy_perm.map Provider.priority).nodup_iff.mpr hdistinct
      have hlength := @length_bumpChain _ target (taken excludeId table).length hnodup
      unfold taken at hlength
      rw [List.length_map] at hlength
      unfold freeSlot taken
      rw [List.length_map]
      exact hlength
    refine ⟨(bumpMoves target excludeId table).length, fun i hi => ?_, ?_, rfl,
      fun p hp hle hlt => ?_, fun p _ hout => ?_⟩
    · have hbelow : target + (i : Int) < freeSlot target excludeId table := by omega
      exact mem_taken.mp (mem_of_lt_nextFree (by omega) hbelow)
    · rw [hcount]
      intro hmem
      refine nextFree_not_mem (taken excludeId table) target ?_
      rw [← mem_taken] at hmem
      rwa [show target + (freeSlot target excludeId table - target) =
        freeSlot target excludeId table by omega] at hmem
    · exact afterBump_of_mem hp hle (by omega)
    · exact afterBump_of_not fun hp => by have := hout hp; omega

end

/-! ## Main theorem -/

/-- **The slots are right**: the tie-break gives each row the least it can have, and an insertion
between distinct priorities moves one run by one. -/
theorem priority_slots_right {table : List Provider} (hids : (table.map Provider.id).Nodup)
    (clk : FlushClock) :
    NormalizeRight clk table ∧
      ∀ (target : Int) (excludeId : Option String),
        ((otherRows excludeId table).map Provider.priority).Nodup →
          BumpRight clk target excludeId table :=
  ⟨normalize_right hids clk, fun _ _ hdistinct => bump_right hdistinct⟩

/-- Three providers in a row, and a fourth that asks for the place of the second. -/
def fourRows : List Provider :=
  [{ tied "a" 1 with priority := 1 }, tied "b" 2, { tied "c" 3 with priority := 3 }, tied "new" 4]

theorem priority_slots_fourRows :
    NormalizeRight ⟨9, 9⟩ fourRows ∧ BumpRight ⟨9, 9⟩ 2 (some "new") fourRows := by
  have h := @priority_slots_right fourRows (by decide) ⟨9, 9⟩
  exact ⟨h.1, h.2 2 (some "new") (by decide)⟩

example : ((bumpConflicts ⟨9, 9⟩ fourRows 2 (some "new")).1.map Provider.priority,
    (bumpConflicts ⟨9, 9⟩ fourRows 2 (some "new")).2) = ([1, 3, 4, 2], 2) := by decide

end LlmProxy.Cluster
