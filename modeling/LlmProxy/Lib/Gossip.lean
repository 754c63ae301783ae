import LlmProxy.Lib.Presence
import LlmProxy.Lib.Table
import LlmProxy.Lib.Trace

/-! # Nodes that push their tables to each other

Every node has a table. A push takes a snapshot of it, and a snapshot in the air may be delivered
to any node, late, out of order and any number of times; `receive` is what the delivery makes of
the node's table.

Of one row the tables hold a live version, a tombstone or nothing (`Presence.Held`). Where
tombstones win (`TombstoneWins`), a row that is live on a node stays live there, and is live
wherever it has been delivered, in all runs exactly if nobody holds the tombstone and none is in
the air:

> `staysLive_iff`.
> `tombstoneWins_of_merge`: tables merged row by row (`Table.mergeRow`) let tombstones win, if a
> live row takes over whether the sender's row is alive, and a live row is inserted.
-/

namespace Gossip

open Presence Trace

variable {ν τ : Type _} [DecidableEq ν]

/-- The tables, and the tables the pushes in the air were built from. -/
structure Cluster (ν τ : Type _) where
  tables : ν → τ
  sent : List τ := []

inductive Act (ν : Type _) where
  | push (source : ν)
  | deliver (snapshot : Nat) (target : ν)
  deriving DecidableEq, Repr

def Cluster.setTable (c : Cluster ν τ) (i : ν) (t : τ) : Cluster ν τ :=
  { c with tables := fun j => if j = i then t else c.tables j }

@[simp] theorem Cluster.setTable_self (c : Cluster ν τ) (i : ν) (t : τ) :
    (c.setTable i t).tables i = t := if_pos rfl

@[simp] theorem Cluster.setTable_other (c : Cluster ν τ) {i j : ν} (t : τ) (h : j ≠ i) :
    (c.setTable i t).tables j = c.tables j := if_neg h

@[simp] theorem Cluster.setTable_sent (c : Cluster ν τ) (i : ν) (t : τ) :
    (c.setTable i t).sent = c.sent := rfl

def step (receive : ν → τ → τ → τ) (c : Cluster ν τ) : Act ν → Cluster ν τ
  | .push i => { c with sent := c.sent ++ [c.tables i] }
  | .deliver k i =>
    match c.sent[k]? with
    | some s => c.setTable i (receive i (c.tables i) s)
    | none => c

/-- In the run some delivery has brought the node a snapshot that `brings` the row. -/
def Received (receive : ν → τ → τ → τ) (brings : ν → τ → Prop) (c : Cluster ν τ)
    (as : List (Act ν)) (j : ν) : Prop :=
  ∃ pre k post s, as = pre ++ .deliver k j :: post ∧
    (run (step receive) c pre).sent[k]? = some s ∧ brings j s

/-- After every run the row is live on `i` and on every node that has received it. -/
def StaysLive (receive : ν → τ → τ → τ) (held : τ → Held) (brings : ν → τ → Prop)
    (c : Cluster ν τ) (i : ν) : Prop :=
  ∀ as, held ((run (step receive) c as).tables i) = .live ∧
    ∀ j, Received receive brings c as j → held ((run (step receive) c as).tables j) = .live

/-- Nobody holds the tombstone, and none is in the air. -/
def NoTombstone (held : τ → Held) (c : Cluster ν τ) : Prop :=
  (∀ j, held (c.tables j) ≠ .dead) ∧ ∀ s ∈ c.sent, held s ≠ .dead

/-- What a delivery does to the row on the nodes that take the row in (`reads`): a live version
revives nothing and is taken where there is nothing, a tombstone deletes a live row. -/
structure TombstoneWins (receive : ν → τ → τ → τ) (held : τ → Held) (reads : ν → Prop) : Prop where
  notDead : ∀ j t s, held s ≠ .dead → held t ≠ .dead → held (receive j t s) ≠ .dead
  kept : ∀ j t s, held s ≠ .dead → held t = .live → held (receive j t s) = .live
  brought : ∀ j t s, reads j → held s = .live → held t ≠ .dead → held (receive j t s) = .live
  deleted : ∀ j t s, reads j → held s = .dead → held t = .live → held (receive j t s) = .dead

variable {receive : ν → τ → τ → τ} {held : τ → Held} {brings : ν → τ → Prop} {reads : ν → Prop}
  {c : Cluster ν τ} {i j : ν}

/-! ## One step -/

theorem step_deliver {k : Nat} {s : τ} (hk : c.sent[k]? = some s) :
    step receive c (.deliver k i) = c.setTable i (receive i (c.tables i) s) := by
  simp only [step, hk]

theorem step_deliver_none {k : Nat} (hk : c.sent[k]? = none) :
    step receive c (.deliver k i) = c := by
  simp only [step, hk]

theorem step_noTombstone (h : TombstoneWins receive held reads) (a : Act ν)
    (hc : NoTombstone held c) : NoTombstone held (step receive c a) := by
  cases a with
  | push i =>
    refine ⟨hc.1, fun s hs => ?_⟩
    rcases List.mem_append.mp hs with hs | hs
    · exact hc.2 s hs
    · rw [List.mem_singleton.mp hs]
      exact hc.1 i
  | deliver k i =>
    cases hk : c.sent[k]? with
    | none =>
      rw [step_deliver_none hk]
      exact hc
    | some s =>
      rw [step_deliver hk]
      refine ⟨fun j => ?_, hc.2⟩
      by_cases hj : j = i
      · rw [hj, Cluster.setTable_self]
        exact h.notDead i _ s (hc.2 s (List.mem_of_getElem? hk)) (hc.1 i)
      · rw [Cluster.setTable_other c _ hj]
        exact hc.1 j

theorem step_live (h : TombstoneWins receive held reads) (a : Act ν) (hc : NoTombstone held c)
    (hj : held (c.tables j) = .live) : held ((step receive c a).tables j) = .live := by
  cases a with
  | push i => exact hj
  | deliver k i =>
    cases hk : c.sent[k]? with
    | none =>
      rw [step_deliver_none hk]
      exact hj
    | some s =>
      rw [step_deliver hk]
      by_cases hji : j = i
      · subst hji
        rw [Cluster.setTable_self]
        exact h.kept j _ s (hc.2 s (List.mem_of_getElem? hk)) hj
      · rw [Cluster.setTable_other c _ hji]
        exact hj

/-! ## Runs -/

theorem run_noTombstone (h : TombstoneWins receive held reads) (hc : NoTombstone held c)
    (as : List (Act ν)) : NoTombstone held (run (step receive) c as) :=
  run_inv (fun _ a hs => step_noTombstone h a hs) hc as

theorem run_live (h : TombstoneWins receive held reads) (hc : NoTombstone held c)
    (hj : held (c.tables j) = .live) (as : List (Act ν)) :
    held ((run (step receive) c as).tables j) = .live :=
  (run_inv (I := fun c => NoTombstone held c ∧ held (c.tables j) = .live)
    (fun _ a hs => ⟨step_noTombstone h a hs.1, step_live h a hs.1 hs.2⟩) ⟨hc, hj⟩ as).2

theorem received_live (h : TombstoneWins receive held reads)
    (hbrings : ∀ j s, brings j s → reads j ∧ held s = .live) (hc : NoTombstone held c)
    {as : List (Act ν)} (hj : Received receive brings c as j) :
    held ((run (step receive) c as).tables j) = .live := by
  obtain ⟨pre, k, post, s, rfl, hk, hs⟩ := hj
  obtain ⟨hreads, hlive⟩ := hbrings j s hs
  have hpre := run_noTombstone h hc pre
  rw [run_append, run_cons]
  refine run_live h (step_noTombstone h _ hpre) ?_ post
  rw [step_deliver hk, Cluster.setTable_self]
  exact h.brought j _ s hreads hlive (hpre.1 j)

theorem deliver_dead (h : TombstoneWins receive held reads) (hi : reads i)
    (hlive : held (c.tables i) = .live) {s : τ} (hs : s ∈ c.sent) (hdead : held s = .dead) :
    ∃ k, held ((step receive c (.deliver k i)).tables i) = .dead := by
  obtain ⟨k, hk⟩ := List.mem_iff_getElem?.mp hs
  refine ⟨k, ?_⟩
  rw [step_deliver hk, Cluster.setTable_self]
  exact h.deleted i _ s hi hdead hlive

/-- **When a live row stays live**: in all runs, exactly if there is no tombstone left. -/
theorem staysLive_iff (h : TombstoneWins receive held reads)
    (hbrings : ∀ j s, brings j s → reads j ∧ held s = .live) (hi : reads i)
    (hlive : held (c.tables i) = .live) :
    StaysLive receive held brings c i ↔ NoTombstone held c := by
  constructor
  · intro hstays
    have hnone : ∀ c' : Cluster ν τ, (∃ as, c' = run (step receive) c as) →
        ∀ s ∈ c'.sent, held s ≠ .dead := by
      rintro c' ⟨as, rfl⟩ s hs hdead
      obtain ⟨k, hk⟩ := deliver_dead h hi (hstays as).1 hs hdead
      have hnext := (hstays (as ++ [.deliver k i])).1
      rw [run_append, run_cons, run_nil, hk] at hnext
      cases hnext
    refine ⟨fun j => ?_, hnone c ⟨[], rfl⟩⟩
    exact hnone _ ⟨[.push j], rfl⟩ (c.tables j) (List.mem_append_right _ List.mem_cons_self)
  · intro hc as
    exact ⟨run_live h hc hlive as, fun j hj => received_live h hbrings hc hj⟩

/-! ## Tables that are merged row by row -/

omit [DecidableEq ν] in
/-- `find` looks the row up, and `build` is the row as the payload has it. -/
theorem tombstoneWins_of_merge {ρ β : Type _} {find : τ → Option ρ} {alive : ρ → Bool}
    {build : ρ → β} {merge : β → ρ → ρ} {insert : β → Option ρ} [DecidablePred reads]
    (hreceive : ∀ j t s, find (receive j t s) = Table.mergeRow merge insert
      (if reads j then (find s).map build else none) (find t))
    (hmerge : ∀ a b, alive b = true → alive (merge (build a) b) = alive a)
    (hinsert : ∀ a, alive a = true → ∃ r, insert (build a) = some r ∧ alive r = true) :
    TombstoneWins receive (fun t => heldOf alive (find t)) reads := by
  have hkept : ∀ j t s, heldOf alive (find s) ≠ .dead → heldOf alive (find t) = .live →
      heldOf alive (find (receive j t s)) = .live := by
    intro j t s hs ht
    obtain ⟨b, hb, hlive⟩ := heldOf_live.mp ht
    rw [hreceive, hb, heldOf_live]
    by_cases hj : reads j
    · rw [if_pos hj]
      cases ha : find s with
      | none => exact ⟨b, rfl, hlive⟩
      | some a =>
        have haAlive := heldOf_ne_dead.mp hs a ha
        exact ⟨_, rfl, (hmerge a b hlive).trans haAlive⟩
    · rw [if_neg hj]
      exact ⟨b, rfl, hlive⟩
  have hbrought : ∀ j t s, reads j → heldOf alive (find s) = .live →
      heldOf alive (find t) ≠ .dead → heldOf alive (find (receive j t s)) = .live := by
    intro j t s hj hs ht
    obtain ⟨a, ha, hlive⟩ := heldOf_live.mp hs
    cases hb : find t with
    | none =>
      obtain ⟨r, hr, halive⟩ := hinsert a hlive
      rw [hreceive, hb, if_pos hj, ha]
      exact heldOf_live.mpr ⟨r, hr, halive⟩
    | some b =>
      refine hkept j t s (by rw [hs]; exact fun h => nomatch h) ?_
      exact heldOf_live.mpr ⟨b, hb, heldOf_ne_dead.mp ht b hb⟩
  refine ⟨?_, hkept, hbrought, ?_⟩
  · intro j t s hs ht
    by_cases hj : reads j
    · cases ha : find s with
      | none =>
        rw [hreceive, ha, if_pos hj]
        exact ht
      | some a =>
        have hlive := heldOf_live.mpr ⟨a, ha, heldOf_ne_dead.mp hs a ha⟩
        rw [hbrought j t s hj hlive ht]
        exact fun h => nomatch h
    · rw [hreceive, if_neg hj]
      exact ht
  · intro j t s hj hs ht
    obtain ⟨a, ha, hdead⟩ := heldOf_dead.mp hs
    obtain ⟨b, hb, hlive⟩ := heldOf_live.mp ht
    rw [hreceive, if_pos hj, ha, hb]
    exact heldOf_dead.mpr ⟨_, rfl, (hmerge a b hlive).trans hdead⟩

end Gossip
