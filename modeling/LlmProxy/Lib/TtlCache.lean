import Mathlib.Algebra.Order.Ring.Rat
import Mathlib.Data.List.Induction
import LlmProxy.Lib.Trace

/-! # Caches with an expiry

A cache in front of a store that others write. A request for a key is answered by the key's entry
while that has not expired. Else it loads: it reads the key's row, which takes time and may fail,
builds a value from the row and from the store as it is by then, leaves it as the entry and answers
with it. An entry expires `ttl` after the request that left it began, and a load under way does not
hear of it when the entries are dropped.

> `served_of_answer`: an answer is built from the store as it was less than `ttl` before the request,
> or later;
> `answer_of_built`: what holds of whatever can be built at any moment since the entries were
> dropped holds of every answer.
-/

namespace TtlCache

open Trace

/-- How the values of a cache are made from a store `σ`. -/
structure Source (κ σ ρ ν : Type) where
  peek : κ → σ → ρ
  /-- What stands for a row that could not be read, if the load goes on without it. -/
  failed : Option ρ
  build : κ → ρ → σ → ν
  ttl : Rat
  ttl_pos : 0 < ttl

structure Load (κ ρ : Type) where
  key : κ
  began : Rat
  row : Option ρ

structure State (κ σ ρ ν : Type) where
  clock : Rat
  store : σ
  entries : κ → Option (Rat × ν)
  loads : Nat → Option (Load κ ρ)

inductive Action (κ σ : Type)
  | tick (time : Rat)
  | write (store : σ)
  | drop (keys : κ → Bool)
  | ask (request : Nat) (key : κ)
  | read (request : Nat) (broken : Bool)
  | fill (request : Nat)

variable {κ σ ρ ν : Type}

def start (clock : Rat) (store : σ) : State κ σ ρ ν := ⟨clock, store, fun _ => none, fun _ => none⟩

def State.fresh (s : State κ σ ρ ν) (key : κ) : Option (Rat × ν) :=
  (s.entries key).filter (s.clock < ·.1)

variable (src : Source κ σ ρ ν)

def Source.rowRead (key : κ) (store : σ) (broken : Bool) : Option ρ :=
  if broken then src.failed else some (src.peek key store)

def Source.entry (s : State κ σ ρ ν) (key : κ) (began : Rat) (row : ρ) : Rat × ν :=
  (began + src.ttl, src.build key row s.store)

/-- A request that is answered: its key, when it began, and the answer. -/
def answer (s : State κ σ ρ ν) : Action κ σ → Option (κ × Rat × ν)
  | .ask request key =>
    match s.loads request with
    | none => (s.fresh key).map fun e => (key, s.clock, e.2)
    | some _ => none
  | .fill request =>
    match s.loads request with
    | some ⟨key, began, some row⟩ => some (key, began, (src.entry s key began row).2)
    | _ => none
  | _ => none

theorem answer_cases {s : State κ σ ρ ν} {a : Action κ σ} {key : κ} {asked : Rat} {value : ν}
    (h : answer src s a = some (key, asked, value)) :
    (∃ expires, s.entries key = some (expires, value) ∧ asked < expires) ∨
      ∃ request row, s.loads request = some ⟨key, asked, some row⟩ ∧
        value = src.build key row s.store := by
  unfold answer at h
  split at h
  · split at h
    · obtain ⟨e, he, heq⟩ := Option.map_eq_some_iff.mp h
      obtain ⟨hentry, hfresh⟩ := Option.filter_eq_some_iff.mp he
      cases heq
      exact .inl ⟨e.1, hentry, of_decide_eq_true hfresh⟩
    · cases h
  · next request =>
    split at h
    · next key' began row hload =>
      cases h
      exact .inr ⟨request, row, hload, rfl⟩
    · cases h
  · cases h

/-! ## Steps -/

variable [DecidableEq κ]

def State.loadsAfter (s : State κ σ ρ ν) (a : Action κ σ) (request : Nat) : Option (Load κ ρ) :=
  match a with
  | .ask asking key =>
    if asking = request ∧ (s.loads request).isNone ∧ (s.fresh key).isNone then
      some ⟨key, s.clock, none⟩
    else s.loads request
  | .read reading broken =>
    if reading = request then
      (s.loads request).map fun load =>
        { load with row := src.rowRead load.key s.store broken }
    else s.loads request
  | .fill filling => (s.loads request).filter fun load => filling ≠ request || load.row.isNone
  | _ => s.loads request

def State.entryAfter (s : State κ σ ρ ν) (a : Action κ σ) (key : κ) : Option (Rat × ν) :=
  match a with
  | .drop keys => if keys key then none else s.entries key
  | .fill request =>
    match s.loads request with
    | some ⟨loaded, began, some row⟩ =>
      if loaded = key then some (src.entry s key began row) else s.entries key
    | _ => s.entries key
  | _ => s.entries key

def step (s : State κ σ ρ ν) (a : Action κ σ) : State κ σ ρ ν where
  clock := match a with
    | .tick time => max s.clock time
    | _ => s.clock
  store := match a with
    | .write store => store
    | _ => s.store
  entries := s.entryAfter src a
  loads := s.loadsAfter src a

theorem entries_step {s : State κ σ ρ ν} {a : Action κ σ} {key : κ} {e : Rat × ν}
    (h : (step src s a).entries key = some e) : s.entries key = some e ∨
      ∃ request began row, s.loads request = some ⟨key, began, some row⟩ ∧
        e = src.entry s key began row := by
  simp only [step, State.entryAfter] at h
  split at h
  · grind
  · split at h
    · grind
    · exact .inl h
  · exact .inl h

theorem loads_step {s : State κ σ ρ ν} {a : Action κ σ} {request : Nat} {load : Load κ ρ}
    (h : (step src s a).loads request = some load) :
    s.loads request = some load ∨ (load.began = s.clock ∧ load.row = none) ∨
      ∃ broken row, a = .read request broken ∧ s.loads request = some { load with row := row } ∧
        load.row = src.rowRead load.key s.store broken := by
  simp only [step, State.loadsAfter] at h
  split at h
  · grind
  · next reading broken =>
    split at h
    · next hreading =>
      obtain ⟨before, hbefore, rfl⟩ := Option.map_eq_some_iff.mp h
      exact .inr (.inr ⟨broken, before.row, by rw [hreading], hbefore, rfl⟩)
    · exact .inl h
  · exact .inl (Option.filter_eq_some_iff.mp h).1
  · exact .inl h

theorem clock_step (s : State κ σ ρ ν) (a : Action κ σ) : s.clock ≤ (step src s a).clock := by
  cases a with
  | tick time => exact le_max_left _ _
  | _ => exact le_rfl

/-! ## What an answer is built from -/

/-- A read of a row for the key by a request that loads it, and what the request has from it. -/
structure Source.Reads (s : State κ σ ρ ν) (key : κ) (request : Nat) (broken : Bool) (row : ρ) :
    Prop where
  loading : (s.loads request).map Load.key = some key
  row : src.rowRead key s.store broken = some row

/-- Built for the key from a row read for it in the run, at that clock or later, and from the store
of the read or a later one. -/
def Built (s : State κ σ ρ ν) (as : List (Action κ σ)) (key : κ) (since : Rat) (value : ν) : Prop :=
  ∃ pre request broken mid row, pre ++ .read request broken :: mid <+: as ∧
    since ≤ (run (step src) s pre).clock ∧ src.Reads (run (step src) s pre) key request broken row ∧
    value = src.build key row (run (step src) s (pre ++ .read request broken :: mid)).store

/-- The state after a run holds and loads only what the run has let it. -/
structure Lawful (s : State κ σ ρ ν) (as : List (Action κ σ)) : Prop where
  entry : ∀ key expires value, (run (step src) s as).entries key = some (expires, value) →
    Built src s as key (expires - src.ttl) value
  load : ∀ request load, (run (step src) s as).loads request = some load →
    load.began ≤ (run (step src) s as).clock ∧ ∀ row, load.row = some row →
      ∃ pre broken mid, pre ++ .read request broken :: mid = as ∧
        load.began ≤ (run (step src) s pre).clock ∧
        src.Reads (run (step src) s pre) load.key request broken row

variable {src} {s : State κ σ ρ ν} {as : List (Action κ σ)}

theorem Built.longer {key : κ} {since : Rat} {value : ν} (h : Built src s as key since value)
    (a : Action κ σ) : Built src s (as ++ [a]) key since value := by
  obtain ⟨pre, request, broken, mid, row, hpre, hrest⟩ := h
  exact ⟨pre, request, broken, mid, row, hpre.trans (List.prefix_append as [a]), hrest⟩

theorem Lawful.built (h : Lawful src s as) {request : Nat} {key : κ} {began : Rat} {row : ρ}
    (hload : (run (step src) s as).loads request = some ⟨key, began, some row⟩) :
    Built src s as key began (src.build key row (run (step src) s as).store) := by
  obtain ⟨pre, broken, mid, hmid, hclock, hreads⟩ := (h.load request _ hload).2 row rfl
  exact ⟨pre, request, broken, mid, row, hmid ▸ List.prefix_rfl, hclock, hreads, by rw [hmid]⟩

theorem Lawful.step (h : Lawful src s as) (a : Action κ σ) : Lawful src s (as ++ [a]) where
  entry key expires value hentry := by
    rw [run_append] at hentry
    rcases entries_step src hentry with hold | ⟨request, began, row, hload, hnew⟩
    · exact (h.entry key expires value hold).longer a
    · cases hnew
      rw [add_sub_cancel_right]
      exact (h.built hload).longer a
  load request load hload := by
    rw [run_append] at hload ⊢
    have hclock := clock_step src (run (TtlCache.step src) s as) a
    rcases loads_step src hload with hold | ⟨hbegan, hrow⟩ | ⟨broken, before, rfl, hold, hread⟩
    · obtain ⟨hbegan, hrow⟩ := h.load request load hold
      refine ⟨hbegan.trans hclock, fun row hsome => ?_⟩
      obtain ⟨pre, broken, mid, hmid, hrest⟩ := hrow row hsome
      exact ⟨pre, broken, mid ++ [a], by rw [← hmid, List.append_assoc, List.cons_append], hrest⟩
    · rw [hbegan, hrow]
      exact ⟨hclock, fun _ hsome => absurd hsome (Option.some_ne_none _).symm⟩
    · have hbegan := (h.load request _ hold).1
      refine ⟨hbegan.trans hclock, fun row hsome => ⟨as, broken, [], rfl, hbegan, ?_⟩⟩
      exact ⟨by rw [hold]; rfl, hread.symm.trans hsome⟩

theorem lawful_run (clock : Rat) (store : σ) (as : List (Action κ σ)) :
    Lawful src (start clock store) as := by
  induction as using List.reverseRecOn with
  | nil =>
    exact ⟨fun _ _ _ h => absurd h (Option.some_ne_none _).symm,
      fun _ _ h => absurd h (Option.some_ne_none _).symm⟩
  | append_singleton as a ih => exact ih.step a

/-- **What an answer is built from**: a row read less than `ttl` before the request, or later, and the
store of then or later still. -/
theorem served_of_answer {clock : Rat} {store : σ} {a : Action κ σ} {key : κ} {asked : Rat} {value : ν}
    (h : answer src (run (step src) (start clock store) as) a = some (key, asked, value)) :
    ∃ since, asked - src.ttl < since ∧ Built src (start clock store) as key since value := by
  have hlawful : Lawful src (start clock store) as := lawful_run clock store as
  rcases answer_cases src h with ⟨expires, hentry, hlt⟩ | ⟨request, row, hload, rfl⟩
  · exact ⟨expires - src.ttl, sub_lt_sub_right hlt src.ttl, hlawful.entry key expires value hentry⟩
  · exact ⟨asked, sub_lt_self asked src.ttl_pos, hlawful.built hload⟩

/-- **What is built since the entries were dropped**: if at every point of a run whatever could be
built for the key has a property, and the entry at its start has it, the answers have it. -/
theorem answer_of_built {P : ν → Prop} {key : κ}
    (hstart : ∀ e, s.entries key = some e → P e.2)
    (hbuild : ∀ pre, pre <+: as → ∀ row, P (src.build key row (run (step src) s pre).store))
    {a : Action κ σ} {asked : Rat} {value : ν}
    (h : answer src (run (step src) s as) a = some (key, asked, value)) : P value := by
  have hentries : ∀ pre, pre <+: as → ∀ e, (run (step src) s pre).entries key = some e → P e.2 := by
    intro pre
    induction pre using List.reverseRecOn with
    | nil => exact fun _ => hstart
    | append_singleton pre b ih =>
      intro hpre e he
      have hshort : pre <+: as := (List.prefix_append pre [b]).trans hpre
      rw [run_append] at he
      rcases entries_step src he with hold | ⟨request, began, row, -, rfl⟩
      · exact ih hshort e hold
      · exact hbuild pre hshort row
  rcases answer_cases src h with ⟨expires, hentry, -⟩ | ⟨request, row, -, rfl⟩
  · exact hentries as List.prefix_rfl (expires, value) hentry
  · exact hbuild as List.prefix_rfl row

end TtlCache
