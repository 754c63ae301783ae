import Mathlib.Data.List.Nodup

/-! # Chains of seals

Each seal is made over the seal before it and a content. Where no two of the seals that are made
collide, the last seal tells whether all contents are the same:

> `chain_eq_iff`.

Kept as records with a day, a seal and the seal before it, a chain is `Linked` when each record but
the first goes back to one of the day before:

> `Linked.between`, `Linked.prior_eq`: then no day between two is missing, and each record holds the
> seal of the one that precedes it.
-/

namespace SealedChain

variable {δ μ : Type _} {make : δ → μ → δ} {first : δ} {c c' : Nat → μ} {n : Nat}

/-- The seal over the first `n` contents. -/
def chain (make : δ → μ → δ) (first : δ) (c : Nat → μ) : Nat → δ
  | 0 => first
  | n + 1 => make (chain make first c n) (c n)

theorem chain_congr (h : ∀ k < n, c k = c' k) : chain make first c n = chain make first c' n := by
  induction n with
  | zero => rfl
  | succ n ih =>
    unfold chain
    rw [ih fun k hk => h k (Nat.lt_succ_of_lt hk), h n (Nat.lt_succ_self n)]

/-- **The last seal** covers every content. -/
theorem chain_eq_iff
    (hfree : ∀ k < n, make (chain make first c k) (c k) = make (chain make first c' k) (c' k) →
      chain make first c k = chain make first c' k ∧ c k = c' k) :
    chain make first c n = chain make first c' n ↔ ∀ k < n, c k = c' k := by
  refine ⟨fun heq => ?_, chain_congr⟩
  induction n with
  | zero => exact fun k hk => absurd hk (Nat.not_lt_zero k)
  | succ n ih =>
    obtain ⟨hprior, hlast⟩ := hfree n (Nat.lt_succ_self n) heq
    have hearlier := ih (fun k hk => hfree k (Nat.lt_succ_of_lt hk)) hprior
    intro k hk
    rcases Nat.lt_succ_iff_lt_or_eq.mp hk with hlt | rfl
    · exact hearlier k hlt
    · exact hlast

/-! ## Records of a chain -/

section
variable {α δ : Type _} {day : α → Int} {mark : α → δ} {prior : α → Option δ} {l : List α}

structure Linked (day : α → Int) (mark : α → δ) (prior : α → Option δ) (l : List α) : Prop where
  unique : (l.map day).Nodup
  back : ∀ b ∈ l, (prior b = none ∧ ∀ a ∈ l, day b ≤ day a) ∨
    ∃ a ∈ l, day b = day a + 1 ∧ prior b = some (mark a)

theorem linked_nil : Linked day mark prior [] :=
  ⟨List.nodup_nil, fun _ hb => absurd hb List.not_mem_nil⟩

theorem linked_singleton {b : α} (h : prior b = none) : Linked day mark prior [b] := by
  refine ⟨List.nodup_singleton _, fun c hc => Or.inl ?_⟩
  rw [List.mem_singleton.mp hc]
  refine ⟨h, fun a ha => ?_⟩
  exact Int.le_of_eq (congrArg day (List.mem_singleton.mp ha).symm)

theorem Linked.append (h : Linked day mark prior l) {a b : α} (ha : a ∈ l)
    (hday : day b = day a + 1) (hprior : prior b = some (mark a)) (hlast : ∀ c ∈ l, day c < day b) :
    Linked day mark prior (l ++ [b]) := by
  refine ⟨?_, fun c hc => ?_⟩
  · rw [List.map_append, List.nodup_append]
    refine ⟨h.unique, List.nodup_singleton _, fun x hx y hy heq => ?_⟩
    obtain ⟨c, hc, rfl⟩ := List.mem_map.mp hx
    rw [List.map_singleton, List.mem_singleton] at hy
    exact absurd (hlast c hc) (by omega)
  · rcases List.mem_append.mp hc with hc | hc
    · obtain ⟨hnone, hfirst⟩ | ⟨e, he, hback⟩ := h.back c hc
      · refine Or.inl ⟨hnone, fun e he => ?_⟩
        rcases List.mem_append.mp he with he | he
        · exact hfirst e he
        · rw [List.mem_singleton.mp he]
          exact Int.le_of_lt (hlast c hc)
      · exact Or.inr ⟨e, List.mem_append_left _ he, hback⟩
    · rw [List.mem_singleton.mp hc]
      exact Or.inr ⟨a, List.mem_append_left _ ha, hday, hprior⟩

theorem Linked.inj (h : Linked day mark prior l) {a b : α} (ha : a ∈ l) (hb : b ∈ l)
    (heq : day a = day b) : a = b :=
  List.inj_on_of_nodup_map h.unique ha hb heq

/-- **No day is missing** between two records. -/
theorem Linked.between (h : Linked day mark prior l) {a b : α} (ha : a ∈ l) (hb : b ∈ l) {d : Int}
    (had : day a ≤ d) (hdb : d ≤ day b) : ∃ c ∈ l, day c = d := by
  -- going back from `b`, one day at a time
  obtain ⟨n, hn⟩ := Int.eq_ofNat_of_zero_le (show 0 ≤ day b - d by omega)
  induction n generalizing b with
  | zero => exact ⟨b, hb, by omega⟩
  | succ n ih =>
    obtain ⟨-, hfirst⟩ | ⟨c, hc, hday, -⟩ := h.back b hb
    · exact absurd (hfirst a ha) (by omega)
    · exact ih hc (by omega) (by omega)

/-- **The seal before** is that of the record of the latest earlier day. -/
theorem Linked.prior_eq (h : Linked day mark prior l) {a b : α} (ha : a ∈ l) (hb : b ∈ l)
    (hlt : day a < day b) (hlatest : ∀ c ∈ l, day c < day b → day c ≤ day a) :
    prior b = some (mark a) := by
  obtain ⟨-, hfirst⟩ | ⟨c, hc, hday, hprior⟩ := h.back b hb
  · exact absurd (hfirst a ha) (by omega)
  · have hle := hlatest c hc (by omega)
    rw [hprior, h.inj hc ha (by omega)]

theorem Linked.prior_first (h : Linked day mark prior l) {b : α} (hb : b ∈ l)
    (hfirst : ∀ a ∈ l, day b ≤ day a) : prior b = none := by
  obtain ⟨hnone, -⟩ | ⟨a, ha, hday, -⟩ := h.back b hb
  · exact hnone
  · exact absurd (hfirst a ha) (by omega)

end

end SealedChain
