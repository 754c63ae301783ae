import Mathlib.Data.List.Nodup
import Mathlib.Order.Lattice

/-! # Rows that take newer versions

A replica holds a row under a stamp, and takes a version in exactly if its stamp is later than the
row's. Taking it in writes the fields the version carries, which need not be all of them.

A list of versions whose stamps differ, delivered in any order and any number of times, leaves the
row as it is if it is the newest; otherwise the row has the fields the newest version carries, and
if that version is whole the row is the same for all deliveries:

> `Merge.settles`.
-/

namespace Stamped

variable {α β κ : Type _}

/-- What a merge reads and writes: the stamp of a row and of a version, and the row after the
version is written to it. -/
structure Merge (α β κ : Type _) where
  held : α → κ
  stamp : β → κ
  write : β → α → α
  stamped : ∀ b a, held (write b a) = stamp b

/-- The version carries all that any version writes. -/
def Merge.Whole (m : Merge α β κ) (v : β) : Prop := ∀ b a, m.write v (m.write b a) = m.write v a

/-- `ds` delivers the versions of `vs`, in any order and any number of times. -/
def Delivers (vs ds : List β) : Prop := ∀ b, b ∈ ds ↔ b ∈ vs

/-- The stamps differ from each other and from the row's. -/
def Merge.Distinct (m : Merge α β κ) (a : α) (vs : List β) : Prop :=
  (vs.map m.stamp).Nodup ∧ ∀ v ∈ vs, m.stamp v ≠ m.held a

variable [LinearOrder κ] (m : Merge α β κ)

def Merge.take (a : α) (b : β) : α := if m.held a < m.stamp b then m.write b a else a

def Merge.takeAll (a : α) (bs : List β) : α := bs.foldl m.take a

/-- What the deliveries of `vs` to the row come to. A row has the fields a version carries if
writing the version to it changes nothing. -/
def Merge.Settles (whole : β → Prop) (fold : α → List β → α) (a : α) (vs : List β) : Prop :=
  ∀ ds, Delivers vs ds →
    ((∀ v ∈ vs, m.stamp v < m.held a) → fold a ds = a) ∧
      ∀ v ∈ vs, m.held a < m.stamp v → (∀ w ∈ vs, m.stamp w ≤ m.stamp v) →
        m.write v (fold a ds) = fold a ds ∧ (whole v → fold a ds = m.write v a)

variable {m} {a : α} {v : β} {bs vs : List β}

/-! ## One version -/

theorem take_newer (h : m.held a < m.stamp v) : m.take a v = m.write v a := if_pos h

theorem take_stale (h : m.stamp v ≤ m.held a) : m.take a v = a := if_neg (not_lt.mpr h)

/-- **Taking a version again** changes nothing. -/
theorem take_take (m : Merge α β κ) (a : α) (b : β) : m.take (m.take a b) b = m.take a b := by
  by_cases h : m.held a < m.stamp b
  · rw [take_newer h]
    exact take_stale (le_of_eq (m.stamped b a).symm)
  · rw [take_stale (not_lt.mp h), take_stale (not_lt.mp h)]

theorem held_take_lt {b : β} (ha : m.held a < m.stamp v) (hb : m.stamp b < m.stamp v) :
    m.held (m.take a b) < m.stamp v := by
  unfold Merge.take
  split
  · rw [m.stamped]
    exact hb
  · exact ha

/-! ## Lists of versions -/

theorem takeAll_stale (h : ∀ b ∈ bs, m.stamp b ≤ m.held a) : m.takeAll a bs = a := by
  induction bs with
  | nil => rfl
  | cons b bs ih =>
    obtain ⟨hb, hrest⟩ := List.forall_mem_cons.mp h
    show m.takeAll (m.take a b) bs = a
    rw [take_stale hb]
    exact ih hrest

theorem takeAll_newest (hv : v ∈ bs) (ha : m.held a < m.stamp v)
    (hmax : ∀ b ∈ bs, b = v ∨ m.stamp b < m.stamp v) :
    ∃ pre, m.takeAll a bs = m.write v (m.takeAll a pre) := by
  induction bs generalizing a with
  | nil => cases hv
  | cons b bs ih =>
    obtain ⟨hb, hrest⟩ := List.forall_mem_cons.mp hmax
    rcases hb with rfl | hlt
    · refine ⟨[], ?_⟩
      show m.takeAll (m.take a b) bs = m.write b a
      rw [take_newer ha]
      refine takeAll_stale fun c hc => ?_
      rw [m.stamped]
      rcases hrest c hc with rfl | hlt
      · exact le_refl _
      · exact le_of_lt hlt
    · have hvs : v ∈ bs := by
        rcases List.mem_cons.mp hv with rfl | hvs
        · exact absurd hlt (lt_irrefl _)
        · exact hvs
      obtain ⟨pre, hpre⟩ := ih hvs (held_take_lt ha hlt) hrest
      exact ⟨b :: pre, hpre⟩

theorem write_takeAll (hv : m.Whole v) (a : α) (bs : List β) :
    m.write v (m.takeAll a bs) = m.write v a := by
  induction bs generalizing a with
  | nil => rfl
  | cons b bs ih =>
    refine (ih (m.take a b)).trans ?_
    unfold Merge.take
    split
    · exact hv b a
    · rfl

theorem newest_of_distinct (hd : m.Distinct a vs) (hv : v ∈ vs)
    (hmax : ∀ w ∈ vs, m.stamp w ≤ m.stamp v) : ∀ w ∈ vs, w = v ∨ m.stamp w < m.stamp v := by
  intro w hw
  rcases lt_or_eq_of_le (hmax w hw) with hlt | heq
  · exact Or.inr hlt
  · exact Or.inl (List.inj_on_of_nodup_map hd.1 hw hv heq)

theorem foldl_take {merge : β → α → α} (bs : List β) (h : ∀ b ∈ bs, ∀ a, merge b a = m.take a b) (a : α) :
    bs.foldl (fun a b => merge b a) a = m.takeAll a bs := by
  induction bs generalizing a with
  | nil => rfl
  | cons b bs ih =>
    obtain ⟨hb, hrest⟩ := List.forall_mem_cons.mp h
    show bs.foldl (fun a b => merge b a) (merge b a) = m.takeAll (m.take a b) bs
    rw [hb a]
    exact ih hrest (m.take a b)

/-- **The merge settles** on the newest version. -/
theorem Merge.settles {whole : β → Prop} {merge : β → α → α} (hd : m.Distinct a vs)
    (htake : ∀ b ∈ vs, ∀ a, merge b a = m.take a b) (hwhole : ∀ v, whole v → m.Whole v)
    (hagain : ∀ v a, m.write v (m.write v a) = m.write v a) :
    m.Settles whole (fun a bs => bs.foldl (fun a b => merge b a) a) a vs := by
  intro ds hds
  have hfold := foldl_take ds (fun b hb => htake b ((hds b).mp hb)) a
  simp only [hfold]
  refine ⟨fun hstale => ?_, fun v hv ha hmax => ?_⟩
  · exact takeAll_stale fun b hb => le_of_lt (hstale b ((hds b).mp hb))
  · have hnewest := newest_of_distinct hd hv hmax
    obtain ⟨pre, hpre⟩ := takeAll_newest ((hds v).mpr hv) ha fun b hb => hnewest b ((hds b).mp hb)
    rw [hpre]
    exact ⟨hagain v _, fun hw => write_takeAll (hwhole v hw) a pre⟩

end Stamped
