/-! # Python dictionaries

A dict is the list of its items in insertion order. Assigning to a present key replaces the
value in place; assigning to a new key appends. A key occurs at most once, which the
structure carries as a field.

An `OrderedDict` is a dict whose order is used: `moveToEnd` and `evict` make it a cache that
forgets its least recently used items.
-/

/-- A dict with keys `κ` and values `ν`. -/
structure Dict (κ ν : Type) where
  items : List (κ × ν)
  nodup : (items.map Prod.fst).Nodup

namespace Dict

variable {κ ν : Type} [DecidableEq κ]

def empty : Dict κ ν := ⟨[], List.nodup_nil⟩

/-- `d.get(k)`. -/
def get? (d : Dict κ ν) (k : κ) : Option ν := (d.items.find? (·.1 = k)).map Prod.snd

/-- The items after `d[k] = v`. -/
def setItems (k : κ) (v : ν) : List (κ × ν) → List (κ × ν)
  | [] => [(k, v)]
  | (j, w) :: t => if j = k then (k, v) :: t else (j, w) :: setItems k v t

theorem mem_keys_setItems {k j : κ} {v : ν} {t : List (κ × ν)} :
    j ∈ (setItems k v t).map Prod.fst ↔ j = k ∨ j ∈ t.map Prod.fst := by
  induction t with
  | nil => simp [setItems]
  | cons p t ih =>
    obtain ⟨i, w⟩ := p
    simp only [setItems]
    split
    · next h => subst h; simp
    · simp only [List.map_cons, List.mem_cons, ih]
      exact or_left_comm

theorem nodup_setItems {k : κ} {v : ν} {t : List (κ × ν)} (h : (t.map Prod.fst).Nodup) :
    ((setItems k v t).map Prod.fst).Nodup := by
  induction t with
  | nil => simp [setItems]
  | cons p t ih =>
    obtain ⟨i, w⟩ := p
    simp only [List.map_cons, List.nodup_cons] at h
    simp only [setItems]
    split
    · next hik => subst hik; simpa using h
    · next hik =>
      simp only [List.map_cons, List.nodup_cons, mem_keys_setItems]
      refine ⟨?_, ih h.2⟩
      rintro (h' | h')
      · exact hik h'
      · exact h.1 h'

/-- `d[k] = v`. -/
def set (d : Dict κ ν) (k : κ) (v : ν) : Dict κ ν := ⟨setItems k v d.items, nodup_setItems d.nodup⟩

@[simp] theorem get?_empty (k : κ) : (empty : Dict κ ν).get? k = none := rfl

@[simp] theorem get?_set_self (d : Dict κ ν) (k : κ) (v : ν) : (d.set k v).get? k = some v := by
  obtain ⟨t, hn⟩ := d
  show ((setItems k v t).find? (·.1 = k)).map Prod.snd = some v
  clear hn
  induction t with
  | nil => simp [setItems]
  | cons p t ih =>
    obtain ⟨i, w⟩ := p
    simp only [setItems]
    split
    · simp
    · next h => simpa [h] using ih

theorem get?_set_of_ne (d : Dict κ ν) {k j : κ} (v : ν) (h : j ≠ k) :
    (d.set k v).get? j = d.get? j := by
  obtain ⟨t, hn⟩ := d
  show ((setItems k v t).find? (·.1 = j)).map Prod.snd = (t.find? (·.1 = j)).map Prod.snd
  clear hn
  induction t with
  | nil => simp [setItems, h.symm]
  | cons p t ih =>
    obtain ⟨i, w⟩ := p
    simp only [setItems]
    split
    · next hik => subst hik; simp [h.symm]
    · by_cases hij : i = j
      · simp [hij]
      · simpa [hij] using ih

theorem get?_set (d : Dict κ ν) (k j : κ) (v : ν) :
    (d.set k v).get? j = if j = k then some v else d.get? j := by
  split
  · next h => rw [h, get?_set_self]
  · next h => exact get?_set_of_ne d v h

theorem get?_eq_some_of_mem {d : Dict κ ν} {p : κ × ν} (h : p ∈ d.items) :
    d.get? p.1 = some p.2 := by
  obtain ⟨t, hn⟩ := d
  show (t.find? (·.1 = p.1)).map Prod.snd = some p.2
  induction t with
  | nil => cases h
  | cons q t ih =>
    simp only [List.map_cons, List.nodup_cons] at hn
    rcases List.mem_cons.mp h with rfl | h
    · simp
    · have hne : ¬ q.1 = p.1 := fun heq => hn.1 (heq ▸ List.mem_map_of_mem h)
      simpa [hne] using ih hn.2 h

theorem mem_of_get? {d : Dict κ ν} {k : κ} {v : ν} (h : d.get? k = some v) :
    (k, v) ∈ d.items := by
  obtain ⟨p, hfind, hv⟩ := Option.map_eq_some_iff.mp h
  have hk : p.1 = k := by simpa using List.find?_some hfind
  rw [← hk, ← hv]
  exact List.mem_of_find?_eq_some hfind

theorem mem_set {d : Dict κ ν} {k : κ} {v : ν} {p : κ × ν} (h : p ∈ (d.set k v).items) :
    p = (k, v) ∨ p ∈ d.items := by
  have hget := get?_eq_some_of_mem h
  rw [get?_set] at hget
  split at hget
  · next hk =>
    left
    rw [← hk, Option.some.inj hget]
  · right
    exact mem_of_get? hget

/-- `d.pop(k, None)`. -/
def erase (d : Dict κ ν) (k : κ) : Dict κ ν :=
  ⟨d.items.filter (·.1 ≠ k), d.nodup.sublist (List.filter_sublist.map Prod.fst)⟩

theorem mem_erase {d : Dict κ ν} {k : κ} {p : κ × ν} :
    p ∈ (d.erase k).items ↔ p ∈ d.items ∧ p.1 ≠ k := by
  simp [erase]

def snoc (d : Dict κ ν) (k : κ) (v : ν) (h : k ∉ d.items.map Prod.fst) : Dict κ ν :=
  ⟨d.items ++ [(k, v)], by
    rw [List.map_append, List.nodup_append]
    refine ⟨d.nodup, by simp, ?_⟩
    intro j hj i hi hij
    have hik : i = k := by simpa using hi
    exact h (hik ▸ hij ▸ hj)⟩

theorem not_mem_keys_erase (d : Dict κ ν) (k : κ) : k ∉ (d.erase k).items.map Prod.fst := by
  intro h
  obtain ⟨p, hp, hpk⟩ := List.mem_map.mp h
  exact (mem_erase.mp hp).2 hpk

/-- `d.move_to_end(k)`, of a key that is there. -/
def moveToEnd (d : Dict κ ν) (k : κ) : Dict κ ν :=
  match d.get? k with
  | some v => (d.erase k).snoc k v (not_mem_keys_erase d k)
  | none => d

theorem mem_moveToEnd {d : Dict κ ν} {k : κ} {p : κ × ν} (h : p ∈ (d.moveToEnd k).items) :
    p ∈ d.items := by
  unfold moveToEnd at h
  split at h
  · next v hv =>
    rcases List.mem_append.mp h with h | h
    · exact (mem_erase.mp h).1
    · rw [List.mem_singleton.mp h]
      exact mem_of_get? hv
  · exact h

/-- `while len(d) > n: d.popitem(last=False)`. -/
def evict (d : Dict κ ν) (n : Nat) : Dict κ ν :=
  ⟨d.items.drop (d.items.length - n), d.nodup.sublist ((List.drop_sublist _ _).map Prod.fst)⟩

omit [DecidableEq κ] in
theorem mem_of_mem_evict {d : Dict κ ν} {n : Nat} {p : κ × ν} (h : p ∈ (d.evict n).items) :
    p ∈ d.items :=
  List.mem_of_mem_drop h

theorem mem_evict_moveToEnd {d : Dict κ ν} {k : κ} {v : ν} {n : Nat} (hn : 0 < n)
    (h : d.get? k = some v) : (k, v) ∈ ((d.moveToEnd k).evict n).items := by
  have hitems : (d.moveToEnd k).items = (d.erase k).items ++ [(k, v)] := by
    unfold moveToEnd
    split
    · next w hw =>
      rw [h] at hw
      cases hw
      rfl
    · next hw =>
      rw [h] at hw
      cases hw
  show (k, v) ∈ (d.moveToEnd k).items.drop ((d.moveToEnd k).items.length - n)
  rw [hitems, List.drop_append_of_le_length (by simp; omega)]
  exact List.mem_append_right _ List.mem_cons_self

end Dict
