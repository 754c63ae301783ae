import Mathlib.Data.List.Infix

/-! # Delimited groups

What a lazy search for an opening, a body and a closing finds in a list, from left to right. The
opening and the closing are partial functions on the rest of the list; `Delims` holds what keeps
two of them apart.

> `findIter_append`: what is found in a list that is cut where nothing straddles the cut is what is
> found in front, and what is found behind with the opening that was left hanging.
-/

/-- An opening and a closing. The element a closing starts with is the last of the body. -/
structure Delims (α : Type) where
  opens : List α → Option (List α)
  closes : List α → Option (List α)
  opens_nil : opens [] = none
  closes_nil : closes [] = none
  opens_suffix : ∀ {c cs body}, opens (c :: cs) = some body → body <:+ cs
  closes_suffix : ∀ {c cs rest}, closes (c :: cs) = some rest → rest <:+ cs
  opens_apart : ∀ {c cs body later}, opens (c :: cs) = some body → later <:+ cs →
    (opens later).isSome = true → later <:+ body
  closes_apart : ∀ {c cs body later}, opens (c :: cs) = some body → later <:+ c :: cs →
    (closes later).isSome = true → later <:+ body
  opens_behind : ∀ {c cs rest later}, closes (c :: cs) = some rest → later <:+ c :: cs →
    (opens later).isSome = true → later <:+ rest

namespace Delims

variable {α : Type} (d : Delims α)

/-- The shortest body that ends in a closing, and what follows it. -/
def body : List α → Option (List α × List α)
  | [] => none
  | c :: cs =>
    match d.closes (c :: cs) with
    | some rest => some ([c], rest)
    | none => (body cs).map fun (b, rest) => (c :: b, rest)

variable {d}

theorem body_suffix {cs b rest : List α} (h : d.body cs = some (b, rest)) :
    rest <:+ cs ∧ rest.length < cs.length := by
  induction cs generalizing b with
  | nil => cases h
  | cons c cs ih =>
    unfold body at h
    split at h
    · next rest' hclose =>
      obtain ⟨-, rfl⟩ : [c] = b ∧ rest' = rest := by simpa using h
      have hsuffix := d.closes_suffix hclose
      exact ⟨hsuffix.trans (List.suffix_cons c cs), Nat.lt_succ_of_le hsuffix.length_le⟩
    · obtain ⟨⟨b', rest'⟩, hbody, hpair⟩ := Option.map_eq_some_iff.mp h
      obtain ⟨-, rfl⟩ : c :: b' = b ∧ rest' = rest := by simpa using hpair
      obtain ⟨hsuffix, hlength⟩ := ih hbody
      exact ⟨hsuffix.trans (List.suffix_cons c cs), Nat.lt_succ_of_lt hlength⟩

variable (d)

/-- A match: its body, and what is left of the list at its start and at its end. -/
structure Match (α : Type) where
  group : List α
  start : Nat
  rest : Nat

def findIter : List α → List (Match α)
  | [] => []
  | c :: cs =>
    match _hopen : d.opens (c :: cs) with
    | none => findIter cs
    | some inner =>
      match _hbody : d.body inner with
      | none => findIter cs
      | some (b, rest) => ⟨b, cs.length + 1, rest.length⟩ :: findIter rest
  termination_by cs => cs.length
  decreasing_by
    · simp
    · simp
    · have hinner := (d.opens_suffix _hopen).length_le
      have hrest := (body_suffix _hbody).2
      simp only [List.length_cons]
      omega

def hanging : List α → List α
  | [] => []
  | c :: cs =>
    match _hopen : d.opens (c :: cs) with
    | none => hanging cs
    | some inner =>
      match _hbody : d.body inner with
      | none => c :: cs
      | some (_, rest) => hanging rest
  termination_by cs => cs.length
  decreasing_by
    · simp
    · have hinner := (d.opens_suffix _hopen).length_le
      have hrest := (body_suffix _hbody).2
      simp only [List.length_cons]
      omega

variable {d}

theorem findIter_nil : d.findIter [] = [] := by rw [findIter]

theorem findIter_skip {c : α} {cs : List α} (h : d.opens (c :: cs) = none) :
    d.findIter (c :: cs) = d.findIter cs := by
  rw [findIter]
  split
  · rfl
  · next hopen =>
    rw [h] at hopen
    cases hopen

theorem findIter_open {c : α} {cs inner : List α} (h : d.opens (c :: cs) = some inner)
    (hnone : d.body inner = none) : d.findIter (c :: cs) = d.findIter cs := by
  rw [findIter]
  split
  · rfl
  · next hopen =>
    obtain rfl := Option.some.inj (h.symm.trans hopen)
    split
    · rfl
    · next hbody =>
      rw [hnone] at hbody
      cases hbody

theorem findIter_found {c : α} {cs inner b rest : List α} (h : d.opens (c :: cs) = some inner)
    (hbody : d.body inner = some (b, rest)) :
    d.findIter (c :: cs) = ⟨b, cs.length + 1, rest.length⟩ :: d.findIter rest := by
  rw [findIter]
  split
  · next hopen =>
    rw [h] at hopen
    cases hopen
  · next hopen =>
    obtain rfl := Option.some.inj (h.symm.trans hopen)
    split
    · next hnone =>
      rw [hnone] at hbody
      cases hbody
    · next b' rest' hbody' =>
      obtain ⟨rfl, rfl⟩ : b = b' ∧ rest = rest' := by
        simpa using Option.some.inj (hbody.symm.trans hbody')
      rfl

theorem hanging_nil : d.hanging [] = [] := by rw [hanging]

theorem hanging_skip {c : α} {cs : List α} (h : d.opens (c :: cs) = none) :
    d.hanging (c :: cs) = d.hanging cs := by
  rw [hanging]
  split
  · rfl
  · next hopen =>
    rw [h] at hopen
    cases hopen

theorem hanging_open {c : α} {cs inner : List α} (h : d.opens (c :: cs) = some inner)
    (hnone : d.body inner = none) : d.hanging (c :: cs) = c :: cs := by
  rw [hanging]
  split
  · next hopen =>
    rw [h] at hopen
    cases hopen
  · next hopen =>
    obtain rfl := Option.some.inj (h.symm.trans hopen)
    split
    · rfl
    · next hbody =>
      rw [hnone] at hbody
      cases hbody

theorem hanging_found {c : α} {cs inner b rest : List α} (h : d.opens (c :: cs) = some inner)
    (hbody : d.body inner = some (b, rest)) : d.hanging (c :: cs) = d.hanging rest := by
  rw [hanging]
  split
  · next hopen =>
    rw [h] at hopen
    cases hopen
  · next hopen =>
    obtain rfl := Option.some.inj (h.symm.trans hopen)
    split
    · next hnone =>
      rw [hnone] at hbody
      cases hbody
    · next b' rest' hbody' =>
      obtain ⟨-, rfl⟩ : b = b' ∧ rest = rest' := by
        simpa using Option.some.inj (hbody.symm.trans hbody')
      rfl

theorem rest_lt {c : α} {cs inner b rest : List α} (h : d.opens (c :: cs) = some inner)
    (hbody : d.body inner = some (b, rest)) : rest.length < (c :: cs).length := by
  have hinner := (d.opens_suffix h).length_le
  have hrest := (body_suffix hbody).2
  simp only [List.length_cons]
  omega

/-! ## Bodies -/

theorem body_none_iff {cs : List α} :
    d.body cs = none ↔ ∀ later, later <:+ cs → d.closes later = none := by
  induction cs with
  | nil =>
    refine iff_of_true rfl ?_
    intro later hlater
    rw [List.suffix_nil.mp hlater]
    exact d.closes_nil
  | cons c cs ih =>
    unfold body
    cases hclose : d.closes (c :: cs) with
    | some rest =>
      refine iff_of_false (by simp) fun h => ?_
      rw [h (c :: cs) List.suffix_rfl] at hclose
      cases hclose
    | none =>
      simp only [Option.map_eq_none_iff, ih]
      constructor
      · intro h later hlater
        rcases List.suffix_cons_iff.mp hlater with rfl | hlater
        · exact hclose
        · exact h later hlater
      · exact fun h later hlater => h later (hlater.trans (List.suffix_cons c cs))

theorem body_of_suffix {cs inner b rest : List α} (hsuffix : inner <:+ cs)
    (hinside : ∀ later, later <:+ cs → (d.closes later).isSome = true → later <:+ inner)
    (h : d.body cs = some (b, rest)) : ∃ b', d.body inner = some (b', rest) := by
  induction cs generalizing b with
  | nil => cases h
  | cons c cs ih =>
    rcases List.suffix_cons_iff.mp hsuffix with rfl | hsuffix'
    · exact ⟨b, h⟩
    · unfold body at h
      split at h
      · next rest' hclose =>
        have hlong := (hinside (c :: cs) List.suffix_rfl (by rw [hclose]; rfl)).length_le
        have hshort := hsuffix'.length_le
        simp only [List.length_cons] at hlong
        omega
      · obtain ⟨⟨b', rest'⟩, hbody, hpair⟩ := Option.map_eq_some_iff.mp h
        obtain ⟨-, rfl⟩ : c :: b' = b ∧ rest' = rest := by simpa using hpair
        exact ih hsuffix' (fun later hlater => hinside later (hlater.trans (List.suffix_cons c cs)))
          hbody

theorem body_keep {cs b rest tail : List α} (h : d.body cs = some (b, rest))
    (hkeep : ∀ later, later <:+ cs → rest.length < later.length →
      d.closes (later ++ tail) = (d.closes later).map (· ++ tail)) :
    d.body (cs ++ tail) = some (b, rest ++ tail) := by
  induction cs generalizing b with
  | nil => cases h
  | cons c cs ih =>
    have hclose := hkeep (c :: cs) List.suffix_rfl (body_suffix h).2
    unfold body at h
    rw [List.cons_append] at hclose ⊢
    rw [body, hclose]
    cases hhere : d.closes (c :: cs) with
    | some rest' =>
      rw [hhere] at h
      obtain ⟨rfl, rfl⟩ : [c] = b ∧ rest' = rest := by simpa using h
      rfl
    | none =>
      rw [hhere] at h
      obtain ⟨⟨b', rest'⟩, hbody, hpair⟩ := Option.map_eq_some_iff.mp h
      obtain ⟨rfl, rfl⟩ : c :: b' = b ∧ rest' = rest := by simpa using hpair
      have hrest := ih hbody fun later hlater => hkeep later (hlater.trans (List.suffix_cons c cs))
      simp only [Option.map_none, hrest, Option.map_some]

theorem body_skip {front cs : List α}
    (hinside : ∀ later, later <:+ front ++ cs → (d.closes later).isSome = true → later <:+ cs) :
    d.body (front ++ cs) = (d.body cs).map fun (b, rest) => (front ++ b, rest) := by
  induction front with
  | nil => simp
  | cons c front ih =>
    have hnone : d.closes (c :: (front ++ cs)) = none := by
      rw [← Option.not_isSome_iff_eq_none]
      intro hsome
      have hlong := (hinside _ List.suffix_rfl hsome).length_le
      simp only [List.length_cons, List.length_append] at hlong
      omega
    have hrest := ih fun later hlater => hinside later (hlater.trans (List.suffix_cons _ _))
    rw [List.cons_append, body, hnone, hrest]
    cases d.body cs with
    | none => rfl
    | some found => rfl

/-! ## Cutting a list -/

/-- Nothing that starts in front of the list goes on in it. -/
def Splits (d : Delims α) (tail : List α) : Prop :=
  ∀ c cs, d.opens (c :: cs ++ tail) = (d.opens (c :: cs)).map (· ++ tail) ∧
    d.closes (c :: cs ++ tail) = (d.closes (c :: cs)).map (· ++ tail)

def Match.shift (n : Nat) (m : Match α) : Match α := ⟨m.group, m.start + n, m.rest + n⟩

theorem body_append {tail : List α} (hsplits : d.Splits tail) (cs : List α) :
    d.body (cs ++ tail) =
      match d.body cs with
      | some (b, rest) => some (b, rest ++ tail)
      | none => (d.body tail).map fun (b, rest) => (cs ++ b, rest) := by
  induction cs with
  | nil => simp [body]
  | cons c cs ih =>
    have hclose := (hsplits c cs).2
    simp only [List.cons_append] at hclose ⊢
    rw [body, body, hclose, ih]
    cases d.closes (c :: cs) with
    | some rest => rfl
    | none =>
      cases d.body cs with
      | some found => rfl
      | none =>
        cases d.body tail with
        | some found => rfl
        | none => rfl

theorem findIter_of_hanging {cs inner : List α} (hnone : d.body inner = none)
    (hinside : ∀ later, later <:+ cs → (d.opens later).isSome = true → later <:+ inner) :
    d.findIter cs = [] := by
  induction cs with
  | nil => exact findIter_nil
  | cons c cs ih =>
    have hrest := ih fun later hlater => hinside later (hlater.trans (List.suffix_cons c cs))
    cases hopen : d.opens (c :: cs) with
    | none => rw [findIter_skip hopen, hrest]
    | some inner' =>
      have hlater := hinside (c :: cs) List.suffix_rfl (by rw [hopen]; rfl)
      have hinner : inner' <:+ inner :=
        ((d.opens_suffix hopen).trans (List.suffix_cons c cs)).trans hlater
      have hbody : d.body inner' = none :=
        body_none_iff.mpr fun l hl => body_none_iff.mp hnone l (hl.trans hinner)
      rw [findIter_open hopen hbody, hrest]

theorem findIter_append {tail : List α} (hsplits : d.Splits tail) (cs : List α) :
    d.findIter (cs ++ tail) =
      (d.findIter cs).map (Match.shift tail.length) ++ d.findIter (d.hanging cs ++ tail) := by
  induction hn : cs.length using Nat.strong_induction_on generalizing cs with
  | _ n ih =>
    cases cs with
    | nil => rw [findIter_nil, hanging_nil]; rfl
    | cons c cs =>
      have hopens : d.opens (c :: (cs ++ tail)) = (d.opens (c :: cs)).map (· ++ tail) :=
        (hsplits c cs).1
      cases hopen : d.opens (c :: cs) with
      | none =>
        rw [hopen] at hopens
        rw [findIter_skip hopen, hanging_skip hopen, List.cons_append, findIter_skip hopens]
        exact ih cs.length (by rw [← hn]; simp) cs rfl
      | some inner =>
        rw [hopen] at hopens
        cases hbody : d.body inner with
        | none =>
          have hnothing : d.findIter cs = [] := findIter_of_hanging hbody fun later hlater hsome =>
            d.opens_apart hopen hlater hsome
          rw [findIter_open hopen hbody, hnothing, hanging_open hopen hbody]
          rfl
        | some found =>
          obtain ⟨b, rest⟩ := found
          have hbody' := body_append hsplits inner
          rw [hbody] at hbody'
          rw [findIter_found hopen hbody, hanging_found hopen hbody, List.cons_append,
            findIter_found hopens hbody', List.map_cons, List.cons_append,
            ih rest.length (by rw [← hn]; exact rest_lt hopen hbody) rest rfl]
          simp [Match.shift, Nat.add_right_comm]

theorem hanging_cases (d : Delims α) (cs : List α) : d.hanging cs = [] ∨
    ∃ c tail inner, d.hanging cs = c :: tail ∧ d.opens (c :: tail) = some inner ∧
      d.body inner = none := by
  induction hn : cs.length using Nat.strong_induction_on generalizing cs with
  | _ n ih =>
    cases cs with
    | nil => exact .inl hanging_nil
    | cons c cs =>
      cases hopen : d.opens (c :: cs) with
      | none =>
        rw [hanging_skip hopen]
        exact ih cs.length (by rw [← hn]; simp) cs rfl
      | some inner =>
        cases hbody : d.body inner with
        | none => exact .inr ⟨c, cs, inner, hanging_open hopen hbody, hopen, hbody⟩
        | some found =>
          obtain ⟨b, rest⟩ := found
          rw [hanging_found hopen hbody]
          exact ih rest.length (by rw [← hn]; exact rest_lt hopen hbody) rest rfl

theorem findIter_of_body_none {cs : List α} (h : d.body cs = none) : d.findIter cs = [] :=
  findIter_of_hanging h fun _ hlater _ => hlater

theorem findIter_hanging {tail : List α} (hsplits : d.Splits tail) (hnone : d.body tail = none)
    (cs : List α) : d.findIter (d.hanging cs ++ tail) = [] := by
  rcases hanging_cases d cs with heq | ⟨c, rest, inner, heq, hopen, hbody⟩
  · rw [heq]
    exact findIter_of_body_none hnone
  · have hopens : d.opens (c :: (rest ++ tail)) = (d.opens (c :: rest)).map (· ++ tail) :=
      (hsplits c rest).1
    have hinner := body_append hsplits inner
    rw [hopen] at hopens
    rw [hbody, hnone] at hinner
    rw [heq, List.cons_append, findIter_open hopens hinner]
    exact findIter_of_hanging hinner fun later hlater hsome => d.opens_apart hopens hlater hsome

theorem findIter_bounds {cs : List α} :
    ∀ m ∈ d.findIter cs, m.start ≤ cs.length ∧ m.rest < m.start := by
  induction hn : cs.length using Nat.strong_induction_on generalizing cs with
  | _ n ih =>
    cases cs with
    | nil =>
      rw [findIter_nil]
      exact fun m hmem => absurd hmem List.not_mem_nil
    | cons c cs =>
      have hrest := ih cs.length (by rw [← hn]; simp) rfl
      have hless : ∀ m ∈ d.findIter cs, m.start ≤ (c :: cs).length ∧ m.rest < m.start :=
        fun m hmem => ⟨(hrest m hmem).1.trans (by simp), (hrest m hmem).2⟩
      rw [← hn]
      cases hopen : d.opens (c :: cs) with
      | none =>
        rw [findIter_skip hopen]
        exact hless
      | some inner =>
        cases hbody : d.body inner with
        | none =>
          rw [findIter_open hopen hbody]
          exact hless
        | some found =>
          obtain ⟨b, rest⟩ := found
          have hlt := rest_lt hopen hbody
          rw [findIter_found hopen hbody, List.forall_mem_cons]
          refine ⟨⟨by simp, hlt⟩, fun m hmem => ?_⟩
          obtain ⟨hstart, hend⟩ := ih rest.length (by rw [← hn]; exact hlt) rfl m hmem
          exact ⟨hstart.trans hlt.le, hend⟩

theorem findIter_of_suffix {cs rest : List α} (hsuffix : rest <:+ cs)
    (hinside : ∀ later, later <:+ cs → (d.opens later).isSome = true → later <:+ rest) :
    d.findIter cs = d.findIter rest := by
  induction cs with
  | nil => rw [List.suffix_nil.mp hsuffix]
  | cons c cs ih =>
    rcases List.suffix_cons_iff.mp hsuffix with rfl | hsuffix'
    · rfl
    · have hnone : d.opens (c :: cs) = none := by
        rw [← Option.not_isSome_iff_eq_none]
        intro hsome
        have hlong := (hinside (c :: cs) List.suffix_rfl hsome).length_le
        have hshort := hsuffix'.length_le
        simp only [List.length_cons] at hlong
        omega
      rw [findIter_skip hnone]
      exact ih hsuffix' fun later hlater => hinside later (hlater.trans (List.suffix_cons c cs))

theorem findIter_of_body {cs b rest : List α} (h : d.body cs = some (b, rest)) :
    d.findIter cs = d.findIter rest ∨
      ∃ m, d.findIter cs = m :: d.findIter rest ∧ m.rest = rest.length ∧ m.start ≤ cs.length := by
  induction cs generalizing b with
  | nil => cases h
  | cons c cs ih =>
    have hwhole := h
    unfold body at h
    split at h
    · next rest' hclose =>
      obtain ⟨-, rfl⟩ : [c] = b ∧ rest' = rest := by simpa using h
      exact .inl (findIter_of_suffix ((d.closes_suffix hclose).trans (List.suffix_cons c cs))
        fun later hlater hsome => d.opens_behind hclose hlater hsome)
    · obtain ⟨⟨b', rest'⟩, hbody, hpair⟩ := Option.map_eq_some_iff.mp h
      obtain ⟨-, rfl⟩ : c :: b' = b ∧ rest' = rest := by simpa using hpair
      cases hopen : d.opens (c :: cs) with
      | none =>
        rw [findIter_skip hopen]
        rcases ih hbody with hnone | ⟨m, hfound, hrest, hstart⟩
        · exact .inl hnone
        · exact .inr ⟨m, hfound, hrest, hstart.trans (by simp)⟩
      | some inner =>
        obtain ⟨b'', hinner⟩ := body_of_suffix
          ((d.opens_suffix hopen).trans (List.suffix_cons c cs))
          (fun later hlater hsome => d.closes_apart hopen hlater hsome) hwhole
        exact .inr ⟨_, findIter_found hopen hinner, rfl, by simp⟩

end Delims
