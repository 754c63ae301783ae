import Mathlib.Data.List.Basic
import LlmProxy.Lib.Substitution

/-! # Masking

A substitution puts a mark where a pattern matches. Here a match is a place of the text: a pattern
may begin and end at a word boundary, and asks what stands around it.

> `replaced_subn`: the pieces of `pattern.subn(mark, text)`, and their number;
> `Replaced.clean`: behind a mark in brackets no pattern matches that did not match before, nor the
> pattern itself.

Patterns that look around ask for a boundary at either end (`Bounded`). A boundary next to a mark
was there before: the match that the mark stands for ended, or began, at it.
-/

namespace Regex

variable {isalnum : Char → Bool} {pattern asked : Regex} {mark : List Char}

/-! ## Matches -/

/-- The pattern can match this text at this place. -/
def MatchAt (isalnum : Char → Bool) (pattern : Regex) (behind t ahead : List Char) : Prop :=
  ⟨t.reverse ++ behind, ahead⟩ ∈ ends isalnum pattern ⟨behind, t ++ ahead⟩

/-- The pattern matches somewhere in a text that stands behind another. -/
def Found (isalnum : Char → Bool) (pattern : Regex) (behind text : List Char) : Prop :=
  ∃ a t b, text = a ++ t ++ b ∧ t ≠ [] ∧ MatchAt isalnum pattern (a.reverse ++ behind) t b

theorem MatchAt.reads {behind t ahead : List Char} (h : MatchAt isalnum pattern behind t ahead) :
    pattern.Reads t := by
  obtain ⟨u, hover, hu⟩ := ends_reads h
  rwa [← List.append_cancel_right (hover.1 : t ++ ahead = u ++ ahead)] at hu

theorem matchAt_local (hlocal : pattern.Local) {behind t ahead : List Char} :
    MatchAt isalnum pattern behind t ahead ↔ pattern.Reads t :=
  ⟨MatchAt.reads, fun h => ends_complete hlocal h behind ahead⟩

theorem Found.cons {behind text : List Char} {c : Char}
    (h : Found isalnum pattern (c :: behind) text) : Found isalnum pattern behind (c :: text) := by
  obtain ⟨a, t, b, rfl, hne, hmatch⟩ := h
  exact ⟨c :: a, t, b, rfl, hne, by simpa using hmatch⟩

theorem Found.append {behind text front : List Char}
    (h : Found isalnum pattern (front.reverse ++ behind) text) :
    Found isalnum pattern behind (front ++ text) := by
  obtain ⟨a, t, b, rfl, hne, hmatch⟩ := h
  exact ⟨front ++ a, t, b, by simp, hne, by simpa using hmatch⟩

theorem search_isSome_iff (hmin : 0 < pattern.minLength) (s : String) :
    (search isalnum pattern s).isSome = true ↔ Found isalnum pattern [] s.toList := by
  have hfrom : ∀ ahead behind : List Char,
      (searchFrom isalnum pattern behind ahead).isSome = true ↔
        Found isalnum pattern behind ahead := by
    intro ahead
    induction ahead with
    | nil =>
      intro behind
      rw [searchFrom, Option.isSome_map]
      constructor
      · intro hsome
        obtain ⟨e, he⟩ := Option.isSome_iff_exists.mp hsome
        obtain ⟨t, hover, ht⟩ := ends_reads (List.mem_of_head? he)
        have hnil := (List.append_eq_nil_iff.mp hover.1.symm).1
        have hlength := minLength_le ht
        rw [hnil, List.length_nil] at hlength
        omega
      · rintro ⟨a, t, b, heq, hne, -⟩
        exact absurd (List.append_eq_nil_iff.mp (List.append_eq_nil_iff.mp heq.symm).1).2 hne
    | cons d ahead ih =>
      intro behind
      rw [searchFrom]
      split
      · next e he =>
        refine iff_of_true rfl ?_
        obtain ⟨t, hover, ht⟩ := ends_reads (List.mem_of_head? he)
        refine ⟨[], t, e.ahead, hover.1, ?_, ?_⟩
        · rintro rfl
          have hlength := minLength_le ht
          rw [List.length_nil] at hlength
          omega
        · have hmem := List.mem_of_head? he
          unfold MatchAt
          rw [List.reverse_nil, List.nil_append, ← (hover.1 : d :: ahead = t ++ e.ahead),
            ← (hover.2 : e.behind = t.reverse ++ behind)]
          exact hmem
      · next hnone =>
        rw [ih]
        refine ⟨Found.cons, ?_⟩
        rintro ⟨a, t, b, heq, hne, hmatch⟩
        cases a with
        | nil =>
          rw [List.nil_append] at heq
          unfold MatchAt at hmatch
          rw [← heq, List.reverse_nil, List.nil_append, List.head?_eq_none_iff.mp hnone] at hmatch
          cases hmatch
        | cons c a =>
          obtain ⟨rfl, hrest⟩ := List.cons.inj heq
          exact ⟨a, t, b, hrest, hne, by simpa using hmatch⟩
  exact hfrom s.toList []

/-! ## Substituting a mark -/

/-- How many matches `pattern.subn(mark, text)` replaces. -/
def countFuel (isalnum : Char → Bool) (pattern : Regex) : Nat → List Char → List Char → Nat
  | 0, _, _ => 0
  | _ + 1, _, [] => 0
  | fuel + 1, behind, d :: ahead =>
    match (ends isalnum pattern ⟨behind, d :: ahead⟩).find?
        (fun e => behind.length < e.behind.length) with
    | some e => countFuel isalnum pattern fuel e.behind e.ahead + 1
    | none => countFuel isalnum pattern fuel (d :: behind) ahead

/-- `pattern.subn(mark, text)`. -/
def subn (isalnum : Char → Bool) (pattern : Regex) (mark : List Char) (s : String) : String × Nat :=
  (sub isalnum pattern (fun _ => mark) s, countFuel isalnum pattern s.length [] s.toList)

/-- A text behind another, with marks in place of so many matches: of the characters that are kept
none begins a match. -/
inductive Replaced (isalnum : Char → Bool) (pattern : Regex) (mark : List Char) :
    List Char → List Char → List Char → Nat → Prop
  | nil (behind : List Char) : Replaced isalnum pattern mark behind [] [] 0
  | keep {behind text out : List Char} {c : Char} {k : Nat}
      (hnone : ∀ t rest, c :: text = t ++ rest → t ≠ [] → ¬ MatchAt isalnum pattern behind t rest)
      (htail : Replaced isalnum pattern mark (c :: behind) text out k) :
      Replaced isalnum pattern mark behind (c :: text) (c :: out) k
  | cut {behind m text out : List Char} {k : Nat} (hne : m ≠ [])
      (hmatch : MatchAt isalnum pattern behind m text)
      (htail : Replaced isalnum pattern mark (m.reverse ++ behind) text out k) :
      Replaced isalnum pattern mark behind (m ++ text) (mark ++ out) (k + 1)

theorem replaced_subFuel (fuel : Nat) (behind ahead : List Char) (hfuel : ahead.length ≤ fuel) :
    Replaced isalnum pattern mark behind ahead
      (subFuel isalnum pattern (fun _ => mark) fuel behind ahead)
      (countFuel isalnum pattern fuel behind ahead) := by
  induction fuel generalizing behind ahead with
  | zero =>
    obtain rfl := List.length_eq_zero_iff.mp (Nat.le_zero.mp hfuel)
    exact .nil behind
  | succ fuel ih =>
    cases ahead with
    | nil => exact .nil behind
    | cons d ahead =>
      rw [List.length_cons] at hfuel
      unfold subFuel countFuel
      cases hfind : (ends isalnum pattern ⟨behind, d :: ahead⟩).find?
          (fun e => behind.length < e.behind.length) with
      | some e =>
        obtain ⟨t, hover, -⟩ := ends_reads (List.mem_of_find?_eq_some hfind)
        have hahead : d :: ahead = t ++ e.ahead := hover.1
        have hbehind : e.behind = t.reverse ++ behind := hover.2
        have hne : t ≠ [] := by
          rintro rfl
          have hlength := List.find?_some hfind
          rw [hbehind] at hlength
          simp at hlength
        have hmatch : MatchAt isalnum pattern behind t e.ahead := by
          have hmem := List.mem_of_find?_eq_some hfind
          unfold MatchAt
          rw [← hahead, ← hbehind]
          exact hmem
        have hlength : e.ahead.length ≤ fuel := by
          have hsum := congrArg List.length hahead
          have hpos := List.length_pos_iff.mpr hne
          rw [List.length_cons, List.length_append] at hsum
          omega
        have htail := ih e.behind e.ahead hlength
        dsimp only
        rw [hbehind] at htail ⊢
        rw [hahead]
        exact .cut hne hmatch htail
      | none =>
        refine .keep (fun t rest heq hne hmatch => ?_) (ih (d :: behind) ahead (by omega))
        unfold MatchAt at hmatch
        rw [← heq] at hmatch
        refine List.find?_eq_none.mp hfind _ hmatch (decide_eq_true ?_)
        have hpos := List.length_pos_iff.mpr hne
        rw [List.length_append, List.length_reverse]
        omega

/-- **The pieces of a substitution**, and their number. -/
theorem replaced_subn (s : String) : Replaced isalnum pattern mark [] s.toList
    (subn isalnum pattern mark s).1.toList (subn isalnum pattern mark s).2 := by
  unfold subn sub
  rw [String.toList_ofList]
  exact replaced_subFuel s.length [] s.toList (Nat.le_of_eq String.length_toList)

theorem Replaced.of_not_found {behind text out : List Char} {k : Nat}
    (h : Replaced isalnum pattern mark behind text out k)
    (hnot : ¬ Found isalnum pattern behind text) : out = text ∧ k = 0 := by
  induction h with
  | nil => exact ⟨rfl, rfl⟩
  | @keep behind text out c k _ _ ih =>
    obtain ⟨rfl, rfl⟩ := ih fun hfound => hnot hfound.cons
    exact ⟨rfl, rfl⟩
  | @cut behind m text out k hne hmatch _ _ =>
    exact absurd ⟨[], m, text, rfl, hne, hmatch⟩ hnot

/-! ## Boundaries -/

/-- A word begins or ends between two characters. -/
def Edge (isalnum : Char → Bool) (c d : Option Char) : Prop :=
  (isWord isalnum c != isWord isalnum d) = true

/-- `\b…\b`, around a pattern that does not look around. -/
def Bounded (pattern : Regex) : Prop :=
  ∃ core : Regex, core.Local ∧ pattern = .seq .boundary (.seq core .boundary)

theorem mem_ends_boundary {at_ e : Cursor} :
    e ∈ ends isalnum .boundary at_ ↔ e = at_ ∧ Edge isalnum at_.behind.head? at_.ahead.head? := by
  unfold ends Edge
  split
  · next hedge =>
    exact ⟨fun h => ⟨List.mem_singleton.mp h, hedge⟩, fun h => h.1 ▸ List.mem_singleton_self _⟩
  · next hnot => exact ⟨fun h => absurd h List.not_mem_nil, fun h => absurd h.2 hnot⟩

theorem matchAt_bounded {core : Regex} (hlocal : core.Local) {behind t ahead : List Char} :
    MatchAt isalnum (.seq .boundary (.seq core .boundary)) behind t ahead ↔
      core.Reads t ∧ Edge isalnum behind.head? (t ++ ahead).head? ∧
        Edge isalnum (t.reverse ++ behind).head? ahead.head? := by
  constructor
  · intro h
    obtain ⟨start, hstart, hrest⟩ := List.mem_flatMap.mp h
    obtain ⟨rfl, hfirst⟩ := mem_ends_boundary.mp hstart
    obtain ⟨stop, hcore, hstop⟩ := List.mem_flatMap.mp hrest
    obtain ⟨rfl, hlast⟩ := mem_ends_boundary.mp hstop
    exact ⟨MatchAt.reads hcore, hfirst, hlast⟩
  · rintro ⟨hreads, hfirst, hlast⟩
    refine List.mem_flatMap.mpr ⟨⟨behind, t ++ ahead⟩, mem_ends_boundary.mpr ⟨rfl, hfirst⟩, ?_⟩
    exact List.mem_flatMap.mpr ⟨⟨t.reverse ++ behind, ahead⟩,
      ends_complete hlocal hreads behind ahead, mem_ends_boundary.mpr ⟨rfl, hlast⟩⟩

/-! ## Behind the marks -/

section

variable {opening closing : Char}

theorem Replaced.of_cons {behind text out : List Char} {c : Char} {k : Nat}
    (h : Replaced isalnum pattern mark behind text (c :: out) k)
    (hopen : mark.head? = some opening) (hc : c ≠ opening) :
    ∃ text', text = c :: text' ∧ Replaced isalnum pattern mark (c :: behind) text' out k ∧
      ∀ t rest, text = t ++ rest → t ≠ [] → ¬ MatchAt isalnum pattern behind t rest := by
  generalize hout : c :: out = o at h
  cases h with
  | nil => cases hout
  | keep hnone htail =>
    obtain ⟨rfl, rfl⟩ := List.cons.inj hout
    exact ⟨_, rfl, htail, hnone⟩
  | cut hne hmatch htail =>
    cases mark with
    | nil => cases hopen
    | cons d mark =>
      obtain ⟨rfl, -⟩ := List.cons.inj hout
      exact absurd (Option.some.inj hopen) hc

theorem Replaced.kept {behind text t b : List Char} {k : Nat}
    (h : Replaced isalnum pattern mark behind text (t ++ b) k)
    (hopen : mark.head? = some opening) (ht : opening ∉ t) :
    ∃ text', text = t ++ text' ∧ Replaced isalnum pattern mark (t.reverse ++ behind) text' b k := by
  induction t generalizing behind text with
  | nil => exact ⟨text, rfl, h⟩
  | cons c t ih =>
    obtain ⟨text', rfl, htail, -⟩ := h.of_cons hopen fun heq => ht (heq ▸ List.mem_cons_self)
    obtain ⟨text'', rfl, hrest⟩ := ih htail fun hmem => ht (List.mem_cons_of_mem c hmem)
    exact ⟨text'', rfl, by simpa using hrest⟩

theorem Replaced.next {behind text out : List Char} {k : Nat}
    (h : Replaced isalnum pattern mark behind text out k) (hbounded : pattern.Bounded) :
    text.head? = out.head? ∨ Edge isalnum behind.head? text.head? := by
  obtain ⟨core, hlocal, rfl⟩ := hbounded
  cases h with
  | nil => exact .inl rfl
  | keep _ _ => exact .inl rfl
  | cut _ hmatch _ => exact .inr ((matchAt_bounded hlocal).mp hmatch).2.1

/-- What a pattern asks for that no mark gives it: it does not read the brackets, nor a part of the
mark, and it looks around only if the pattern of the marks does. -/
structure Shielded (pattern asked : Regex) (mark : List Char) (opening closing : Char) : Prop where
  opens : mark.head? = some opening
  closes : mark.getLast? = some closing
  reads : ∀ t, asked.Reads t → opening ∉ t ∧ closing ∉ t ∧ ¬ t <:+: mark
  looks : asked.Local ∨ (asked.Bounded ∧ pattern.Bounded)

theorem Replaced.match_front {behind text t b outBehind : List Char} {k : Nat}
    (h : Replaced isalnum pattern mark behind text (t ++ b) k)
    (hshield : Shielded pattern asked mark opening closing) (hne : t ≠ [])
    (hjoin : asked.Local ∨ outBehind.head? = behind.head? ∨ Edge isalnum behind.head? text.head?)
    (hmatch : MatchAt isalnum asked outBehind t b) :
    ∃ text', text = t ++ text' ∧ MatchAt isalnum asked behind t text' := by
  obtain ⟨text', rfl, htail⟩ := h.kept hshield.opens (hshield.reads t hmatch.reads).1
  refine ⟨text', rfl, ?_⟩
  rcases hshield.looks with hlocal | ⟨⟨core, hlocal, rfl⟩, hbounded⟩
  · exact (matchAt_local hlocal).mpr hmatch.reads
  · obtain ⟨hreads, hfirst, hlast⟩ := (matchAt_bounded hlocal).mp hmatch
    have hhead : ∀ rest : List Char, (t ++ rest).head? = t.head? := fun rest =>
      List.head?_append_of_ne_nil t hne
    have hend : ∀ front : List Char, (t.reverse ++ front).head? = t.reverse.head? := fun front =>
      List.head?_append_of_ne_nil _ (by simpa using hne)
    refine (matchAt_bounded hlocal).mpr ⟨hreads, ?_, ?_⟩
    · rcases hjoin with hcontra | hsame | hedge
      · exact absurd hcontra.1 id
      · rw [← hsame, hhead text', ← hhead b]
        exact hfirst
      · exact hedge
    · rcases htail.next hbounded with hsame | hedge
      · rw [hsame, hend behind, ← hend outBehind]
        exact hlast
      · exact hedge

/-- **Behind the marks nothing new matches**: not the pattern itself, and no other that did not
match before. -/
theorem Replaced.not_found {behind text out : List Char} {k : Nat}
    (h : Replaced isalnum pattern mark behind text out k)
    (hshield : Shielded pattern asked mark opening closing)
    (hnot : asked = pattern ∨ ¬ Found isalnum asked behind text) (outBehind : List Char)
    (hjoin : asked.Local ∨ outBehind.head? = behind.head? ∨ Edge isalnum behind.head? text.head?) :
    ¬ Found isalnum asked outBehind out := by
  induction h generalizing outBehind with
  | nil =>
    rintro ⟨a, t, b, heq, hne, -⟩
    exact hne (List.append_eq_nil_iff.mp (List.append_eq_nil_iff.mp heq.symm).1).2
  | @keep behind text out c k hnone htail ih =>
    rintro ⟨a, t, b, heq, hne, hmatch⟩
    cases a with
    | nil =>
      have hwhole : Replaced isalnum pattern mark behind (c :: text) (t ++ b) k := by
        rw [← List.nil_append t, ← heq]
        exact .keep hnone htail
      obtain ⟨text', htext, hbefore⟩ := hwhole.match_front hshield hne hjoin hmatch
      rcases hnot with rfl | hnot
      · exact hnone t text' htext hne hbefore
      · exact hnot ⟨[], t, text', htext, hne, hbefore⟩
    | cons d a =>
      obtain ⟨rfl, hrest⟩ := List.cons.inj heq
      refine ih (hnot.imp_right fun hnot hfound => hnot hfound.cons) (c :: outBehind)
        (.inr (.inl rfl)) ⟨a, t, b, hrest, hne, ?_⟩
      simpa using hmatch
  | @cut behind m text out k hne' hmatch' htail ih =>
    rintro ⟨a, t, b, heq, hne, hmatch⟩
    obtain ⟨hopening, hclosing, hinside⟩ := hshield.reads t hmatch.reads
    have hafter : ∀ a', a = mark ++ a' → out = a' ++ t ++ b → False := by
      rintro a' rfl hout
      refine ih (hnot.imp_right fun hnot hfound => hnot hfound.append)
        (mark.reverse ++ outBehind) ?_ ⟨a', t, b, hout, hne, by simpa using hmatch⟩
      refine hshield.looks.imp_right fun hlooks => .inr ?_
      obtain ⟨core, hlocal, rfl⟩ := hlooks.2
      exact ((matchAt_bounded hlocal).mp hmatch').2.2
    rw [List.append_assoc] at heq
    rcases List.append_eq_append_iff.mp heq with ⟨a', ha, hout⟩ | ⟨x, hmark, hx⟩
    · exact hafter a' ha (by rw [hout, List.append_assoc])
    · -- the match would begin inside the mark, and end there or hold its closing bracket
      rcases List.append_eq_append_iff.mp hx.symm with ⟨y, ht, -⟩ | ⟨y, hxt, -⟩
      · cases x with
        | nil =>
          refine hafter [] (by rw [hmark, List.append_nil, List.append_nil]) ?_
          exact hx.symm
        | cons d x =>
          refine hclosing (ht ▸ List.mem_append_left y ?_)
          have hlast := hshield.closes
          rw [hmark, List.getLast?_append_of_ne_nil _ (List.cons_ne_nil d x)] at hlast
          exact List.mem_of_getLast? hlast
      · exact hinside ⟨a, y, by rw [hmark, hxt, List.append_assoc]⟩

end

/-! ## Building patterns -/

/-- `\b…\b`. -/
def bounded (core : Regex) : Regex := .seq .boundary (.seq core .boundary)

/-- `r{n}`. -/
def copies : Nat → Regex → Regex
  | 0, _ => empty
  | n + 1, r => seq r (copies n r)

/-- `r{0,n}`. -/
def atMost : Nat → Regex → Regex
  | 0, _ => empty
  | n + 1, r => alt (seq r (atMost n r)) empty

theorem local_copies {r : Regex} (h : r.Local) (n : Nat) : (copies n r).Local := by
  induction n with
  | zero => exact trivial
  | succ n ih => exact ⟨h, ih⟩

theorem local_atMost {r : Regex} (h : r.Local) (n : Nat) : (atMost n r).Local := by
  induction n with
  | zero => exact trivial
  | succ n ih => exact ⟨⟨h, ih⟩, trivial⟩

theorem within_copies {inC : Char → Bool} {r : Regex} (h : r.Within inC) (n : Nat) :
    (copies n r).Within inC := by
  induction n with
  | zero => exact trivial
  | succ n ih => exact ⟨h, ih⟩

theorem within_atMost {inC : Char → Bool} {r : Regex} (h : r.Within inC) (n : Nat) :
    (atMost n r).Within inC := by
  induction n with
  | zero => exact trivial
  | succ n ih => exact ⟨⟨h, ih⟩, trivial⟩

/-- Every text of the pattern holds a character of a class. -/
def Holds (p : Char → Bool) : Regex → Prop
  | .one q => ∀ c, q c = true → p c = true
  | .seq a b => Holds p a ∨ Holds p b
  | .alt a b => Holds p a ∧ Holds p b
  | _ => False

theorem Holds.exists {p : Char → Bool} (h : pattern.Holds p) {t : List Char}
    (ht : pattern.Reads t) : ∃ c ∈ t, p c = true := by
  induction pattern generalizing t with
  | one q =>
    obtain ⟨c, rfl, hc⟩ := ht
    exact ⟨c, List.mem_singleton_self c, h c hc⟩
  | seq a b iha ihb =>
    obtain ⟨u, v, rfl, hu, hv⟩ := ht
    rcases h with ha | hb
    · obtain ⟨c, hc, hp⟩ := iha ha hu
      exact ⟨c, List.mem_append_left v hc, hp⟩
    · obtain ⟨c, hc, hp⟩ := ihb hb hv
      exact ⟨c, List.mem_append_right u hc, hp⟩
  | alt a b iha ihb =>
    rcases ht with ht | ht
    · exact iha h.1 ht
    · exact ihb h.2 ht
  | _ => exact h.elim

theorem Holds.minLength_pos {p : Char → Bool} (h : pattern.Holds p) : 0 < pattern.minLength := by
  induction pattern with
  | one q => exact Nat.one_pos
  | seq a b iha ihb =>
    rcases h with ha | hb
    · exact Nat.add_pos_left (iha ha) _
    · exact Nat.add_pos_right _ (ihb hb)
  | alt a b iha ihb => exact Nat.lt_min.mpr ⟨iha h.1, ihb h.2⟩
  | _ => exact h.elim

end Regex
