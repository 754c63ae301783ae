import Mathlib.Data.List.DropRight
import LlmProxy.Lib.PyStr

/-! # Stripped fields

What `strip` leaves of a text, and what `split` makes of fields that are joined by a separator none
of them holds.
-/

namespace PyStr

/-- `s.rstrip()`, on characters. -/
def stripRight (cs : List Char) : List Char := (cs.reverse.dropWhile isSpace).reverse

theorem strip_ofList (cs : List Char) :
    strip (String.ofList cs) = String.ofList (stripRight (cs.dropWhile isSpace)) := by
  rw [strip, String.toList_ofList]
  rfl

theorem stripRight_append_spaces {u sp : List Char} (h : ∀ c ∈ sp, isSpace c = true) :
    stripRight (u ++ sp) = stripRight u := by
  unfold stripRight
  rw [List.reverse_append, List.dropWhile_append_of_pos]
  intro c hc
  exact h c (List.mem_reverse.mp hc)

/-! ## White space and letters -/

theorem toLower_of_not_upper {c : Char} (h : c.toNat < 65 ∨ 90 < c.toNat) : c.toLower = c := by
  unfold Char.toLower
  refine dif_neg fun hbetween => ?_
  have hlow : 65 ≤ c.toNat := UInt32.le_iff_toNat_le.mp hbetween.1
  have hhigh : c.toNat ≤ 90 := UInt32.le_iff_toNat_le.mp hbetween.2
  omega

theorem space_not_upper {c : Char} (h : isSpace c = true) : c.toNat < 65 ∨ 90 < c.toNat := by
  by_contra hbetween
  have hrange : 65 ≤ c.toNat ∧ c.toNat ≤ 90 := by omega
  unfold isSpace at h
  simp only [Bool.or_eq_true, Bool.and_eq_true, decide_eq_true_eq, beq_iff_eq] at h
  omega

theorem mem_lower {s : String} {c : Char} (hupper : c.toNat < 65 ∨ 90 < c.toNat)
    (h : c ∈ s.toList) : c ∈ (lower s).toList := by
  unfold lower
  rw [String.toList_ofList]
  exact List.mem_map.mpr ⟨c, h, toLower_of_not_upper hupper⟩

/-! ## Stripping -/

/-- A text is what `rstrip` leaves, and white space. -/
theorem exists_stripRight_append (u : List Char) :
    ∃ sp, u = stripRight u ++ sp ∧ ∀ c ∈ sp, isSpace c = true := by
  refine ⟨(u.reverse.takeWhile isSpace).reverse, ?_, ?_⟩
  · unfold stripRight
    rw [← List.reverse_append, List.takeWhile_append_dropWhile, List.reverse_reverse]
  · intro c hc
    exact List.mem_takeWhile_imp (List.mem_reverse.mp hc)

/-- What `rstrip` leaves ends with no white space. -/
theorem last_stripRight {u : List Char} {d : Char} (h : (stripRight u).getLast? = some d) :
    isSpace d = false := by
  unfold stripRight at h
  rw [List.getLast?_reverse] at h
  have hnot := List.head?_dropWhile_not isSpace u.reverse
  rw [h] at hnot
  exact hnot

theorem stripRight_append_of_last {a b : List Char} {d : Char} (hd : isSpace d = false)
    (ha : a.getLast? = some d) : stripRight (a ++ b) = a ++ stripRight b := by
  obtain ⟨init, rfl⟩ := List.getLast?_eq_some_iff.mp ha
  have hstays : (init ++ [d]).reverse.dropWhile isSpace = (init ++ [d]).reverse := by
    rw [List.reverse_append, List.reverse_singleton, List.singleton_append,
      List.dropWhile_cons_of_neg (by simp [hd])]
  unfold stripRight
  rw [List.reverse_append, List.dropWhile_append, hstays]
  split
  · next hempty =>
    rw [List.isEmpty_iff.mp hempty, List.reverse_reverse, List.reverse_nil, List.append_nil]
  · rw [List.reverse_append, List.reverse_reverse]

/-- White space at either end is nothing to `strip`. -/
theorem strip_cons_space {c : Char} (hc : isSpace c = true) (cs : List Char) :
    strip (String.ofList (c :: cs)) = strip (String.ofList cs) := by
  rw [strip_ofList, strip_ofList, List.dropWhile_cons_of_pos hc]

theorem strip_append_spaces {u sp : List Char} (h : ∀ c ∈ sp, isSpace c = true) :
    strip (String.ofList (u ++ sp)) = strip (String.ofList u) := by
  rw [strip_ofList, strip_ofList]
  by_cases hu : ∀ c ∈ u, isSpace c = true
  · have hall : ∀ c ∈ u ++ sp, isSpace c = true := fun c hc =>
      (List.mem_append.mp hc).elim (hu c) (h c)
    rw [List.dropWhile_eq_nil_iff.mpr hall, List.dropWhile_eq_nil_iff.mpr hu]
  · have hne : u.dropWhile isSpace ≠ [] := fun hnil => hu (List.dropWhile_eq_nil_iff.mp hnil)
    rw [List.dropWhile_append, if_neg (by simpa using hne), stripRight_append_spaces h]

theorem strip_stripRight (u : List Char) :
    strip (String.ofList (stripRight u)) = strip (String.ofList u) := by
  obtain ⟨sp, hu, hsp⟩ := exists_stripRight_append u
  conv => rhs; rw [hu]
  exact (strip_append_spaces hsp).symm

theorem strip_strip (s : String) : strip (strip s) = strip s := by
  have hs : strip s = String.ofList (stripRight (s.toList.dropWhile isSpace)) := by
    rw [← strip_ofList, String.ofList_toList]
  rw [hs, strip_stripRight, strip_ofList, List.dropWhile_idempotent]

theorem strip_of_head {c : Char} {cs : List Char} (hc : isSpace c = false) :
    strip (String.ofList (c :: cs)) = String.ofList (stripRight (c :: cs)) := by
  rw [strip_ofList, List.dropWhile_cons_of_neg (by simp [hc])]

theorem length_strip_le (cs : List Char) : (strip (String.ofList cs)).toList.length ≤ cs.length := by
  rw [strip_ofList, String.toList_ofList]
  unfold stripRight
  rw [List.length_reverse]
  refine (List.length_dropWhile_le _ _).trans ?_
  rw [List.length_reverse]
  exact List.length_dropWhile_le _ _

theorem head_of_strip {c : Char} {cs : List Char}
    (h : strip (String.ofList (c :: cs)) = String.ofList (c :: cs)) : isSpace c = false := by
  by_contra hspace
  have hlength := length_strip_le cs
  rw [← strip_cons_space (Bool.not_eq_false _ ▸ hspace), h, String.toList_ofList,
    List.length_cons] at hlength
  omega

theorem last_of_strip {d : Char} {init : List Char}
    (h : strip (String.ofList (init ++ [d])) = String.ofList (init ++ [d])) : isSpace d = false := by
  by_contra hspace
  have hblank : ∀ c ∈ [d], isSpace c = true := by
    intro c hc
    rw [List.mem_singleton.mp hc]
    exact Bool.not_eq_false _ ▸ hspace
  have hlength := length_strip_le init
  rw [← strip_append_spaces hblank, h, String.toList_ofList, List.length_append,
    List.length_singleton] at hlength
  omega

theorem strip_eq_of_all {s : String} (h : ∀ c ∈ s.toList, isSpace c = false) : strip s = s := by
  have hdrop : ∀ cs : List Char, (∀ c ∈ cs, isSpace c = false) → cs.dropWhile isSpace = cs := by
    intro cs hcs
    cases cs with
    | nil => rfl
    | cons c cs => exact List.dropWhile_cons_of_neg (by simp [hcs c List.mem_cons_self])
  unfold strip
  rw [hdrop _ h, hdrop _ fun c hc => h c (List.mem_reverse.mp hc), List.reverse_reverse,
    String.ofList_toList]

/-! ## Fields -/

variable {sep : Char}

theorem splitChars_of_notMem {cs : List Char} (h : sep ∉ cs) : splitChars sep cs = [cs] := by
  induction cs with
  | nil => rfl
  | cons c cs ih =>
    have hc : c ≠ sep := fun heq => h (heq ▸ List.mem_cons_self)
    rw [splitChars, if_neg hc, ih fun hmem => h (List.mem_cons_of_mem c hmem)]

theorem splitChars_append_sep {cs rest : List Char} (h : sep ∉ cs) :
    splitChars sep (cs ++ sep :: rest) = cs :: splitChars sep rest := by
  induction cs with
  | nil => rw [List.nil_append, splitChars, if_pos rfl]
  | cons c cs ih =>
    have hc : c ≠ sep := fun heq => h (heq ▸ List.mem_cons_self)
    rw [List.cons_append, splitChars, if_neg hc, ih fun hmem => h (List.mem_cons_of_mem c hmem)]

theorem strip_append_front {front cs : List Char} (h : ∀ c ∈ front, isSpace c = true) :
    strip (String.ofList (front ++ cs)) = strip (String.ofList cs) := by
  induction front with
  | nil => rfl
  | cons c front ih =>
    obtain ⟨hc, hfront⟩ := List.forall_mem_cons.mp h
    rw [List.cons_append, strip_cons_space hc, ih hfront]

theorem toList_join_cons (f g : String) (fs : List String) :
    (join ", " (f :: g :: fs)).toList = f.toList ++ ',' :: ([' '] ++ (join ", " (g :: fs)).toList) := by
  rw [join, String.intercalate_cons_cons, String.toList_append, String.toList_append,
    List.append_assoc]
  rfl

theorem splitChars_join {front : List Char} (hcomma : ',' ∉ front)
    (hspace : ∀ c ∈ front, isSpace c = true) (f : String) (fs : List String)
    (h : ∀ g ∈ f :: fs, ',' ∉ g.toList) :
    (splitChars ',' (front ++ (join ", " (f :: fs)).toList)).map
      (fun cs => strip (String.ofList cs)) = (f :: fs).map strip := by
  have hfirst : ',' ∉ front ++ f.toList := by
    rw [List.mem_append, not_or]
    exact ⟨hcomma, h f List.mem_cons_self⟩
  have hone : strip (String.ofList (front ++ f.toList)) = strip f := by
    rw [strip_append_front hspace, String.ofList_toList]
  induction fs generalizing front f with
  | nil =>
    have hjoin : join ", " [f] = f := String.intercalate_singleton
    rw [hjoin, splitChars_of_notMem hfirst, List.map_singleton, List.map_singleton, hone]
  | cons g fs ih =>
    have hg := fun x hx => h x (List.mem_cons_of_mem f hx)
    rw [toList_join_cons, ← List.append_assoc, splitChars_append_sep hfirst, List.map_cons,
      List.map_cons, hone]
    refine congrArg (strip f :: ·) (ih (by decide) ?_ g hg ?_ ?_)
    · intro c hc
      rw [List.mem_singleton.mp hc]
      rfl
    · rw [List.mem_append, not_or]
      exact ⟨by decide, hg g List.mem_cons_self⟩
    · have hblank : ∀ c ∈ [' '], isSpace c = true := by
        intro c hc
        rw [List.mem_singleton.mp hc]
        rfl
      rw [strip_append_front hblank, String.ofList_toList]

/-- **Joined fields** are split into the fields, up to white space. -/
theorem split_join {f : String} {fs : List String} (h : ∀ g ∈ f :: fs, ',' ∉ g.toList) :
    (split (join ", " (f :: fs)) ',').map strip = (f :: fs).map strip := by
  have hsplit := splitChars_join List.not_mem_nil nofun f fs h
  rw [split, List.map_map]
  exact hsplit

theorem split_join_comma {f : String} {fs : List String} (h : ∀ g ∈ f :: fs, ',' ∉ g.toList) :
    split (join "," (f :: fs)) ',' = f :: fs := by
  induction fs generalizing f with
  | nil =>
    have hjoin : join "," [f] = f := String.intercalate_singleton
    rw [hjoin, split, splitChars_of_notMem (h f List.mem_cons_self), List.map_singleton,
      String.ofList_toList]
  | cons g fs ih =>
    have hrest := ih fun x hx => h x (List.mem_cons_of_mem f hx)
    have hjoin : (join "," (f :: g :: fs)).toList = f.toList ++ ',' :: (join "," (g :: fs)).toList := by
      rw [join, String.intercalate_cons_cons, String.toList_append, String.toList_append,
        List.append_assoc]
      rfl
    rw [split] at hrest ⊢
    rw [hjoin, splitChars_append_sep (h f List.mem_cons_self), List.map_cons, String.ofList_toList,
      hrest]

theorem partition_append {c : Char} {before behind : List Char} (h : c ∉ before) :
    partition (String.ofList (before ++ c :: behind)) c =
      (String.ofList before, String.ofList behind) := by
  have hbefore : ∀ d ∈ before, decide (d ≠ c) = true := fun d hd =>
    decide_eq_true fun heq => h (heq ▸ hd)
  unfold partition
  rw [String.toList_ofList, List.takeWhile_append_of_pos hbefore,
    List.dropWhile_append_of_pos hbefore]
  simp

end PyStr
