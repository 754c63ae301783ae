import LlmProxy.Lib.Lettered

/-! # Edits of a text

What it is to replace the first occurrence of a text and to insert a line, as relations between
the text before and after: every other character stays. `replaceFirst` does the one. Splitting a
text into lines, putting one in and joining them with line feeds does the other for some texts
only:

> `joined_insert_iff`: the lines are joined to what they were split from exactly when they are
> separated by line feeds, and no line break is last unless the new line is.

A break-free text that ends with a line feed is the `terminated` of its lines, one that does not
is their `joined`.
-/

namespace TextEdits

open Lettered (isLineBreak splitLinesFrom replaceFirst)

/-! ## Replacing -/

/-- The first occurrence of `old` is replaced. -/
def ReplacesFirst (old new content result : List Char) : Prop :=
  ∃ front back, content = front ++ old ++ back ∧ result = front ++ new ++ back ∧
    ∀ front' back', content = front' ++ old ++ back' → front.length ≤ front'.length

theorem replacesFirst_replaceFirst {old : List Char} (new : List Char) {content : List Char}
    (h : PyStr.anyTail (old.isPrefixOf ·) content = true) :
    ReplacesFirst old new content (replaceFirst id old new content) := by
  induction content with
  | nil =>
    have hold : old = [] := List.prefix_nil.mp (List.isPrefixOf_iff_prefix.mp h)
    subst hold
    exact ⟨[], [], rfl, by simp [replaceFirst], fun _ _ _ => Nat.zero_le _⟩
  | cons c rest ih =>
    unfold replaceFirst
    rw [List.map_id]
    by_cases hprefix : old.isPrefixOf (c :: rest) = true
    · rw [if_pos hprefix]
      obtain ⟨back, hback⟩ := List.isPrefixOf_iff_prefix.mp hprefix
      refine ⟨[], back, hback.symm, ?_, fun _ _ _ => Nat.zero_le _⟩
      rw [← hback, List.drop_left]
      rfl
    · rw [if_neg hprefix]
      have htail : PyStr.anyTail (old.isPrefixOf ·) rest = true := by
        unfold PyStr.anyTail at h
        rw [Bool.or_eq_true] at h
        exact h.resolve_left hprefix
      obtain ⟨front, back, hwhole, hresult, hfirst⟩ := ih htail
      refine ⟨c :: front, back, by rw [hwhole]; rfl, by rw [hresult]; rfl, ?_⟩
      intro front' back' hother
      cases front' with
      | nil => exact absurd (List.isPrefixOf_iff_prefix.mpr ⟨back', hother.symm⟩) hprefix
      | cons d front' =>
        have hrest : rest = front' ++ old ++ back' := (List.cons.inj hother).2
        exact Nat.succ_le_succ (hfirst front' back' hrest)

/-! ## Lines -/

abbrev splitLines (content : List Char) : List (List Char) := Lettered.splitLines id content

def terminated (lines : List (List Char)) : List Char := lines.flatMap (· ++ ['\n'])

/-- `"\n".join(lines)`. -/
def joined (lines : List (List Char)) : List Char := ['\n'].intercalate lines

def endsBreak (content : List Char) : Bool := content.getLast?.any isLineBreak

/-- No character of the line ends one. -/
def Unbroken (line : List Char) : Prop := ∀ c ∈ line, isLineBreak c = false

theorem joined_cons_cons (line next : List Char) (lines : List (List Char)) :
    joined (line :: next :: lines) = line ++ '\n' :: joined (next :: lines) := by
  unfold joined
  rw [List.intercalate_cons_cons]
  simp

theorem joined_append_cons (front : List (List Char)) (line : List Char) (back : List (List Char)) :
    joined (front ++ line :: back) = terminated front ++ joined (line :: back) := by
  induction front with
  | nil => rfl
  | cons first front ih =>
    cases front with
    | nil => rw [List.singleton_append, joined_cons_cons]; simp [terminated]
    | cons second front =>
      rw [List.cons_append, List.cons_append, joined_cons_cons, ← List.cons_append, ih]
      simp [terminated]

theorem terminated_eq_joined {lines : List (List Char)} (h : lines ≠ []) :
    terminated lines = joined lines ++ ['\n'] := by
  induction lines with
  | nil => exact absurd rfl h
  | cons line lines ih =>
    cases lines with
    | nil => simp [terminated, joined]
    | cons next lines =>
      have hrest := ih (List.cons_ne_nil _ _)
      rw [joined_cons_cons, List.append_assoc, List.cons_append, ← hrest]
      simp [terminated]

theorem endsBreak_terminated {lines : List (List Char)} (h : lines ≠ []) :
    endsBreak (terminated lines) = true := by
  rw [terminated_eq_joined h]
  unfold endsBreak
  rw [List.getLast?_concat]
  rfl

theorem endsBreak_cons {c : Char} {rest : List Char} (h : rest ≠ []) :
    endsBreak (c :: rest) = endsBreak rest := by
  unfold endsBreak
  rw [List.getLast?_cons_of_ne_nil h]

/-! ### Splitting -/

theorem splitLinesFrom_eq_nil {content : List Char} (h : splitLinesFrom id false content = []) :
    content = [] := by
  cases content with
  | nil => rfl
  | cons c rest =>
    exfalso
    simp only [splitLinesFrom, Bool.false_and, Bool.false_eq_true, if_false] at h
    split at h
    · cases h
    · split at h
      · cases h
      · cases h

theorem unbroken_of_mem (afterReturn : Bool) (content : List Char) :
    ∀ line ∈ splitLinesFrom id afterReturn content, Unbroken line := by
  induction content generalizing afterReturn with
  | nil => exact List.forall_mem_nil _
  | cons c rest ih =>
    intro line hline
    unfold splitLinesFrom at hline
    split at hline
    · exact ih false line hline
    · split at hline
      · rcases List.mem_cons.mp hline with rfl | hrest
        · exact List.forall_mem_nil _
        · exact ih _ line hrest
      · next hbreak =>
        have hc : isLineBreak c = false := Bool.eq_false_iff.mpr hbreak
        have hfirst : ∀ line', Unbroken line' → Unbroken (c :: line') := by
          intro line' h d hd
          rcases List.mem_cons.mp hd with rfl | hd
          · exact hc
          · exact h d hd
        split at hline
        · rw [List.mem_singleton.mp hline]
          exact hfirst [] (List.forall_mem_nil _)
        · next first lines hsplit =>
          have hlines := ih false
          rw [hsplit] at hlines
          rcases List.mem_cons.mp hline with rfl | hrest
          · exact hfirst first (hlines first List.mem_cons_self)
          · exact hlines line (List.mem_cons_of_mem _ hrest)

theorem length_terminated_le (afterReturn : Bool) (content : List Char) :
    (terminated (splitLinesFrom id afterReturn content)).length ≤
      content.length + if content = [] ∨ endsBreak content = true then 0 else 1 := by
  induction content generalizing afterReturn with
  | nil => simp [splitLinesFrom, terminated]
  | cons c rest ih =>
    have hshort : ∀ flag, (terminated (splitLinesFrom id flag rest)).length ≤ rest.length + 1 := by
      intro flag
      refine Nat.le_trans (ih flag) (Nat.add_le_add_left ?_ _)
      split <;> omega
    have hends : endsBreak (c :: rest) = true → rest ≠ [] → ∀ flag,
        (terminated (splitLinesFrom id flag rest)).length ≤ rest.length := by
      intro hlast hne flag
      rw [endsBreak_cons hne] at hlast
      have hrest := ih flag
      rw [if_pos (Or.inr hlast)] at hrest
      exact hrest
    simp only [List.cons_ne_nil, false_or, List.length_cons]
    unfold splitLinesFrom
    split
    · -- a line feed that belongs to the return before it
      have := hshort false
      omega
    · split
      · have hline : terminated ([] :: splitLinesFrom id (id c == '\r') rest) =
            '\n' :: terminated (splitLinesFrom id (id c == '\r') rest) := rfl
        rw [hline, List.length_cons]
        by_cases hlast : endsBreak (c :: rest) = true
        · rw [if_pos hlast]
          by_cases hne : rest = []
          · subst hne
            simp [splitLinesFrom, terminated]
          · have := hends hlast hne (id c == '\r')
            omega
        · rw [if_neg hlast]
          have := hshort (id c == '\r')
          omega
      · next hbreak =>
        split
        · next hsplit =>
          have hnil := splitLinesFrom_eq_nil hsplit
          subst hnil
          have hlast : ¬ endsBreak [c] = true := by simpa [endsBreak] using hbreak
          rw [if_neg hlast]
          simp [terminated]
        · next line lines hsplit =>
          have hcons : (terminated ((c :: line) :: lines)).length =
              (terminated (line :: lines)).length + 1 := by
            simp only [terminated, List.flatMap_cons, List.length_append, List.length_cons]
            omega
          rw [hcons, ← hsplit]
          by_cases hlast : endsBreak (c :: rest) = true
          · rw [if_pos hlast]
            have hne : rest ≠ [] := by
              intro hnil
              rw [hnil] at hsplit
              cases hsplit
            have := hends hlast hne false
            omega
          · rw [if_neg hlast]
            have := hshort false
            omega

theorem splitLinesFrom_line {line : List Char} (h : Unbroken line) (rest : List Char) :
    splitLinesFrom id false (line ++ '\n' :: rest) = line :: splitLinesFrom id false rest := by
  induction line with
  | nil =>
    have hfeed : isLineBreak '\n' = true := by decide
    simp [splitLinesFrom, hfeed]
  | cons c line ih =>
    have hc : isLineBreak c = false := h c List.mem_cons_self
    rw [List.cons_append, splitLinesFrom, ih fun d hd => h d (List.mem_cons_of_mem _ hd)]
    simp [hc]

theorem splitLines_terminated_append {lines : List (List Char)} (h : ∀ line ∈ lines, Unbroken line)
    (rest : List Char) : splitLines (terminated lines ++ rest) = lines ++ splitLines rest := by
  induction lines with
  | nil => rfl
  | cons line lines ih =>
    have hline : terminated (line :: lines) ++ rest =
        line ++ '\n' :: (terminated lines ++ rest) := by
      simp [terminated]
    rw [hline]
    show splitLinesFrom id false _ = _
    rw [splitLinesFrom_line (h line List.mem_cons_self)]
    have hrest := ih fun l hl => h l (List.mem_cons_of_mem _ hl)
    exact congrArg (line :: ·) hrest

/-! ## Inserting a line -/

/-- The text is cut behind its first `i` lines. -/
structure CutAt (i : Nat) (content front back : List Char) : Prop where
  whole : content = front ++ back
  linesBefore : splitLines front = (splitLines content).take i
  linesAfter : splitLines back = (splitLines content).drop i
  boundary : front = [] ∨ endsBreak front = true ∨ back = []

def opening (front : List Char) : List Char :=
  if front = [] ∨ endsBreak front = true then [] else ['\n']

/-- A text is put in as a line of its own behind the first `i` lines, and every other character
stays; behind the last line it may end with a line feed or not. -/
def InsertsLine (i : Nat) (text content result : List Char) : Prop :=
  ∃ front back, CutAt i content front back ∧
    (back ≠ [] ∧ result = front ++ text ++ '\n' :: back ∨
      back = [] ∧ ∃ ending, (ending = [] ∨ ending = ['\n']) ∧
        result = front ++ opening front ++ text ++ ending)

/-- The lines of the text are separated by line feeds, and the last one is ended by one only if
the cut is behind it. -/
def PlainLines (i : Nat) (content : List Char) : Prop :=
  joined (splitLines content) = content ∨
    (splitLines content).length ≤ i ∧ terminated (splitLines content) = content

variable {i : Nat} {text content : List Char}

theorem length_terminated_le_opening (content : List Char) :
    (terminated (splitLines content)).length ≤ content.length + (opening content).length := by
  have h := length_terminated_le false content
  unfold opening
  split
  · next hends =>
    rw [if_pos hends] at h
    exact h
  · next hends =>
    rw [if_neg hends] at h
    exact h

theorem plainLines_of_inserts
    (h : InsertsLine i text content
      (joined ((splitLines content).take i ++ text :: (splitLines content).drop i))) :
    PlainLines i content := by
  obtain ⟨front, back, cut, ⟨hne, hresult⟩ | ⟨rfl, ending, -, hresult⟩⟩ := h
  · -- lines follow: the two parts are no longer than their lines, so they are these
    left
    have hdrop : (splitLines content).drop i ≠ [] := by
      rw [← cut.linesAfter]
      exact fun hnil => hne (splitLinesFrom_eq_nil hnil)
    obtain ⟨next, rest, hnext⟩ := List.exists_cons_of_ne_nil hdrop
    have hfrontLength := length_terminated_le_opening front
    have hopening : opening front = [] := by
      unfold opening
      exact if_pos (cut.boundary.imp id fun h => h.resolve_right hne)
    rw [hopening, cut.linesBefore] at hfrontLength
    have hbackLength := length_terminated_le false back
    have hback : splitLinesFrom id false back = next :: rest := cut.linesAfter.trans hnext
    rw [hback, terminated_eq_joined (List.cons_ne_nil _ _)] at hbackLength
    have hbackShort : (joined (next :: rest)).length ≤ back.length := by
      rw [List.length_append, List.length_singleton] at hbackLength
      split at hbackLength <;> omega
    rw [hnext, joined_append_cons, joined_cons_cons] at hresult
    have hlength := congrArg List.length hresult
    simp only [List.length_append, List.length_cons, List.length_nil] at hlength hfrontLength
    obtain ⟨hfront, htail⟩ := List.append_inj (hresult.trans (List.append_assoc _ _ _)) (by omega)
    have hrest := List.append_cancel_left htail
    have hbackEq : joined (next :: rest) = back := (List.cons.inj hrest).2
    calc joined (splitLines content)
        = joined ((splitLines content).take i ++ next :: rest) := by
          rw [← hnext, List.take_append_drop]
      _ = terminated ((splitLines content).take i) ++ joined (next :: rest) :=
          joined_append_cons _ _ _
      _ = front ++ back := by rw [hfront, hbackEq]
      _ = content := cut.whole.symm
  · have hwhole : content = front := by rw [cut.whole, List.append_nil]
    have hdrop : (splitLines content).drop i = [] := cut.linesAfter.symm
    have htake : (splitLines content).take i = splitLines content := by
      rw [← List.append_nil ((splitLines content).take i), ← hdrop, List.take_append_drop]
    have hshort : (splitLines content).length ≤ i := List.drop_eq_nil_iff.mp hdrop
    rw [hdrop, htake, joined_append_cons, ← hwhole] at hresult
    have htext : joined [text] = text := List.intercalate_singleton
    rw [htext] at hresult
    have hle := length_terminated_le_opening content
    have hlength := congrArg List.length hresult
    simp only [List.length_append] at hlength
    have hlines : terminated (splitLines content) = content ++ opening content := by
      rw [List.append_assoc] at hresult
      refine (List.append_inj hresult ?_).1
      rw [List.length_append]
      omega
    by_cases hends : content = [] ∨ endsBreak content = true
    · have hopening : opening content = [] := if_pos hends
      rw [hopening, List.append_nil] at hlines
      exact Or.inr ⟨hshort, hlines⟩
    · have hopening : opening content = ['\n'] := if_neg hends
      have hne : splitLines content ≠ [] := fun hnil =>
        hends (Or.inl (splitLinesFrom_eq_nil hnil))
      rw [hopening, terminated_eq_joined hne] at hlines
      exact Or.inl (List.append_cancel_right hlines)

theorem inserts_of_plainLines (h : PlainLines i content) :
    InsertsLine i text content
      (joined ((splitLines content).take i ++ text :: (splitLines content).drop i)) := by
  have hunbroken := unbroken_of_mem false content
  have htext : joined [text] = text := List.intercalate_singleton
  by_cases hdrop : (splitLines content).drop i = []
  · have hshort : (splitLines content).length ≤ i := List.drop_eq_nil_iff.mp hdrop
    have htake : (splitLines content).take i = splitLines content := List.take_of_length_le hshort
    rw [hdrop, htake, joined_append_cons, htext]
    refine ⟨content, [], ⟨(List.append_nil _).symm, htake.symm, hdrop.symm, Or.inr (Or.inr rfl)⟩,
      Or.inr ⟨rfl, [], Or.inl rfl, ?_⟩⟩
    rw [List.append_nil]
    refine congrArg (· ++ text) ?_
    by_cases hnil : splitLines content = []
    · have hcontent := splitLinesFrom_eq_nil hnil
      subst hcontent
      rfl
    · rcases h with hjoined | ⟨-, hterminated⟩
      · have hlength := length_terminated_le_opening content
        rw [terminated_eq_joined hnil, hjoined, List.length_append, List.length_singleton]
          at hlength
        have hopening : opening content = ['\n'] := by
          unfold opening at hlength ⊢
          split at hlength
          · exfalso
            simp only [List.length_nil] at hlength
            omega
          · next hends => rw [if_neg hends]
        rw [terminated_eq_joined hnil, hjoined, hopening]
      · have hends : endsBreak content = true := by
          rw [← hterminated]
          exact endsBreak_terminated hnil
        have hopening : opening content = [] := if_pos (Or.inr hends)
        rw [hterminated, hopening, List.append_nil]
  · obtain ⟨next, rest, hnext⟩ := List.exists_cons_of_ne_nil hdrop
    have hjoined : joined (splitLines content) = content := by
      rcases h with hjoined | ⟨hshort, -⟩
      · exact hjoined
      · exact absurd (List.drop_eq_nil_iff.mpr hshort) hdrop
    have hlines : splitLines content = (splitLines content).take i ++ next :: rest := by
      rw [← hnext, List.take_append_drop]
    have hwhole : content = terminated ((splitLines content).take i) ++ joined (next :: rest) := by
      rw [← joined_append_cons, ← hlines, hjoined]
    have hfront : ∀ line ∈ (splitLines content).take i, Unbroken line := fun line hline =>
      hunbroken line (List.mem_of_mem_take hline)
    have hback : splitLines (joined (next :: rest)) = next :: rest := by
      have hsplit := splitLines_terminated_append hfront (joined (next :: rest))
      rw [← hwhole] at hsplit
      exact List.append_cancel_left (hsplit.symm.trans hlines)
    have hfrontLines : splitLines (terminated ((splitLines content).take i)) =
        (splitLines content).take i := by
      have hsplit := splitLines_terminated_append hfront []
      rw [List.append_nil] at hsplit
      exact hsplit.trans (List.append_nil _)
    refine ⟨terminated ((splitLines content).take i), joined (next :: rest),
      ⟨hwhole, hfrontLines, by rw [hback, hnext], ?_⟩, Or.inl ⟨?_, ?_⟩⟩
    · by_cases hnil : (splitLines content).take i = []
      · rw [hnil]
        exact Or.inl rfl
      · exact Or.inr (Or.inl (endsBreak_terminated hnil))
    · intro hempty
      rw [hempty] at hback
      cases hback
    · rw [hnext, joined_append_cons, joined_cons_cons, List.append_assoc]

/-- **Inserting a line by splitting and joining** leaves every other character exactly in texts
with plain lines. -/
theorem joined_insert_iff :
    InsertsLine i text content
        (joined ((splitLines content).take i ++ text :: (splitLines content).drop i)) ↔
      PlainLines i content :=
  ⟨plainLines_of_inserts, inserts_of_plainLines⟩

end TextEdits
