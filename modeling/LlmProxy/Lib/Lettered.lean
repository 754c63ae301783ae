import LlmProxy.Lib.PyStr

/-! # Texts whose characters carry something

`str.replace(old, new, 1)` and `str.splitlines()` on lists of any type that has a `letter`. With
characters for the type these are Python's; with characters that carry a mark they say where the
marks go, and a map that keeps the letters commutes with each (`sep.join(lines)` is
`List.intercalate`, which looks at no letter):

> `map_replaceFirst`, `map_splitLines`, `map_intercalate`.
-/

namespace Lettered

variable {α β : Type _} {letter : α → Char} {letter' : β → Char}

/-- `text.replace(old, new, 1)`. -/
def replaceFirst (letter : α → Char) (old : List Char) (new : List α) : List α → List α
  | [] => if old.isEmpty then new else []
  | a :: rest =>
    if old.isPrefixOf ((a :: rest).map letter) then new ++ (a :: rest).drop old.length
    else a :: replaceFirst letter old new rest

/-- The line boundaries of `str.splitlines`. -/
def isLineBreak (c : Char) : Bool :=
  let n := c.toNat
  (0x0a ≤ n && n ≤ 0x0d) || (0x1c ≤ n && n ≤ 0x1e) || n == 0x85 || n == 0x2028 || n == 0x2029

/-- The lines of a text, after a carriage return or not: a line feed right behind one ends no line
of its own. -/
def splitLinesFrom (letter : α → Char) : Bool → List α → List (List α)
  | _, [] => []
  | afterReturn, a :: rest =>
    if afterReturn && letter a == '\n' then splitLinesFrom letter false rest
    else if isLineBreak (letter a) then [] :: splitLinesFrom letter (letter a == '\r') rest
    else match splitLinesFrom letter false rest with
      | [] => [[a]]
      | line :: lines => (a :: line) :: lines

/-- `text.splitlines()`. -/
def splitLines (letter : α → Char) (text : List α) : List (List α) :=
  splitLinesFrom letter false text

example : splitLines id "a\r\n\nb".toList = ["a".toList, [], "b".toList] := by decide

/-! ## Maps that keep the letters -/

theorem map_replaceFirst {h : α → β} (hletter : ∀ a, letter' (h a) = letter a) (old : List Char)
    (new text : List α) :
    (replaceFirst letter old new text).map h =
      replaceFirst letter' old (new.map h) (text.map h) := by
  induction text with
  | nil =>
    simp only [replaceFirst, List.map_nil]
    split <;> rfl
  | cons a rest ih =>
    have hletters : ((a :: rest).map h).map letter' = (a :: rest).map letter := by
      rw [List.map_map]
      exact List.map_congr_left fun b _ => hletter b
    simp only [List.map_cons] at hletters
    simp only [replaceFirst, List.map_cons, hletters]
    split
    · rw [List.map_append, List.map_drop, List.map_cons]
    · rw [List.map_cons, ih]

theorem map_splitLinesFrom {h : α → β} (hletter : ∀ a, letter' (h a) = letter a)
    (afterReturn : Bool) (text : List α) :
    (splitLinesFrom letter afterReturn text).map (List.map h) =
      splitLinesFrom letter' afterReturn (text.map h) := by
  induction text generalizing afterReturn with
  | nil => rfl
  | cons a rest ih =>
    simp only [splitLinesFrom, List.map_cons, hletter]
    split
    · exact ih false
    · split
      · rw [List.map_cons, ih]
        rfl
      · rw [← ih false]
        cases splitLinesFrom letter false rest <;> rfl

theorem map_splitLines {h : α → β} (hletter : ∀ a, letter' (h a) = letter a) (text : List α) :
    (splitLines letter text).map (List.map h) = splitLines letter' (text.map h) :=
  map_splitLinesFrom hletter false text

theorem map_intercalate (h : α → β) (sep : List α) (lines : List (List α)) :
    (sep.intercalate lines).map h = (sep.map h).intercalate (lines.map (List.map h)) := by
  induction lines with
  | nil => rfl
  | cons line lines ih =>
    cases lines with
    | nil => simp
    | cons next lines =>
      rw [List.intercalate_cons_cons, List.map_append, List.map_append, ih]
      exact List.intercalate_cons_cons.symm

end Lettered
