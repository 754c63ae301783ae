import LlmProxy.Lib.PyStr

/-! # Regular expressions

The part of Python's `re` that patterns without captures, look-around and nested repetition
use, under `IGNORECASE` and `MULTILINE`. A match is searched the way the backtracking engine
does: `ends` lists the places a match from the cursor can end at, in the order they are tried.

`isalnum` is Python's table of letters and digits, which `\b` looks at.
-/

inductive Regex where
  | empty
  /-- a literal text -/
  | text (s : String)
  /-- one character of a class -/
  | one (p : Char → Bool)
  /-- `p*` -/
  | many (p : Char → Bool)
  /-- `p{0,n}` -/
  | upTo (n : Nat) (p : Char → Bool)
  /-- `p*?` -/
  | few (p : Char → Bool)
  | seq (a b : Regex)
  | alt (a b : Regex)
  /-- `\b` -/
  | boundary
  /-- `^` -/
  | lineStart

namespace Regex

/-- Where the engine stands in a text; what lies behind it is kept in reverse. -/
structure Cursor where
  behind : List Char
  ahead : List Char

/-- `re.IGNORECASE`: simple lower case, and the letters Python counts as equal beyond it. -/
def foldCase (c : Char) : Char :=
  if c = 'İ' || c = 'ı' then 'i'
  else if c = 'ſ' then 's'
  else if c = '\u212a' then 'k'
  else c.toLower

def readText : List Char → Cursor → Option Cursor
  | [], at_ => some at_
  | c :: cs, ⟨behind, d :: ahead⟩ =>
    if foldCase c = foldCase d then readText cs ⟨d :: behind, ahead⟩ else none
  | _ :: _, ⟨_, []⟩ => none

/-- The ends of `p{0,n}`, the longest first. -/
def run (p : Char → Bool) : Nat → List Char → List Char → List Cursor
  | 0, behind, ahead => [⟨behind, ahead⟩]
  | _ + 1, behind, [] => [⟨behind, []⟩]
  | n + 1, behind, d :: ahead =>
    if p d then run p n (d :: behind) ahead ++ [⟨behind, d :: ahead⟩] else [⟨behind, d :: ahead⟩]

def isWord (isalnum : Char → Bool) (c : Option Char) : Bool :=
  c.any fun c => c = '_' || isalnum c

def ends (isalnum : Char → Bool) : Regex → Cursor → List Cursor
  | .empty, at_ => [at_]
  | .text s, at_ => (readText s.toList at_).toList
  | .one p, ⟨behind, d :: ahead⟩ => if p d then [⟨d :: behind, ahead⟩] else []
  | .one _, ⟨_, []⟩ => []
  | .many p, ⟨behind, ahead⟩ => run p ahead.length behind ahead
  | .upTo n p, ⟨behind, ahead⟩ => run p n behind ahead
  | .few p, ⟨behind, ahead⟩ => (run p ahead.length behind ahead).reverse
  | .seq a b, at_ => (ends isalnum a at_).flatMap (ends isalnum b)
  | .alt a b, at_ => ends isalnum a at_ ++ ends isalnum b at_
  | .boundary, ⟨behind, ahead⟩ =>
    if isWord isalnum behind.head? != isWord isalnum ahead.head? then [⟨behind, ahead⟩] else []
  | .lineStart, ⟨behind, ahead⟩ =>
    if behind.head?.all (· = '\n') then [⟨behind, ahead⟩] else []

def searchFrom (isalnum : Char → Bool) (pattern : Regex) (behind : List Char) :
    List Char → Option (Nat × Nat)
  | [] => (ends isalnum pattern ⟨behind, []⟩).head?.map fun e => (behind.length, e.behind.length)
  | d :: ahead =>
    match (ends isalnum pattern ⟨behind, d :: ahead⟩).head? with
    | some e => some (behind.length, e.behind.length)
    | none => searchFrom isalnum pattern (d :: behind) ahead

/-- `pattern.search(text)`: the span of the match. -/
def search (isalnum : Char → Bool) (pattern : Regex) (s : String) : Option (Nat × Nat) :=
  searchFrom isalnum pattern [] s.toList

/-- `pattern.sub(repl, text)`, over at most `fuel` characters, of a pattern that matches no empty
text: a match that reads nothing is passed over. -/
def subFuel (isalnum : Char → Bool) (pattern : Regex) (repl : List Char → List Char) :
    Nat → List Char → List Char → List Char
  | 0, _, ahead => ahead
  | _ + 1, _, [] => []
  | fuel + 1, behind, d :: ahead =>
    match (ends isalnum pattern ⟨behind, d :: ahead⟩).find?
        (fun e => behind.length < e.behind.length) with
    | some e =>
      repl ((d :: ahead).take (e.behind.length - behind.length)) ++
        subFuel isalnum pattern repl fuel e.behind e.ahead
    | none => d :: subFuel isalnum pattern repl fuel (d :: behind) ahead

/-- `pattern.sub(repl, text)`, where `repl` is given the text of the match. -/
def sub (isalnum : Char → Bool) (pattern : Regex) (repl : List Char → List Char) (s : String) :
    String :=
  String.ofList (subFuel isalnum pattern repl s.length [] s.toList)

/-- `pattern.sub("", text)`. -/
def remove (isalnum : Char → Bool) (pattern : Regex) (s : String) : String :=
  sub isalnum pattern (fun _ => []) s

/-! ## What a match reads -/

/-- The texts a pattern reads, wherever it stands. -/
def Reads : Regex → List Char → Prop
  | .empty, t => t = []
  | .text s, t => t.map foldCase = s.toList.map foldCase
  | .one p, t => ∃ c, t = [c] ∧ p c
  | .many p, t => ∀ c ∈ t, p c
  | .upTo n p, t => t.length ≤ n ∧ ∀ c ∈ t, p c
  | .few p, t => ∀ c ∈ t, p c
  | .seq a b, t => ∃ u v, t = u ++ v ∧ Reads a u ∧ Reads b v
  | .alt a b, t => Reads a t ∨ Reads b t
  | .boundary, t => t = []
  | .lineStart, t => t = []

/-- A cursor moved over a text. -/
def Cursor.Over (at_ e : Cursor) (t : List Char) : Prop :=
  at_.ahead = t ++ e.ahead ∧ e.behind = t.reverse ++ at_.behind

theorem Cursor.over_nil (at_ : Cursor) : at_.Over at_ [] := ⟨rfl, rfl⟩

theorem Cursor.Over.append {a b c : Cursor} {t u : List Char} (h : a.Over b t) (h' : b.Over c u) :
    a.Over c (t ++ u) := by
  refine ⟨?_, ?_⟩
  · rw [h.1, h'.1, List.append_assoc]
  · rw [h'.2, h.2, List.reverse_append, List.append_assoc]

theorem readText_reads {s : List Char} {at_ e : Cursor} (h : readText s at_ = some e) :
    ∃ t, at_.Over e t ∧ t.map foldCase = s.map foldCase := by
  induction s generalizing at_ with
  | nil =>
    obtain rfl := Option.some.inj h
    exact ⟨[], at_.over_nil, rfl⟩
  | cons c cs ih =>
    obtain ⟨behind, ahead⟩ := at_
    cases ahead with
    | nil => exact absurd h (by simp [readText])
    | cons d ahead =>
      simp only [readText] at h
      split at h
      · next hfold =>
        obtain ⟨t, hover, hmap⟩ := ih h
        refine ⟨d :: t, ⟨?_, ?_⟩, ?_⟩
        · exact congrArg (d :: ·) hover.1
        · rw [hover.2]
          simp
        · simp only [List.map_cons, hmap, hfold]
      · exact absurd h (by simp)

theorem run_reads {p : Char → Bool} {n : Nat} {behind ahead : List Char} {e : Cursor}
    (h : e ∈ run p n behind ahead) :
    ∃ t, Cursor.Over ⟨behind, ahead⟩ e t ∧ t.length ≤ n ∧ ∀ c ∈ t, p c := by
  induction n generalizing behind ahead with
  | zero =>
    obtain rfl := List.mem_singleton.mp h
    exact ⟨[], Cursor.over_nil _, Nat.le_refl 0, by simp⟩
  | succ n ih =>
    have hnone : ∃ t, Cursor.Over ⟨behind, ahead⟩ ⟨behind, ahead⟩ t ∧ t.length ≤ n + 1 ∧
        ∀ c ∈ t, p c := ⟨[], Cursor.over_nil _, Nat.zero_le _, by simp⟩
    cases ahead with
    | nil =>
      obtain rfl := List.mem_singleton.mp h
      exact hnone
    | cons d ahead =>
      simp only [run] at h
      split at h
      · next hd =>
        rcases List.mem_append.mp h with hmore | hstop
        · obtain ⟨t, hover, hlength, hall⟩ := ih hmore
          refine ⟨d :: t, ⟨congrArg (d :: ·) hover.1, ?_⟩, Nat.succ_le_succ hlength, ?_⟩
          · rw [hover.2]
            simp
          · exact List.forall_mem_cons.mpr ⟨hd, hall⟩
        · obtain rfl := List.mem_singleton.mp hstop
          exact hnone
      · obtain rfl := List.mem_singleton.mp h
        exact hnone

/-- **The engine only reads texts of the pattern.** -/
theorem ends_reads {isalnum : Char → Bool} {pattern : Regex} {at_ e : Cursor}
    (h : e ∈ ends isalnum pattern at_) : ∃ t, at_.Over e t ∧ pattern.Reads t := by
  induction pattern generalizing at_ e with
  | empty =>
    obtain rfl := List.mem_singleton.mp h
    exact ⟨[], e.over_nil, rfl⟩
  | text s => exact readText_reads (Option.mem_toList.mp h)
  | one p =>
    obtain ⟨behind, ahead⟩ := at_
    cases ahead with
    | nil => exact absurd h (by simp [ends])
    | cons d ahead =>
      simp only [ends] at h
      split at h
      · next hd =>
        obtain rfl := List.mem_singleton.mp h
        exact ⟨[d], ⟨rfl, rfl⟩, d, rfl, hd⟩
      · exact absurd h (by simp)
  | many p =>
    obtain ⟨t, hover, -, hall⟩ := run_reads h
    exact ⟨t, hover, hall⟩
  | upTo n p => exact run_reads h
  | few p =>
    obtain ⟨t, hover, -, hall⟩ := run_reads (List.mem_reverse.mp h)
    exact ⟨t, hover, hall⟩
  | seq a b iha ihb =>
    obtain ⟨m, hm, he⟩ := List.mem_flatMap.mp h
    obtain ⟨t, hover, ht⟩ := iha hm
    obtain ⟨u, hover', hu⟩ := ihb he
    exact ⟨t ++ u, hover.append hover', t, u, rfl, ht, hu⟩
  | alt a b iha ihb =>
    rcases List.mem_append.mp h with ha | hb
    · obtain ⟨t, hover, ht⟩ := iha ha
      exact ⟨t, hover, Or.inl ht⟩
    · obtain ⟨t, hover, ht⟩ := ihb hb
      exact ⟨t, hover, Or.inr ht⟩
  | boundary =>
    simp only [ends] at h
    split at h
    · obtain rfl := List.mem_singleton.mp h
      exact ⟨[], Cursor.over_nil _, rfl⟩
    · exact absurd h (by simp)
  | lineStart =>
    simp only [ends] at h
    split at h
    · obtain rfl := List.mem_singleton.mp h
      exact ⟨[], Cursor.over_nil _, rfl⟩
    · exact absurd h (by simp)

/-! ## Replacing a pattern -/

/-- A tail no match runs into, whatever stands before it. -/
def Spares (pattern : Regex) (tail : List Char) : Prop :=
  ∀ front before t rest, pattern.Reads t → t ≠ [] → front ++ tail = before ++ t ++ rest →
    before ++ t <+: front

theorem find_advance {isalnum : Char → Bool} {pattern : Regex} {behind ahead : List Char}
    {e : Cursor} (h : (ends isalnum pattern ⟨behind, ahead⟩).find?
      (fun e => behind.length < e.behind.length) = some e) :
    ∃ t, t ≠ [] ∧ ahead = t ++ e.ahead ∧ pattern.Reads t := by
  obtain ⟨t, hover, ht⟩ := ends_reads (List.mem_of_find?_eq_some h)
  refine ⟨t, ?_, hover.1, ht⟩
  rintro rfl
  have hlength := List.find?_some h
  rw [hover.2] at hlength
  simp at hlength

theorem subFuel_inside {isalnum : Char → Bool} {pattern : Regex} {repl : List Char → List Char}
    {tail : List Char}
    (h : pattern.Spares tail) (fuel : Nat) (behind before rest : List Char)
    (htail : tail = before ++ rest) : subFuel isalnum pattern repl fuel behind rest = rest := by
  induction fuel generalizing behind before rest with
  | zero => rfl
  | succ fuel ih =>
    cases rest with
    | nil => rfl
    | cons d rest =>
      simp only [subFuel]
      split
      · next e he =>
        obtain ⟨t, hne, hahead, ht⟩ := find_advance he
        -- a match inside the tail would be a match behind nothing
        have hprefix : before ++ t <+: [] :=
          h [] before t e.ahead ht hne (by rw [htail, hahead]; simp)
        exact absurd (List.append_eq_nil_iff.mp (List.prefix_nil.mp hprefix)).2 hne
      · exact congrArg (d :: ·) (ih (d :: behind) (before ++ [d]) rest (by simpa using htail))

/-- **Replacing a pattern leaves a tail it spares.** -/
theorem subFuel_append {isalnum : Char → Bool} {pattern : Regex} {repl : List Char → List Char}
    {tail : List Char}
    (h : pattern.Spares tail) (fuel : Nat) (behind front : List Char) :
    ∃ kept, subFuel isalnum pattern repl fuel behind (front ++ tail) = kept ++ tail := by
  induction fuel generalizing behind front with
  | zero => exact ⟨front, rfl⟩
  | succ fuel ih =>
    cases front with
    | nil => exact ⟨[], subFuel_inside h (fuel + 1) behind [] tail rfl⟩
    | cons d front =>
      simp only [List.cons_append, subFuel]
      split
      · next e he =>
        obtain ⟨t, hne, hahead, ht⟩ := find_advance he
        obtain ⟨front', hfront⟩ := h (d :: front) [] t e.ahead ht hne (by simpa using hahead)
        have hsplit : t ++ (front' ++ tail) = t ++ e.ahead := by
          rw [← hahead, ← List.append_assoc]
          simpa using congrArg (· ++ tail) hfront
        rw [← List.append_cancel_left hsplit]
        obtain ⟨kept, hkept⟩ := ih e.behind front'
        exact ⟨_ ++ kept, by rw [hkept, List.append_assoc]⟩
      · obtain ⟨kept, hkept⟩ := ih (d :: behind) front
        exact ⟨d :: kept, congrArg (d :: ·) hkept⟩

/-! ## Building patterns -/

def concat (parts : List Regex) : Regex := parts.foldr seq empty

/-- `(?:a|b|…)`. -/
def oneOf : List String → Regex
  | [] => empty
  | [s] => text s
  | s :: rest => alt (text s) (oneOf rest)

/-- `s?`. -/
def optional (s : String) : Regex := alt (text s) empty

/-- `p{n}`. -/
def times : Nat → (Char → Bool) → Regex
  | 0, _ => empty
  | n + 1, p => seq (one p) (times n p)

/-- `p+`. -/
def many1 (p : Char → Bool) : Regex := seq (one p) (many p)

end Regex
