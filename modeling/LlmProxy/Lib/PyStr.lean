/-! # Python strings

The `str` methods and the `fnmatch` globs the development needs, with Python's own meaning.

* `strip` removes Unicode white space, not only ASCII.
* `lower` folds the ASCII letters. The texts it is applied to (model names, glob patterns and
  the prefixes they are compared with) are ASCII identifiers.
* `searchLower` is the lower case of a free text as a search for an ASCII pattern sees it: of the
  letters outside ASCII only the Kelvin sign and the dotted capital I have ASCII in their lower
  case.
* `fnmatchcase` is `fnmatch.fnmatchcase`: `*`, `?`, `[seq]` and `[!seq]` with ranges, an
  unclosed bracket is literal.
-/

namespace PyStr

/-- `str.isspace` of one character. -/
def isSpace (c : Char) : Bool :=
  let n := c.toNat
  (0x09 ≤ n && n ≤ 0x0d) || (0x1c ≤ n && n ≤ 0x20) || n == 0x85 || n == 0xa0 || n == 0x1680 ||
    (0x2000 ≤ n && n ≤ 0x200a) || n == 0x2028 || n == 0x2029 || n == 0x202f || n == 0x205f ||
    n == 0x3000

/-- `s.strip()`. -/
def strip (s : String) : String :=
  String.ofList ((s.toList.dropWhile isSpace).reverse.dropWhile isSpace).reverse

/-- `s.lower()`, up to letters outside ASCII. -/
def lower (s : String) : String := String.ofList (s.toList.map Char.toLower)

/-- The lower case of one character, up to letters outside ASCII. -/
def searchLowerChar (c : Char) : List Char :=
  if c = '\u212a' then ['k']
  else if c = '\u0130' then ['i', '\u0307']
  else [c.toLower]

/-- `s.lower()`, as a search for an ASCII pattern sees it. -/
def searchLower (s : String) : String := String.ofList (s.toList.flatMap searchLowerChar)

/-- `s.startswith(start)`. -/
def startsWith (s start : String) : Bool := start.toList.isPrefixOf s.toList

/-- `c in s`, for one character. -/
def containsChar (s : String) (c : Char) : Bool := s.toList.contains c

/-- Some tail of the text satisfies `p`. -/
def anyTail (p : List Char → Bool) : List Char → Bool
  | [] => p []
  | c :: cs => p (c :: cs) || anyTail p cs

/-- `sub in s`. -/
def contains (s sub : String) : Bool := anyTail (sub.toList.isPrefixOf ·) s.toList

/-- `s.split(sep)`, for a separator of one character. -/
def splitChars (sep : Char) : List Char → List (List Char)
  | [] => [[]]
  | c :: cs =>
    if c = sep then [] :: splitChars sep cs
    else match splitChars sep cs with
      | [] => [[c]]
      | field :: rest => (c :: field) :: rest

def split (s : String) (sep : Char) : List String := (splitChars sep s.toList).map String.ofList

/-- `s.replace(old, new)`, scanning at most `fuel` positions; `old` is not empty. -/
def replaceFuel (old new : List Char) : Nat → List Char → List Char
  | 0, cs => cs
  | _, [] => []
  | fuel + 1, c :: cs =>
    if old.isPrefixOf (c :: cs) then new ++ replaceFuel old new fuel ((c :: cs).drop old.length)
    else c :: replaceFuel old new fuel cs

def replace (s old new : String) : String :=
  String.ofList (replaceFuel old.toList new.toList s.length s.toList)

/-- `sep.join(parts)`. -/
def join (sep : String) (parts : List String) : String := sep.intercalate parts

/-- `s.partition(sep)`, for a separator of one character that `s` contains: what stands before
the first one and what stands behind it. -/
def partition (s : String) (sep : Char) : String × String :=
  (String.ofList (s.toList.takeWhile (· ≠ sep)),
    String.ofList ((s.toList.dropWhile (· ≠ sep)).drop 1))

/-! ## Facts about the methods -/

theorem anyTail_iff {p : List Char → Bool} {cs : List Char} :
    anyTail p cs = true ↔ ∃ front tail, cs = front ++ tail ∧ p tail = true := by
  induction cs with
  | nil =>
    refine ⟨fun h => ⟨[], [], rfl, h⟩, ?_⟩
    rintro ⟨front, tail, hsplit, hp⟩
    rw [(List.append_eq_nil_iff.mp hsplit.symm).2] at hp
    exact hp
  | cons c cs ih =>
    simp only [anyTail, Bool.or_eq_true, ih]
    constructor
    · rintro (h | ⟨front, tail, hsplit, hp⟩)
      · exact ⟨[], c :: cs, rfl, h⟩
      · exact ⟨c :: front, tail, congrArg (c :: ·) hsplit, hp⟩
    · rintro ⟨front, tail, hsplit, hp⟩
      cases front with
      | nil => exact Or.inl (by rw [hsplit]; exact hp)
      | cons d front => exact Or.inr ⟨front, tail, (List.cons.inj hsplit).2, hp⟩

theorem contains_iff {s sub : String} : contains s sub = true ↔ sub.toList <:+: s.toList := by
  rw [contains, anyTail_iff]
  constructor
  · rintro ⟨front, tail, hsplit, hprefix⟩
    obtain ⟨rest, hrest⟩ := List.isPrefixOf_iff_prefix.mp hprefix
    exact ⟨front, rest, by rw [hsplit, ← hrest, List.append_assoc]⟩
  · rintro ⟨front, rest, hsplit⟩
    refine ⟨front, sub.toList ++ rest, by rw [← hsplit, List.append_assoc], ?_⟩
    exact List.isPrefixOf_iff_prefix.mpr ⟨rest, rfl⟩

theorem splitChars_append {sep : Char} {cs ds : List Char} (h : sep ∉ ds) :
    ∃ fields last, splitChars sep (cs ++ ds) = fields ++ [last ++ ds] := by
  induction cs with
  | nil =>
    refine ⟨[], [], ?_⟩
    induction ds with
    | nil => rfl
    | cons d ds ih =>
      have hd : d ≠ sep := fun heq => h (heq ▸ List.mem_cons_self)
      have htail := ih (fun hmem => h (List.mem_cons_of_mem d hmem))
      simp only [List.nil_append] at htail ⊢
      simp only [splitChars, hd, ↓reduceIte, htail]
  | cons c cs ih =>
    obtain ⟨fields, last, hsplit⟩ := ih
    simp only [List.cons_append, splitChars, hsplit]
    split
    · exact ⟨[] :: fields, last, rfl⟩
    · cases fields with
      | nil => exact ⟨[], c :: last, rfl⟩
      | cons field fields => exact ⟨(c :: field) :: fields, last, rfl⟩

theorem strip_append {front tail : List Char} {c d : Char} (hhead : tail.head? = some c)
    (hlast : tail.getLast? = some d) (hc : isSpace c = false) (hd : isSpace d = false) :
    ∃ kept, strip (String.ofList (front ++ tail)) = String.ofList (kept ++ tail) := by
  obtain ⟨more, rfl⟩ := List.head?_eq_some_iff.mp hhead
  obtain ⟨init, hinit⟩ := List.getLast?_eq_some_iff.mp hlast
  have hleft : (front ++ c :: more).dropWhile isSpace =
      front.dropWhile isSpace ++ c :: more := by
    induction front with
    | nil => simp [hc]
    | cons f front ih =>
      rw [List.cons_append, List.dropWhile_cons, List.dropWhile_cons]
      split
      · exact ih
      · rfl
  refine ⟨front.dropWhile isSpace, ?_⟩
  rw [strip, String.toList_ofList, hleft, hinit, ← List.append_assoc, List.reverse_append]
  simp [hd]

theorem mem_strip {s : String} {c : Char} (hc : isSpace c = false) (h : c ∈ s.toList) :
    c ∈ (strip s).toList := by
  have hdrop : ∀ cs : List Char, c ∈ cs → c ∈ cs.dropWhile isSpace := by
    intro cs hmem
    induction cs with
    | nil => exact hmem
    | cons d cs ih =>
      rw [List.dropWhile_cons]
      split
      · next hd =>
        rcases List.mem_cons.mp hmem with rfl | hmem
        · exact absurd hd (by simp [hc])
        · exact ih hmem
      · exact hmem
  rw [strip, String.toList_ofList, List.mem_reverse]
  exact hdrop _ (List.mem_reverse.mpr (hdrop _ h))

theorem mem_partition {s : String} {sep c : Char} (hne : c ≠ sep) (h : c ∈ s.toList) :
    c ∈ (partition s sep).1.toList ∨ c ∈ (partition s sep).2.toList := by
  simp only [partition, String.toList_ofList]
  rw [← List.takeWhile_append_dropWhile (p := (· ≠ sep)) (l := s.toList)] at h
  rcases List.mem_append.mp h with hbefore | hbehind
  · exact Or.inl hbefore
  · refine Or.inr ?_
    cases hdrop : s.toList.dropWhile (· ≠ sep) with
    | nil =>
      rw [hdrop] at hbehind
      exact absurd hbehind List.not_mem_nil
    | cons d rest =>
      have hd : d = sep := by
        have hhead := List.head?_dropWhile_not (· ≠ sep) s.toList
        rw [hdrop] at hhead
        simpa using hhead
      rw [hdrop] at hbehind
      rcases List.mem_cons.mp hbehind with rfl | hrest
      · exact absurd hd hne
      · exact hrest

/-! ## Globs -/

inductive GlobToken where
  | star
  | anyChar
  | oneOf (negated : Bool) (ranges : List (Char × Char))
  | lit (c : Char)
  deriving DecidableEq, Repr

/-- The ranges between the brackets; a single character is a range of its own, and a hyphen
is an operator only between two characters. -/
def classRanges : List Char → List (Char × Char)
  | lo :: '-' :: hi :: rest => (lo, hi) :: classRanges rest
  | c :: rest => (c, c) :: classRanges rest
  | [] => []

/-- The text up to the bracket that closes the class, and the rest after it. The bracket
may stand first (after an optional `!`) as a member. -/
def closeBracket (cs : List Char) : Option (List Char × List Char) :=
  let upTo (opened rest : List Char) : Option (List Char × List Char) :=
    match rest.dropWhile (· ≠ ']') with
    | [] => none
    | _ :: after => some (opened ++ rest.takeWhile (· ≠ ']'), after)
  match cs with
  | '!' :: ']' :: rest => upTo ['!', ']'] rest
  | ']' :: rest => upTo [']'] rest
  | '!' :: rest => upTo ['!'] rest
  | rest => upTo [] rest

/-- The tokens of a pattern, reading at most `fuel` of them. -/
def globTokensFuel : Nat → List Char → List GlobToken
  | 0, _ => []
  | _, [] => []
  | fuel + 1, '*' :: cs => .star :: globTokensFuel fuel cs
  | fuel + 1, '?' :: cs => .anyChar :: globTokensFuel fuel cs
  | fuel + 1, '[' :: cs =>
    match closeBracket cs with
    | none => .lit '[' :: globTokensFuel fuel cs
    | some ('!' :: members, rest) => .oneOf true (classRanges members) :: globTokensFuel fuel rest
    | some (members, rest) => .oneOf false (classRanges members) :: globTokensFuel fuel rest
  | fuel + 1, c :: cs => .lit c :: globTokensFuel fuel cs

/-- A pattern has at most as many tokens as characters. -/
def globTokens (cs : List Char) : List GlobToken := globTokensFuel cs.length cs

def GlobToken.accepts (c : Char) : GlobToken → Bool
  | .star => true
  | .anyChar => true
  | .oneOf negated ranges => (ranges.any fun r => r.1 ≤ c && c ≤ r.2) != negated
  | .lit d => c == d

/-- The tokens match the whole text; after a star, some tail of what is left. -/
def globMatch : List GlobToken → List Char → Bool
  | [], cs => cs.isEmpty
  | .star :: ts, cs => anyTail (globMatch ts) cs
  | _ :: _, [] => false
  | t :: ts, c :: cs => t.accepts c && globMatch ts cs

/-- `fnmatch.fnmatchcase(name, pat)`. -/
def fnmatchcase (name pat : String) : Bool := globMatch (globTokens pat.toList) name.toList

example : fnmatchcase "gpt-4-1106-turbo" "gpt-4-*-turbo" = true := by decide

example : fnmatchcase "o3-mini" "o[!1-2]-*" = true := by decide

end PyStr
