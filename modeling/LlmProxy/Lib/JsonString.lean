import Mathlib.Tactic.IntervalCases
import Mathlib.Data.List.Basic

/-! # JSON string literals

`escape` is the text `json.dumps` writes between the quotes of a string (with its default
`ensure_ascii`), `readString` reads a literal from just after its opening quote, up to and with
the closing one.

* `readString_escape`: an escaped text reads back as the text.
* `readString_plain`, `plain_of_readString`: a text put between the quotes *as it is* reads
  back as itself exactly when it holds no quote, no backslash and no control character. A text
  that does hold one may still give some literal, but never the text itself.
-/

namespace Json

/-- A character that stands in a string literal as it is. -/
def plainChar (c : Char) : Bool := c != '"' && c != '\\' && 0x20 ≤ c.toNat

def plain (s : String) : Bool := s.toList.all plainChar

def hexDigit (n : Nat) : Char :=
  if n < 10 then Char.ofNat ('0'.toNat + n) else Char.ofNat ('a'.toNat + (n - 10))

def hexVal (c : Char) : Option Nat :=
  if '0' ≤ c ∧ c ≤ '9' then some (c.toNat - '0'.toNat)
  else if 'a' ≤ c ∧ c ≤ 'f' then some (c.toNat - 'a'.toNat + 10)
  else if 'A' ≤ c ∧ c ≤ 'F' then some (c.toNat - 'A'.toNat + 10)
  else none

def hex4 (n : Nat) : List Char :=
  [hexDigit (n / 4096 % 16), hexDigit (n / 256 % 16), hexDigit (n / 16 % 16), hexDigit (n % 16)]

def unicodeEscape (n : Nat) : List Char := '\\' :: 'u' :: hex4 n

/-- The characters with an escape of two characters. -/
def shortEscapes : List (Char × Char) :=
  [('"', '"'), ('\\', '\\'), ('\n', 'n'), ('\r', 'r'), ('\t', 't'), (Char.ofNat 0x0c, 'f'),
    (Char.ofNat 0x08, 'b')]

def printable (c : Char) : Bool := 0x20 ≤ c.toNat && c.toNat ≤ 0x7e

def escapeChar (c : Char) : List Char :=
  match shortEscapes.find? (·.1 = c) with
  | some (_, e) => ['\\', e]
  | none =>
    if printable c then [c]
    else if c.toNat < 0x10000 then unicodeEscape c.toNat
    -- beyond the basic plane: a surrogate pair
    else unicodeEscape (0xd800 + (c.toNat - 0x10000) / 0x400) ++
      unicodeEscape (0xdc00 + (c.toNat - 0x10000) % 0x400)

def escapeChars (cs : List Char) : List Char := cs.flatMap escapeChar

/-- `json.dumps(s)[1:-1]`. -/
def escape (s : String) : List Char := escapeChars s.toList

/-! ## Reading -/

def readHex4 : List Char → Option (Nat × List Char)
  | a :: b :: c :: d :: rest =>
    match hexVal a, hexVal b, hexVal c, hexVal d with
    | some a, some b, some c, some d => some (4096 * a + 256 * b + 16 * c + d, rest)
    | _, _, _, _ => none
  | _ => none

def shortEscape : Char → Option Char
  | '"' => some '"'
  | '\\' => some '\\'
  | '/' => some '/'
  | 'b' => some (Char.ofNat 0x08)
  | 'f' => some (Char.ofNat 0x0c)
  | 'n' => some '\n'
  | 'r' => some '\r'
  | 't' => some '\t'
  | _ => none

/-- A code unit that is no character of its own stands as the replacement character. -/
def ofUnit (n : Nat) : Char := if 0xd800 ≤ n ∧ n < 0xe000 then Char.ofNat 0xfffd else Char.ofNat n

def readLow : List Char → Option (Nat × List Char)
  | '\\' :: 'u' :: cs =>
    match readHex4 cs with
    | some (lo, rest) => if 0xdc00 ≤ lo ∧ lo < 0xe000 then some (lo, rest) else none
    | none => none
  | _ => none

/-- What follows `\u`. -/
def readUnicode (cs : List Char) : Option (Char × List Char) :=
  match readHex4 cs with
  | none => none
  | some (hi, rest) =>
    if 0xd800 ≤ hi ∧ hi < 0xdc00 then
      match readLow rest with
      | some (lo, rest) => some (Char.ofNat (0x10000 + (hi - 0xd800) * 0x400 + (lo - 0xdc00)), rest)
      | none => some (ofUnit hi, rest)
    else some (ofUnit hi, rest)

def readEscape : List Char → Option (Char × List Char)
  | [] => none
  | c :: cs => if c = 'u' then readUnicode cs else (shortEscape c).map (·, cs)

/-- One character of a literal, which is neither its closing quote nor its end. -/
def readChar (c : Char) (cs : List Char) : Option (Char × List Char) :=
  if c = '\\' then readEscape cs else if plainChar c then some (c, cs) else none

/-- The literal that starts just after its opening quote, and what follows its closing one. -/
def readString : Nat → List Char → Option (List Char × List Char)
  | 0, _ => none
  | _, [] => none
  | fuel + 1, c :: cs =>
    if c = '"' then some ([], cs)
    else match readChar c cs with
      | none => none
      | some (d, rest) => (readString fuel rest).map fun (s, rest) => (d :: s, rest)

/-! ## An escaped text reads back -/

theorem hexVal_hexDigit {n : Nat} (h : n < 16) : hexVal (hexDigit n) = some n := by
  interval_cases n <;> decide

theorem readHex4_hex4 {n : Nat} (h : n < 65536) (rest : List Char) :
    readHex4 (hex4 n ++ rest) = some (n, rest) := by
  have hn : 4096 * (n / 4096 % 16) + 256 * (n / 256 % 16) + 16 * (n / 16 % 16) + n % 16 = n := by
    omega
  simp only [hex4, List.cons_append, List.nil_append, readHex4,
    hexVal_hexDigit (Nat.mod_lt _ (by decide : 0 < 16)), hn]

theorem readUnicode_unit {n : Nat} (h : n < 0xd800 ∨ (0xdfff < n ∧ n < 0x10000))
    (rest : List Char) : readUnicode (hex4 n ++ rest) = some (Char.ofNat n, rest) := by
  have hhigh : ¬ (0xd800 ≤ n ∧ n < 0xdc00) := by omega
  have hhalf : ¬ (0xd800 ≤ n ∧ n < 0xe000) := by omega
  rw [readUnicode, readHex4_hex4 (by omega)]
  simp only [if_neg hhigh, ofUnit, if_neg hhalf]

theorem readUnicode_pair {hi lo : Nat} (hhi : 0xd800 ≤ hi ∧ hi < 0xdc00)
    (hlo : 0xdc00 ≤ lo ∧ lo < 0xe000) (rest : List Char) :
    readUnicode (hex4 hi ++ (unicodeEscape lo ++ rest)) =
      some (Char.ofNat (0x10000 + (hi - 0xd800) * 0x400 + (lo - 0xdc00)), rest) := by
  have hlow : readLow (unicodeEscape lo ++ rest) = some (lo, rest) := by
    simp only [unicodeEscape, List.cons_append, readLow, readHex4_hex4 (by omega : lo < 65536),
      if_pos hlo]
  rw [readUnicode, readHex4_hex4 (by omega)]
  simp only [if_pos hhi, hlow]

theorem shortEscapes_read : ∀ ce ∈ shortEscapes,
    ce.2 ≠ 'u' ∧ shortEscape ce.2 = some ce.1 := by
  decide

theorem plainChar_of_printable {c : Char} (hshort : shortEscapes.find? (·.1 = c) = none)
    (hprint : printable c = true) : plainChar c = true := by
  have hnone : ∀ ce ∈ shortEscapes, ¬ ce.1 = c := by simpa using hshort
  have hquote : '"' ≠ c := hnone ('"', '"') (by decide)
  have hslash : '\\' ≠ c := hnone ('\\', '\\') (by decide)
  have hlow : 0x20 ≤ c.toNat := by
    rw [printable, Bool.and_eq_true] at hprint
    exact of_decide_eq_true hprint.1
  simp [plainChar, hquote.symm, hslash.symm, hlow]

theorem pair_sum {n : Nat} (h : ¬ n < 0x10000) (hvalid : n < 0x110000) :
    ∃ hi lo, hi = 0xd800 + (n - 0x10000) / 0x400 ∧ lo = 0xdc00 + (n - 0x10000) % 0x400 ∧
      (0xd800 ≤ hi ∧ hi < 0xdc00) ∧ (0xdc00 ≤ lo ∧ lo < 0xe000) ∧
      0x10000 + (hi - 0xd800) * 0x400 + (lo - 0xdc00) = n :=
  ⟨_, _, rfl, rfl, by omega, by omega, by omega⟩

theorem escapeChar_reads (c : Char) (rest : List Char) :
    ∃ e cs, escapeChar c ++ rest = e :: cs ∧ e ≠ '"' ∧ readChar e cs = some (c, rest) := by
  have hvalid : c.toNat < 0xd800 ∨ (0xdfff < c.toNat ∧ c.toNat < 0x110000) := c.valid
  unfold escapeChar
  split
  · next d e hfind =>
    obtain ⟨hu, hread⟩ := shortEscapes_read (d, e) (List.mem_of_find?_eq_some hfind)
    have hd : d = c := by simpa using List.find?_some hfind
    refine ⟨'\\', e :: rest, rfl, by decide, ?_⟩
    show readEscape (e :: rest) = _
    rw [readEscape, if_neg hu, hread, Option.map_some, hd]
  · next hshort =>
    by_cases hprint : printable c = true
    · rw [if_pos hprint]
      have hplain := plainChar_of_printable hshort hprint
      have hquote : c ≠ '"' := by
        rintro rfl
        exact absurd hplain (by decide)
      have hslash : c ≠ '\\' := by
        rintro rfl
        exact absurd hplain (by decide)
      exact ⟨c, rest, rfl, hquote, by rw [readChar, if_neg hslash, if_pos hplain]⟩
    · rw [if_neg hprint]
      by_cases hplane : c.toNat < 0x10000
      · rw [if_pos hplane]
        have hread := readUnicode_unit (n := c.toNat) (by omega) rest
        rw [Char.ofNat_toNat] at hread
        exact ⟨'\\', 'u' :: (hex4 c.toNat ++ rest), rfl, by decide, hread⟩
      · rw [if_neg hplane]
        obtain ⟨hi, lo, hhi, hlo, hhigh, hlow, hsum⟩ := pair_sum hplane (by omega)
        have hread := readUnicode_pair hhigh hlow rest
        rw [hsum, Char.ofNat_toNat] at hread
        rw [← hhi, ← hlo, List.append_assoc]
        exact ⟨'\\', 'u' :: (hex4 hi ++ (unicodeEscape lo ++ rest)), rfl, by decide, hread⟩

theorem length_le_escapeChars : ∀ s : List Char, s.length ≤ (escapeChars s).length
  | [] => le_rfl
  | c :: s => by
    obtain ⟨e, cs, htext, -, -⟩ := escapeChar_reads c []
    have hpos : 0 < (escapeChar c).length := by
      rw [List.append_nil] at htext
      simp [htext]
    have hrest := length_le_escapeChars s
    simp only [escapeChars, List.flatMap_cons, List.length_cons, List.length_append] at hrest ⊢
    omega

theorem readString_escape : ∀ (s : List Char) (rest : List Char) (fuel : Nat), s.length < fuel →
    readString fuel (escapeChars s ++ '"' :: rest) = some (s, rest)
  | [], rest, fuel + 1, _ => rfl
  | c :: s, rest, fuel + 1, h => by
    have hlen : s.length < fuel := by simpa using h
    obtain ⟨e, cs, htext, hquote, hread⟩ := escapeChar_reads c (escapeChars s ++ '"' :: rest)
    have hcons : escapeChars (c :: s) ++ '"' :: rest = e :: cs := by
      rw [← htext, escapeChars, List.flatMap_cons, List.append_assoc]
      rfl
    rw [hcons, readString, if_neg hquote, hread]
    simp only [readString_escape s rest fuel hlen, Option.map_some]

theorem newline_notMem_unicodeEscape (n : Nat) : '\n' ∉ unicodeEscape n := by
  have hdigit : ∀ m, m < 16 → '\n' ≠ hexDigit m := by decide
  simp only [unicodeEscape, hex4, List.mem_cons, List.not_mem_nil, or_false, not_or]
  exact ⟨by decide, by decide, hdigit _ (by omega), hdigit _ (by omega), hdigit _ (by omega),
    hdigit _ (by omega)⟩

theorem newline_notMem_escapeChar (c : Char) : '\n' ∉ escapeChar c := by
  have htable : ∀ ce ∈ shortEscapes, '\n' ∉ ['\\', ce.2] := by decide
  unfold escapeChar
  split
  · next hfind => exact htable _ (List.mem_of_find?_eq_some hfind)
  · by_cases hprint : printable c = true
    · rw [if_pos hprint]
      intro hmem
      obtain rfl : '\n' = c := by simpa using hmem
      exact absurd hprint (by decide)
    · rw [if_neg hprint]
      by_cases hplane : c.toNat < 0x10000
      · rw [if_pos hplane]
        exact newline_notMem_unicodeEscape _
      · rw [if_neg hplane, List.mem_append, not_or]
        exact ⟨newline_notMem_unicodeEscape _, newline_notMem_unicodeEscape _⟩

theorem newline_notMem_escape (s : String) : '\n' ∉ escape s := by
  simp only [escape, escapeChars, List.mem_flatMap, not_exists, not_and]
  exact fun c _ => newline_notMem_escapeChar c

/-! ## A raw text between the quotes -/

theorem hexVal_ne_quote {c : Char} {n : Nat} (h : hexVal c = some n) : c ≠ '"' := by
  intro hc
  have hnone : hexVal '"' = none := by decide
  rw [hc, hnone] at h
  exact nomatch h

theorem readHex4_consumes {cs rest : List Char} {n : Nat} (h : readHex4 cs = some (n, rest)) :
    ∃ p, cs = p ++ rest ∧ '"' ∉ p := by
  unfold readHex4 at h
  split at h
  · next a b c d tail =>
    split at h
    · next ha hb hc hd =>
      obtain ⟨-, rfl⟩ : _ ∧ tail = rest := by simpa using h
      refine ⟨[a, b, c, d], rfl, ?_⟩
      simp [(hexVal_ne_quote ha).symm, (hexVal_ne_quote hb).symm, (hexVal_ne_quote hc).symm,
        (hexVal_ne_quote hd).symm]
    · exact nomatch h
  · exact nomatch h

theorem readLow_consumes {cs rest : List Char} {n : Nat} (h : readLow cs = some (n, rest)) :
    ∃ p, cs = p ++ rest ∧ '"' ∉ p := by
  unfold readLow at h
  split at h
  · next cs =>
    split at h
    · next lo tail hhex =>
      split at h
      · obtain ⟨-, rfl⟩ : _ ∧ tail = rest := by simpa using h
        obtain ⟨p, hp, hquote⟩ := readHex4_consumes hhex
        exact ⟨'\\' :: 'u' :: p, by rw [hp]; rfl, by simp [hquote]⟩
      · exact nomatch h
    · exact nomatch h
  · exact nomatch h

theorem readUnicode_consumes {cs rest : List Char} {d : Char}
    (h : readUnicode cs = some (d, rest)) : ∃ p, cs = p ++ rest ∧ '"' ∉ p := by
  unfold readUnicode at h
  split at h
  · exact nomatch h
  · next hi tail hhex =>
    obtain ⟨p, hp, hquote⟩ := readHex4_consumes hhex
    split at h
    · split at h
      · next lo tail' hlow =>
        obtain ⟨-, rfl⟩ : _ ∧ tail' = rest := by simpa using h
        obtain ⟨q, hq, hquote'⟩ := readLow_consumes hlow
        exact ⟨p ++ q, by rw [hp, hq, List.append_assoc], by simp [hquote, hquote']⟩
      · obtain ⟨-, rfl⟩ : _ ∧ tail = rest := by simpa using h
        exact ⟨p, hp, hquote⟩
    · obtain ⟨-, rfl⟩ : _ ∧ tail = rest := by simpa using h
      exact ⟨p, hp, hquote⟩

theorem readChar_consumes {c d : Char} {cs rest : List Char}
    (h : readChar c cs = some (d, rest)) :
    ∃ p, c :: cs = p ++ rest ∧ 1 ≤ p.length ∧ (p.length = 1 → p = [d] ∧ plainChar d = true) ∧
      p.count '"' ≤ [d].count '"' := by
  unfold readChar at h
  split at h
  · next hslash =>
    cases cs with
    | nil => exact nomatch h
    | cons e cs =>
      rw [hslash]
      rw [readEscape] at h
      split at h
      · next hu =>
        obtain ⟨p, hp, hquote⟩ := readUnicode_consumes h
        have hzero : p.count '"' = 0 := List.count_eq_zero.mpr hquote
        refine ⟨'\\' :: e :: p, by rw [hp]; rfl, by simp, by simp, ?_⟩
        simp [hu, hzero]
      · obtain ⟨d', hshort, hpair⟩ := Option.map_eq_some_iff.mp h
        obtain ⟨rfl, rfl⟩ : d' = d ∧ cs = rest := by simpa using hpair
        refine ⟨['\\', e], rfl, by simp, by simp, ?_⟩
        by_cases he : e = '"'
        · subst he
          obtain rfl : '"' = d' := by simpa [shortEscape] using hshort
          decide
        · simp [he]
  · split at h
    · next hplain =>
      obtain ⟨rfl, rfl⟩ : c = d ∧ cs = rest := by simpa using h
      exact ⟨[c], rfl, by simp, fun _ => ⟨rfl, hplain⟩, le_rfl⟩
    · exact nomatch h

/-- The same of a whole literal: `p` is the text between its quotes. -/
theorem readString_consumes : ∀ {fuel : Nat} {cs s rest : List Char},
    readString fuel cs = some (s, rest) →
    ∃ p, cs = p ++ '"' :: rest ∧ s.length ≤ p.length ∧
      (s.length = p.length → s = p ∧ p.all plainChar = true) ∧ p.count '"' ≤ s.count '"'
  | 0, _, _, _, h => nomatch h
  | _ + 1, [], _, _, h => nomatch h
  | fuel + 1, c :: cs, s, rest, h => by
    unfold readString at h
    split at h
    · next hc =>
      obtain ⟨rfl, rfl⟩ : [] = s ∧ cs = rest := by simpa using h
      exact ⟨[], by rw [hc]; rfl, le_rfl, fun _ => ⟨rfl, rfl⟩, le_rfl⟩
    · split at h
      · exact nomatch h
      · next d tail hread =>
        obtain ⟨⟨s', rest'⟩, htail, hpair⟩ := Option.map_eq_some_iff.mp h
        obtain ⟨rfl, rfl⟩ : d :: s' = s ∧ rest' = rest := by simpa using hpair
        obtain ⟨p, hp, hone, hsame, hcount⟩ := readChar_consumes hread
        obtain ⟨q, hq, hle, hsame', hcount'⟩ := readString_consumes htail
        refine ⟨p ++ q, by rw [hp, hq, List.append_assoc], ?_, ?_, ?_⟩
        · simp only [List.length_cons, List.length_append]
          omega
        · intro hlen
          simp only [List.length_cons, List.length_append] at hlen
          obtain ⟨hp1, hplain⟩ := hsame (by omega)
          obtain ⟨hq1, hplain'⟩ := hsame' (by omega)
          refine ⟨by rw [hp1, hq1]; rfl, ?_⟩
          rw [List.all_append, hplain', hp1]
          simp [hplain]
        · rw [List.count_append, show d :: s' = [d] ++ s' from rfl, List.count_append]
          omega

theorem readString_plain : ∀ (s rest : List Char) (fuel : Nat), s.all plainChar = true →
    s.length < fuel → readString fuel (s ++ '"' :: rest) = some (s, rest)
  | [], _, _ + 1, _, _ => rfl
  | c :: s, rest, fuel + 1, hplain, h => by
    obtain ⟨hc, hs⟩ : plainChar c = true ∧ s.all plainChar = true := by
      simpa using hplain
    have hquote : c ≠ '"' := by
      rintro rfl
      exact absurd hc (by decide)
    have hslash : c ≠ '\\' := by
      rintro rfl
      exact absurd hc (by decide)
    have htail := readString_plain s rest fuel hs (by simpa using h)
    rw [List.cons_append, readString, if_neg hquote, readChar, if_neg hslash, if_pos hc]
    simp only [htail, Option.map_some]

/-- Where a raw text reads back as itself, it was plain: a literal that ended early would be
too short, and one that ran past the closing quote would have had to escape that quote, which
leaves it with more quotes than the text has. -/
theorem plain_of_readString {s rest rest' : List Char} {fuel : Nat}
    (h : readString fuel (s ++ '"' :: rest) = some (s, rest')) :
    s.all plainChar = true ∧ rest' = rest := by
  obtain ⟨p, hp, hle, hsame, hcount⟩ := readString_consumes h
  obtain ⟨q, hq⟩ : ∃ q, p = s ++ q := by
    have hprefix : s <+: p ++ '"' :: rest' := ⟨'"' :: rest, hp⟩
    obtain ⟨q, hq⟩ := List.prefix_of_prefix_length_le hprefix (List.prefix_append p _) hle
    exact ⟨q, hq.symm⟩
  cases q with
  | nil =>
    rw [List.append_nil] at hq
    subst hq
    refine ⟨(hsame rfl).2, ?_⟩
    simpa using hp.symm
  | cons e q =>
    rw [hq, List.append_assoc, List.append_cancel_left_eq] at hp
    obtain ⟨rfl, -⟩ : '"' = e ∧ _ := by simpa using hp
    rw [hq, List.count_append] at hcount
    simp at hcount

end Json
