import LlmProxy.Lib.Masking
import LlmProxy.Monitoring.Redact

/-! # Masked texts

`_PATTERNS` and `mask_text` of `app/privacy/pii.py`: five substitutions, one after the other, each of
which puts a mark in brackets where its pattern matches.

> `maskText_clean`: no pattern matches in a masked text;
> `maskText_passes`: the count is the number of marks that were put in.

Mirroring notes.
* A match is one that `pattern.search` finds in the text, with the word boundaries it has there.
* `DigitTables` are Python's tables of characters for `\w` and `\d`.
-/

namespace LlmProxy.Privacy

open Regex

/-- The tables, with what is used of the decimal digits. -/
structure DigitTables extends Monitoring.CharTables where
  isdecimal_ascii : ∀ c, c.toNat < 128 → isdecimal c = c.isDigit

variable (tables : DigitTables)

/-! ## The patterns -/

/-- `[a-zA-Z0-9._%+-]`. -/
def localChar (c : Char) : Bool :=
  c.isAlphanum || c = '.' || c = '_' || c = '%' || c = '+' || c = '-'

/-- `[a-zA-Z0-9.-]`. -/
def domainChar (c : Char) : Bool := c.isAlphanum || c = '.' || c = '-'

/-- `[- ]`. -/
def dashOrSpace (c : Char) : Bool := c = '-' || c = ' '

/-- `[-. ]`. -/
def phoneGap (c : Char) : Bool := c = '-' || c = '.' || c = ' '

/-- `[a-zA-Z0-9._%+-]+@[a-zA-Z0-9.-]+\.[a-zA-Z]{2,}`. -/
def emailRe : Regex :=
  .seq (many1 localChar) (.seq (.one (· = '@')) (.seq (many1 domainChar) (.seq (.one (· = '.'))
    (.seq (times 2 Char.isAlpha) (.many Char.isAlpha)))))

/-- `\d[ -]*?`. -/
def cardDigit : Regex := .seq (.one tables.isdecimal) (.few dashOrSpace)

/-- `\b(?:\d[ -]*?){13,19}\b`. -/
def cardRe : Regex := bounded (.seq (copies 13 (cardDigit tables)) (atMost 6 (cardDigit tables)))

/-- `\b\d{3}[- ]\d{2}[- ]\d{4}\b`. -/
def ssnRe : Regex :=
  bounded (.seq (times 3 tables.isdecimal) (.seq (.one dashOrSpace)
    (.seq (times 2 tables.isdecimal) (.seq (.one dashOrSpace) (times 4 tables.isdecimal)))))

/-- `(?:\+?1[-. ]?)?`. -/
def countryCode : Regex :=
  .alt (.seq (.upTo 1 (· = '+')) (.seq (.one (· = '1')) (.upTo 1 phoneGap))) .empty

/-- `\b(?:\+?1[-. ]?)?\(?\d{3}\)?[-. ]?\d{3}[-. ]?\d{4}\b`. -/
def phoneRe : Regex :=
  bounded (.seq countryCode (.seq (.upTo 1 (· = '(')) (.seq (times 3 tables.isdecimal)
    (.seq (.upTo 1 (· = ')')) (.seq (.upTo 1 phoneGap) (.seq (times 3 tables.isdecimal)
      (.seq (.upTo 1 phoneGap) (times 4 tables.isdecimal))))))))

/-- `25[0-5]|2[0-4]\d|[01]?\d\d?`. -/
def octet : Regex :=
  .alt (.seq (.one (· = '2')) (.seq (.one (· = '5')) (.one fun c => '0' ≤ c && c ≤ '5')))
    (.alt (.seq (.one (· = '2')) (.seq (.one fun c => '0' ≤ c && c ≤ '4') (.one tables.isdecimal)))
      (.seq (.upTo 1 fun c => c = '0' || c = '1') (.seq (.one tables.isdecimal)
        (.upTo 1 tables.isdecimal))))

/-- `\b(?:(?:…)\.){3}(?:…)\b`, of octets. -/
def ipRe : Regex :=
  bounded (.seq (copies 3 (.seq (octet tables) (.one (· = '.')))) (octet tables))

/-- `_PATTERNS`. -/
def patterns : List (String × Regex) :=
  [("EMAIL", emailRe), ("CC", cardRe tables), ("SSN", ssnRe tables), ("PHONE", phoneRe tables),
    ("IP", ipRe tables)]

/-- `[NAME_REDACTED]`. -/
def mark (name : String) : List Char := ("[" ++ name ++ "_REDACTED]").toList

def maskWith (ps : List (String × Regex)) (text : String) : String × Nat :=
  match ps with
  | [] => (text, 0)
  | p :: ps =>
    let r := subn tables.isalnum p.2 (mark p.1) text
    let rest := maskWith ps r.1
    (rest.1, r.2 + rest.2)

/-- `mask_text`. -/
def maskText (text : String) : String × Nat :=
  if text = "" then ("", 0) else maskWith tables (patterns tables) text

/-! ## What the patterns read -/

def noBracket (c : Char) : Bool := c ≠ '[' && c ≠ ']'

theorem noBracket_fold (c d : Char) (h : foldCase c = foldCase d) : noBracket c = noBracket d := by
  have hsame : ∀ b : Char, foldCase b = b → ¬ (97 ≤ b.toNat ∧ b.toNat ≤ 122) → (c = b ↔ d = b) := by
    intro b hb hletter
    constructor
    · rintro rfl
      exact foldCase_of_not_letter (h.symm.trans hb) hletter
    · rintro rfl
      exact foldCase_of_not_letter (h.trans hb) hletter
  unfold noBracket
  rw [decide_eq_decide.mpr (not_congr (hsame '[' (by decide) (by decide))),
    decide_eq_decide.mpr (not_congr (hsame ']' (by decide) (by decide)))]

theorem noBracket_of {p : Char → Bool} (hopen : p '[' = false) (hclose : p ']' = false) :
    ∀ c, p c = true → noBracket c = true := by
  intro c hc
  unfold noBracket
  rw [Bool.and_eq_true, decide_eq_true_eq, decide_eq_true_eq]
  constructor
  · rintro rfl
    rw [hopen] at hc
    cases hc
  · rintro rfl
    rw [hclose] at hc
    cases hc

theorem isdecimal_noBracket : ∀ c, tables.isdecimal c = true → noBracket c = true :=
  noBracket_of (by rw [tables.isdecimal_ascii _ (by decide)]; decide)
    (by rw [tables.isdecimal_ascii _ (by decide)]; decide)

def markNames : List String := ["EMAIL", "CC", "SSN", "PHONE", "IP"]

theorem of_marks {p : Char → Bool} (h : (markNames.all fun name => (mark name).all p) = true) :
    ∀ name ∈ markNames, ∀ c ∈ mark name, p c = true := by
  intro name hname c hc
  exact List.all_eq_true.mp (List.all_eq_true.mp h name hname) c hc

/-- No mark holds a character of the class. -/
def NotInMarks (p : Char → Bool) : Prop :=
  ∀ name ∈ markNames, ∀ c ∈ mark name, p c = false

theorem isdecimal_notInMarks : NotInMarks tables.isdecimal := by
  have hascii : ∀ name ∈ markNames, ∀ c ∈ mark name,
      (decide (c.toNat < 128) && !c.isDigit) = true := of_marks (by decide +kernel)
  intro name hname c hc
  obtain ⟨hsmall, hdigit⟩ := Bool.and_eq_true_iff.mp (hascii name hname c hc)
  rw [tables.isdecimal_ascii c (of_decide_eq_true hsmall)]
  simpa using hdigit

/-- What every pattern has: it reads no brackets, it reads a character no mark holds, and it looks
around only for a boundary at either end. -/
structure Maskable (pattern : Regex) : Prop where
  within : pattern.Within noBracket
  holds : ∃ p, pattern.Holds p ∧ NotInMarks p
  looks : pattern.Local ∨ pattern.Bounded

theorem emailRe_local : emailRe.Local := by
  refine ⟨⟨trivial, trivial⟩, trivial, ⟨trivial, trivial⟩, trivial, local_times 2 _, trivial⟩

theorem emailRe_maskable : Maskable emailRe where
  within := by
    have hlocal : ∀ c, localChar c = true → noBracket c = true := noBracket_of (by decide) (by decide)
    have hdomain : ∀ c, domainChar c = true → noBracket c = true :=
      noBracket_of (by decide) (by decide)
    have halpha : ∀ c, Char.isAlpha c = true → noBracket c = true :=
      noBracket_of (by decide) (by decide)
    exact ⟨⟨hlocal, hlocal⟩, noBracket_of (by decide) (by decide), ⟨hdomain, hdomain⟩,
      noBracket_of (by decide) (by decide), within_times halpha 2, halpha⟩
  holds := by
    refine ⟨(· = '@'), .inr (.inl fun _ h => h), fun name hname c hc => ?_⟩
    have hsign : ∀ name ∈ markNames, ∀ c ∈ mark name, (!decide (c = '@')) = true :=
      of_marks (by decide +kernel)
    simpa using hsign name hname c hc
  looks := .inl emailRe_local

theorem maskable_bounded {core : Regex} (hlocal : core.Local) (hwithin : core.Within noBracket)
    (hholds : core.Holds tables.isdecimal) : Maskable (bounded core) where
  within := ⟨trivial, hwithin, trivial⟩
  holds := ⟨tables.isdecimal, .inr (.inl hholds), isdecimal_notInMarks tables⟩
  looks := .inr ⟨core, hlocal, rfl⟩

theorem cardDigit_within : (cardDigit tables).Within noBracket :=
  ⟨isdecimal_noBracket tables, noBracket_of (by decide) (by decide)⟩

theorem cardRe_maskable : Maskable (cardRe tables) := by
  have hlocal : (cardDigit tables).Local := ⟨trivial, trivial⟩
  exact maskable_bounded tables ⟨local_copies hlocal 13, local_atMost hlocal 6⟩
    ⟨within_copies (cardDigit_within tables) 13, within_atMost (cardDigit_within tables) 6⟩
    (.inl (.inl (.inl fun _ h => h)))

theorem ssnRe_maskable : Maskable (ssnRe tables) := by
  have hdigit := isdecimal_noBracket tables
  have hgap : ∀ c, dashOrSpace c = true → noBracket c = true := noBracket_of (by decide) (by decide)
  exact maskable_bounded tables
    ⟨local_times 3 _, trivial, local_times 2 _, trivial, local_times 4 _⟩
    ⟨within_times hdigit 3, hgap, within_times hdigit 2, hgap, within_times hdigit 4⟩
    (.inl (.inl fun _ h => h))

theorem phoneRe_maskable : Maskable (phoneRe tables) := by
  have hdigit := isdecimal_noBracket tables
  have hgap : ∀ c, phoneGap c = true → noBracket c = true := noBracket_of (by decide) (by decide)
  have hone : ∀ d : Char, d ≠ '[' → d ≠ ']' → ∀ c, decide (c = d) = true → noBracket c = true := by
    intro d hopen hclose
    exact noBracket_of (decide_eq_false hopen.symm) (decide_eq_false hclose.symm)
  exact maskable_bounded tables
    ⟨⟨⟨trivial, trivial, trivial⟩, trivial⟩, trivial, local_times 3 _, trivial, trivial,
      local_times 3 _, trivial, local_times 4 _⟩
    ⟨⟨⟨hone '+' (by decide) (by decide), hone '1' (by decide) (by decide), hgap⟩, trivial⟩,
      hone '(' (by decide) (by decide), within_times hdigit 3, hone ')' (by decide) (by decide), hgap,
      within_times hdigit 3, hgap, within_times hdigit 4⟩
    (.inr (.inr (.inl (.inl fun _ h => h))))

theorem octet_local : (octet tables).Local :=
  ⟨⟨trivial, trivial, trivial⟩, ⟨trivial, trivial, trivial⟩, trivial, trivial, trivial⟩

theorem octet_within : (octet tables).Within noBracket := by
  have hdigit := isdecimal_noBracket tables
  exact ⟨⟨noBracket_of (by decide) (by decide), noBracket_of (by decide) (by decide),
      noBracket_of (by decide) (by decide)⟩,
    ⟨noBracket_of (by decide) (by decide), noBracket_of (by decide) (by decide), hdigit⟩,
    noBracket_of (by decide) (by decide), hdigit, hdigit⟩

theorem octet_holds : (octet tables).Holds tables.isdecimal := by
  have htwo : ∀ c, decide (c = '2') = true → tables.isdecimal c = true := by
    intro c hc
    rw [of_decide_eq_true hc, tables.isdecimal_ascii _ (by decide)]
    decide
  exact ⟨.inl htwo, .inl htwo, .inr (.inl fun _ h => h)⟩

theorem ipRe_maskable : Maskable (ipRe tables) := by
  have hlocal : (Regex.seq (octet tables) (.one (· = '.'))).Local := ⟨octet_local tables, trivial⟩
  have hwithin : (Regex.seq (octet tables) (.one (· = '.'))).Within noBracket :=
    ⟨octet_within tables, noBracket_of (by decide) (by decide)⟩
  exact maskable_bounded tables ⟨local_copies hlocal 3, octet_local tables⟩
    ⟨within_copies hwithin 3, octet_within tables⟩ (.inr (octet_holds tables))

theorem patterns_maskable : ∀ p ∈ patterns tables, Maskable p.2 := by
  intro p hp
  simp only [patterns, List.mem_cons, List.not_mem_nil, or_false] at hp
  rcases hp with rfl | rfl | rfl | rfl | rfl
  · exact emailRe_maskable
  · exact cardRe_maskable tables
  · exact ssnRe_maskable tables
  · exact phoneRe_maskable tables
  · exact ipRe_maskable tables

/-! ## Masked texts -/

/-- No pattern matches in the text. -/
def Clean (text : String) : Prop := ∀ p ∈ patterns tables, search tables.isalnum p.2 text = none

variable {tables}

theorem clean_iff {text : String} : Clean tables text ↔
    ∀ p ∈ patterns tables, ¬ Found tables.isalnum p.2 [] text.toList := by
  have hone : ∀ p ∈ patterns tables, (search tables.isalnum p.2 text = none ↔
      ¬ Found tables.isalnum p.2 [] text.toList) := by
    intro p hp
    obtain ⟨q, hholds, -⟩ := (patterns_maskable tables p hp).holds
    rw [← search_isSome_iff hholds.minLength_pos, Option.not_isSome_iff_eq_none]
  exact forall₂_congr hone

theorem shielded {pattern asked : Regex} {name : String}
    (hname : name ∈ markNames) (hmaskable : Maskable asked)
    (hlooks : asked.Local ∨ pattern.Bounded) : Shielded pattern asked (mark name) '[' ']' := by
  refine ⟨?_, ?_, fun t ht => ?_, ?_⟩
  · have hopens : ∀ name ∈ markNames, (mark name).head? = some '[' := by
      decide +kernel
    exact hopens name hname
  · have hcloses : ∀ name ∈ markNames,
        (mark name).getLast? = some ']' := by decide +kernel
    exact hcloses name hname
  · have hall := hmaskable.within.all noBracket_fold ht
    refine ⟨fun hmem => absurd (hall _ hmem) (by decide), fun hmem => absurd (hall _ hmem) (by decide),
      fun hword => ?_⟩
    obtain ⟨p, hholds, hmarks⟩ := hmaskable.holds
    obtain ⟨c, hc, hp⟩ := hholds.exists ht
    rw [hmarks name hname c (hword.subset hc)] at hp
    cases hp
  · rcases hmaskable.looks with hlocal | hbounded
    · exact .inl hlocal
    · exact hlooks.imp_right fun hpattern => ⟨hbounded, hpattern⟩

theorem subn_not_found {pattern asked : Regex} {name text : String}
    (hname : name ∈ markNames) (hmaskable : Maskable asked)
    (hlooks : asked.Local ∨ pattern.Bounded)
    (hnot : asked = pattern ∨ ¬ Found tables.isalnum asked [] text.toList) :
    ¬ Found tables.isalnum asked [] (subn tables.isalnum pattern (mark name) text).1.toList :=
  (replaced_subn text).not_found (shielded hname hmaskable hlooks) hnot [] (.inr (.inl rfl))

theorem maskWith_not_found (ps : List (String × Regex))
    (hnames : ∀ p ∈ ps, p.1 ∈ markNames)
    (hbounded : ∀ p ∈ ps, p.2.Bounded) (text : String) {asked : Regex} (hmaskable : Maskable asked)
    (hnot : asked ∈ ps.map Prod.snd ∨ ¬ Found tables.isalnum asked [] text.toList) :
    ¬ Found tables.isalnum asked [] (maskWith tables ps text).1.toList := by
  induction ps generalizing text with
  | nil => exact hnot.resolve_left List.not_mem_nil
  | cons p ps ih =>
    obtain ⟨hname, hnames⟩ := List.forall_mem_cons.mp hnames
    obtain ⟨hp, hbounded⟩ := List.forall_mem_cons.mp hbounded
    refine ih hnames hbounded _ ?_
    by_cases hlater : asked ∈ ps.map Prod.snd
    · exact .inl hlater
    · refine .inr (subn_not_found hname hmaskable (.inr hp) ?_)
      rcases hnot with hmem | hnot
      · exact .inl ((List.mem_cons.mp hmem).resolve_right hlater)
      · exact .inr hnot

theorem Maskable.bounded {core : Regex} (h : Maskable (bounded core)) : (bounded core).Bounded :=
  h.looks.resolve_left fun hlocal => hlocal.1

theorem tail_bounded : ∀ p ∈ (patterns tables).tail, p.2.Bounded := by
  intro p hp
  simp only [patterns, List.tail_cons, List.mem_cons, List.not_mem_nil, or_false] at hp
  rcases hp with rfl | rfl | rfl | rfl
  · exact Maskable.bounded (cardRe_maskable tables)
  · exact Maskable.bounded (ssnRe_maskable tables)
  · exact Maskable.bounded (phoneRe_maskable tables)
  · exact Maskable.bounded (ipRe_maskable tables)

theorem tail_names : ∀ p ∈ (patterns tables).tail, p.1 ∈ markNames := by
  have hnames : (patterns tables).map Prod.fst = markNames := rfl
  exact fun p hp => hnames ▸ List.mem_map_of_mem (List.mem_of_mem_tail hp)

theorem maskText_of_ne {text : String} (h : text ≠ "") : (maskText tables text).1 =
    (maskWith tables (patterns tables).tail (subn tables.isalnum emailRe (mark "EMAIL") text).1).1 := by
  rw [maskText, if_neg h]
  unfold patterns
  rw [maskWith, List.tail_cons]

/-- **A masked text is clean.** -/
theorem maskText_clean (text : String) : Clean tables (maskText tables text).1 := by
  rw [clean_iff]
  intro p hp
  by_cases hempty : text = ""
  · rw [maskText, if_pos hempty]
    rintro ⟨a, t, b, heq, hne, -⟩
    exact hne (List.append_eq_nil_iff.mp (List.append_eq_nil_iff.mp heq.symm).1).2
  · rw [maskText_of_ne hempty]
    refine maskWith_not_found _ tail_names tail_bounded _ (patterns_maskable tables p hp) ?_
    rcases List.mem_cons.mp hp with rfl | hrest
    · exact .inr (subn_not_found (by decide) emailRe_maskable (.inl emailRe_local) (.inl rfl))
    · exact .inl (List.mem_map_of_mem hrest)

/-- The passes of a text: each puts in its marks, and they are counted. -/
inductive Passes (tables : DigitTables) : List (String × Regex) → String → String → Nat → Prop
  | nil (text : String) : Passes tables [] text text 0
  | cons {name text text' out : String} {pattern : Regex} {ps : List (String × Regex)} {k n : Nat}
      (hpass : Replaced tables.isalnum pattern (mark name) [] text.toList text'.toList k)
      (hrest : Passes tables ps text' out n) : Passes tables ((name, pattern) :: ps) text out (k + n)

theorem maskWith_passes (ps : List (String × Regex)) (text : String) :
    Passes tables ps text (maskWith tables ps text).1 (maskWith tables ps text).2 := by
  induction ps generalizing text with
  | nil => exact .nil text
  | cons p ps ih => exact .cons (replaced_subn text) (ih _)

/-- **The count** is the number of the marks. -/
theorem maskText_passes (text : String) :
    Passes tables (patterns tables) text (maskText tables text).1 (maskText tables text).2 := by
  by_cases hempty : text = ""
  · have hnil : ∀ ps : List (String × Regex), Passes tables ps "" "" 0 := by
      intro ps
      induction ps with
      | nil => exact .nil ""
      | cons p ps ih => exact .cons (k := 0) (.nil []) ih
    rw [maskText, if_pos hempty, hempty]
    exact hnil _
  · rw [maskText, if_neg hempty]
    exact maskWith_passes _ text

theorem Passes.of_clean {ps : List (String × Regex)} {text out : String} {n : Nat}
    (h : Passes tables ps text out n)
    (hnot : ∀ p ∈ ps, ¬ Found tables.isalnum p.2 [] text.toList) : out = text ∧ n = 0 := by
  induction h with
  | nil text => exact ⟨rfl, rfl⟩
  | cons hpass hrest ih =>
    obtain ⟨hfirst, hnot⟩ := List.forall_mem_cons.mp hnot
    obtain ⟨hsame, rfl⟩ := hpass.of_not_found hfirst
    obtain rfl := String.toList_inj.mp hsame
    exact ⟨(ih hnot).1, by rw [(ih hnot).2]⟩

theorem maskText_of_clean {text : String} (h : Clean tables text) :
    maskText tables text = (text, 0) := by
  obtain ⟨hout, hcount⟩ := (maskText_passes text).of_clean (clean_iff.mp h)
  exact Prod.ext hout hcount

end LlmProxy.Privacy
