import LlmProxy.Lib.Separated
import LlmProxy.Lib.Substitution

/-! # Redaction

`_SECRET_PATTERNS` and `_redact` of `app/monitoring/helpers.py`: five substitutions, one after the
other, on the text that is logged.

> `redact_no_token`: no token is left, and none comes about by a later substitution.

Mirroring notes.
* Under `IGNORECASE` a class is asked about the folded character, as `sre` does.
* `CharTables` are Python's tables of characters for `\w` and `\d`, with what is used of them.
-/

namespace LlmProxy.Monitoring

open Regex

/-- `str.isalnum` and `str.isdecimal` of one character. -/
structure CharTables where
  isalnum : Char → Bool
  isdecimal : Char → Bool
  isalnum_ascii : ∀ c, c.toNat < 128 → isalnum c = c.isAlphanum
  isalnum_ellipsis : isalnum '…' = false
  isalnum_of_isdecimal : ∀ c, isdecimal c = true → isalnum c = true

variable (tables : CharTables)

/-! ## The patterns -/

/-- `\d` under `IGNORECASE`. -/
def digit (c : Char) : Bool := tables.isdecimal (foldCase c)

/-- `[\w-]`. -/
def wordOrHyphen (c : Char) : Bool :=
  let d := foldCase c
  d = '_' || tables.isalnum d || d = '-'

/-- `[A-Za-z0-9]`. -/
def letterOrDigit (c : Char) : Bool :=
  let d := foldCase c
  ('a' ≤ d && d ≤ 'z') || ('0' ≤ d && d ≤ '9')

/-- `[A-Za-z0-9_-]`. -/
def aizaChar (c : Char) : Bool :=
  let d := foldCase c
  letterOrDigit c || d = '_' || d = '-'

/-- `[^"]`. -/
def notQuote (c : Char) : Bool := c ≠ '"'

/-- `[^\s",]`. -/
def headerChar (c : Char) : Bool := !PyStr.isSpace c && c ≠ '"' && c ≠ ','

/-- `\s*`. -/
def spaces : Regex := .many PyStr.isSpace

/-- `sk-ant-(?:api|oat|ort)\d*-[\w-]+`. -/
def antRe : Regex :=
  .seq (.text "sk-ant-") (.seq (.alt (.text "api") (.alt (.text "oat") (.text "ort")))
    (.seq (.many (digit tables)) (.seq (.text "-") (many1 (wordOrHyphen tables)))))

/-- `sk-[A-Za-z0-9]{20,}`. -/
def skRe : Regex := .seq (.text "sk-") (.seq (times 20 letterOrDigit) (.many letterOrDigit))

/-- `AIza[A-Za-z0-9_-]{35}`. -/
def aizaRe : Regex := .seq (.text "AIza") (times 35 aizaChar)

/-- `"api_key"\s*:\s*"[^"]+"`. -/
def apiKeyRe : Regex :=
  .seq (.text "\"api_key\"") (.seq spaces (.seq (.one (· = ':')) (.seq spaces
    (.seq (.one (· = '"')) (.seq (many1 notQuote) (.one (· = '"')))))))

/-- `(Authorization|x-api-key)\s*:\s*[^\s",]+`. -/
def headerRe : Regex :=
  .seq (.alt (.text "Authorization") (.text "x-api-key")) (.seq spaces (.seq (.one (· = ':'))
    (.seq spaces (many1 headerChar))))

/-! ## The replacements -/

/-- `***REDACTED***`. -/
def mark : List Char := "***REDACTED***".toList

/-- `"api_key": "***REDACTED***"`. -/
def maskedKey : List Char := "\"api_key\": \"***REDACTED***\"".toList

def headerName (m : List Char) : List Char :=
  if "authorization".toList.isPrefixOf (m.map foldCase) then m.take 13 else m.take 9

/-- `\1: ***REDACTED***`. -/
def maskedHeader (m : List Char) : List Char := headerName m ++ ": ***REDACTED***".toList

/-- `_redact`. -/
def redact (text : String) : String :=
  let text := sub tables.isalnum (antRe tables) (fun _ => "sk-ant-".toList ++ mark) text
  let text := sub tables.isalnum skRe (fun _ => "sk-".toList ++ mark) text
  let text := sub tables.isalnum aizaRe (fun _ => "AIza".toList ++ mark) text
  let text := sub tables.isalnum apiKeyRe (fun _ => maskedKey) text
  sub tables.isalnum headerRe maskedHeader text

/-- What the first three patterns read. -/
def IsToken (w : List Char) : Prop :=
  (antRe tables).Reads w ∨ skRe.Reads w ∨ aizaRe.Reads w

/-! ## The shape of a token -/

def tokenChar (c : Char) : Bool :=
  let d := foldCase c
  d ≠ '*' && d ≠ '"' && d ≠ ':' && d ≠ '…'

theorem tokenChar_fold (c d : Char) (h : foldCase c = foldCase d) : tokenChar c = tokenChar d := by
  simp only [tokenChar, h]

theorem tokenChar_iff {c : Char} : tokenChar c = true ↔
    foldCase c ≠ '*' ∧ foldCase c ≠ '"' ∧ foldCase c ≠ ':' ∧ foldCase c ≠ '…' := by
  simp [tokenChar, and_assoc]

/-- A token is long, and longer still if it has no hyphen. -/
structure TokenShape (w : List Char) : Prop where
  chars : ∀ c ∈ w, tokenChar c = true
  long : 12 ≤ w.length
  hyphen : '-' ∈ w.map foldCase ∨ 14 ≤ w.length

theorem wordOrHyphen_tokenChar (c : Char) (h : wordOrHyphen tables c = true) :
    tokenChar c = true := by
  rw [tokenChar_iff]
  simp only [wordOrHyphen, Bool.or_eq_true, decide_eq_true_eq] at h
  have hnot : ∀ d, tables.isalnum d = false → d ≠ '_' → d ≠ '-' → foldCase c ≠ d := by
    rintro d hd h1 h2 rfl
    rw [hd] at h
    simp [h1, h2] at h
  refine ⟨hnot '*' ?_ (by decide) (by decide), hnot '"' ?_ (by decide) (by decide),
    hnot ':' ?_ (by decide) (by decide),
    hnot '…' tables.isalnum_ellipsis (by decide) (by decide)⟩
  all_goals
    rw [tables.isalnum_ascii _ (by decide)]
    decide

theorem digit_tokenChar (c : Char) (h : digit tables c = true) : tokenChar c = true := by
  refine wordOrHyphen_tokenChar tables c ?_
  have halnum := tables.isalnum_of_isdecimal (foldCase c) h
  simp [wordOrHyphen, halnum]

theorem aizaChar_tokenChar (c : Char) (h : aizaChar c = true) : tokenChar c = true := by
  rw [tokenChar_iff]
  have hnot : ∀ d, ((('a' ≤ d && d ≤ 'z') || ('0' ≤ d && d ≤ '9')) || d = '_' || d = '-') = false →
      foldCase c ≠ d := by
    rintro d hd rfl
    simp only [aizaChar, letterOrDigit] at h
    rw [hd] at h
    exact absurd h (by decide)
  exact ⟨hnot '*' (by decide), hnot '"' (by decide), hnot ':' (by decide), hnot '…' (by decide)⟩

theorem letterOrDigit_tokenChar (c : Char) (h : letterOrDigit c = true) : tokenChar c = true :=
  aizaChar_tokenChar c (by simp [aizaChar, h])

theorem antRe_caseless : (antRe tables).Caseless := by
  have hdigit : ∀ c d, foldCase c = foldCase d → digit tables c = digit tables d := by
    intro c d h
    simp only [digit, h]
  have hword : ∀ c d, foldCase c = foldCase d → wordOrHyphen tables c = wordOrHyphen tables d := by
    intro c d h
    simp only [wordOrHyphen, h]
  exact ⟨trivial, ⟨trivial, trivial, trivial⟩, hdigit, trivial, hword, hword⟩

theorem letterOrDigit_fold (c d : Char) (h : foldCase c = foldCase d) :
    letterOrDigit c = letterOrDigit d := by
  simp only [letterOrDigit, h]

theorem skRe_caseless : skRe.Caseless :=
  ⟨trivial, caseless_times letterOrDigit_fold 20, letterOrDigit_fold⟩

theorem aizaRe_caseless : aizaRe.Caseless := by
  refine ⟨trivial, caseless_times ?_ 35⟩
  intro c d h
  simp only [aizaChar, letterOrDigit, h]

theorem within_text {s : String} (h : s.toList.all tokenChar = true) :
    (Regex.text s).Within tokenChar :=
  List.all_eq_true.mp h

theorem antRe_shape {w : List Char} (h : (antRe tables).Reads w) : TokenShape w := by
  refine ⟨?_, minLength_le h, Or.inl ?_⟩
  · have hwithin : (antRe tables).Within tokenChar := ⟨within_text (by decide),
      ⟨within_text (by decide), within_text (by decide), within_text (by decide)⟩,
      digit_tokenChar tables, within_text (by decide), wordOrHyphen_tokenChar tables,
      wordOrHyphen_tokenChar tables⟩
    exact hwithin.all tokenChar_fold h
  · obtain ⟨u, v, rfl, hu, -⟩ := h
    have hfold : u.map foldCase = "sk-ant-".toList.map foldCase := hu
    rw [List.map_append, hfold]
    exact List.mem_append_left _ (by decide)

theorem skRe_shape {w : List Char} (h : skRe.Reads w) : TokenShape w := by
  have hlength : 23 ≤ w.length := by
    have hmin := minLength_le h
    have hpattern : skRe.minLength = 3 + ((times 20 letterOrDigit).minLength + 0) := rfl
    rw [hpattern, minLength_times] at hmin
    exact hmin
  refine ⟨?_, by omega, Or.inr (by omega)⟩
  have hwithin : skRe.Within tokenChar :=
    ⟨within_text (by decide), within_times letterOrDigit_tokenChar 20, letterOrDigit_tokenChar⟩
  exact hwithin.all tokenChar_fold h

theorem aizaRe_shape {w : List Char} (h : aizaRe.Reads w) : TokenShape w := by
  have hlength : 39 ≤ w.length := by
    have hmin := minLength_le h
    have hpattern : aizaRe.minLength = 4 + (times 35 aizaChar).minLength := rfl
    rw [hpattern, minLength_times] at hmin
    exact hmin
  refine ⟨?_, by omega, Or.inr (by omega)⟩
  have hwithin : aizaRe.Within tokenChar :=
    ⟨within_text (by decide), within_times aizaChar_tokenChar 35⟩
  exact hwithin.all tokenChar_fold h

variable {tables}

theorem IsToken.shape {w : List Char} (h : IsToken tables w) : TokenShape w := by
  rcases h with h | h | h
  · exact antRe_shape tables h
  · exact skRe_shape h
  · exact aizaRe_shape h

theorem TokenShape.within {w : List Char} (h : TokenShape w) :
    w ≠ [] ∧ ∀ c ∈ w, tokenChar c = true := by
  refine ⟨?_, h.chars⟩
  rintro rfl
  exact absurd h.long (by decide)

/-! ## A replacement holds no token -/

theorem TokenShape.not_infix {w text : List Char} (h : TokenShape w)
    (hruns : longestRun tokenChar text < 12) : ¬ w <:+: text := by
  intro hinside
  have hlength := length_le_longestRun h.chars hinside
  have hlong := h.long
  omega

theorem fits_mark {pattern : Regex} (start : String)
    (hstart : ∀ m, pattern.Reads m → start.toList.map foldCase <+: m.map foldCase)
    (hchars : start.toList.all tokenChar = true) :
    Fits tokenChar pattern (fun _ => start.toList ++ mark) := by
  refine ⟨fun m hm => ?_, fun m _ => ⟨start.toList ++ "***REDACTED**".toList, '*', ?_, by decide⟩⟩
  · have htake : (start.toList ++ mark).takeWhile tokenChar = start.toList := by
      rw [List.takeWhile_append_of_pos (List.all_eq_true.mp hchars)]
      have hmark : mark.takeWhile tokenChar = [] := by decide
      rw [hmark, List.append_nil]
    rw [htake]
    exact hstart m hm
  · rw [List.append_assoc]
    rfl

theorem reads_text_prefix {start : String} {rest : Regex} {m : List Char}
    (h : (Regex.seq (.text start) rest).Reads m) :
    start.toList.map foldCase <+: m.map foldCase := by
  obtain ⟨u, v, rfl, hu, -⟩ := h
  have hfold : u.map foldCase = start.toList.map foldCase := hu
  rw [List.map_append, hfold]
  exact List.prefix_append _ _

theorem antRe_fits : Fits tokenChar (antRe tables) (fun _ => "sk-ant-".toList ++ mark) :=
  fits_mark "sk-ant-" (fun _ => reads_text_prefix) (by decide)

theorem skRe_fits : Fits tokenChar skRe (fun _ => "sk-".toList ++ mark) :=
  fits_mark "sk-" (fun _ => reads_text_prefix) (by decide)

theorem aizaRe_fits : Fits tokenChar aizaRe (fun _ => "AIza".toList ++ mark) :=
  fits_mark "AIza" (fun _ => reads_text_prefix) (by decide)

theorem apiKeyRe_fits : Fits tokenChar apiKeyRe (fun _ => maskedKey) := by
  refine ⟨fun m _ => ?_, fun m _ => ⟨maskedKey.dropLast, '"', by decide, by decide⟩⟩
  have htake : maskedKey.takeWhile tokenChar = [] := by decide
  rw [htake]
  exact List.nil_prefix

/-! ## Headers -/

/-- The two names, as `IGNORECASE` compares them. -/
def IsHeaderName (g : List Char) : Prop :=
  g.map foldCase = "authorization".toList ∨ g.map foldCase = "x-api-key".toList

/-- A header with its value, as the pattern reads it. -/
structure HeaderParts (m g blank gap value : List Char) : Prop where
  text : m = g ++ (blank ++ ':' :: (gap ++ value))
  name : IsHeaderName g
  blank : ∀ c ∈ blank, PyStr.isSpace c = true
  gap : ∀ c ∈ gap, PyStr.isSpace c = true
  nonempty : value ≠ []
  value : ∀ c ∈ value, headerChar c = true

theorem many1_reads {p : Char → Bool} {t : List Char} :
    (many1 p).Reads t ↔ t ≠ [] ∧ ∀ c ∈ t, p c = true := by
  constructor
  · rintro ⟨u, v, rfl, ⟨c, rfl, hc⟩, hv⟩
    exact ⟨List.cons_ne_nil c v, List.forall_mem_cons.mpr ⟨hc, hv⟩⟩
  · rintro ⟨hne, hall⟩
    cases t with
    | nil => exact absurd rfl hne
    | cons c t =>
      obtain ⟨hc, ht⟩ := List.forall_mem_cons.mp hall
      exact ⟨[c], t, rfl, ⟨c, rfl, hc⟩, ht⟩

theorem one_eq_reads {d : Char} {t : List Char} : (Regex.one (· = d)).Reads t ↔ t = [d] := by
  constructor
  · rintro ⟨c, rfl, hc⟩
    rw [of_decide_eq_true hc]
  · rintro rfl
    exact ⟨d, rfl, decide_eq_true rfl⟩

theorem headerRe_reads {m : List Char} :
    headerRe.Reads m ↔ ∃ g blank gap value, HeaderParts m g blank gap value := by
  constructor
  · rintro ⟨g, _, rfl, hg, blank, _, rfl, hblank, colon, _, rfl, hcolon, gap, value, rfl,
      hgap, hvalue⟩
    obtain rfl := one_eq_reads.mp hcolon
    obtain ⟨hne, hall⟩ := many1_reads.mp hvalue
    refine ⟨g, blank, gap, value, rfl, ?_, hblank, hgap, hne, hall⟩
    rcases hg with hg | hg
    · exact Or.inl hg
    · exact Or.inr hg
  · rintro ⟨g, blank, gap, value, h⟩
    refine ⟨g, _, h.text, ?_, blank, _, rfl, h.blank, [':'], _, rfl, one_eq_reads.mpr rfl, gap,
      value, rfl, h.gap, many1_reads.mpr ⟨h.nonempty, h.value⟩⟩
    rcases h.name with hg | hg
    · exact Or.inl hg
    · exact Or.inr hg

theorem headerName_append {g rest : List Char} (h : IsHeaderName g) : headerName (g ++ rest) = g := by
  have hlength : ∀ n, (g.map foldCase).length = n → (g ++ rest).take n = g := by
    rintro n rfl
    rw [List.length_map, List.take_left]
  rw [headerName, List.map_append]
  rcases h with h | h
  · have hstarts : "authorization".toList.isPrefixOf (g.map foldCase ++ rest.map foldCase) = true := by
      rw [h]
      exact List.isPrefixOf_iff_prefix.mpr (List.prefix_append _ _)
    rw [if_pos hstarts]
    exact hlength 13 (by rw [h]; rfl)
  · have hstarts :
        "authorization".toList.isPrefixOf (g.map foldCase ++ rest.map foldCase) = false := by
      rw [h]
      rfl
    rw [hstarts]
    exact hlength 9 (by rw [h]; rfl)

theorem HeaderParts.masked {m g blank gap value : List Char}
    (h : HeaderParts m g blank gap value) :
    maskedHeader m = g ++ ": ***REDACTED***".toList := by
  rw [maskedHeader, h.text, headerName_append h.name]

theorem IsHeaderName.all {p : Char → Bool} (hp : ∀ c d, foldCase c = foldCase d → p c = p d)
    (hnames : ("authorization".toList ++ "x-api-key".toList).all p = true) {g : List Char}
    (h : IsHeaderName g) : ∀ c ∈ g, p c = true := by
  have hall := List.all_eq_true.mp hnames
  rcases h with h | h
  · exact all_fold hp (t := "authorization".toList) (h.trans (by decide))
      fun c hc => hall c (List.mem_append_left _ hc)
  · exact all_fold hp (t := "x-api-key".toList) (h.trans (by decide))
      fun c hc => hall c (List.mem_append_right _ hc)

theorem IsHeaderName.tokenChars {g : List Char} (h : IsHeaderName g) :
    ∀ c ∈ g, tokenChar c = true :=
  h.all tokenChar_fold (by decide)

theorem headerRe_fits : Fits tokenChar headerRe maskedHeader := by
  refine ⟨fun m hm => ?_, fun m hm => ?_⟩
  · obtain ⟨g, blank, gap, value, h⟩ := headerRe_reads.mp hm
    have htail : (": ***REDACTED***".toList).takeWhile tokenChar = [] := by decide
    rw [h.masked, List.takeWhile_append_of_pos h.name.tokenChars, htail, List.append_nil, h.text,
      List.map_append]
    exact List.prefix_append _ _
  · exact ⟨headerName m ++ ": ***REDACTED**".toList, '*', by rw [maskedHeader, List.append_assoc]; rfl,
      by decide⟩

/-- **A masked header holds no token.** -/
theorem TokenShape.not_infix_header {w m : List Char} (h : TokenShape w) (hm : headerRe.Reads m) :
    ¬ w <:+: maskedHeader m := by
  obtain ⟨g, blank, gap, value, hparts⟩ := headerRe_reads.mp hm
  rw [hparts.masked]
  rintro ⟨before, rest, hinside⟩
  have hcolon : ':' ∉ w := fun hmem => absurd (h.chars ':' hmem) (by decide)
  have hsplit : g ++ ':' :: " ***REDACTED***".toList = before ++ w ++ rest := hinside.symm
  rcases Separated.infix_or_behind hcolon hsplit with hname | ⟨before', -, htail⟩
  · -- in the name: it is too short, or has no hyphen
    have hlength := hname.length_le
    have hlong := h.long
    rcases hparts.name with hg | hg
    · have hg13 : g.length = 13 := by
        have := congrArg List.length hg
        rwa [List.length_map] at this
      rcases h.hyphen with hhyphen | hlonger
      · have hmem : '-' ∈ g.map foldCase := (hname.map foldCase).subset hhyphen
        rw [hg] at hmem
        exact absurd hmem (by decide)
      · omega
    · have hg9 : g.length = 9 := by
        have := congrArg List.length hg
        rwa [List.length_map] at this
      omega
  · have hshort : longestRun tokenChar " ***REDACTED***".toList < 12 := by decide
    exact h.not_infix hshort ⟨before', rest, htail.symm⟩

/-! ## Nothing left of a token -/

/-- The five intermediate texts of a redaction. -/
structure Passes (tables : CharTables) (text t₁ t₂ t₃ t₄ out : List Char) : Prop where
  ant : Subbed tables.isalnum (antRe tables) (fun _ => "sk-ant-".toList ++ mark) text t₁
  sk : Subbed tables.isalnum skRe (fun _ => "sk-".toList ++ mark) t₁ t₂
  aiza : Subbed tables.isalnum aizaRe (fun _ => "AIza".toList ++ mark) t₂ t₃
  apiKey : Subbed tables.isalnum apiKeyRe (fun _ => maskedKey) t₃ t₄
  header : Subbed tables.isalnum headerRe maskedHeader t₄ out

theorem redact_passes (text : String) :
    ∃ t₁ t₂ t₃ t₄, Passes tables text.toList t₁ t₂ t₃ t₄ (redact tables text).toList := by
  refine ⟨_, _, _, _, subbed_sub ?_ _, subbed_sub ?_ _, subbed_sub ?_ _, subbed_sub ?_ _,
    subbed_sub ?_ _⟩
  · exact ⟨trivial, ⟨trivial, trivial, trivial⟩, trivial, trivial, trivial, trivial⟩
  · exact ⟨trivial, local_times 20 letterOrDigit, trivial⟩
  · exact ⟨trivial, local_times 35 aizaChar⟩
  · exact ⟨trivial, trivial, trivial, trivial, trivial, ⟨trivial, trivial⟩, trivial⟩
  · exact ⟨⟨trivial, trivial⟩, trivial, trivial, trivial, trivial, trivial⟩

/-- **No token is left.** -/
theorem Passes.no_token {text t₁ t₂ t₃ t₄ out : List Char}
    (h : Passes tables text t₁ t₂ t₃ t₄ out) {w : List Char} (hw : IsToken tables w) :
    ¬ w <:+: out := by
  -- a pass brings no token about, of any language of tokens
  have hpass : ∀ (language pattern : Regex) (repl : List Char → List Char) (a b : List Char),
      language.Caseless → (∀ w, language.Reads w → TokenShape w) →
      Fits tokenChar pattern repl →
      (∀ m w, pattern.Reads m → TokenShape w → ¬ w <:+: repl m) →
      Subbed tables.isalnum pattern repl a b →
      (∀ w, language.Reads w → ¬ w <:+: a) → ∀ w, language.Reads w → ¬ w <:+: b := by
    intro language pattern repl a b hcaseless hshape hfits hnot hsubbed havoids
    exact hsubbed.avoids hfits hcaseless (fun w hw => (hshape w hw).within)
      (fun m w hm hw => hnot m w hm (hshape w hw)) havoids
  have hmask : ∀ (pattern : Regex) (start : String) (m w : List Char),
      longestRun tokenChar (start.toList ++ mark) < 12 → pattern.Reads m → TokenShape w →
      ¬ w <:+: start.toList ++ mark := fun _ _ _ _ hruns _ hshape => hshape.not_infix hruns
  have hkey : ∀ m w, apiKeyRe.Reads m → TokenShape w → ¬ w <:+: maskedKey :=
    fun _ _ _ hshape => hshape.not_infix (by decide)
  have hheader : ∀ m w, headerRe.Reads m → TokenShape w → ¬ w <:+: maskedHeader m :=
    fun _ _ hm hshape => hshape.not_infix_header hm
  have hant : ∀ m w, (antRe tables).Reads m → TokenShape w → ¬ w <:+: "sk-ant-".toList ++ mark :=
    fun m w => hmask (antRe tables) "sk-ant-" m w (by decide)
  have hsk : ∀ m w, skRe.Reads m → TokenShape w → ¬ w <:+: "sk-".toList ++ mark :=
    fun m w => hmask skRe "sk-" m w (by decide)
  have haiza : ∀ m w, aizaRe.Reads m → TokenShape w → ¬ w <:+: "AIza".toList ++ mark :=
    fun m w => hmask aizaRe "AIza" m w (by decide)
  have hlast : ∀ (language : Regex), language.Caseless →
      (∀ w, language.Reads w → TokenShape w) → (∀ w, language.Reads w → ¬ w <:+: t₃) →
      ∀ w, language.Reads w → ¬ w <:+: out := by
    intro language hcaseless hshape h₃
    have h₄ := hpass language _ _ _ _ hcaseless hshape apiKeyRe_fits hkey h.apiKey h₃
    exact hpass language _ _ _ _ hcaseless hshape headerRe_fits hheader h.header h₄
  have hshapeAnt : ∀ w, (antRe tables).Reads w → TokenShape w := fun _ => antRe_shape tables
  have hshapeSk : ∀ w, skRe.Reads w → TokenShape w := fun _ => skRe_shape
  have hshapeAiza : ∀ w, aizaRe.Reads w → TokenShape w := fun _ => aizaRe_shape
  rcases hw with hw | hw | hw
  · have h₁ := h.ant.clean antRe_fits (antRe_caseless tables)
      (fun w hw => (hshapeAnt w hw).within) fun m w hm hw => hant m w hm (hshapeAnt w hw)
    have h₂ := hpass _ _ _ _ _ (antRe_caseless tables) hshapeAnt skRe_fits hsk h.sk h₁
    have h₃ := hpass _ _ _ _ _ (antRe_caseless tables) hshapeAnt aizaRe_fits haiza h.aiza h₂
    exact hlast _ (antRe_caseless tables) hshapeAnt h₃ w hw
  · have h₂ := h.sk.clean skRe_fits skRe_caseless (fun w hw => (hshapeSk w hw).within)
      fun m w hm hw => hsk m w hm (hshapeSk w hw)
    have h₃ := hpass _ _ _ _ _ skRe_caseless hshapeSk aizaRe_fits haiza h.aiza h₂
    exact hlast _ skRe_caseless hshapeSk h₃ w hw
  · have h₃ := h.aiza.clean aizaRe_fits aizaRe_caseless (fun w hw => (hshapeAiza w hw).within)
      fun m w hm hw => haiza m w hm (hshapeAiza w hw)
    exact hlast _ aizaRe_caseless hshapeAiza h₃ w hw

end LlmProxy.Monitoring
