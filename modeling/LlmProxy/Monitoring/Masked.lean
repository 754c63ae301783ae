import LlmProxy.Monitoring.Redact

/-! # What a redacted text shows of keys and headers

> `Passes.key_masked`: an `"api_key"` member that can be read in it is the masked one, or opens
> with the quote that closes a masked one;
> `Passes.header_masked`: a header that can be read in it has a part of the mark as its value.
-/

namespace LlmProxy.Monitoring

open Regex

variable {tables : CharTables} {isalnum : Char → Bool}

/-! ## Members -/

/-- An `"api_key"` member, as the pattern reads it. -/
structure KeyParts (w name blank gap value : List Char) : Prop where
  text : w = '"' :: (name ++ '"' :: ((blank ++ ':' :: gap) ++ '"' :: (value ++ ['"'])))
  name : name.map foldCase = "api_key".toList
  blank : ∀ c ∈ blank, PyStr.isSpace c = true
  gap : ∀ c ∈ gap, PyStr.isSpace c = true
  nonempty : value ≠ []
  value : '"' ∉ value

theorem apiKeyRe_reads {w : List Char} :
    apiKeyRe.Reads w ↔ ∃ name blank gap value, KeyParts w name blank gap value := by
  constructor
  · rintro ⟨key, _, rfl, hkey, blank, _, rfl, hblank, colon, _, rfl, hcolon, gap, _, rfl, hgap,
      opening, _, rfl, hopen, value, closing, rfl, hvalue, hclose⟩
    obtain rfl := one_eq_reads.mp hcolon
    obtain rfl := one_eq_reads.mp hopen
    obtain rfl := one_eq_reads.mp hclose
    obtain ⟨hne, hall⟩ := many1_reads.mp hvalue
    have hfold : key.map foldCase = '"' :: ("api_key".toList ++ ['"']) := hkey
    obtain ⟨c, key, rfl, hc, hrest⟩ := List.map_eq_cons_iff.mp hfold
    obtain ⟨name, last, rfl, hname, hlast⟩ := List.map_eq_append_iff.mp hrest
    obtain ⟨d, more, rfl, hd, hnil⟩ := List.map_eq_cons_iff.mp hlast
    obtain rfl := List.map_eq_nil_iff.mp hnil
    obtain rfl := foldCase_of_not_letter hc (by decide)
    obtain rfl := foldCase_of_not_letter hd (by decide)
    refine ⟨name, blank, gap, value, by simp, hname, hblank, hgap, hne, ?_⟩
    intro hmem
    exact absurd (hall '"' hmem) (by decide)
  · rintro ⟨name, blank, gap, value, h⟩
    refine ⟨'"' :: (name ++ ['"']), _, ?_, ?_, blank, _, rfl, h.blank, [':'], _, rfl,
      one_eq_reads.mpr rfl, gap, _, rfl, h.gap, ['"'], _, rfl, one_eq_reads.mpr rfl, value,
      ['"'], rfl, many1_reads.mpr ⟨h.nonempty, ?_⟩, one_eq_reads.mpr rfl⟩
    · rw [h.text]
      simp
    · show ('"' :: (name ++ ['"'])).map foldCase = "\"api_key\"".toList.map foldCase
      rw [List.map_cons, List.map_append, h.name]
      rfl
    · intro c hc
      have hne : c ≠ '"' := fun heq => h.value (heq ▸ hc)
      simpa [notQuote] using hne

theorem KeyParts.name_plain {w name blank gap value : List Char}
    (h : KeyParts w name blank gap value) :
    '"' ∉ name ∧ '*' ∉ name := by
  constructor
  · intro hmem
    have hfold : foldCase '"' ∈ name.map foldCase := List.mem_map_of_mem hmem
    rw [h.name] at hfold
    exact absurd hfold (by decide)
  · intro hmem
    have hfold : foldCase '*' ∈ name.map foldCase := List.mem_map_of_mem hmem
    rw [h.name] at hfold
    exact absurd hfold (by decide)

theorem KeyParts.between_plain {w name blank gap value : List Char}
    (h : KeyParts w name blank gap value) :
    '"' ∉ blank ++ ':' :: gap ∧ '*' ∉ blank ++ ':' :: gap := by
  have hspace : ∀ d, PyStr.isSpace d = false → d ≠ ':' → d ∉ blank ++ ':' :: gap := by
    intro d hd hcolon hmem
    rcases List.mem_append.mp hmem with hmem | hmem
    · rw [h.blank d hmem] at hd
      exact absurd hd (by decide)
    · rcases List.mem_cons.mp hmem with heq | hmem
      · exact hcolon heq
      · rw [h.gap d hmem] at hd
        exact absurd hd (by decide)
  exact ⟨hspace '"' (by decide) (by decide), hspace '*' (by decide) (by decide)⟩

theorem maskedKey_eq : maskedKey =
    '"' :: ("api_key".toList ++ '"' :: (([] ++ ':' :: [' ']) ++ '"' :: (mark ++ ['"']))) := by
  decide

/-- **A member is read in one way:** one that begins a text as the masked one does is masked. -/
theorem KeyParts.eq_masked {w name blank gap value rest out : List Char}
    (h : KeyParts w name blank gap value) (heq : w ++ rest = maskedKey ++ out) :
    w = maskedKey := by
  rw [h.text, maskedKey_eq] at heq
  simp only [List.cons_append, List.append_assoc] at heq
  obtain ⟨rfl, h₁⟩ := Separated.append_sep_inj h.name_plain.1 (by decide) (List.cons.inj heq).2
  have hsep : blank ++ ':' :: (gap ++ '"' :: (value ++ '"' :: rest)) =
      [] ++ ':' :: ([' '] ++ '"' :: (mark ++ '"' :: out)) := by simpa using h₁
  have hcolon : ':' ∉ blank := fun hmem => absurd (h.blank ':' hmem) (by decide)
  obtain ⟨rfl, h₂⟩ := Separated.append_sep_inj hcolon (by decide) hsep
  have hquote : '"' ∉ gap := fun hmem => absurd (h.gap '"' hmem) (by decide)
  obtain ⟨rfl, h₃⟩ := Separated.append_sep_inj hquote (by decide) h₂
  obtain ⟨rfl, -⟩ := Separated.append_sep_inj h.value (by decide) h₃
  rw [h.text, maskedKey_eq]

theorem maskedKey_quotes {a b : List Char} (h : maskedKey = a ++ '"' :: b) :
    (a = [] ∧ maskedKey = '"' :: b) ∨ b.head? = some ':' ∨ b.head? = some '*' ∨
      a ++ ['"'] = maskedKey := by
  have heq := h.symm
  rw [maskedKey_eq] at heq
  rcases Separated.sep_cases (a := []) (by decide) heq with ⟨rfl, rfl⟩ | ⟨a₁, rfl, h₁⟩
  · exact Or.inl ⟨rfl, maskedKey_eq⟩
  · rcases Separated.sep_cases (by decide) h₁ with ⟨rfl, rfl⟩ | ⟨a₂, rfl, h₂⟩
    · exact Or.inr (Or.inl rfl)
    · rcases Separated.sep_cases (by decide) h₂ with ⟨rfl, rfl⟩ | ⟨a₃, rfl, h₃⟩
      · exact Or.inr (Or.inr (Or.inl rfl))
      · rcases Separated.sep_cases (by decide) h₃ with ⟨rfl, rfl⟩ | ⟨a₄, rfl, h₄⟩
        · exact Or.inr (Or.inr (Or.inr (by decide)))
        · exact absurd h₄ (by simp)

/-- What stands where a member can be read: the masked one, or the quote before it belongs to one. -/
def KeyMasked (before w : List Char) : Prop := w = maskedKey ∨ maskedKey <:+ before ++ ['"']

theorem KeyParts.begins {m name blank gap value : List Char}
    (h : KeyParts m name blank gap value) (rest : List Char) :
    ∃ rest', m ++ rest = '"' :: (name ++ '"' :: rest') := by
  refine ⟨(blank ++ ':' :: gap) ++ '"' :: (value ++ ['"']) ++ rest, ?_⟩
  rw [h.text]
  simp

/-- **The fourth substitution masks every member.** -/
theorem Passes.key_masked_first {text t₁ t₂ t₃ t₄ out : List Char}
    (h : Passes tables text t₁ t₂ t₃ t₄ out) {before w rest : List Char}
    (heq : t₄ = before ++ w ++ rest) (hw : apiKeyRe.Reads w) : KeyMasked before w := by
  obtain ⟨name, blank, gap, value, hparts⟩ := apiKeyRe_reads.mp hw
  obtain ⟨tail, hbegin⟩ := hparts.begins rest
  have hquotes := hparts.text
  rw [List.append_assoc, hbegin] at heq
  rcases h.apiKey.place heq with ⟨text', hsub, hnone⟩ |
    ⟨m, text', out', a, b, -, -, -, hrepl, hb, ha⟩
  · -- the member begins with a kept quote: the pattern would have matched it
    exfalso
    rcases hsub.up_to_cut hbegin.symm with ⟨rest', htext⟩ |
      ⟨u, v, m, text'', out', hsplit, hv, htext, hm, hne, hcut⟩
    · exact hnone w rest' hw (by rw [hquotes]; simp) htext
    · obtain ⟨mname, mblank, mgap, mvalue, hmparts⟩ := apiKeyRe_reads.mp hm
      obtain ⟨mrest, hmbegin⟩ := hmparts.begins text''
      rw [hmbegin] at htext
      cases u with
      | nil => exact hnone m text'' hm hne (by rw [htext, hmbegin]; rfl)
      | cons c u =>
        cases v with
        | nil => exact hv rfl
        | cons d v =>
          rw [maskedKey_eq] at hcut
          obtain ⟨rfl, hmasked⟩ := List.cons.inj hcut
          obtain ⟨rfl, hinner⟩ := List.cons.inj (hquotes.symm.trans hsplit)
          -- which of the three later quotes the replacement begins with
          rcases Separated.sep_cases hparts.name_plain.1 hinner.symm with
            ⟨rfl, hrest⟩ | ⟨u', rfl, hsplit'⟩
          · -- behind the key stands no letter
            rw [hrest] at hmasked
            cases blank with
            | nil => exact absurd (List.cons.inj hmasked).1 (by decide)
            | cons s blank =>
              have hs := hparts.blank s List.mem_cons_self
              obtain ⟨rfl, -⟩ := List.cons.inj hmasked
              exact absurd hs (by decide)
          · rcases Separated.sep_cases hparts.between_plain.1 hsplit' with
              ⟨rfl, hrest⟩ | ⟨u'', rfl, hsplit''⟩
            · -- the value would be the key of the match
              have hread : KeyParts ('"' :: (name ++ '"' :: ((blank ++ ':' :: gap) ++
                  '"' :: (mname ++ ['"'])))) name blank gap mname := by
                refine ⟨rfl, hparts.name, hparts.blank, hparts.gap, ?_, hmparts.name_plain.1⟩
                rintro rfl
                exact absurd hmparts.name (by decide)
              refine hnone _ mrest (apiKeyRe_reads.mpr ⟨_, _, _, _, hread⟩) (List.cons_ne_nil _ _) ?_
              rw [htext]
              simp
            · -- the replacement begins with the closing quote
              rcases Separated.sep_cases hparts.value hsplit'' with ⟨rfl, -⟩ | ⟨u₃, rfl, hend⟩
              · refine hnone w (mname ++ '"' :: mrest) hw (by rw [hquotes]; simp) ?_
                rw [htext, hquotes]
                simp
              · exact absurd hend (by simp)
  · rcases maskedKey_quotes hrepl with ⟨rfl, hmask⟩ | hcolon | hstar | hclosing
    · left
      have hmasked : w ++ rest = maskedKey ++ out' := by
        rw [hbegin, hb, hmask]
        rfl
      exact hparts.eq_masked hmasked
    · cases b with
      | nil => exact absurd hcolon nofun
      | cons c b =>
        obtain rfl := Option.some.inj hcolon
        cases name with
        | nil => exact absurd hparts.name (by decide)
        | cons d name =>
          obtain ⟨rfl, -⟩ := List.cons.inj hb
          exact absurd (List.cons.inj hparts.name).1 (by decide)
    · cases b with
      | nil => exact absurd hstar nofun
      | cons c b =>
        obtain rfl := Option.some.inj hstar
        cases name with
        | nil => exact absurd hparts.name (by decide)
        | cons d name =>
          obtain ⟨rfl, -⟩ := List.cons.inj hb
          exact absurd (List.cons.inj hparts.name).1 (by decide)
    · right
      obtain ⟨front, rfl⟩ := ha
      exact ⟨front, by rw [← hclosing, List.append_assoc]⟩

/-! ## Members and the last substitution -/

theorem headerRe_ne_nil {m : List Char} (h : headerRe.Reads m) : 11 ≤ m.length :=
  minLength_le h

theorem quote_notMem_header {m : List Char} (h : headerRe.Reads m) : '"' ∉ m := by
  obtain ⟨g, blank, gap, value, hparts⟩ := headerRe_reads.mp h
  rw [hparts.text]
  intro hmem
  rcases List.mem_append.mp hmem with hmem | hmem
  · exact absurd (hparts.name.tokenChars '"' hmem) (by decide)
  · rcases List.mem_append.mp hmem with hmem | hmem
    · exact absurd (hparts.blank '"' hmem) (by decide)
    · rcases List.mem_cons.mp hmem with hcolon | hmem
      · exact absurd hcolon (by decide)
      · rcases List.mem_append.mp hmem with hmem | hmem
        · exact absurd (hparts.gap '"' hmem) (by decide)
        · exact absurd (hparts.value '"' hmem) (by decide)

theorem colon_mem_header {m : List Char} (h : headerRe.Reads m) : ':' ∈ m := by
  obtain ⟨g, blank, gap, value, hparts⟩ := headerRe_reads.mp h
  rw [hparts.text]
  simp

theorem quote_notMem_maskedHeader {m : List Char} (h : headerRe.Reads m) :
    '"' ∉ maskedHeader m := by
  obtain ⟨g, blank, gap, value, hparts⟩ := headerRe_reads.mp h
  rw [hparts.masked]
  intro hmem
  rcases List.mem_append.mp hmem with hmem | hmem
  · exact absurd (hparts.name.tokenChars '"' hmem) (by decide)
  · exact absurd hmem (by decide)

theorem star_mem_maskedHeader (m : List Char) (_ : headerRe.Reads m) : '*' ∈ maskedHeader m :=
  List.mem_append_right _ (by decide)

theorem no_header_of_colon {t : List Char} (h : ':' ∉ t) (m : List Char) (hm : headerRe.Reads m) :
    ¬ m <:+: t := fun hinside => h (hinside.subset (colon_mem_header hm))

theorem no_header_of_length {t : List Char} (h : t.length < 11) (m : List Char)
    (hm : headerRe.Reads m) : ¬ m <:+: t := by
  intro hinside
  have hlength := hinside.length_le
  have hmin := headerRe_ne_nil hm
  omega

theorem maskedKey_kept {before before' : List Char}
    (h : Pieces headerRe maskedHeader before' before) (hmask : maskedKey <:+ before' ++ ['"']) :
    maskedKey <:+ before ++ ['"'] := by
  obtain ⟨front, hfront⟩ := hmask
  have hsplit : before' = front ++ '"' :: ("api_key".toList ++ '"' :: (": ".toList ++ '"' :: mark)) := by
    have hends : front ++ ('"' :: ("api_key".toList ++ '"' :: (": ".toList ++ '"' :: mark))) ++
        ['"'] = before' ++ ['"'] := by
      rw [← hfront, maskedKey_eq]
      simp
    exact (List.append_cancel_right hends).symm
  have hquote : ∀ m, headerRe.Reads m → '"' ∉ m := fun _ => quote_notMem_header
  obtain ⟨front', behind, rfl, -, h₁⟩ := h.forth hquote hsplit
  obtain ⟨key, behind, rfl, hkey, h₂⟩ := h₁.forth hquote rfl
  obtain ⟨between, value, rfl, hbetween, hvalue⟩ := h₂.forth hquote rfl
  rw [hkey.eq_of_noMatch (no_header_of_colon (by decide)),
    hbetween.eq_of_noMatch (no_header_of_length (by decide)),
    hvalue.eq_of_noMatch (no_header_of_colon (by decide))]
  refine ⟨front', ?_⟩
  rw [maskedKey_eq]
  simp

/-- **Every member that can be read in a redacted text is masked.** -/
theorem Passes.key_masked {text t₁ t₂ t₃ t₄ out : List Char}
    (h : Passes tables text t₁ t₂ t₃ t₄ out) {before w rest : List Char}
    (heq : out = before ++ w ++ rest) (hw : apiKeyRe.Reads w) : KeyMasked before w := by
  obtain ⟨name, blank, gap, value, hparts⟩ := apiKeyRe_reads.mp hw
  have hback : ∀ m, headerRe.Reads m → '"' ∉ maskedHeader m := fun _ => quote_notMem_maskedHeader
  have hout : out = before ++ '"' :: (name ++ '"' :: ((blank ++ ':' :: gap) ++
      '"' :: (value ++ '"' :: rest))) := by
    rw [heq, hparts.text]
    simp
  -- the four quotes stood in the text before the last substitution
  obtain ⟨before', behind, htext, hbefore, h₁⟩ := h.header.pieces.back hback hout
  obtain ⟨name', behind₁, rfl, hname, h₂⟩ := h₁.back hback rfl
  obtain ⟨between', behind₂, rfl, hbetween, h₃⟩ := h₂.back hback rfl
  obtain ⟨value', rest', rfl, hvalue, -⟩ := h₃.back hback rfl
  obtain rfl := hname.eq_of_notMem star_mem_maskedHeader hparts.name_plain.2
  obtain rfl := hbetween.eq_of_notMem star_mem_maskedHeader hparts.between_plain.2
  have hplain : '"' ∉ value' := by
    intro hmem
    obtain ⟨a, b, rfl⟩ := List.append_of_mem hmem
    obtain ⟨a', b', rfl, -⟩ := hvalue.forth (fun _ => quote_notMem_header) rfl
    exact hparts.value (by simp)
  have hread : KeyParts ('"' :: (name' ++ '"' :: ((blank ++ ':' :: gap) ++
      '"' :: (value' ++ ['"'])))) name' blank gap value' :=
    ⟨rfl, hparts.name, hparts.blank, hparts.gap, hvalue.ne_nil hparts.nonempty, hplain⟩
  have htext' : t₄ = before' ++ '"' :: (name' ++ '"' :: ((blank ++ ':' :: gap) ++
      '"' :: (value' ++ ['"']))) ++ rest' := by
    rw [htext]
    simp
  rcases h.key_masked_first htext' (apiKeyRe_reads.mpr ⟨_, _, _, _, hread⟩) with hmask | hmask
  · left
    -- the value is the mark, in which the last substitution finds nothing
    rw [maskedKey_eq] at hmask
    obtain ⟨rfl, hm₁⟩ := Separated.append_sep_inj hread.name_plain.1 (by decide)
      (List.cons.inj hmask).2
    obtain ⟨hbetween', hm₂⟩ := Separated.append_sep_inj hread.between_plain.1 (by decide) hm₁
    obtain ⟨rfl, -⟩ := Separated.append_sep_inj hread.value (by decide) hm₂
    rw [hparts.text, hvalue.eq_of_noMatch (no_header_of_colon (by decide)), hbetween', maskedKey_eq]
  · exact Or.inr (maskedKey_kept hbefore hmask)

/-! ## Headers -/

/-- The two names, in lower case. -/
private def headerNames : List (List Char) := ["authorization".toList, "x-api-key".toList]

theorem IsHeaderName.mem {g : List Char} (h : IsHeaderName g) :
    g.map foldCase ∈ headerNames := by
  rcases h with h | h
  · rw [h]
    exact List.mem_cons_self
  · rw [h]
    exact List.mem_cons_of_mem _ List.mem_cons_self

private theorem names_apart : ∀ n ∈ headerNames, ∀ m ∈ headerNames, ∀ k < m.length, 0 < k →
    ¬ n <+: m.drop k ∧ ¬ m.drop k <+: n := by decide

private theorem mark_apart : ∀ n ∈ headerNames, ∀ k < 16,
    ¬ n <+: (": ***REDACTED***".toList.map foldCase).drop k ∧
      ¬ (": ***REDACTED***".toList.map foldCase).drop k <+: n := by decide

private theorem names_differ : ∀ n ∈ headerNames, ∀ m ∈ headerNames, n <+: m → n = m := by decide

private theorem not_both {g s x y : List Char} (h : g ++ x = s ++ y)
    (hgs : ¬ g.map foldCase <+: s.map foldCase) (hsg : ¬ s.map foldCase <+: g.map foldCase) :
    False := by
  have hg : g <+: s ++ y := ⟨x, h⟩
  rcases List.prefix_or_prefix_of_prefix hg (List.prefix_append s y) with hp | hp
  · exact hgs (hp.map foldCase)
  · exact hsg (hp.map foldCase)

theorem IsHeaderName.not_inside {g a s x y : List Char} (hg : IsHeaderName g)
    (hm : IsHeaderName (a ++ s)) (ha : a ≠ []) (hs : s ≠ []) (h : g ++ x = s ++ y) : False := by
  have hdrop : s.map foldCase = ((a ++ s).map foldCase).drop a.length := by
    rw [List.map_append, ← List.length_map (f := foldCase), List.drop_left]
  have hlength : a.length < ((a ++ s).map foldCase).length := by
    rw [List.length_map, List.length_append]
    have hpos := List.length_pos_iff.mpr hs
    omega
  obtain ⟨hns, hsn⟩ := names_apart _ hg.mem _ hm.mem a.length hlength (List.length_pos_iff.mpr ha)
  rw [← hdrop] at hns hsn
  exact not_both h hns hsn

theorem IsHeaderName.not_in_mark {g a s x y : List Char} (hg : IsHeaderName g)
    (hmark : ": ***REDACTED***".toList = a ++ s) (hs : s ≠ []) (h : g ++ x = s ++ y) : False := by
  have hdrop : s.map foldCase = (": ***REDACTED***".toList.map foldCase).drop a.length := by
    rw [hmark, List.map_append, ← List.length_map (f := foldCase), List.drop_left]
  have hlength : a.length < 16 := by
    have htotal := congrArg List.length hmark
    have hpos := List.length_pos_iff.mpr hs
    rw [List.length_append] at htotal
    have h16 : (": ***REDACTED***".toList).length = 16 := by decide
    omega
  obtain ⟨hns, hsn⟩ := mark_apart _ hg.mem a.length hlength
  rw [← hdrop] at hns hsn
  exact not_both h hns hsn

theorem IsHeaderName.eq_of_append {g g' x y : List Char} (hg : IsHeaderName g)
    (hg' : IsHeaderName g') (h : g ++ x = g' ++ y) : g = g' ∧ x = y := by
  have hfold : g.map foldCase = g'.map foldCase := by
    have hpre : g <+: g' ++ y := ⟨x, h⟩
    rcases List.prefix_or_prefix_of_prefix hpre (List.prefix_append g' y) with hp | hp
    · exact names_differ _ hg.mem _ hg'.mem (hp.map foldCase)
    · exact (names_differ _ hg'.mem _ hg.mem (hp.map foldCase)).symm
  have hlength := congrArg List.length hfold
  rw [List.length_map, List.length_map] at hlength
  exact List.append_inj h hlength

theorem foldCase_space {c : Char} (h : PyStr.isSpace c = true) : foldCase c = c := by
  have hupper : ¬ (65 ≤ c.toNat ∧ c.toNat ≤ 90) := by
    intro hbetween
    simp only [PyStr.isSpace, Bool.or_eq_true, Bool.and_eq_true, decide_eq_true_eq,
      beq_iff_eq] at h
    omega
  unfold foldCase
  split
  · next hi =>
    simp only [Bool.or_eq_true, decide_eq_true_eq] at hi
    rcases hi with rfl | rfl <;> exact absurd h (by decide)
  · split
    · next hs =>
      rw [hs] at h
      exact absurd h (by decide)
    · split
      · next hk =>
        rw [hk] at h
        exact absurd h (by decide)
      · unfold Char.toLower
        rw [dif_neg]
        rintro ⟨hlow, hhigh⟩
        exact hupper ⟨UInt32.le_iff_toNat_le.mp hlow, UInt32.le_iff_toNat_le.mp hhigh⟩

theorem IsHeaderName.headerChars {g : List Char} (h : IsHeaderName g) :
    ∀ c ∈ g, headerChar c = true := by
  intro c hc
  have hfold : foldCase c ∈ headerNames.flatten :=
    List.mem_flatten.mpr ⟨_, h.mem, List.mem_map_of_mem hc⟩
  have hnames : headerNames.flatten.all
      (fun d => !PyStr.isSpace d && d != '"' && d != ',') = true := by decide
  have hletter := List.all_eq_true.mp hnames _ hfold
  simp only [Bool.and_eq_true, Bool.not_eq_true', bne_iff_ne] at hletter
  obtain ⟨⟨hspace, hquote⟩, hcomma⟩ := hletter
  have hc' : PyStr.isSpace c = false := by
    cases hs : PyStr.isSpace c with
    | false => rfl
    | true =>
      rw [foldCase_space hs, hs] at hspace
      exact absurd hspace (by decide)
  have hne : ∀ d, foldCase d = d → foldCase c ≠ d → c ≠ d := by
    rintro d hd hcd rfl
    exact hcd hd
  simp [headerChar, hc', hne '"' (by decide) hquote, hne ',' (by decide) hcomma]

theorem HeaderParts.name_ne_nil {m g blank gap value : List Char}
    (h : HeaderParts m g blank gap value) : g ≠ [] := by
  rintro rfl
  rcases h.name with hn | hn <;> exact absurd hn (by decide)

theorem headerChar_of_head {m : List Char} {g blank gap value : List Char}
    (h : HeaderParts m g blank gap value) :
    ∃ c g', g = c :: g' ∧ headerChar c = true ∧ c ≠ ':' := by
  cases g with
  | nil => exact absurd rfl h.name_ne_nil
  | cons c g' =>
    refine ⟨c, g', rfl, h.name.headerChars c List.mem_cons_self, ?_⟩
    rintro rfl
    exact absurd (h.name.tokenChars ':' List.mem_cons_self) (by decide)

theorem headerChar_not_space {c : Char} (h : headerChar c = true) : PyStr.isSpace c = false := by
  simp only [headerChar, Bool.and_eq_true, Bool.not_eq_true'] at h
  exact h.1.1

theorem behind_blank {blank y u v : List Char} {c : Char}
    (hblank : ∀ d ∈ blank, PyStr.isSpace d = true) (hc : PyStr.isSpace c = false)
    (h : blank ++ y = u ++ c :: v) : ∃ u', u = blank ++ u' ∧ y = u' ++ c :: v := by
  rcases List.append_eq_append_iff.mp h with ⟨a, hu, hy⟩ | ⟨a, hb, hrest⟩
  · exact ⟨a, hu, hy⟩
  · cases a with
    | nil => exact ⟨[], by rw [hb, List.append_nil, List.append_nil], hrest.symm⟩
    | cons d a =>
      obtain ⟨rfl, -⟩ := List.cons.inj hrest
      have hspace := hblank c (by rw [hb]; simp)
      rw [hspace] at hc
      exact absurd hc (by decide)

/-- A place in a header that is neither white space nor the colon is in the name or in the
value. -/
theorem HeaderParts.place {w g blank gap value u v : List Char} {c : Char}
    (h : HeaderParts w g blank gap value) (hc : headerChar c = true) (hcolon : c ≠ ':')
    (heq : w = u ++ c :: v) :
    (∃ s, g = u ++ c :: s) ∨ ∃ u', u = g ++ (blank ++ ':' :: (gap ++ u')) ∧
      value = u' ++ c :: v := by
  have hspace := headerChar_not_space hc
  rw [h.text] at heq
  have hbehind : ∀ u₁, blank ++ ':' :: (gap ++ value) = u₁ ++ c :: v →
      ∃ u', u₁ = blank ++ ':' :: (gap ++ u') ∧ value = u' ++ c :: v := by
    intro u₁ h₁
    obtain ⟨u₂, rfl, h₂⟩ := behind_blank h.blank hspace h₁
    cases u₂ with
    | nil => exact absurd (List.cons.inj h₂).1.symm hcolon
    | cons d u₂ =>
      obtain ⟨rfl, h₃⟩ := List.cons.inj h₂
      obtain ⟨u', rfl, hvalue⟩ := behind_blank h.gap hspace h₃
      exact ⟨u', rfl, hvalue⟩
  rcases List.append_eq_append_iff.mp heq with ⟨a, hu, hrest⟩ | ⟨a, hg, hrest⟩
  · obtain ⟨u', rfl, hvalue⟩ := hbehind a hrest
    exact Or.inr ⟨u', hu, hvalue⟩
  · cases a with
    | nil =>
      obtain ⟨u', hu', hvalue⟩ := hbehind [] hrest.symm
      rw [List.append_nil] at hg
      exact Or.inr ⟨u', by rw [← hu', hg, List.append_nil], hvalue⟩
    | cons d a =>
      obtain ⟨rfl, -⟩ := List.cons.inj hrest
      exact Or.inl ⟨a, hg⟩

theorem headerRe_greedy : Greedy isalnum headerChar headerRe :=
  greedy_seq (greedy_seq (greedy_seq (greedy_seq (greedy_seq (greedy_many headerChar)))))

theorem head_kept {text out : List Char} (h : Subbed isalnum headerRe maskedHeader text out)
    (htext : ∀ c, text.head? = some c → headerChar c = false) :
    ∀ c, out.head? = some c → headerChar c = false := by
  cases h with
  | nil => exact htext
  | keep _ _ => exact htext
  | cut hne hreads _ _ =>
    obtain ⟨g, blank, gap, value, hparts⟩ := headerRe_reads.mp hreads
    obtain ⟨d, g', rfl, hd, -⟩ := headerChar_of_head hparts
    have hno := htext d (by rw [hparts.text]; rfl)
    rw [hno] at hd
    exact absurd hd (by decide)

theorem HeaderParts.value_of_masked {w g blank gap value rest gm out : List Char}
    (h : HeaderParts w g blank gap value) (hgm : IsHeaderName gm)
    (hout : ∀ c, out.head? = some c → headerChar c = false)
    (heq : w ++ rest = gm ++ (": ***REDACTED***".toList ++ out)) : value <+: mark := by
  rw [h.text, List.append_assoc] at heq
  obtain ⟨-, hbehind⟩ := h.name.eq_of_append hgm heq
  have hcolon : ':' ∉ blank := fun hmem => absurd (h.blank ':' hmem) (by decide)
  have hsep : blank ++ ':' :: (gap ++ (value ++ rest)) = [] ++ ':' :: (' ' :: (mark ++ out)) := by
    rw [List.append_assoc, List.cons_append, List.append_assoc] at hbehind
    exact hbehind
  obtain ⟨-, hrest⟩ := Separated.append_sep_inj hcolon (by decide) hsep
  obtain ⟨v, value', rfl⟩ := List.exists_cons_of_ne_nil h.nonempty
  have hv := headerChar_not_space (h.value v List.mem_cons_self)
  -- the white space before the value is the one blank
  have hblank : [' '] ++ (mark ++ out) = gap ++ v :: (value' ++ rest) := hrest.symm
  have hone : ∀ d ∈ [' '], PyStr.isSpace d = true := by
    intro d hd
    rw [List.mem_singleton.mp hd]
    rfl
  obtain ⟨u', hu, hvalue⟩ := behind_blank hone hv hblank
  have hu' : u' = [] := by
    cases u' with
    | nil => rfl
    | cons d u' =>
      have hd : d = '*' := (List.cons.inj hvalue).1.symm
      have hspace := h.gap d (by rw [hu]; simp)
      rw [hd] at hspace
      exact absurd hspace (by decide)
  rw [hu', List.nil_append] at hvalue
  have hends : mark ++ out = (v :: value') ++ rest := hvalue
  rcases List.append_eq_append_iff.mp hends with ⟨z, hz, hout'⟩ | ⟨z, hz, -⟩
  · cases z with
    | nil =>
      have hwhole : v :: value' = mark := hz.trans (List.append_nil mark)
      exact hwhole ▸ List.prefix_rfl
    | cons d z =>
      have hno := hout d (by rw [hout']; rfl)
      have hd := h.value d (by rw [hz]; simp)
      rw [hno] at hd
      exact absurd hd (by decide)
  · exact ⟨z, hz.symm⟩

/-- **Every header that can be read in a redacted text has a part of the mark as its value.** -/
theorem Passes.header_masked {text t₁ t₂ t₃ t₄ out : List Char}
    (h : Passes tables text t₁ t₂ t₃ t₄ out) {before w rest g blank gap value : List Char}
    (heq : out = before ++ w ++ rest) (hw : HeaderParts w g blank gap value) :
    value <+: mark := by
  obtain ⟨c, g', rfl, -, -⟩ := headerChar_of_head hw
  have hbegin : w = c :: (g' ++ (blank ++ ':' :: (gap ++ value))) := hw.text
  rw [List.append_assoc, hbegin, List.cons_append] at heq
  rcases h.header.place heq with ⟨text', hsub, hnone⟩ |
    ⟨m, text', out', a, b, hm, hfirst, hsub, hrepl, hb, -⟩
  · -- the name begins with a kept letter, where no header began
    exfalso
    rw [← List.cons_append, ← hbegin] at hsub
    rcases hsub.up_to_cut rfl with ⟨rest', htext⟩ | ⟨u, v, m, text'', out', hsplit, hv, htext, hm,
      hne, hcut⟩
    · exact hnone w rest' (headerRe_reads.mpr ⟨_, _, _, _, hw⟩) (by rw [hbegin]; simp) htext
    · obtain ⟨gm, mblank, mgap, mvalue, hmparts⟩ := headerRe_reads.mp hm
      obtain ⟨d, gm', rfl, hd, hdcolon⟩ := headerChar_of_head hmparts
      have hu : u ≠ [] := by
        rintro rfl
        exact hnone m text'' hm hne htext
      obtain ⟨e, v', rfl⟩ := List.exists_cons_of_ne_nil hv
      rw [hmparts.masked] at hcut
      obtain ⟨rfl, htail⟩ := List.cons.inj hcut
      rcases hw.place hd hdcolon hsplit with ⟨s, hg⟩ | ⟨u', hu', hvalue⟩
      · -- a name inside a name
        have hv' : e :: v' = (e :: s) ++ (blank ++ ':' :: (gap ++ value)) := by
          have hsplit' : u ++ e :: v' = u ++ ((e :: s) ++ (blank ++ ':' :: (gap ++ value))) := by
            rw [← hsplit, hw.text, hg]
            simp
          exact List.append_cancel_left hsplit'
        refine hmparts.name.not_inside (hg ▸ hw.name) hu (List.cons_ne_nil e s)
          (x := ": ***REDACTED***".toList ++ out')
          (y := blank ++ ':' :: (gap ++ value) ++ rest) ?_
        rw [← List.append_assoc, ← hcut, hv', List.append_assoc]
      · -- in the value: its text up to the next letter was a header
        have hread : HeaderParts (u ++ [e]) (c :: g') blank gap (u' ++ [e]) := by
          refine ⟨by rw [hu']; simp, hw.name, hw.blank, hw.gap, by simp, ?_⟩
          intro x hx
          refine hw.value x ?_
          rw [hvalue]
          rcases List.mem_append.mp hx with hx | hx
          · exact List.mem_append_left _ hx
          · rw [List.mem_singleton.mp hx]
            simp
        refine hnone (u ++ [e]) (gm' ++ (mblank ++ ':' :: (mgap ++ mvalue)) ++ text'')
          (headerRe_reads.mpr ⟨_, _, _, _, hread⟩) (by simp) ?_
        rw [htext, hmparts.text]
        simp
  · -- the name begins in a replacement
    obtain ⟨gm, mblank, mgap, mvalue, hmparts⟩ := headerRe_reads.mp hm
    have hname : w ++ rest = (c :: b) ++ out' := by
      rw [hbegin, List.cons_append, hb]
      rfl
    have hnamed : (c :: g') ++ ((blank ++ ':' :: (gap ++ value)) ++ rest) = (c :: b) ++ out' := by
      rw [← hname, hbegin]
      simp
    have hmark : ∀ a', ": ***REDACTED***".toList = a' ++ c :: b → False := fun a' ha' =>
      hw.name.not_in_mark ha' (List.cons_ne_nil c b) hnamed
    rw [hmparts.masked] at hrepl
    rcases List.append_eq_append_iff.mp hrepl with ⟨a', -, hin⟩ | ⟨s, hgm, hin⟩
    · exact (hmark a' hin).elim
    · cases s with
      | nil => exact (hmark [] hin.symm).elim
      | cons d s =>
        have hrest : (c :: g') ++ ((blank ++ ':' :: (gap ++ value)) ++ rest) =
            (d :: s) ++ (": ***REDACTED***".toList ++ out') := by
          rw [hnamed, hin, List.append_assoc]
        cases a with
        | nil =>
          have hmasked : w ++ rest = gm ++ (": ***REDACTED***".toList ++ out') := by
            rw [hname, hin, hgm, List.append_assoc]
            rfl
          exact hw.value_of_masked hmparts.name
            (head_kept hsub (headerRe_greedy.behind_cut (by decide) hfirst)) hmasked
        | cons e a =>
          exact (hw.name.not_inside (hgm ▸ hmparts.name) (List.cons_ne_nil e a)
            (List.cons_ne_nil d s) hrest).elim

end LlmProxy.Monitoring
