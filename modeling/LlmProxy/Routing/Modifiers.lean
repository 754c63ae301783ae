import LlmProxy.Lib.PyFields
import LlmProxy.Lib.Separated
import LlmProxy.Lib.Substitution
import LlmProxy.Routing.HintParser

/-! # The modifiers of a chunk

`;require` and `;sovereign` behind a chunk, in any letter case and with blanks around them: the
legacy parser notes them and takes them off.

> `peelModifiers_printed`.
-/

namespace LlmProxy.Routing

open Regex

/-- White space. -/
def Blank (cs : List Char) : Prop := ∀ c ∈ cs, PyStr.isSpace c = true

theorem blank_nil : Blank [] := List.forall_mem_nil _

theorem blank_space : Blank [' '] := fun _ hc => List.mem_singleton.mp hc ▸ rfl

def modifierWord (sovereign : Bool) : String := if sovereign then "sovereign" else "require"

structure Modifier where
  sovereign : Bool
  before : List Char := []
  between : List Char := []
  word : List Char
  behind : List Char := []
  deriving DecidableEq

structure Modifier.Valid (m : Modifier) : Prop where
  before : Blank m.before
  between : Blank m.between
  word : m.word.map foldCase = (modifierWord m.sovereign).toList.map foldCase
  behind : Blank m.behind

def Modifier.text (m : Modifier) : List Char :=
  m.before ++ ';' :: (m.between ++ (m.word ++ m.behind))

def modifiersText (ms : List Modifier) : List Char := ms.flatMap Modifier.text

variable {m : Modifier} {ms : List Modifier} {b : Bool}

/-! ## Words -/

theorem semicolon_notMem_blank {cs : List Char} (h : Blank cs) : ';' ∉ cs := fun hmem =>
  absurd (h ';' hmem) (by decide)

theorem foldCase_of_space {c : Char} (h : PyStr.isSpace c = true) : foldCase c = c := by
  unfold foldCase
  split
  · next hi =>
    simp only [Bool.or_eq_true, decide_eq_true_eq] at hi
    rcases hi with rfl | rfl <;> exact absurd h (by decide)
  · split
    · next hs =>
      rw [hs] at h
      exact absurd h (by decide)
    · split
      · next hk =>
        rw [hk] at h
        exact absurd h (by decide)
      · exact PyStr.toLower_of_not_upper (PyStr.space_not_upper h)

theorem word_letters {w : List Char} (h : w.map foldCase = (modifierWord b).toList.map foldCase) :
    ∀ c ∈ w, PyStr.isSpace c = false ∧ c ≠ ';' := by
  have hletters : ∀ b, ((modifierWord b).toList.map foldCase).all
      (fun c => !PyStr.isSpace c && c ≠ ';') = true := by decide
  intro c hc
  have hfold : foldCase c ∈ (modifierWord b).toList.map foldCase := h ▸ List.mem_map_of_mem hc
  have hletter := List.all_eq_true.mp (hletters b) _ hfold
  simp only [Bool.and_eq_true, Bool.not_eq_true', decide_eq_true_eq] at hletter
  constructor
  · by_contra hspace
    have hspace := Bool.not_eq_false _ ▸ hspace
    rw [foldCase_of_space hspace] at hletter
    exact absurd (hspace.symm.trans hletter.1) (by decide)
  · rintro rfl
    exact hletter.2 (by decide)

theorem word_head {w : List Char} (h : w.map foldCase = (modifierWord b).toList.map foldCase) :
    ∃ c cs, w = c :: cs ∧ foldCase c = if b then 's' else 'r' := by
  cases w with
  | nil => cases b <;> exact absurd h (by decide)
  | cons c cs =>
    refine ⟨c, cs, rfl, ?_⟩
    cases b <;> exact (List.cons.inj h).1

theorem takeWhile_blank {sp w rest : List Char} {c : Char} {cs : List Char} (hsp : Blank sp)
    (hw : w = c :: cs) (hc : PyStr.isSpace c = false) :
    (sp ++ (w ++ rest)).takeWhile PyStr.isSpace = sp := by
  rw [List.takeWhile_append_of_pos hsp, hw, List.cons_append,
    List.takeWhile_cons_of_neg (by simp [hc]), List.append_nil]

theorem word_inj {b' : Bool} {sp sp' w w' rest rest' : List Char} (hsp : Blank sp) (hsp' : Blank sp')
    (hw : w.map foldCase = (modifierWord b).toList.map foldCase)
    (hw' : w'.map foldCase = (modifierWord b').toList.map foldCase)
    (h : sp ++ (w ++ rest) = sp' ++ (w' ++ rest')) :
    sp = sp' ∧ b = b' ∧ w = w' ∧ rest = rest' := by
  obtain ⟨c, cs, hc, hfirst⟩ := word_head hw
  obtain ⟨c', cs', hc', hfirst'⟩ := word_head hw'
  have hletter := (word_letters hw c (by rw [hc]; exact List.mem_cons_self)).1
  have hletter' := (word_letters hw' c' (by rw [hc']; exact List.mem_cons_self)).1
  have hblank := congrArg (List.takeWhile PyStr.isSpace) h
  rw [takeWhile_blank hsp hc hletter, takeWhile_blank hsp' hc' hletter'] at hblank
  obtain rfl := hblank
  have hbehind := List.append_cancel_left h
  have hhead : c = c' := by
    rw [hc, hc'] at hbehind
    exact (List.cons.inj hbehind).1
  have hb : b = b' := by
    rw [hhead, hfirst'] at hfirst
    revert hfirst
    cases b <;> cases b' <;> decide
  obtain rfl := hb
  have hlength : w.length = w'.length := by
    have hfold := congrArg List.length (hw.trans hw'.symm)
    rwa [List.length_map, List.length_map] at hfold
  obtain ⟨hww, hrest⟩ := List.append_inj hbehind hlength
  exact ⟨rfl, rfl, hww, hrest⟩

/-! ## What the patterns read -/

theorem reads_text {c : Char} {s : String} {t : List Char} (hs : s.toList = [c])
    (hc : foldCase c = c) (hletter : ¬ (97 ≤ c.toNat ∧ c.toNat ≤ 122))
    (h : (Regex.text s).Reads t) : t = [c] := by
  have hfold : t.map foldCase = [c] := by
    have hread : t.map foldCase = s.toList.map foldCase := h
    rw [hread, hs, List.map_singleton, hc]
  obtain ⟨d, rest, rfl, hd, hrest⟩ := List.map_eq_cons_iff.mp hfold
  rw [List.map_eq_nil_iff.mp hrest, foldCase_of_not_letter hd hletter]

theorem modifierRe_reads_iff {t : List Char} :
    (modifierRe (modifierWord b)).Reads t ↔ ∃ m : Modifier, m.Valid ∧ m.sovereign = b ∧ t = m.text := by
  constructor
  · rintro ⟨sp, _, rfl, hsp, semi, _, rfl, hsemi, sp', _, rfl, hsp', w, _, rfl, hw, sp'', _, rfl,
      hsp'', hend⟩
    obtain rfl : _ = [] := hend
    obtain rfl := reads_text (c := ';') rfl (by decide) (by decide) hsemi
    refine ⟨⟨b, sp, sp', w, sp''⟩, ⟨hsp, hsp', hw, hsp''⟩, rfl, ?_⟩
    simp [Modifier.text]
  · rintro ⟨m, hm, rfl, rfl⟩
    exact ⟨m.before, _, rfl, hm.before, [';'], _, rfl, rfl, m.between, _, rfl, hm.between, m.word, _,
      rfl, hm.word, m.behind, [], (List.append_nil _).symm, hm.behind, rfl⟩

theorem modifierRe_local (word : String) : (modifierRe word).Local :=
  ⟨trivial, trivial, trivial, trivial, trivial, trivial⟩

theorem Modifier.text_ne_nil (m : Modifier) : m.text ≠ [] := by
  unfold Modifier.text
  simp

theorem modifiersText_cons (m : Modifier) (ms : List Modifier) :
    modifiersText (m :: ms) = m.before ++ ';' :: (m.between ++ (m.word ++ (m.behind ++
      modifiersText ms))) := by
  simp [modifiersText, Modifier.text]

theorem semicolon_notMem_word (hm : m.Valid) : ';' ∉ m.between ++ (m.word ++ m.behind) := by
  rw [List.mem_append, not_or, List.mem_append, not_or]
  exact ⟨semicolon_notMem_blank hm.between, fun hmem => (word_letters hm.word _ hmem).2 rfl,
    semicolon_notMem_blank hm.behind⟩

theorem at_semicolon {u front tail : List Char} (hu : ';' ∉ u) (hms : ∀ m ∈ ms, m.Valid)
    (h : u ++ modifiersText ms = front ++ ';' :: tail) :
    ∃ m ∈ ms, ∃ rest, tail = m.between ++ (m.word ++ rest) := by
  induction ms generalizing u front with
  | nil =>
    have hmem : ';' ∈ u := by
      have hnil : modifiersText [] = [] := rfl
      rw [hnil, List.append_nil] at h
      rw [h]
      simp
    exact absurd hmem hu
  | cons m ms ih =>
    obtain ⟨hm, hrest⟩ := List.forall_mem_cons.mp hms
    have hbefore : ';' ∉ u ++ m.before := by
      rw [List.mem_append, not_or]
      exact ⟨hu, semicolon_notMem_blank hm.before⟩
    rw [modifiersText_cons, ← List.append_assoc] at h
    rcases Separated.sep_cases hbefore h.symm with ⟨-, htail⟩ | ⟨front', -, htail⟩
    · exact ⟨m, List.mem_cons_self, _, htail⟩
    · have hbehind : ';' ∉ m.between ++ (m.word ++ m.behind) := by
        rw [List.mem_append, not_or, List.mem_append, not_or]
        exact ⟨semicolon_notMem_blank hm.between, fun hmem => (word_letters hm.word _ hmem).2 rfl,
          semicolon_notMem_blank hm.behind⟩
      have happend : (m.between ++ (m.word ++ m.behind)) ++ modifiersText ms =
          front' ++ ';' :: tail := by rw [htail, List.append_assoc, List.append_assoc]
      obtain ⟨m', hm', rest, htail'⟩ := ih (semicolon_notMem_word hm) hrest happend
      exact ⟨m', List.mem_cons_of_mem m hm', rest, htail'⟩

theorem modifierRe_found {u : List Char} (hu : ';' ∉ u) (hms : ∀ m ∈ ms, m.Valid) :
    found (modifierRe (modifierWord b)) (String.ofList (u ++ modifiersText ms)) = true ↔
      b ∈ ms.map (·.sovereign) := by
  rw [List.mem_map]
  constructor
  · intro hfound
    obtain ⟨t, ⟨before, rest, htext⟩, hreads⟩ := search_reads hfound
    obtain ⟨m, hm, rfl, rfl⟩ := modifierRe_reads_iff.mp hreads
    rw [String.toList_ofList] at htext
    have hsemi : u ++ modifiersText ms =
        (before ++ m.before) ++ ';' :: (m.between ++ (m.word ++ (m.behind ++ rest))) := by
      rw [← htext]
      simp [Modifier.text]
    obtain ⟨m', hm', rest', htail⟩ := at_semicolon hu hms hsemi
    have hvalid := hms m' hm'
    obtain ⟨-, hsame, -⟩ := word_inj hm.between hvalid.between hm.word hvalid.word htail
    exact ⟨m', hm', hsame.symm⟩
  · rintro ⟨m, hm, rfl⟩
    refine search_complete (modifierRe_local _) (m := m.text) ?_
      (modifierRe_reads_iff.mpr ⟨m, hms m hm, rfl, rfl⟩)
    obtain ⟨front, rest, rfl⟩ := List.append_of_mem hm
    rw [String.toList_ofList]
    refine ⟨u ++ modifiersText front, modifiersText rest, ?_⟩
    simp [modifiersText]

/-! ## What a substitution leaves -/

/-- The words of the modifiers. -/
abbrev kinds (ms : List Modifier) : List Bool := ms.map (·.sovereign)

theorem absorb {sp : List Char} (hsp : Blank sp) (hms : ∀ m ∈ ms, m.Valid) (hne : ms ≠ []) :
    ∃ ms', sp ++ modifiersText ms = modifiersText ms' ∧ (∀ m ∈ ms', m.Valid) ∧ kinds ms' = kinds ms := by
  cases ms with
  | nil => exact absurd rfl hne
  | cons m ms =>
    obtain ⟨hm, hrest⟩ := List.forall_mem_cons.mp hms
    refine ⟨{ m with before := sp ++ m.before } :: ms, ?_, ?_, rfl⟩
    · rw [modifiersText_cons, modifiersText_cons, List.append_assoc]
    · refine List.forall_mem_cons.mpr ⟨⟨?_, hm.between, hm.word, hm.behind⟩, hrest⟩
      exact fun c hc => (List.mem_append.mp hc).elim (hsp c) (hm.before c)

theorem shed {x text : List Char} (hx : Blank x) (hms : ∀ m ∈ ms, m.Valid)
    (h : modifiersText ms = x ++ text) :
    ∃ ms', text = modifiersText ms' ∧ (∀ m ∈ ms', m.Valid) ∧ kinds ms' = kinds ms := by
  cases ms with
  | nil => exact ⟨[], (List.append_eq_nil_iff.mp h.symm).2, hms, rfl⟩
  | cons m ms =>
    obtain ⟨hm, hrest⟩ := List.forall_mem_cons.mp hms
    rw [modifiersText_cons] at h
    rcases List.append_eq_append_iff.mp h with ⟨k, rfl, hback⟩ | ⟨k, hfront, rfl⟩
    · cases k with
      | nil =>
        refine ⟨{ m with before := [] } :: ms, ?_, ?_, rfl⟩
        · rw [modifiersText_cons]
          exact hback.symm
        · exact List.forall_mem_cons.mpr ⟨⟨nofun, hm.between, hm.word, hm.behind⟩, hrest⟩
      | cons c k =>
        have hc : ';' = c := (List.cons.inj hback).1
        have hspace := hx c (List.mem_append_right _ List.mem_cons_self)
        rw [← hc] at hspace
        exact absurd hspace (by decide)
    · refine ⟨{ m with before := k } :: ms, ?_, ?_, rfl⟩
      · rw [modifiersText_cons]
      · refine List.forall_mem_cons.mpr ⟨⟨fun c hc => ?_, hm.between, hm.word, hm.behind⟩, hrest⟩
        exact hm.before c (by rw [hfront]; exact List.mem_append_right x hc)

theorem blank_behind {a e v sp : List Char} {d : Char} (hlast : a.getLast? = some d)
    (hd : PyStr.isSpace d = false) (hsp : Blank sp) (h : a ++ e = v ++ sp) :
    ∃ k, v = a ++ k ∧ e = k ++ sp := by
  rcases List.append_eq_append_iff.mp h with ⟨k, rfl, he⟩ | ⟨k, rfl, he⟩
  · exact ⟨k, rfl, he⟩
  · cases k with
    | nil => exact ⟨[], by simp, by simpa using he.symm⟩
    | cons c k =>
      have hk : (c :: k).getLast? = some d := by
        rwa [List.getLast?_append_of_ne_nil _ (List.cons_ne_nil c k)] at hlast
      have hmem : d ∈ sp := by
        rw [he]
        exact List.mem_append_left e (List.mem_of_getLast? hk)
      exact absurd ((hsp d hmem).symm.trans hd) (by decide)

theorem word_last {w : List Char} (h : w.map foldCase = (modifierWord b).toList.map foldCase)
    (front : List Char) : ∃ d, (front ++ w).getLast? = some d ∧ PyStr.isSpace d = false := by
  obtain ⟨c, cs, hw, -⟩ := word_head h
  have hne : w ≠ [] := by
    rw [hw]
    exact List.cons_ne_nil c cs
  obtain ⟨d, hd⟩ := Option.isSome_iff_exists.mp (List.getLast?_isSome.mpr hne)
  refine ⟨d, ?_, (word_letters h d (List.mem_of_getLast? hd)).1⟩
  rw [List.getLast?_append_of_ne_nil _ hne, hd]

/-- What the substitution of one word leaves of a text and the modifiers behind it: the text and the
modifiers of the other word, up to white space where one is taken off. -/
structure LeavesOthers (b : Bool) (ms : List Modifier) (u out : List Char) : Prop where
  leaves : ∃ v sp sp' ms', u = v ++ sp ∧ Blank sp ∧ Blank sp' ∧
    out = v ++ (sp' ++ modifiersText ms') ∧ (∀ m ∈ ms', m.Valid) ∧
    kinds ms' = (kinds ms).filter (· ≠ b)

theorem LeavesOthers.stays {u out : List Char} (hm : m.Valid) (hkind : m.sovereign ≠ b)
    (hu : u = m.between ++ (m.word ++ m.behind)) (h : LeavesOthers b ms u out) :
    LeavesOthers b (m :: ms) [] (m.before ++ ';' :: out) := by
  obtain ⟨v, sp, sp', ms', hsplit, hsp, hsp', rfl, hvalid, hkinds⟩ := h
  obtain ⟨d, hlast, hd⟩ := word_last hm.word m.between
  rw [hu, ← List.append_assoc] at hsplit
  obtain ⟨k, rfl, hbehind⟩ := blank_behind hlast hd hsp hsplit
  refine ⟨[], [], [], { m with behind := k ++ sp' } :: ms', rfl, nofun, nofun, ?_, ?_, ?_⟩
  · rw [modifiersText_cons]
    simp
  · refine List.forall_mem_cons.mpr ⟨⟨hm.before, hm.between, hm.word, fun c hc => ?_⟩, hvalid⟩
    rcases List.mem_append.mp hc with hc | hc
    · exact hm.behind c (by rw [hbehind]; exact List.mem_append_left sp hc)
    · exact hsp' c hc
  · show m.sovereign :: kinds ms' = (m.sovereign :: kinds ms).filter (· ≠ b)
    rw [List.filter_cons_of_pos (by simpa using hkind), hkinds]

theorem subbed_leaves {text out : List Char}
    (h : Subbed Char.isAlphanum (modifierRe (modifierWord b)) (fun _ => []) text out)
    {u : List Char} (hu : ';' ∉ u) (hms : ∀ m ∈ ms, m.Valid) (htext : text = u ++ modifiersText ms) :
    LeavesOthers b ms u out := by
  induction h generalizing u ms with
  | nil =>
    obtain ⟨rfl, hnil⟩ := List.append_eq_nil_iff.mp htext.symm
    cases ms with
    | nil => exact ⟨[], [], [], [], rfl, nofun, nofun, rfl, nofun, rfl⟩
    | cons m ms => exact absurd (List.append_eq_nil_iff.mp hnil).1 m.text_ne_nil
  | @keep c text out hnone htail ih =>
    cases u with
    | cons d u =>
      obtain ⟨rfl, hrest⟩ := List.cons.inj htext
      obtain ⟨v, sp, sp', ms', rfl, hsp, hsp', rfl, hvalid, hkinds⟩ :=
        ih (fun hmem => hu (List.mem_cons_of_mem c hmem)) hms hrest
      exact ⟨c :: v, sp, sp', ms', rfl, hsp, hsp', rfl, hvalid, hkinds⟩
    | nil =>
      rw [List.nil_append] at htext
      cases ms with
      | nil => cases htext
      | cons m ms =>
        obtain ⟨hm, hrest⟩ := List.forall_mem_cons.mp hms
        by_cases hkind : m.sovereign = b
        · exact absurd htext
            (hnone m.text _ (modifierRe_reads_iff.mpr ⟨m, hm, hkind, rfl⟩) m.text_ne_nil)
        · rw [modifiersText_cons] at htext
          cases hbefore : m.before with
          | nil =>
            rw [hbefore] at htext
            obtain ⟨rfl, rfl⟩ := List.cons.inj htext
            have hout := ih (semicolon_notMem_word hm) hrest (by simp)
            have hstays := hout.stays hm hkind rfl
            rwa [hbefore] at hstays
          | cons d before =>
            rw [hbefore] at htext
            obtain ⟨rfl, hback⟩ := List.cons.inj htext
            have hspace : Blank (c :: before) := hbefore ▸ hm.before
            have hvalid : ∀ m' ∈ { m with before := before } :: ms, m'.Valid :=
              List.forall_mem_cons.mpr ⟨⟨fun e he => hspace e (List.mem_cons_of_mem c he), hm.between,
                hm.word, hm.behind⟩, hrest⟩
            obtain ⟨v, sp, sp', ms', hnil, -, hsp', rfl, hvalid', hkinds⟩ :=
              ih List.not_mem_nil hvalid (by rw [hback, modifiersText_cons]; rfl)
            obtain ⟨rfl, -⟩ := List.append_eq_nil_iff.mp hnil.symm
            have hkept : kinds ms' = m.sovereign :: (kinds ms).filter (· ≠ b) := by
              rw [hkinds]
              exact List.filter_cons_of_pos (by simpa using hkind)
            have hblank : Blank (c :: sp') :=
              List.forall_mem_cons.mpr ⟨hspace c List.mem_cons_self, hsp'⟩
            have hne : ms' ≠ [] := by
              rintro rfl
              cases hkept
            obtain ⟨ms'', hab, hvalid'', hkinds''⟩ := absorb hblank hvalid' hne
            refine ⟨[], [], [], ms'', rfl, nofun, nofun, hab, hvalid'', ?_⟩
            rw [hkinds'', hkinds]
            rfl
  | @cut t text out hne hreads hfirst htail ih =>
    obtain ⟨m₀, hm₀, hkind, rfl⟩ := modifierRe_reads_iff.mp hreads
    cases ms with
    | nil =>
      have hmem : ';' ∈ u := by
        have hnil : modifiersText [] = [] := rfl
        rw [hnil, List.append_nil] at htext
        rw [← htext]
        simp [Modifier.text]
      exact absurd hmem hu
    | cons m ms =>
      obtain ⟨hm, hrest⟩ := List.forall_mem_cons.mp hms
      have hfront : ';' ∉ u ++ m.before := by
        rw [List.mem_append, not_or]
        exact ⟨hu, semicolon_notMem_blank hm.before⟩
      have hsplit : m₀.before ++ ';' :: (m₀.between ++ (m₀.word ++ (m₀.behind ++ text))) =
          (u ++ m.before) ++ ';' :: (m.between ++ (m.word ++ (m.behind ++ modifiersText ms))) := by
        rw [modifiersText_cons] at htext
        simpa [Modifier.text] using htext
      obtain ⟨hbefore, hbehind⟩ :=
        Separated.append_sep_inj (semicolon_notMem_blank hm₀.before) hfront hsplit
      obtain ⟨-, hsame, -, hafter⟩ := word_inj hm₀.between hm.between hm₀.word hm.word hbehind
      have hublank : Blank u := fun c hc =>
        hm₀.before c (by rw [hbefore]; exact List.mem_append_left _ hc)
      have hdrop : (kinds (m :: ms)).filter (· ≠ b) = (kinds ms).filter (· ≠ b) :=
        List.filter_cons_of_neg (by simp [← hkind, hsame])
      rcases List.append_eq_append_iff.mp hafter with ⟨x, hx, rfl⟩ | ⟨x, hx, htail'⟩
      · have hxblank : Blank x := fun c hc => hm.behind c (by rw [hx]; exact List.mem_append_right _ hc)
        obtain ⟨v, sp, sp', ms', rfl, hsp, hsp', rfl, hvalid, hkinds⟩ :=
          ih (semicolon_notMem_blank hxblank) hrest rfl
        refine ⟨[], u, v ++ sp', ms', rfl, hublank, ?_, ?_, hvalid, hkinds.trans hdrop.symm⟩
        · exact fun c hc => (List.mem_append.mp hc).elim
            (fun hv => hxblank c (List.mem_append_left sp hv)) (hsp' c)
        · simp
      · have hxblank : Blank x := fun c hc => hm₀.behind c (by rw [hx]; exact List.mem_append_right _ hc)
        obtain ⟨rest, rfl, hvalid, hkinds⟩ := shed hxblank hrest htail'
        obtain ⟨v, sp, sp', ms', hnil, -, hsp', rfl, hvalid', hkinds'⟩ :=
          ih List.not_mem_nil hvalid rfl
        obtain ⟨rfl, -⟩ := List.append_eq_nil_iff.mp hnil.symm
        refine ⟨[], u, sp', ms', rfl, hublank, hsp', rfl, hvalid', ?_⟩
        rw [hkinds', hkinds, hdrop]

/-! ## Peeling -/

/-- A text between its first and its last character, none of them white space, without a
semicolon. -/
structure Solid (base : List Char) : Prop where
  semicolon : ';' ∉ base
  head : ∃ c cs, base = c :: cs ∧ PyStr.isSpace c = false
  last : ∃ d, base.getLast? = some d ∧ PyStr.isSpace d = false

variable {base : List Char}

theorem stripRight_blank {sp : List Char} (h : Blank sp) : PyStr.stripRight sp = [] := by
  have hspaces := PyStr.stripRight_append_spaces (u := []) h
  rwa [List.nil_append] at hspaces

theorem stripRight_modifiers (hms : ∀ m ∈ ms, m.Valid) : ∃ ms',
    PyStr.stripRight (modifiersText ms) = modifiersText ms' ∧ (∀ m ∈ ms', m.Valid) ∧
      kinds ms' = kinds ms := by
  rcases List.eq_nil_or_concat ms with rfl | ⟨init, m, rfl⟩
  · exact ⟨[], rfl, nofun, rfl⟩
  · rw [List.concat_eq_append] at hms ⊢
    have hm := hms m (List.mem_append_right init List.mem_cons_self)
    obtain ⟨d, hlast, hd⟩ :=
      word_last hm.word (modifiersText init ++ (m.before ++ ';' :: m.between))
    refine ⟨init ++ [{ m with behind := [] }], ?_, ?_, by simp [kinds]⟩
    · have hsplit := PyStr.stripRight_append_of_last (b := m.behind) hd hlast
      rw [stripRight_blank hm.behind] at hsplit
      simpa [modifiersText, Modifier.text] using hsplit
    · intro m' hm'
      rcases List.mem_append.mp hm' with hinit | hone
      · exact hms m' (List.mem_append_left _ hinit)
      · rw [List.mem_singleton.mp hone]
        exact ⟨hm.before, hm.between, hm.word, nofun⟩

theorem strip_modifiers (hbase : Solid base) {lead sp : List Char} (hlead : Blank lead)
    (hsp : Blank sp) (hms : ∀ m ∈ ms, m.Valid) : ∃ ms',
    PyStr.strip (String.ofList (lead ++ (base ++ (sp ++ modifiersText ms)))) =
      String.ofList (base ++ modifiersText ms') ∧ (∀ m ∈ ms', m.Valid) ∧ kinds ms' = kinds ms := by
  obtain ⟨c, cs, hcs, hc⟩ := hbase.head
  obtain ⟨d, hlast, hd⟩ := hbase.last
  have hstrip : ∀ tail, PyStr.strip (String.ofList (lead ++ (base ++ tail))) =
      String.ofList (base ++ PyStr.stripRight tail) := by
    intro tail
    rw [PyStr.strip_append_front hlead, ← PyStr.stripRight_append_of_last hd hlast, hcs,
      List.cons_append, PyStr.strip_of_head hc]
  rw [hstrip]
  by_cases hne : ms = []
  · subst hne
    have hnil : modifiersText [] = [] := rfl
    exact ⟨[], by rw [hnil, List.append_nil, stripRight_blank hsp], nofun, rfl⟩
  · obtain ⟨ms', hab, hvalid, hkinds⟩ := absorb hsp hms hne
    obtain ⟨ms'', hright, hvalid', hkinds'⟩ := stripRight_modifiers hvalid
    exact ⟨ms'', by rw [hab, hright], hvalid', hkinds'.trans hkinds⟩

/-- **One word is taken off**, the other stays. -/
theorem dropped_modifiers (hbase : Solid base) (hms : ∀ m ∈ ms, m.Valid) : ∃ ms',
    dropped (modifierRe (modifierWord b)) (String.ofList (base ++ modifiersText ms)) =
      String.ofList (base ++ modifiersText ms') ∧ (∀ m ∈ ms', m.Valid) ∧
      kinds ms' = (kinds ms).filter (· ≠ b) := by
  have hsubbed : Subbed Char.isAlphanum (modifierRe (modifierWord b)) (fun _ => [])
      (String.ofList (base ++ modifiersText ms)).toList _ :=
    subbed_sub (modifierRe_local _) (String.ofList (base ++ modifiersText ms))
  rw [String.toList_ofList] at hsubbed
  obtain ⟨v, sp, sp', ms', hsplit, hsp, hsp', hout, hvalid, hkinds⟩ :=
    subbed_leaves hsubbed hbase.semicolon hms rfl
  obtain ⟨d, hlast, hd⟩ := hbase.last
  obtain ⟨k, rfl, hk⟩ := blank_behind (e := []) hlast hd hsp (by rw [List.append_nil]; exact hsplit)
  obtain ⟨rfl, rfl⟩ := List.append_eq_nil_iff.mp hk.symm
  obtain ⟨ms'', hstrip, hvalid', hkinds'⟩ := strip_modifiers hbase blank_nil hsp' hvalid
  refine ⟨ms'', ?_, hvalid', hkinds'.trans hkinds⟩
  rw [← hstrip, List.nil_append]
  rw [List.append_nil] at hout
  rw [← hout, String.ofList_toList]
  rfl

theorem peeled_modifiers (hbase : Solid base) (hms : ∀ m ∈ ms, m.Valid) {present : Bool}
    (hpresent : b ∈ kinds ms → present = true) : ∃ ms',
    peeled present (modifierRe (modifierWord b)) (String.ofList (base ++ modifiersText ms)) =
      String.ofList (base ++ modifiersText ms') ∧ (∀ m ∈ ms', m.Valid) ∧
      kinds ms' = (kinds ms).filter (· ≠ b) := by
  cases present with
  | true => exact dropped_modifiers hbase hms
  | false =>
    refine ⟨ms, rfl, hms, (List.filter_eq_self.mpr fun k hk => decide_eq_true ?_).symm⟩
    rintro rfl
    exact absurd (hpresent hk) Bool.false_ne_true

theorem kinds_eq_nil (h : kinds ms = []) : modifiersText ms = [] := by
  rw [List.map_eq_nil_iff.mp h]
  rfl

/-- **The modifiers of a chunk** are taken off and noted. -/
theorem peelModifiers_printed (hbase : Solid base) {lead sp : List Char} (hlead : Blank lead)
    (hsp : Blank sp) (hms : ∀ m ∈ ms, m.Valid) :
    peelModifiers (PyStr.strip (String.ofList (lead ++ (base ++ (sp ++ modifiersText ms))))) =
      { text := String.ofList base, required := !ms.isEmpty, sovereign := ms.any (·.sovereign) } := by
  obtain ⟨ms₀, hstrip, hvalid₀, hkinds₀⟩ := strip_modifiers hbase hlead hsp hms
  have hfound : ∀ b {ms}, (∀ m ∈ ms, m.Valid) →
      found (modifierRe (modifierWord b)) (String.ofList (base ++ modifiersText ms)) =
        decide (b ∈ kinds ms) := fun b {ms} hvalid => by
    rw [Bool.eq_iff_iff, modifierRe_found hbase.semicolon hvalid, decide_eq_true_eq]
  have hsovereign : found sovereignRe (String.ofList (base ++ modifiersText ms₀)) =
      decide (true ∈ kinds ms₀) := hfound true hvalid₀
  have hpresent₁ : true ∈ kinds ms₀ → decide (true ∈ kinds ms₀) = true := fun hmem =>
    decide_eq_true hmem
  obtain ⟨ms₁, hpeeled₁, hvalid₁, hkinds₁⟩ := peeled_modifiers hbase hvalid₀ hpresent₁
  have hrequire : found requireRe (String.ofList (base ++ modifiersText ms₁)) =
      decide (false ∈ kinds ms₁) := hfound false hvalid₁
  have hpresent₂ : false ∈ kinds ms₁ →
      (decide (false ∈ kinds ms₁) || decide (true ∈ kinds ms₀)) = true := fun hmem => by
    rw [decide_eq_true hmem, Bool.true_or]
  obtain ⟨ms₂, hpeeled₂, -, hkinds₂⟩ := peeled_modifiers hbase hvalid₁ hpresent₂
  have hnone : kinds ms₂ = [] := by
    rw [hkinds₂, hkinds₁, List.filter_filter, List.filter_eq_nil_iff]
    intro k _
    cases k <;> decide
  rw [kinds_eq_nil hnone, List.append_nil] at hpeeled₂
  have hany : decide (true ∈ kinds ms₀) = ms.any (·.sovereign) := by
    rw [hkinds₀, Bool.eq_iff_iff, decide_eq_true_eq, List.any_eq_true, List.mem_map]
  have hsome : (decide (false ∈ kinds ms₁) || decide (true ∈ kinds ms₀)) = !ms.isEmpty := by
    rw [hkinds₁, hkinds₀]
    cases ms with
    | nil => rfl
    | cons m ms =>
      cases hm : m.sovereign <;> simp [hm]
  have hpeel : peelModifiers (String.ofList (base ++ modifiersText ms₀)) =
      { text := peeled (decide (false ∈ kinds ms₁) || decide (true ∈ kinds ms₀)) requireRe
          (String.ofList (base ++ modifiersText ms₁))
        required := decide (false ∈ kinds ms₁) || decide (true ∈ kinds ms₀)
        sovereign := decide (true ∈ kinds ms₀) } := by
    have hpeeled₁ : peeled (decide (true ∈ kinds ms₀)) sovereignRe
        (String.ofList (base ++ modifiersText ms₀)) =
        String.ofList (base ++ modifiersText ms₁) := hpeeled₁
    unfold peelModifiers
    simp only [hsovereign, hpeeled₁, hrequire]
  have hpeeled₂ : peeled (decide (false ∈ kinds ms₁) || decide (true ∈ kinds ms₀)) requireRe
      (String.ofList (base ++ modifiersText ms₁)) = String.ofList base := hpeeled₂
  rw [hstrip, hpeel, hpeeled₂, hsome, hany]

end LlmProxy.Routing
