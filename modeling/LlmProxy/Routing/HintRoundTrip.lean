import Mathlib.Data.List.Forall2
import LlmProxy.Routing.Modifiers

/-! # Hints that are printed and read again

A hint as a caller writes it for the legacy parser: `key=value` for each dimension, the items of a
value between commas, and modifiers behind any item.

> `legacy_round_trip`: the dimensions are read as they were printed.
-/

namespace LlmProxy.Routing

/-! ## Printed dimensions -/

/-- An item with its modifiers, and white space around it. -/
structure PrintedItem where
  lead : List Char := []
  text : String
  blank : List Char := []
  modifiers : List Modifier := []
  deriving DecidableEq

/-- A dimension with the items of its value, of which there is one at least. -/
structure PrintedDimension where
  key : String
  first : PrintedItem
  more : List PrintedItem := []
  deriving DecidableEq

def PrintedDimension.items (p : PrintedDimension) : List PrintedItem := p.first :: p.more

/-- An item, behind what stands in front of it in its chunk. -/
def PrintedItem.chunk (front : List Char) (i : PrintedItem) : String :=
  String.ofList (i.lead ++ ((front ++ i.text.toList) ++ (i.blank ++ modifiersText i.modifiers)))

/-- `key=`. -/
def keyFront (key : String) : List Char := key.toList ++ ['=']

def PrintedDimension.chunks (p : PrintedDimension) : List String :=
  p.first.chunk (keyFront p.key) :: p.more.map (PrintedItem.chunk [])

def printHint (ps : List PrintedDimension) : String :=
  PyStr.join "," (ps.flatMap PrintedDimension.chunks)

/-- A key, or an item of a value: not empty, without separators and surrounding white space. -/
structure PlainField (s : String) : Prop where
  nonempty : s ≠ ""
  stripped : PyStr.strip s = s
  comma : ',' ∉ s.toList
  semicolon : ';' ∉ s.toList
  equals : '=' ∉ s.toList

structure PrintedItem.Valid (i : PrintedItem) : Prop where
  text : PlainField i.text
  lead : Blank i.lead
  blank : Blank i.blank
  modifiers : ∀ m ∈ i.modifiers, m.Valid

structure Prints (d : HintDimension) (p : PrintedDimension) : Prop where
  key : p.key = d.key
  plain : PlainField d.key
  items : ∀ i ∈ p.items, i.Valid
  value : PyStr.join "," (p.items.map (·.text)) = d.value
  required : p.items.any (fun i => !i.modifiers.isEmpty) = d.required
  sovereign : p.items.any (fun i => i.modifiers.any (·.sovereign)) = d.sovereign

variable {s key : String} {i : PrintedItem} {p : PrintedDimension} {d prev : HintDimension}
  {merged : List HintDimension}

/-! ## Chunks -/

theorem PlainField.chars (h : PlainField s) : ∃ c cs, s.toList = c :: cs ∧
    PyStr.isSpace c = false ∧ ∃ e, s.toList.getLast? = some e ∧ PyStr.isSpace e = false := by
  have hne : s.toList ≠ [] := fun hnil => h.nonempty (String.toList_eq_nil_iff.mp hnil)
  have hstrip : PyStr.strip (String.ofList s.toList) = String.ofList s.toList := by
    rw [String.ofList_toList, h.stripped]
  obtain ⟨c, cs, hcs⟩ := List.exists_cons_of_ne_nil hne
  obtain ⟨init, e, he⟩ := (List.eq_nil_or_concat s.toList).resolve_left hne
  rw [List.concat_eq_append] at he
  refine ⟨c, cs, hcs, ?_, e, by rw [he, List.getLast?_concat], ?_⟩
  · rw [hcs] at hstrip
    exact PyStr.head_of_strip hstrip
  · rw [he] at hstrip
    exact PyStr.last_of_strip hstrip

theorem PlainField.solid (h : PlainField s) : Solid s.toList := by
  obtain ⟨c, cs, hcs, hc, hlast⟩ := h.chars
  exact ⟨h.semicolon, ⟨c, cs, hcs, hc⟩, hlast⟩

theorem solid_keyFront (hkey : PlainField key) (htext : PlainField s) :
    Solid (keyFront key ++ s.toList) := by
  obtain ⟨c, cs, hcs, hc, -⟩ := hkey.chars
  obtain ⟨c', cs', hcs', -, e, hlast, he⟩ := htext.chars
  refine ⟨?_, ⟨c, cs ++ '=' :: s.toList, by simp [keyFront, hcs], hc⟩, e, ?_, he⟩
  · simp only [keyFront, List.mem_append, not_or]
    exact ⟨⟨hkey.semicolon, by decide⟩, htext.semicolon⟩
  · have hne : s.toList ≠ [] := by
      rw [hcs']
      exact List.cons_ne_nil c' cs'
    rw [List.getLast?_append_of_ne_nil _ hne, hlast]

theorem comma_notMem_blank {cs : List Char} (h : Blank cs) : ',' ∉ cs := fun hmem =>
  absurd (h ',' hmem) (by decide)

theorem comma_notMem_modifier {m : Modifier} (hm : m.Valid) : ',' ∉ m.text := by
  have hword : ',' ∉ m.word := by
    intro hmem
    have hfold := List.mem_map_of_mem (f := Regex.foldCase) hmem
    rw [hm.word] at hfold
    revert hfold
    cases m.sovereign <;> decide
  unfold Modifier.text
  simp only [List.mem_append, List.mem_cons, not_or]
  exact ⟨comma_notMem_blank hm.before, by decide, comma_notMem_blank hm.between, hword,
    comma_notMem_blank hm.behind⟩

theorem PrintedItem.Valid.comma (hi : i.Valid) {front : List Char} (hfront : ',' ∉ front) :
    ',' ∉ (i.chunk front).toList := by
  unfold PrintedItem.chunk
  rw [String.toList_ofList]
  simp only [List.mem_append, not_or, modifiersText, List.mem_flatMap, not_exists, not_and]
  exact ⟨comma_notMem_blank hi.lead, ⟨hfront, hi.text.comma⟩, comma_notMem_blank hi.blank,
    fun m hm => comma_notMem_modifier (hi.modifiers m hm)⟩

def PrintedItem.peeled (front : List Char) (i : PrintedItem) : HintChunk where
  text := String.ofList (front ++ i.text.toList)
  required := !i.modifiers.isEmpty
  sovereign := i.modifiers.any (·.sovereign)

theorem PrintedItem.Valid.peelModifiers (hi : i.Valid) {front : List Char}
    (hsolid : Solid (front ++ i.text.toList)) :
    peelModifiers (PyStr.strip (i.chunk front)) = i.peeled front :=
  peelModifiers_printed hsolid hi.lead hi.blank hi.modifiers

theorem PrintedItem.Valid.strip_ne (hi : i.Valid) {front : List Char}
    (hsolid : Solid (front ++ i.text.toList)) : PyStr.strip (i.chunk front) ≠ "" := by
  obtain ⟨ms, hstrip, -⟩ := strip_modifiers hsolid hi.lead hi.blank hi.modifiers
  obtain ⟨c, cs, hcs, -⟩ := hsolid.head
  unfold PrintedItem.chunk
  rw [hstrip, hcs]
  intro hempty
  have hnil := String.toList_eq_nil_iff.mpr hempty
  rw [String.toList_ofList] at hnil
  cases hnil

/-! ## Merging -/

theorem mergeChunk_first (hkey : PlainField key) (htext : PlainField i.text)
    (merged : List HintDimension) : mergeChunk merged (i.peeled (keyFront key)) =
      merged ++ [{ key, value := i.text, required := !i.modifiers.isEmpty
                   sovereign := i.modifiers.any (·.sovereign) }] := by
  have hsplit : keyFront key ++ i.text.toList = key.toList ++ '=' :: i.text.toList := by
    simp [keyFront]
  have hequals : PyStr.containsChar (i.peeled (keyFront key)).text '=' = true := by
    unfold PyStr.containsChar PrintedItem.peeled
    rw [String.toList_ofList, hsplit]
    simp
  have hparts : PyStr.partition (i.peeled (keyFront key)).text '=' = (key, i.text) := by
    unfold PrintedItem.peeled
    rw [hsplit, PyStr.partition_append hkey.equals, String.ofList_toList, String.ofList_toList]
  unfold mergeChunk
  rw [if_pos hequals, hparts]
  simp only [hkey.stripped, htext.stripped]
  rfl

theorem mergeChunk_more (htext : PlainField i.text) (merged : List HintDimension)
    (prev : HintDimension) : mergeChunk (merged ++ [prev]) (i.peeled []) =
      merged ++ [{ prev with value := prev.value ++ "," ++ i.text
                             required := prev.required || !i.modifiers.isEmpty
                             sovereign := prev.sovereign || i.modifiers.any (·.sovereign) }] := by
  have hpeeled : (i.peeled []).text = i.text := by
    unfold PrintedItem.peeled
    rw [List.nil_append, String.ofList_toList]
  have hequals : PyStr.containsChar (i.peeled []).text '=' = false := by
    unfold PyStr.containsChar
    rw [hpeeled, List.contains_eq_mem]
    exact decide_eq_false htext.equals
  unfold mergeChunk
  rw [if_neg (by simp [hequals]), List.getLast?_concat]
  simp only [List.dropLast_concat, hpeeled, if_neg htext.nonempty]
  rfl

theorem join_cons_cons (a b : String) (rest : List String) :
    PyStr.join "," (a :: b :: rest) = PyStr.join "," ((a ++ "," ++ b) :: rest) := by
  unfold PyStr.join
  cases rest with
  | nil =>
    rw [String.intercalate_cons_cons, String.intercalate_singleton, String.intercalate_singleton]
  | cons c rest =>
    rw [String.intercalate_cons_cons, String.intercalate_cons_cons, String.intercalate_cons_cons]
    simp only [String.append_assoc]

theorem foldl_mergeChunk_more {more : List PrintedItem} (hmore : ∀ i ∈ more, PlainField i.text)
    (merged : List HintDimension) (prev : HintDimension) :
    (more.map (PrintedItem.peeled [])).foldl mergeChunk (merged ++ [prev]) =
      merged ++ [{ prev with
        value := PyStr.join "," (prev.value :: more.map (·.text))
        required := prev.required || more.any fun i => !i.modifiers.isEmpty
        sovereign := prev.sovereign || more.any fun i => i.modifiers.any (·.sovereign) }] := by
  induction more generalizing prev with
  | nil =>
    have hjoin : PyStr.join "," [prev.value] = prev.value := String.intercalate_singleton
    simp only [List.map_nil, List.foldl_nil, List.any_nil, Bool.or_false, hjoin]
  | cons i more ih =>
    obtain ⟨hi, hmore⟩ := List.forall_mem_cons.mp hmore
    rw [List.map_cons, List.foldl_cons, mergeChunk_more hi, ih hmore, List.map_cons,
      join_cons_cons]
    simp only [List.any_cons, Bool.or_assoc]

theorem foldl_mergeChunk_printed (h : Prints d p) (merged : List HintDimension) :
    ((p.chunks.map PyStr.strip).map peelModifiers).foldl mergeChunk merged = merged ++ [d] := by
  have hkey : PlainField p.key := h.key ▸ h.plain
  obtain ⟨hfirst, hmore⟩ := List.forall_mem_cons.mp h.items
  have hpeeled : (p.chunks.map PyStr.strip).map peelModifiers =
      p.first.peeled (keyFront p.key) :: p.more.map (PrintedItem.peeled []) := by
    unfold PrintedDimension.chunks
    rw [List.map_cons, List.map_cons, hfirst.peelModifiers (solid_keyFront hkey hfirst.text),
      List.map_map, List.map_map]
    refine congrArg _ (List.map_congr_left fun i hi => ?_)
    exact (hmore i hi).peelModifiers (hmore i hi).text.solid
  rw [hpeeled, List.foldl_cons, mergeChunk_first hkey hfirst.text,
    foldl_mergeChunk_more fun i hi => (hmore i hi).text]
  have hvalue := h.value
  have hrequired := h.required
  have hsovereign := h.sovereign
  unfold PrintedDimension.items at hvalue hrequired hsovereign
  rw [List.map_cons] at hvalue
  rw [List.any_cons] at hrequired hsovereign
  simp only [hvalue, hrequired, hsovereign, h.key]

/-! ## The round trip -/

theorem Prints.commas (h : Prints d p) : ∀ c ∈ p.chunks, ',' ∉ c.toList := by
  have hkey : PlainField p.key := h.key ▸ h.plain
  obtain ⟨hfirst, hmore⟩ := List.forall_mem_cons.mp h.items
  unfold PrintedDimension.chunks
  refine List.forall_mem_cons.mpr ⟨hfirst.comma ?_, fun c hc => ?_⟩
  · unfold keyFront
    rw [List.mem_append, not_or]
    exact ⟨hkey.comma, by decide⟩
  · obtain ⟨i, hi, rfl⟩ := List.mem_map.mp hc
    exact (hmore i hi).comma List.not_mem_nil

theorem Prints.strip_ne (h : Prints d p) : ∀ c ∈ p.chunks, PyStr.strip c ≠ "" := by
  have hkey : PlainField p.key := h.key ▸ h.plain
  obtain ⟨hfirst, hmore⟩ := List.forall_mem_cons.mp h.items
  unfold PrintedDimension.chunks
  refine List.forall_mem_cons.mpr ⟨hfirst.strip_ne (solid_keyFront hkey hfirst.text), fun c hc => ?_⟩
  obtain ⟨i, hi, rfl⟩ := List.mem_map.mp hc
  exact (hmore i hi).strip_ne (hmore i hi).text.solid

variable {dims : List HintDimension} {ps : List PrintedDimension}

theorem forall_chunks {P : String → Prop} (hall : List.Forall₂ Prints dims ps)
    (hP : ∀ d p, Prints d p → ∀ c ∈ p.chunks, P c) :
    ∀ c ∈ ps.flatMap PrintedDimension.chunks, P c := by
  induction hall with
  | nil => exact List.forall_mem_nil P
  | cons hprints hall ih =>
    intro c hc
    rw [List.flatMap_cons, List.mem_append] at hc
    exact hc.elim (hP _ _ hprints c) (ih c)

theorem foldl_mergeChunk_chunks (hall : List.Forall₂ Prints dims ps) (merged : List HintDimension) :
    (((ps.flatMap PrintedDimension.chunks).map PyStr.strip).map peelModifiers).foldl mergeChunk
      merged = merged ++ dims := by
  induction hall generalizing merged with
  | nil => exact (List.append_nil merged).symm
  | cons hprints hall ih =>
    rw [List.flatMap_cons, List.map_append, List.map_append, List.foldl_append,
      foldl_mergeChunk_printed hprints, ih, List.append_assoc]
    rfl

/-- **A printed hint** is read as the dimensions it prints. -/
theorem legacy_round_trip (dims : List HintDimension) (ps : List PrintedDimension) (hne : dims ≠ [])
    (hall : List.Forall₂ Prints dims ps) :
    parseHintLegacy (printHint ps) = some { raw := printHint ps, dimensions := dims } := by
  have hcommas := forall_chunks hall fun d p h => h.commas
  have hstrips := forall_chunks hall fun d p h => h.strip_ne
  have hchunks : hintChunks (printHint ps) = (ps.flatMap PrintedDimension.chunks).map PyStr.strip := by
    unfold hintChunks printHint
    cases hflat : ps.flatMap PrintedDimension.chunks with
    | nil =>
      have hempty : PyStr.join "," [] = "" := rfl
      rw [hempty]
      rfl
    | cons c cs =>
      rw [hflat] at hcommas hstrips
      rw [PyStr.split_join_comma hcommas]
      refine List.filter_eq_self.mpr fun t ht => ?_
      obtain ⟨c', hc', rfl⟩ := List.mem_map.mp ht
      exact decide_eq_true (hstrips c' hc')
  have hread : legacyDimensions (printHint ps) = dims := by
    unfold legacyDimensions
    rw [hchunks, foldl_mergeChunk_chunks hall, List.nil_append]
  unfold parseHintLegacy hintOf
  rw [hread, if_neg hne]

/-- `region=us ; Sovereign,ca`. -/
def printedRegion : PrintedDimension where
  key := "region"
  first := { text := "us", modifiers := [⟨true, [' '], [' '], "Sovereign".toList, []⟩] }
  more := [{ text := "ca" }]

theorem printedRegion_prints :
    Prints { key := "region", value := "us,ca", required := true, sovereign := true }
      printedRegion where
  key := rfl
  plain := by constructor <;> decide +kernel
  value := by decide +kernel
  required := rfl
  sovereign := rfl
  items := by
    refine List.forall_mem_cons.mpr ⟨⟨?_, blank_nil, blank_nil, ?_⟩, List.forall_mem_cons.mpr
      ⟨⟨?_, blank_nil, blank_nil, List.forall_mem_nil _⟩, List.forall_mem_nil _⟩⟩
    · constructor <;> decide +kernel
    · refine List.forall_mem_cons.mpr ⟨?_, List.forall_mem_nil _⟩
      exact ⟨blank_space, blank_space, by decide, blank_nil⟩
    · constructor <;> decide +kernel

theorem region_round_trip :
    parseHintLegacy (printHint [printedRegion]) =
      some { raw := printHint [printedRegion]
             dimensions :=
               [{ key := "region", value := "us,ca", required := true, sovereign := true }] } :=
  legacy_round_trip _ _ (List.cons_ne_nil _ _) (.cons printedRegion_prints .nil)

example : printHint [printedRegion] = "region=us ; Sovereign,ca" := by decide +kernel

end LlmProxy.Routing
