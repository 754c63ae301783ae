import LlmProxy.Routing.Modifiers
import LlmProxy.Sdk.BuildHint

/-! # What the two parsers read of a synthesised hint

For the legacy parser a part of a hint is a chunk of its own: the modifier is peeled off, and what
stays is the key and the value up to white space. For RFC 8941 it is a member of a dictionary, and
its value has to be an item or an inner list.

> `legacyDimensions_formatHint`: one dimension per part, with the value stripped;
> `coerce_iff`: an item is shown as it is written iff it is a token, or a number in its shortest form.
-/

namespace LlmProxy.Sdk

open LlmProxy.Routing

def Part.dimension (p : Part) : HintDimension :=
  { key := p.key, value := p.value, required := p.required }

/-- A value without the characters that separate. -/
def Safe (v : String) : Prop := ',' ∉ v.toList ∧ ';' ∉ v.toList ∧ '=' ∉ v.toList

/-- The values a caller and the snapshot give. -/
structure HintArgs.Safe (args : HintArgs) (snap : Option Snapshot) : Prop where
  task : ∀ v, args.task = some v → Sdk.Safe v
  region : ∀ v, args.region = some v → Sdk.Safe v
  cache : ∀ v, args.cache = some v → Sdk.Safe v
  types : ∀ ps ∈ snap, ∀ p ∈ ps, Sdk.Safe p.type

/-! ## The parts -/

/-- A key of the hint. -/
def hintKeys : List String := ["task", "cost", "latency", "provider-hint", "region", "tools", "vision",
  "cache"]

/-- A part that `parse_hint` can read. -/
structure Part.Readable (p : Part) : Prop where
  key : p.key ∈ hintKeys
  value : Sdk.Safe p.value
  nonempty : p.value ≠ ""

theorem key_chars {key : String} (h : key ∈ hintKeys) : ∃ c cs, key.toList = c :: cs ∧
    ∀ d ∈ key.toList, PyStr.isSpace d = false ∧ d ≠ ',' ∧ d ≠ ';' ∧ d ≠ '=' := by
  have hkeys : ∀ k ∈ hintKeys, k.toList ≠ [] ∧
      k.toList.all (fun d => !PyStr.isSpace d && d != ',' && d != ';' && d != '=') = true := by
    decide
  obtain ⟨hne, hall⟩ := hkeys key h
  obtain ⟨c, cs, hcs⟩ := List.exists_cons_of_ne_nil hne
  refine ⟨c, cs, hcs, fun d hd => ?_⟩
  simpa [and_assoc] using List.all_eq_true.mp hall d hd

/-! ## One part, read by the legacy parser -/

variable {p : Part}

/-- `;require`. -/
def requireTail : List Char := ';' :: "require".toList

def Part.text (p : Part) : String := p.key ++ "=" ++ p.written

theorem Part.text_toList (p : Part) : p.text.toList =
    p.key.toList ++ '=' :: (p.value.toList ++ if p.required then requireTail else []) := by
  unfold Part.text Part.written
  split
  · simp only [String.toList_append, List.append_assoc]
    rfl
  · simp

theorem comma_notMem_text (h : p.Readable) : ',' ∉ p.text.toList := by
  obtain ⟨-, -, -, hkey⟩ := key_chars h.key
  rw [p.text_toList]
  intro hmem
  rcases List.mem_append.mp hmem with hmem | hmem
  · exact (hkey ',' hmem).2.1 rfl
  rcases List.mem_cons.mp hmem with heq | hmem
  · exact absurd heq (by decide)
  rcases List.mem_append.mp hmem with hmem | hmem
  · exact h.value.1 hmem
  · split at hmem
    · exact absurd hmem (by decide)
    · cases hmem

def Part.base (p : Part) : List Char := p.key.toList ++ '=' :: PyStr.stripRight p.value.toList

theorem solid_base (h : p.Readable) : Solid p.base := by
  obtain ⟨c, cs, hcs, hkey⟩ := key_chars h.key
  refine ⟨fun hmem => ?_, ⟨c, cs ++ '=' :: PyStr.stripRight p.value.toList, ?_, ?_⟩, ?_⟩
  · rcases List.mem_append.mp hmem with hmem | hmem
    · exact (hkey ';' hmem).2.2.1 rfl
    · rcases List.mem_cons.mp hmem with heq | hmem
      · exact absurd heq (by decide)
      · obtain ⟨sp, hsplit, -⟩ := PyStr.exists_stripRight_append p.value.toList
        exact h.value.2.1 (by rw [hsplit]; exact List.mem_append_left sp hmem)
  · unfold Part.base
    rw [hcs]
    rfl
  · exact (hkey c (by rw [hcs]; exact List.mem_cons_self)).1
  · have hlast : p.base.getLast? = ('=' :: PyStr.stripRight p.value.toList).getLast? :=
      List.getLast?_append_of_ne_nil _ (List.cons_ne_nil _ _)
    cases hright : PyStr.stripRight p.value.toList with
    | nil => exact ⟨'=', by rw [hlast, hright]; rfl, by decide⟩
    | cons d ds =>
      obtain ⟨e, he⟩ := Option.isSome_iff_exists.mp
        (List.getLast?_isSome.mpr (List.cons_ne_nil d ds))
      refine ⟨e, ?_, PyStr.last_stripRight (by rw [hright]; exact he)⟩
      rw [hlast, hright]
      exact he

/-- `;require`, where the part has it. -/
def Part.modifiers (p : Part) : List Modifier :=
  if p.required then [{ sovereign := false, word := "require".toList }] else []

theorem modifiers_valid (p : Part) : ∀ m ∈ p.modifiers, m.Valid := by
  intro m hm
  unfold Part.modifiers at hm
  split at hm
  · rw [List.mem_singleton.mp hm]
    exact ⟨blank_nil, blank_nil, by decide, blank_nil⟩
  · cases hm

theorem peel_part (h : p.Readable) : peelModifiers (PyStr.strip p.text) =
    { text := String.ofList p.base, required := p.required, sovereign := false } := by
  obtain ⟨sp, hsplit, hsp⟩ := PyStr.exists_stripRight_append p.value.toList
  have htext : p.text = String.ofList ([] ++ (p.base ++ (sp ++ modifiersText p.modifiers))) := by
    have hmodifiers : modifiersText p.modifiers = if p.required then requireTail else [] := by
      unfold Part.modifiers
      split <;> rfl
    rw [hmodifiers, ← String.ofList_toList (s := p.text), p.text_toList]
    conv => lhs; rw [hsplit]
    simp [Part.base]
  rw [htext, peelModifiers_printed (solid_base h) blank_nil hsp (modifiers_valid p)]
  unfold Part.modifiers
  cases p.required <;> rfl

/-! ## The parts, read by the legacy parser -/

def Part.stripped (p : Part) : HintDimension := { p.dimension with value := PyStr.strip p.value }

theorem mergeChunk_part (h : p.Readable) (merged : List HintDimension) :
    mergeChunk merged (peelModifiers (PyStr.strip p.text)) = merged ++ [p.stripped] := by
  obtain ⟨-, -, -, hkey⟩ := key_chars h.key
  have hequals : PyStr.containsChar
      (String.ofList p.base) '=' = true := by
    unfold PyStr.containsChar Part.base
    rw [String.toList_ofList]
    simp
  rw [peel_part h]
  unfold mergeChunk
  rw [if_pos hequals, Part.base, PyStr.partition_append fun hmem => (hkey '=' hmem).2.2.2 rfl]
  simp only [String.ofList_toList, PyStr.strip_stripRight,
    PyStr.strip_eq_of_all fun c hc => (hkey c hc).1]
  rfl

theorem foldl_mergeChunk {parts : List Part} (h : ∀ p ∈ parts, p.Readable)
    (merged : List HintDimension) :
    ((parts.map fun p => PyStr.strip p.text).map peelModifiers).foldl mergeChunk merged =
      merged ++ parts.map Part.stripped := by
  induction parts generalizing merged with
  | nil => exact (List.append_nil merged).symm
  | cons p parts ih =>
    obtain ⟨hp, hparts⟩ := List.forall_mem_cons.mp h
    rw [List.map_cons, List.map_cons, List.foldl_cons, mergeChunk_part hp, ih hparts,
      List.append_assoc]
    rfl

theorem strip_text_ne_empty (h : p.Readable) : PyStr.strip p.text ≠ "" := by
  intro hempty
  have hmerged := mergeChunk_part h []
  have hnone : mergeChunk [] (peelModifiers "") = [] := by decide +kernel
  rw [hempty, hnone] at hmerged
  exact absurd hmerged (List.cons_ne_nil _ _).symm

theorem written_ne_empty (h : p.Readable) : p.written ≠ "" := by
  unfold Part.written
  split
  · intro hempty
    exact h.nonempty (String.append_eq_empty_iff.mp hempty).1
  · exact h.nonempty

theorem formatHint_eq {parts : List Part} (h : ∀ p ∈ parts, p.Readable) :
    formatHint parts = PyStr.join ", " (parts.map Part.text) := by
  unfold formatHint
  rw [List.filter_eq_self.mpr fun p hp => decide_eq_true (written_ne_empty (h p hp))]
  rfl

/-- **One dimension per part** in what the legacy parser reads. -/
theorem legacyDimensions_formatHint {parts : List Part} (h : ∀ p ∈ parts, p.Readable) :
    legacyDimensions (formatHint parts) = parts.map Part.stripped := by
  cases parts with
  | nil => rfl
  | cons p parts =>
    have hcommas : ∀ s ∈ (p :: parts).map Part.text, ',' ∉ s.toList := by
      intro s hs
      obtain ⟨q, hq, rfl⟩ := List.mem_map.mp hs
      exact comma_notMem_text (h q hq)
    have hsplit := PyStr.split_join hcommas
    have hchunks : hintChunks (formatHint (p :: parts)) =
        (p :: parts).map fun q => PyStr.strip q.text := by
      unfold hintChunks
      rw [formatHint_eq h, List.map_cons, hsplit, ← List.map_cons, List.map_map]
      refine List.filter_eq_self.mpr fun s hs => ?_
      obtain ⟨q, hq, rfl⟩ := List.mem_map.mp hs
      exact decide_eq_true (strip_text_ne_empty (h q hq))
    unfold legacyDimensions
    rw [hchunks, foldl_mergeChunk h]
    rfl

/-! ## Values of RFC 8941 -/

def isTokenChar (c : Char) : Bool := c.isAlphanum || "!#$%&'*+-.^_`|~:/".toList.contains c

/-- `sf-token`. -/
def isToken (v : String) : Bool :=
  match v.toList with
  | [] => false
  | c :: cs => (c.isAlpha || c = '*') && cs.all isTokenChar

variable {item : String → Option MemberValue}

/-- The forms of a value without parameters. A string stands in quotes, a byte sequence between
colons, and an inner list in parentheses with blanks between its items. -/
inductive ItemForm (item : String → Option MemberValue) (v : String) : MemberValue → Prop
  | token : isToken v = true → ItemForm item v (.item (.text v))
  | string (s : String) : s.toList.length < v.toList.length → ItemForm item v (.item (.text s))
  | integer (n : Int) : ItemForm item v (.item (.integer n))
  | decimal (shown : String) : (∀ c ∈ shown.toList, c.isDigit = true ∨ c = '-' ∨ c = '.') →
      ItemForm item v (.item (.decimal shown))
  | bytes (data : List UInt8) : v.toList.head? = some ':' → ItemForm item v (.item (.bytes data))
  | boolean (b : Bool) : ItemForm item v (.item (.boolean b))
  | innerList (ws : List String) (items : List BareItem) :
      List.Forall₂ (fun w i => Safe w ∧ item w = some (.item i)) ws items →
      (PyStr.join " " ws).toList.length < v.toList.length → ItemForm item v (.innerList items)

/-- `item` is how `http_sfv` reads a text that is one value, without separators: a token as itself,
and whatever it reads in one of the forms. -/
structure Rfc8941Items (item : String → Option MemberValue) : Prop where
  token : ∀ v, isToken v = true → item v = some (.item (.text v))
  form : ∀ v m, Safe v → item v = some m → ItemForm item v m

/-- A member of the dictionary is read from the part: white space behind the value is skipped. -/
structure Part.MemberOf (item : String → Option MemberValue) (p : Part) (m : String × SfvMember) :
    Prop where
  key : m.1 = p.key
  value : item (PyStr.strip p.value) = some m.2.value
  params : m.2.params = if p.required then [("require", .boolean true)] else []

/-- `http_sfv` on parts with different keys: it reads the header member by member, and it does read
it when every value is an item or an inner list. -/
structure Rfc8941Parts (sfv : String → Option SfvDictionary) (item : String → Option MemberValue) :
    Prop where
  items : Rfc8941Items item
  members : ∀ {parts d}, (∀ p ∈ parts, p.Readable) → (parts.map Part.key).Nodup →
    sfv (formatHint parts) = some d → List.Forall₂ (Part.MemberOf item) parts d
  complete : ∀ {parts}, (∀ p ∈ parts, p.Readable) → (parts.map Part.key).Nodup →
    (∀ p ∈ parts, (item p.value).isSome) → (sfv (formatHint parts)).isSome

/-- A token, or a number that is shown as it is written. -/
def AsWritten (item : String → Option MemberValue) (v : String) : Prop :=
  isToken v = true ∨ (∃ n, item v = some (.item (.integer n)) ∧ toString n = v) ∨
    item v = some (.item (.decimal v))

/-- No value, or a boolean, which sends the header to the legacy parser. -/
def Unread (item : String → Option MemberValue) (v : String) : Prop :=
  item v = none ∨ ∃ b, item v = some (.item (.boolean b))

theorem isSpace_of_visible {c : Char} (h : 0x20 < c.toNat ∧ c.toNat < 0x7f) :
    PyStr.isSpace c = false := by
  unfold PyStr.isSpace
  simp only [Bool.or_eq_false_iff, Bool.and_eq_false_iff, decide_eq_false_iff_not, beq_eq_false_iff_ne]
  omega

theorem isSpace_of_alphanum {c : Char} (h : c.isAlphanum = true) : PyStr.isSpace c = false := by
  have hc : c.toNat = c.val.toNat := rfl
  simp only [Char.isAlphanum, Char.isAlpha, Char.isUpper, Char.isLower, Char.isDigit,
    Bool.or_eq_true, Bool.and_eq_true, decide_eq_true_eq, ge_iff_le, UInt32.le_iff_toNat_le] at h
  refine isSpace_of_visible ?_
  rw [hc]
  simp at h
  omega

theorem isSpace_of_digit {c : Char} (h : c.isDigit = true) : PyStr.isSpace c = false :=
  isSpace_of_alphanum (by unfold Char.isAlphanum; rw [h, Bool.or_true])

theorem strip_token {v : String} (h : isToken v = true) : PyStr.strip v = v := by
  have hmarks : "!#$%&'*+-.^_`|~:/".toList.all (fun c => !PyStr.isSpace c) = true := by
    decide +kernel
  refine PyStr.strip_eq_of_all fun c hc => ?_
  unfold isToken at h
  split at h
  · cases h
  · next d ds hv =>
    rw [hv] at hc
    obtain ⟨hfirst, hrest⟩ := Bool.and_eq_true_iff.mp h
    rcases List.mem_cons.mp hc with rfl | hc
    · rcases Bool.or_eq_true_iff.mp hfirst with halpha | hstar
      · exact isSpace_of_alphanum (by unfold Char.isAlphanum; rw [halpha, Bool.true_or])
      · rw [of_decide_eq_true hstar]
        decide
    · rcases Bool.or_eq_true_iff.mp (List.all_eq_true.mp hrest c hc) with halpha | hmark
      · exact isSpace_of_alphanum halpha
      · simpa using List.all_eq_true.mp hmarks c (List.contains_iff_mem.mp hmark)

theorem strip_toString (n : Int) : PyStr.strip (toString n) = toString n := by
  refine PyStr.strip_eq_of_all fun c hc => ?_
  have hrepr : (toString n : String) = n.repr := rfl
  rw [hrepr, Int.repr_eq_if] at hc
  have hdigits : ∀ m, ∀ c ∈ Nat.toDigits 10 m, PyStr.isSpace c = false := fun m c hc =>
    isSpace_of_digit (Nat.isDigit_of_mem_toDigits (by decide) (by decide) hc)
  split at hc
  · exact hdigits n.toNat c (by simpa using hc)
  · have hsigned : c = '-' ∨ c ∈ Nat.toDigits 10 (-n).toNat := by simpa using hc
    rcases hsigned with rfl | hdigit
    · decide
    · exact hdigits _ c hdigit

theorem mem_of_mem_strip {v : String} {c : Char} (h : c ∈ (PyStr.strip v).toList) : c ∈ v.toList := by
  unfold PyStr.strip at h
  rw [String.toList_ofList, List.mem_reverse] at h
  exact (List.dropWhile_sublist _).mem (List.mem_reverse.mp ((List.dropWhile_sublist _).mem h))

theorem safe_strip {v : String} (h : Safe v) : Safe (PyStr.strip v) :=
  ⟨fun hc => h.1 (mem_of_mem_strip hc), fun hc => h.2.1 (mem_of_mem_strip hc),
    fun hc => h.2.2 (mem_of_mem_strip hc)⟩

theorem forall₂_trans {α β γ : Type} {R : α → β → Prop} {S : β → γ → Prop} {T : α → γ → Prop}
    {xs : List α} {ys : List β} {zs : List γ} (h : List.Forall₂ R xs ys) (h' : List.Forall₂ S ys zs)
    (htrans : ∀ x y z, R x y → S y z → T x z) : List.Forall₂ T xs zs := by
  induction h generalizing zs with
  | nil =>
    cases h'
    exact .nil
  | cons hhead _ ih =>
    cases h' with
    | cons hhead' htail' => exact .cons (htrans _ _ _ hhead hhead') (ih htail')

theorem length_join_le {ws ts : List String}
    (h : List.Forall₂ (fun w t => t.toList.length ≤ w.toList.length) ws ts) :
    (PyStr.join "," ts).toList.length ≤ (PyStr.join " " ws).toList.length := by
  induction h with
  | nil => exact le_refl 0
  | cons hhead htail ih =>
    cases htail with
    | nil => simpa [PyStr.join] using hhead
    | cons _ _ =>
      unfold PyStr.join at ih ⊢
      rw [String.intercalate_cons_cons, String.intercalate_cons_cons]
      simp only [String.toList_append, List.length_append]
      have hsep : ",".toList.length = " ".toList.length := rfl
      omega

theorem length_coerceItem_le (hitems : Rfc8941Items item) {w t : String} {i : BareItem} (hw : Safe w)
    (hread : item w = some (.item i)) (htext : coerceItem i = some t) :
    t.toList.length ≤ w.toList.length := by
  have hform := hitems.form w _ hw hread
  cases i with
  | text s =>
    obtain rfl := Option.some.inj htext
    cases hform with
    | token _ => exact le_refl _
    | string _ hlength => exact hlength.le
  | _ => cases htext

theorem mapM_some_iff {α β : Type} {f : α → Option β} {xs : List α} {ys : List β} :
    xs.mapM f = some ys ↔ List.Forall₂ (fun x y => f x = some y) xs ys := by
  induction xs generalizing ys with
  | nil =>
    rw [List.mapM_nil, List.forall₂_nil_left_iff]
    exact ⟨fun h => (Option.some.inj h).symm, fun h => congrArg some h.symm⟩
  | cons x xs ih =>
    rw [List.mapM_cons, List.forall₂_cons_left_iff]
    simp only [Option.bind_eq_bind, Option.bind_eq_some_iff, Option.pure_def, Option.some.injEq, ih]
    constructor
    · rintro ⟨y, hy, ys', hys, rfl⟩
      exact ⟨y, ys', hy, hys, rfl⟩
    · rintro ⟨y, ys', hy, hys, rfl⟩
      exact ⟨y, hy, ys', hys, rfl⟩

theorem length_coerce_innerList (hitems : Rfc8941Items item) {ws : List String}
    {items : List BareItem}
    (h : List.Forall₂ (fun w i => Safe w ∧ item w = some (.item i)) ws items) {v : String}
    (hcoerce : (MemberValue.innerList items).coerce = .ok v) :
    v.toList.length ≤ (PyStr.join " " ws).toList.length := by
  simp only [MemberValue.coerce] at hcoerce
  cases htexts : items.mapM coerceItem with
  | none =>
    rw [htexts] at hcoerce
    cases hcoerce
  | some texts =>
    rw [htexts] at hcoerce
    obtain rfl := Except.ok.inj hcoerce
    refine length_join_le ?_
    refine forall₂_trans h (mapM_some_iff.mp htexts) fun w i t hw ht => ?_
    exact length_coerceItem_le hitems hw.1 hw.2 ht

theorem reprBytes_head (data : List UInt8) :
    (PyStr.strip (reprBytes data)).toList.head? = some 'b' := by
  have hcons : ∃ cs, (reprBytes data).toList = 'b' :: cs := by
    unfold reprBytes
    simp only [String.toList_append]
    exact ⟨_, rfl⟩
  obtain ⟨cs, hcs⟩ := hcons
  have hb : PyStr.isSpace 'b' = false := by decide
  obtain ⟨sp, hsplit, hsp⟩ := PyStr.exists_stripRight_append ('b' :: cs)
  rw [← String.ofList_toList (s := reprBytes data), hcs, PyStr.strip_of_head hb, String.toList_ofList]
  cases hright : PyStr.stripRight ('b' :: cs) with
  | nil =>
    rw [hright] at hsplit
    have hblank := hsp 'b' (by rw [← List.nil_append sp, ← hsplit]; exact List.mem_cons_self)
    rw [hb] at hblank
    cases hblank
  | cons d ds =>
    rw [hright] at hsplit
    rw [(List.cons.inj hsplit).1]
    rfl

/-- **What http_sfv reads behind white space is shown as the value** iff there is no white space and
the value is shown as it is written. -/
theorem coerce_iff (hitems : Rfc8941Items item) {v : String} {m : MemberValue} (hsafe : Safe v)
    (hread : item (PyStr.strip v) = some m) :
    m.coerce = .ok v ↔ PyStr.strip v = v ∧ AsWritten item v := by
  have hshort : (PyStr.strip v).toList.length ≤ v.toList.length := by
    have hle := PyStr.length_strip_le v.toList
    rwa [String.ofList_toList] at hle
  constructor
  · intro h
    cases hitems.form _ m (safe_strip hsafe) hread with
    | token htoken =>
      have hstrip := Except.ok.inj h
      have hv : PyStr.strip v = v := hstrip
      exact ⟨hv, Or.inl (hv ▸ htoken)⟩
    | string s hlength =>
      obtain rfl : s = v := Except.ok.inj h
      omega
    | integer n =>
      obtain rfl : toString n = v := Except.ok.inj h
      have hstrip := strip_toString n
      exact ⟨hstrip, Or.inr (Or.inl ⟨n, by rw [← hstrip]; exact hread, rfl⟩)⟩
    | decimal shown hchars =>
      obtain rfl : shown = v := Except.ok.inj h
      have hstrip : PyStr.strip shown = shown := PyStr.strip_eq_of_all fun c hc => by
        rcases hchars c hc with hdigit | rfl | rfl
        · exact isSpace_of_digit hdigit
        · decide
        · decide
      exact ⟨hstrip, Or.inr (Or.inr (by rw [hstrip] at hread; exact hread))⟩
    | bytes data hhead =>
      obtain rfl : reprBytes data = v := Except.ok.inj h
      rw [reprBytes_head] at hhead
      exact absurd hhead (by decide)
    | boolean b =>
      obtain rfl : coerceSfvValue (.boolean b) = v := Except.ok.inj h
      have hword : ∀ b, isToken (PyStr.strip (coerceSfvValue (.boolean b))) = true := by decide
      rw [hitems.token _ (hword b)] at hread
      cases hread
    | innerList ws items hws hlength =>
      have hle := length_coerce_innerList hitems hws h
      omega
  · rintro ⟨hstrip, hwritten⟩
    rw [hstrip] at hread
    rcases hwritten with htoken | ⟨n, hn, hshown⟩ | hdecimal
    · rw [hitems.token v htoken] at hread
      obtain rfl := Option.some.inj hread
      rfl
    · obtain rfl := Option.some.inj (hn.symm.trans hread)
      exact congrArg Except.ok hshown
    · obtain rfl := Option.some.inj (hdecimal.symm.trans hread)
      rfl

end LlmProxy.Sdk
