import LlmProxy.Lib.Json

/-! # JSON texts put together by hand

Code that writes JSON with string formatting puts texts between quotes (`raw`) and members
between braces (`objectText`). `IsText t j` says that such a text `t` is a one-line text of `j`
wherever it stands: what `json.dumps` writes is one (`isText_render`), a raw string is one when
it is plain (`isText_raw`), and objects of such texts are (`isText_objectText`).

Where a raw string is not plain the object may still be readable; `readMembers_rawValue` says
what the parser then makes of it.
-/

namespace Json

def raw (s : String) : List Char := '"' :: (s.toList ++ ['"'])

def membersText : List (String × List Char) → List Char
  | [] => ['}']
  | (key, value) :: rest => ',' :: (raw key ++ ':' :: (value ++ membersText rest))

/-- `{"key":value,..}`. -/
def objectText : List (String × List Char) → List Char
  | [] => ['{', '}']
  | (key, value) :: rest => '{' :: (raw key ++ ':' :: (value ++ membersText rest))

/-- `t` is a one-line text of `j`, whatever follows it. -/
structure IsText (t : List Char) (j : Json) : Prop where
  reads : ∀ fuel rest, t.length ≤ fuel → Ends rest → readValue fuel (t ++ rest) = some (j, rest)
  oneLine : '\n' ∉ t

theorem IsText.parse {t : List Char} {j : Json} (h : IsText t j) : parse t = some j := by
  have hread := h.reads (t.length + 1) [] (Nat.le_succ _) ends_nil
  rw [List.append_nil] at hread
  rw [Json.parse, hread]
  rfl

theorem isText_render (j : Json) : IsText (render j) j :=
  ⟨readValue_render j, newline_notMem_render j⟩

theorem newline_notMem_raw {s : String} (h : plain s = true) : '\n' ∉ raw s := by
  have hchars : '\n' ∉ s.toList := by
    intro hmem
    exact absurd (List.all_eq_true.mp h _ hmem) (by decide)
  simp [raw, hchars]

theorem raw_append (s : String) (rest : List Char) :
    raw s ++ rest = '"' :: (s.toList ++ '"' :: rest) := by
  simp [raw]

theorem readLiteral_plain {s : String} (h : plain s = true) (rest : List Char) :
    readLiteral (s.toList ++ '"' :: rest) = some (s, rest) := by
  have hlen : s.toList.length < (s.toList ++ '"' :: rest).length + 1 := by
    simp only [List.length_append, List.length_cons]
    omega
  rw [readLiteral, readString_plain s.toList rest _ h hlen]
  simp

theorem plain_of_readLiteral {s : String} {rest rest' : List Char}
    (h : readLiteral (s.toList ++ '"' :: rest) = some (s, rest')) :
    plain s = true ∧ rest' = rest := by
  obtain ⟨⟨cs, tail⟩, hread, hpair⟩ := Option.map_eq_some_iff.mp h
  obtain ⟨hcs, rfl⟩ : String.ofList cs = s ∧ tail = rest' := by simpa using hpair
  obtain rfl : cs = s.toList := by rw [← hcs, String.toList_ofList]
  exact plain_of_readString hread

theorem readValue_raw (s : String) (fuel : Nat) (rest : List Char) :
    readValue (fuel + 1) (raw s ++ rest) =
      (readLiteral (s.toList ++ '"' :: rest)).map fun read => (.str read.1, read.2) := by
  rw [raw_append, readValue, skipSpace_cons (by decide)]
  rfl

theorem isText_raw {s : String} (h : plain s = true) : IsText (raw s) (.str s) := by
  refine ⟨?_, newline_notMem_raw h⟩
  intro fuel rest hfuel _
  obtain ⟨fuel, rfl⟩ : ∃ n, fuel = n + 1 := ⟨fuel - 1, by simp [raw] at hfuel; omega⟩
  rw [readValue_raw, readLiteral_plain h]
  rfl

/-! ## Members -/

theorem readMember_raw {k : String} (hk : plain k = true) (fuel : Nat) (cs : List Char) :
    readMember (fuel + 1) (raw k ++ ':' :: cs) =
      (readValue fuel cs).map fun read => ((k, read.1), read.2) := by
  rw [raw_append, readMember, skipSpace_cons (by decide)]
  simp only [readLiteral_plain hk, skipSpace_cons (show isSpace ':' = false by decide)]

theorem readValue_object {k : String} (hk : plain k = true) (fuel : Nat) (cs : List Char) :
    readValue (fuel + 2) ('{' :: (raw k ++ ':' :: cs)) =
      (readValue fuel cs).bind fun read =>
        (readMembers (fuel + 1) read.2).map fun more => (obj ((k, read.1) :: more.1), more.2) := by
  have hmember := readMember_raw hk fuel cs
  rw [raw_append] at hmember ⊢
  rw [readValue_obj (by decide) (by decide), hmember]
  cases readValue fuel cs <;> rfl

theorem readMembers_raw {k : String} (hk : plain k = true) (fuel : Nat) (cs : List Char) :
    readMembers (fuel + 2) (',' :: (raw k ++ ':' :: cs)) =
      (readValue fuel cs).bind fun read =>
        (readMembers (fuel + 1) read.2).map fun more => ((k, read.1) :: more.1, more.2) := by
  rw [readMembers_cons, readMember_raw hk]
  cases readValue fuel cs <;> rfl

/-- A text member and the member it is a text of. -/
def IsMember (t : String × List Char) (m : String × Json) : Prop :=
  t.1 = m.1 ∧ plain t.1 = true ∧ IsText t.2 m.2

theorem isMember {key : String} {t : List Char} {j : Json} (hkey : plain key = true)
    (h : IsText t j) : IsMember (key, t) (key, j) :=
  ⟨rfl, hkey, h⟩

theorem ends_membersText (ts : List (String × List Char)) (rest : List Char) :
    Ends (membersText ts ++ rest) := by
  cases ts with
  | nil => exact ends_cons (by decide) _
  | cons t ts => exact ends_cons (by decide) _

theorem readMembers_isText {k : String} {t : List Char} {j : Json} (hk : plain k = true)
    (ht : IsText t j) (ts : List (String × List Char)) (rest : List Char) {fuel : Nat}
    (hfuel : t.length ≤ fuel) :
    readMembers (fuel + 2) (membersText ((k, t) :: ts) ++ rest) =
      (readMembers (fuel + 1) (membersText ts ++ rest)).map fun more =>
        ((k, j) :: more.1, more.2) := by
  have hvalue := ht.reads fuel (membersText ts ++ rest) hfuel (ends_membersText ts rest)
  simp only [membersText, List.cons_append, List.append_assoc]
  rw [readMembers_raw hk, hvalue, Option.bind_some]

theorem readValue_isText {k : String} {t : List Char} {j : Json} (hk : plain k = true)
    (ht : IsText t j) (ts : List (String × List Char)) (rest : List Char) {fuel : Nat}
    (hfuel : t.length ≤ fuel) :
    readValue (fuel + 2) (objectText ((k, t) :: ts) ++ rest) =
      (readMembers (fuel + 1) (membersText ts ++ rest)).map fun more =>
        (obj ((k, j) :: more.1), more.2) := by
  have hvalue := ht.reads fuel (membersText ts ++ rest) hfuel (ends_membersText ts rest)
  simp only [objectText, List.cons_append, List.append_assoc]
  rw [readValue_object hk, hvalue, Option.bind_some]

theorem readMembers_rawValue {k : String} (hk : plain k = true) (s : String)
    (ts : List (String × List Char)) (rest : List Char) (fuel : Nat) :
    readMembers (fuel + 3) (membersText ((k, raw s) :: ts) ++ rest) =
      (readLiteral (s.toList ++ '"' :: (membersText ts ++ rest))).bind fun read =>
        (readMembers (fuel + 2) read.2).map fun more => ((k, .str read.1) :: more.1, more.2) := by
  simp only [membersText, List.cons_append, List.append_assoc]
  rw [readMembers_raw hk, readValue_raw]
  cases readLiteral (s.toList ++ '"' :: (membersText ts ++ rest)) <;> rfl

theorem readMembers_membersText {ts : List (String × List Char)} {ms : List (String × Json)}
    (h : List.Forall₂ IsMember ts ms) (fuel : Nat) (rest : List Char)
    (hfuel : (membersText ts).length ≤ fuel) :
    readMembers fuel (membersText ts ++ rest) = some (ms, rest) := by
  induction h generalizing fuel with
  | nil =>
    obtain ⟨fuel, rfl⟩ : ∃ n, fuel = n + 1 := ⟨fuel - 1, by simp [membersText] at hfuel; omega⟩
    exact readMembers_close fuel rest
  | @cons t m ts ms hm _ ih =>
    obtain ⟨hkey, hplain, htext⟩ := hm
    simp only [membersText, raw, List.length_cons, List.length_append] at hfuel
    obtain ⟨fuel, rfl⟩ : ∃ n, fuel = n + 2 := ⟨fuel - 2, by omega⟩
    have hrest := ih (fuel + 1) (by omega)
    rw [readMembers_isText hplain htext ts rest (by omega), hrest, Option.map_some, hkey]

theorem newline_notMem_membersText {ts : List (String × List Char)} {ms : List (String × Json)}
    (h : List.Forall₂ IsMember ts ms) : '\n' ∉ membersText ts := by
  induction h with
  | nil => decide
  | @cons t m ts ms hm _ ih =>
    have hkey := newline_notMem_raw hm.2.1
    have hvalue := hm.2.2.oneLine
    simp [membersText, hkey, hvalue, ih]

theorem isText_objectText {ts : List (String × List Char)} {ms : List (String × Json)}
    (h : List.Forall₂ IsMember ts ms) : IsText (objectText ts) (.obj ms) := by
  cases h with
  | nil =>
    have hempty := isText_render (.obj [])
    rwa [render] at hempty
  | @cons t m ts ms hm hms =>
    obtain ⟨hkey, hplain, htext⟩ := hm
    refine ⟨?_, ?_⟩
    · intro fuel rest hfuel _
      simp only [objectText, raw, List.length_cons, List.length_append] at hfuel
      obtain ⟨fuel, rfl⟩ : ∃ n, fuel = n + 2 := ⟨fuel - 2, by omega⟩
      have hrest := readMembers_membersText hms (fuel + 1) rest (by omega)
      rw [readValue_isText hplain htext ts rest (by omega), hrest, Option.map_some, hkey]
    · have hraw := newline_notMem_raw hplain
      have hvalue := htext.oneLine
      have hrest := newline_notMem_membersText hms
      simp [objectText, hraw, hvalue, hrest]

theorem parse_objectText_head {k : String} {t : List Char} {j v : Json} (hk : plain k = true)
    (ht : IsText t v) {ts : List (String × List Char)}
    (h : parse (objectText ((k, t) :: ts)) = some j) : ∃ ms, j = obj ((k, v) :: ms) := by
  obtain ⟨n, hn, hfuel⟩ : ∃ n, (objectText ((k, t) :: ts)).length + 1 = n + 2 ∧ t.length ≤ n := by
    refine ⟨(objectText ((k, t) :: ts)).length - 1, ?_, ?_⟩ <;>
      simp only [objectText, raw, List.length_cons, List.length_append] <;> omega
  have hread := readValue_isText hk ht ts [] hfuel
  rw [List.append_nil] at hread
  rw [parse, hn, hread] at h
  split at h
  · next j' rest heq =>
    obtain ⟨more, -, hmore⟩ := Option.map_eq_some_iff.mp heq
    obtain ⟨rfl, rfl⟩ := Prod.mk.inj hmore
    split at h
    · exact ⟨more.1, (Option.some.inj h).symm⟩
    · exact nomatch h
  · exact nomatch h

end Json
