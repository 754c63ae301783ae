import LlmProxy.Lib.JsonString

/-! # JSON texts

A JSON value, the compact text `json.dumps` writes for it and the parser `json.loads` is.
Object members keep their order and are not merged when a key is repeated; a number keeps its
text, which is a JSON number by construction.

The main result is `readValue_render`: every value reads back from its own text, whatever
follows it.
-/

/-- `-?(0|[1-9]\d*)(\.\d+)?([eE][+-]?\d+)?`, from behind the integer part. -/
def Json.isExponent : List Char → Bool
  | [] => true
  | e :: cs =>
    let digits := match cs with
      | '+' :: ds => ds
      | '-' :: ds => ds
      | ds => ds
    (e == 'e' || e == 'E') && !digits.isEmpty && digits.all Char.isDigit

def Json.isFraction : List Char → Bool
  | '.' :: cs => !(cs.takeWhile Char.isDigit).isEmpty && isExponent (cs.dropWhile Char.isDigit)
  | cs => isExponent cs

def Json.isInteger (ds : List Char) : Bool := !ds.isEmpty && (ds.length == 1 || ds.head? != some '0')

def Json.isUnsigned (cs : List Char) : Bool :=
  isInteger (cs.takeWhile Char.isDigit) && isFraction (cs.dropWhile Char.isDigit)

def Json.isNumber : List Char → Bool
  | '-' :: cs => isUnsigned cs
  | cs => isUnsigned cs

def Json.numChar (c : Char) : Bool := c.isDigit || c == '-' || c == '+' || c == '.' || c == 'e' || c == 'E'

structure Json.Numeral where
  text : List Char
  isNumber : Json.isNumber text = true
  numeric : text.all Json.numChar = true
  deriving DecidableEq

/-- The constants `json.loads` accepts beyond the standard. -/
inductive Json.NonFinite where
  | nan
  | infinity
  | negInfinity
  deriving DecidableEq

inductive Json where
  | null
  | bool (b : Bool)
  | num (n : Json.Numeral)
  | constant (c : Json.NonFinite)
  | str (s : String)
  | arr (items : List Json)
  | obj (members : List (String × Json))

namespace Json

/-- `value.get(key)`: of members with one key the last one counts. -/
def get? (value : Json) (key : String) : Option Json :=
  match value with
  | .obj members => (members.reverse.find? (·.1 = key)).map Prod.snd
  | _ => none

theorem find?_replaced {key other : String} {value : Json} {members : List (String × Json)} :
    (members.map fun m => if m.1 = key then (key, value) else m).reverse.find? (·.1 = other) =
      (members.reverse.find? (·.1 = other)).map fun m =>
        if m.1 = key then (key, value) else m := by
  rw [← List.map_reverse, List.find?_map]
  congr 2
  funext m
  by_cases hkey : m.1 = key
  · simp [hkey]
  · simp [hkey]

/-- The object has this `type`. -/
def hasType (block : Json) (type : String) : Bool :=
  match block.get? "type" with
  | some (.str t) => t = type
  | _ => false

def hashable : Json → Bool
  | .arr _ => false
  | .obj _ => false
  | _ => true

/-- `bool(value)`. -/
def truthy : Json → Bool
  | .null => false
  | .bool b => b
  -- zero is written without a digit other than 0 before its exponent
  | .num n => (n.text.takeWhile fun c => c != 'e' && c != 'E').any fun c => c.isDigit && c != '0'
  | .constant _ => true
  | .str s => s != ""
  | .arr items => !items.isEmpty
  | .obj members => !members.isEmpty

def quote (s : String) : List Char := '"' :: (escape s ++ ['"'])

def NonFinite.text : NonFinite → List Char
  | .nan => "NaN".toList
  | .infinity => "Infinity".toList
  | .negInfinity => "-Infinity".toList

mutual

/-- `json.dumps(value, separators=(",", ":"))`. -/
def render : Json → List Char
  | .null => "null".toList
  | .bool true => "true".toList
  | .bool false => "false".toList
  | .num n => n.text
  | .constant c => c.text
  | .str s => quote s
  | .arr [] => ['[', ']']
  | .arr (x :: xs) => '[' :: (render x ++ renderItems xs)
  | .obj [] => ['{', '}']
  | .obj ((k, v) :: ms) => '{' :: (quote k ++ ':' :: (render v ++ renderMembers ms))

def renderItems : List Json → List Char
  | [] => [']']
  | x :: xs => ',' :: (render x ++ renderItems xs)

def renderMembers : List (String × Json) → List Char
  | [] => ['}']
  | (k, v) :: ms => ',' :: (quote k ++ ':' :: (render v ++ renderMembers ms))

end

/-! ## The parser -/

def isSpace (c : Char) : Bool := c == ' ' || c == '\n' || c == '\t' || c == '\r'

def skipSpace (cs : List Char) : List Char := cs.dropWhile isSpace

def readNumber (cs : List Char) : Option (Json × List Char) :=
  if h : isNumber (cs.takeWhile numChar) = true then
    some (.num ⟨cs.takeWhile numChar, h, List.all_takeWhile⟩, cs.dropWhile numChar)
  else none

def keywords : List (List Char × Json) :=
  [("null".toList, .null), ("true".toList, .bool true), ("false".toList, .bool false),
    (NonFinite.nan.text, .constant .nan), (NonFinite.infinity.text, .constant .infinity),
    (NonFinite.negInfinity.text, .constant .negInfinity)]

def readAtom (cs : List Char) : Option (Json × List Char) :=
  match keywords.find? (fun keyword => keyword.1.isPrefixOf cs) with
  | some (word, j) => some (j, cs.drop word.length)
  | none => readNumber cs

def readLiteral (cs : List Char) : Option (String × List Char) :=
  (readString (cs.length + 1) cs).map fun (s, rest) => (String.ofList s, rest)

mutual

def readValue : Nat → List Char → Option (Json × List Char)
  | 0, _ => none
  | fuel + 1, cs =>
    match skipSpace cs with
    | '"' :: cs => (readLiteral cs).map fun (s, rest) => (.str s, rest)
    | '[' :: cs =>
      match skipSpace cs with
      | ']' :: rest => some (.arr [], rest)
      | cs =>
        match readValue fuel cs with
        | none => none
        | some (x, rest) => (readItems fuel rest).map fun (xs, rest) => (.arr (x :: xs), rest)
    | '{' :: cs =>
      match skipSpace cs with
      | '}' :: rest => some (.obj [], rest)
      | cs =>
        match readMember fuel cs with
        | none => none
        | some (m, rest) => (readMembers fuel rest).map fun (ms, rest) => (.obj (m :: ms), rest)
    | cs => readAtom cs

def readItems : Nat → List Char → Option (List Json × List Char)
  | 0, _ => none
  | fuel + 1, cs =>
    match skipSpace cs with
    | ']' :: rest => some ([], rest)
    | ',' :: cs =>
      match readValue fuel cs with
      | none => none
      | some (x, rest) => (readItems fuel rest).map fun (xs, rest) => (x :: xs, rest)
    | _ => none

def readMember : Nat → List Char → Option ((String × Json) × List Char)
  | 0, _ => none
  | fuel + 1, cs =>
    match skipSpace cs with
    | '"' :: cs =>
      match readLiteral cs with
      | none => none
      | some (k, rest) =>
        match skipSpace rest with
        | ':' :: cs => (readValue fuel cs).map fun (v, rest) => ((k, v), rest)
        | _ => none
    | _ => none

def readMembers : Nat → List Char → Option (List (String × Json) × List Char)
  | 0, _ => none
  | fuel + 1, cs =>
    match skipSpace cs with
    | '}' :: rest => some ([], rest)
    | ',' :: cs =>
      match readMember fuel cs with
      | none => none
      | some (m, rest) => (readMembers fuel rest).map fun (ms, rest) => (m :: ms, rest)
    | _ => none

end

/-- `json.loads(text)`; `none` is its `ValueError`. -/
def parse (cs : List Char) : Option Json :=
  match readValue (cs.length + 1) cs with
  | some (j, rest) => if skipSpace rest = [] then some j else none
  | none => none

/-! ## Every value reads back -/

theorem skipSpace_cons {c : Char} (h : isSpace c = false) (cs : List Char) :
    skipSpace (c :: cs) = c :: cs := by
  simp [skipSpace, h]

/-- What follows a value does not continue a number. -/
def Ends (rest : List Char) : Prop := ∀ c cs, rest = c :: cs → numChar c = false

theorem ends_nil : Ends [] := nofun

theorem ends_cons {c : Char} (h : numChar c = false) (cs : List Char) : Ends (c :: cs) := by
  intro d ds hd
  obtain ⟨rfl, -⟩ : c = d ∧ cs = ds := by simpa using hd
  exact h

theorem readLiteral_quote (s : String) (rest : List Char) :
    readLiteral (escape s ++ '"' :: rest) = some (s, rest) := by
  have hlen : s.toList.length < (escape s ++ '"' :: rest).length + 1 := by
    have hle := length_le_escapeChars s.toList
    simp only [escape, List.length_append, List.length_cons]
    omega
  have hread : readString ((escape s ++ '"' :: rest).length + 1) (escape s ++ '"' :: rest) =
      some (s.toList, rest) := readString_escape s.toList rest _ hlen
  rw [readLiteral, hread]
  simp

theorem takeWhile_numeral (n : Numeral) {rest : List Char} (h : Ends rest) :
    (n.text ++ rest).takeWhile numChar = n.text ∧ (n.text ++ rest).dropWhile numChar = rest := by
  have hall : ∀ c ∈ n.text, numChar c = true := List.all_eq_true.mp n.numeric
  rw [List.takeWhile_append_of_pos hall, List.dropWhile_append_of_pos hall]
  cases rest with
  | nil => simp
  | cons c cs => simp [h c cs rfl]

theorem readNumber_numeral (n : Numeral) {rest : List Char} (h : Ends rest) :
    readNumber (n.text ++ rest) = some (.num n, rest) := by
  obtain ⟨htake, hdrop⟩ := takeWhile_numeral n h
  have hnum : isNumber ((n.text ++ rest).takeWhile numChar) = true := by
    rw [htake]
    exact n.isNumber
  rw [readNumber, dif_pos hnum, hdrop]
  simp only [htake]

theorem numeral_head (n : Numeral) :
    ∃ c cs, n.text = c :: cs ∧ numChar c = true ∧
      (c = '-' → ∃ d ds, cs = d :: ds ∧ numChar d = true) := by
  obtain ⟨text, hnum, hall⟩ := n
  match text with
  | [] => exact absurd hnum (by decide)
  | ['-'] => exact absurd hnum (by decide)
  | [c] =>
    refine ⟨c, [], rfl, by simpa using hall, ?_⟩
    rintro rfl
    exact absurd hnum (by decide)
  | c :: d :: ds =>
    have hchars : numChar c = true ∧ numChar d = true := by
      simp only [List.all_cons, Bool.and_eq_true] at hall
      exact ⟨hall.1, hall.2.1⟩
    exact ⟨c, d :: ds, rfl, hchars.1, fun _ => ⟨d, ds, rfl, hchars.2⟩⟩

theorem keywords_head : ∀ keyword ∈ keywords, ∃ c cs, keyword.1 = c :: cs ∧
    (numChar c = false ∨ c = '-' ∧ ∃ d ds, cs = d :: ds ∧ numChar d = false) := by
  simp only [keywords, List.forall_mem_cons]
  refine ⟨⟨_, _, rfl, .inl (by decide)⟩, ⟨_, _, rfl, .inl (by decide)⟩,
    ⟨_, _, rfl, .inl (by decide)⟩, ⟨_, _, rfl, .inl (by decide)⟩,
    ⟨_, _, rfl, .inl (by decide)⟩, ⟨_, _, rfl, .inr ⟨rfl, _, _, rfl, by decide⟩⟩, ?_⟩
  exact fun _ h => nomatch h

theorem readAtom_numeral (n : Numeral) {rest : List Char} (h : Ends rest) :
    readAtom (n.text ++ rest) = some (.num n, rest) := by
  obtain ⟨c, cs, htext, hc, hminus⟩ := numeral_head n
  have hnone : keywords.find? (fun keyword => keyword.1.isPrefixOf (n.text ++ rest)) = none := by
    rw [List.find?_eq_none]
    intro keyword hmem hprefix
    obtain ⟨k, ks, hword, hhead⟩ := keywords_head keyword hmem
    rw [List.isPrefixOf_iff_prefix, hword, htext, List.cons_append, List.cons_prefix_cons]
      at hprefix
    obtain ⟨rfl, hprefix⟩ := hprefix
    obtain hk | ⟨hk, d, ds, rfl, hd⟩ := hhead
    · exact absurd hc (by simp [hk])
    · obtain ⟨e, es, rfl, he⟩ := hminus hk
      rw [List.cons_append, List.cons_prefix_cons] at hprefix
      obtain ⟨rfl, -⟩ := hprefix
      exact absurd he (by simp [hd])
  rw [readAtom, hnone]
  exact readNumber_numeral n h

theorem readValue_atom {c : Char} {cs : List Char} (fuel : Nat) (hspace : isSpace c = false)
    (hquote : c ≠ '"') (hbracket : c ≠ '[') (hbrace : c ≠ '{') :
    readValue (fuel + 1) (c :: cs) = readAtom (c :: cs) := by
  rw [readValue, skipSpace_cons hspace]
  split
  · next heq => exact absurd (List.cons.inj heq).1 hquote
  · next heq => exact absurd (List.cons.inj heq).1 hbracket
  · next heq => exact absurd (List.cons.inj heq).1 hbrace
  · rfl

theorem readValue_numeral (n : Numeral) (fuel : Nat) {rest : List Char} (h : Ends rest) :
    readValue (fuel + 1) (n.text ++ rest) = some (.num n, rest) := by
  have hatom := readAtom_numeral n h
  obtain ⟨c, cs, htext, hc, -⟩ := numeral_head n
  have hne : ∀ d : Char, numChar d = false → c ≠ d := by
    rintro d hd rfl
    exact absurd hc (by simp [hd])
  have hspace : isSpace c = false := by
    simp [isSpace, hne ' ' (by decide), hne '\n' (by decide), hne '\t' (by decide),
      hne '\r' (by decide)]
  rw [htext, List.cons_append] at hatom ⊢
  rw [readValue_atom fuel hspace (hne _ (by decide)) (hne _ (by decide)) (hne _ (by decide)),
    hatom]

theorem readValue_str (s : String) (fuel : Nat) (rest : List Char) :
    readValue (fuel + 1) (quote s ++ rest) = some (.str s, rest) := by
  have htext : quote s ++ rest = '"' :: (escape s ++ '"' :: rest) := by
    simp [quote]
  rw [htext, readValue, skipSpace_cons (by decide)]
  simp only [readLiteral_quote, Option.map_some]

theorem readMember_cons (k : String) (fuel : Nat) (cs : List Char) :
    readMember (fuel + 1) (quote k ++ ':' :: cs) =
      (readValue fuel cs).map fun (v, rest) => ((k, v), rest) := by
  have htext : quote k ++ ':' :: cs = '"' :: (escape k ++ '"' :: ':' :: cs) := by
    simp [quote]
  rw [htext, readMember, skipSpace_cons (by decide)]
  simp only [readLiteral_quote, skipSpace_cons (show isSpace ':' = false by decide)]

theorem render_head (j : Json) :
    ∃ c cs, render j = c :: cs ∧ isSpace c = false ∧ c ≠ ']' ∧ c ≠ '}' := by
  match j with
  | .null => exact ⟨_, _, by rw [render]; rfl, by decide, by decide, by decide⟩
  | .bool true => exact ⟨_, _, by rw [render]; rfl, by decide, by decide, by decide⟩
  | .bool false => exact ⟨_, _, by rw [render]; rfl, by decide, by decide, by decide⟩
  | .num n =>
    obtain ⟨c, cs, htext, hc, -⟩ := numeral_head n
    have hne : ∀ d : Char, numChar d = false → c ≠ d := by
      rintro d hd rfl
      exact absurd hc (by simp [hd])
    have hspace : isSpace c = false := by
      simp [isSpace, hne ' ' (by decide), hne '\n' (by decide), hne '\t' (by decide),
        hne '\r' (by decide)]
    exact ⟨c, cs, by rw [render, htext], hspace, hne _ (by decide), hne _ (by decide)⟩
  | .constant .nan => exact ⟨_, _, by rw [render]; rfl, by decide, by decide, by decide⟩
  | .constant .infinity => exact ⟨_, _, by rw [render]; rfl, by decide, by decide, by decide⟩
  | .constant .negInfinity => exact ⟨_, _, by rw [render]; rfl, by decide, by decide, by decide⟩
  | .str s => exact ⟨_, _, by rw [render]; rfl, by decide, by decide, by decide⟩
  | .arr [] => exact ⟨_, _, by rw [render], by decide, by decide, by decide⟩
  | .arr (x :: xs) => exact ⟨_, _, by rw [render], by decide, by decide, by decide⟩
  | .obj [] => exact ⟨_, _, by rw [render], by decide, by decide, by decide⟩
  | .obj ((k, v) :: ms) => exact ⟨_, _, by rw [render], by decide, by decide, by decide⟩

theorem ends_renderItems (xs : List Json) (rest : List Char) : Ends (renderItems xs ++ rest) := by
  cases xs with
  | nil => exact ends_cons (by decide) _
  | cons x xs => exact ends_cons (by decide) _

theorem ends_renderMembers (ms : List (String × Json)) (rest : List Char) :
    Ends (renderMembers ms ++ rest) := by
  cases ms with
  | nil => exact ends_cons (by decide) _
  | cons m ms => exact ends_cons (by decide) _

theorem readValue_arr {fuel : Nat} {c : Char} {cs : List Char} (hspace : isSpace c = false)
    (hclose : c ≠ ']') :
    readValue (fuel + 1) ('[' :: c :: cs) =
      match readValue fuel (c :: cs) with
      | none => none
      | some (x, rest) => (readItems fuel rest).map fun (xs, rest) => (.arr (x :: xs), rest) := by
  rw [readValue, skipSpace_cons (by decide)]
  simp only [skipSpace_cons hspace]
  split
  · next heq => exact absurd (List.cons.inj heq).1 hclose
  · rfl

theorem readValue_obj {fuel : Nat} {c : Char} {cs : List Char} (hspace : isSpace c = false)
    (hclose : c ≠ '}') :
    readValue (fuel + 1) ('{' :: c :: cs) =
      match readMember fuel (c :: cs) with
      | none => none
      | some (m, rest) => (readMembers fuel rest).map fun (ms, rest) => (.obj (m :: ms), rest) := by
  rw [readValue, skipSpace_cons (by decide)]
  simp only [skipSpace_cons hspace]
  split
  · next heq => exact absurd (List.cons.inj heq).1 hclose
  · rfl

theorem readItems_cons (fuel : Nat) (cs : List Char) :
    readItems (fuel + 1) (',' :: cs) =
      match readValue fuel cs with
      | none => none
      | some (x, rest) => (readItems fuel rest).map fun (xs, rest) => (x :: xs, rest) := by
  rw [readItems, skipSpace_cons (by decide)]
  rfl

theorem readMembers_cons (fuel : Nat) (cs : List Char) :
    readMembers (fuel + 1) (',' :: cs) =
      match readMember fuel cs with
      | none => none
      | some (m, rest) => (readMembers fuel rest).map fun (ms, rest) => (m :: ms, rest) := by
  rw [readMembers, skipSpace_cons (by decide)]
  rfl

theorem readMembers_close (fuel : Nat) (rest : List Char) :
    readMembers (fuel + 1) ('}' :: rest) = some ([], rest) := by
  rw [readMembers, skipSpace_cons (by decide)]
  rfl

mutual

-- The fuel is the length of the text: every nested read has at least one character less.
theorem readValue_render : ∀ (j : Json) (fuel : Nat) (rest : List Char),
    (render j).length ≤ fuel → Ends rest → readValue fuel (render j ++ rest) = some (j, rest)
  | j, 0, rest, h, _ => by
    obtain ⟨c, cs, htext, -⟩ := render_head j
    simp [htext] at h
  | .null, fuel + 1, rest, _, _ => by
    rw [render]
    exact readValue_atom fuel (by decide) (by decide) (by decide) (by decide)
  | .bool true, fuel + 1, rest, _, _ => by
    rw [render]
    exact readValue_atom fuel (by decide) (by decide) (by decide) (by decide)
  | .bool false, fuel + 1, rest, _, _ => by
    rw [render]
    exact readValue_atom fuel (by decide) (by decide) (by decide) (by decide)
  | .num n, fuel + 1, rest, _, hends => by
    rw [render]
    exact readValue_numeral n fuel hends
  | .constant .nan, fuel + 1, rest, _, _ => by
    rw [render]
    exact readValue_atom fuel (by decide) (by decide) (by decide) (by decide)
  | .constant .infinity, fuel + 1, rest, _, _ => by
    rw [render]
    exact readValue_atom fuel (by decide) (by decide) (by decide) (by decide)
  | .constant .negInfinity, fuel + 1, rest, _, _ => by
    rw [render]
    exact readValue_atom fuel (by decide) (by decide) (by decide) (by decide)
  | .str s, fuel + 1, rest, _, _ => by
    rw [render]
    exact readValue_str s fuel rest
  | .arr [], fuel + 1, rest, _, _ => by
    rw [render, List.cons_append, readValue, skipSpace_cons (by decide)]
    rfl
  | .arr (x :: xs), fuel + 1, rest, h, _ => by
    rw [render] at h ⊢
    simp only [List.length_cons, List.length_append] at h
    have hx := readValue_render x fuel (renderItems xs ++ rest) (by omega)
      (ends_renderItems xs rest)
    have hxs := readItems_render xs fuel rest (by omega)
    obtain ⟨c, cs, htext, hspace, hclose, -⟩ := render_head x
    rw [List.cons_append, List.append_assoc, htext, List.cons_append,
      readValue_arr hspace hclose, ← List.cons_append, ← htext, hx]
    simp only [hxs, Option.map_some]
  | .obj [], fuel + 1, rest, _, _ => by
    rw [render, List.cons_append, readValue, skipSpace_cons (by decide)]
    rfl
  | .obj ((k, v) :: ms), fuel + 1, rest, h, _ => by
    rw [render] at h ⊢
    simp only [List.length_cons, List.length_append] at h
    have hm := readMember_render k v fuel (renderMembers ms ++ rest) (by omega)
      (ends_renderMembers ms rest)
    have hms := readMembers_render ms fuel rest (by omega)
    rw [List.cons_append, List.append_assoc, List.cons_append, List.append_assoc]
    rw [quote, List.cons_append] at hm ⊢
    rw [readValue_obj (by decide) (by decide), hm]
    simp only [hms, Option.map_some]

theorem readItems_render : ∀ (xs : List Json) (fuel : Nat) (rest : List Char),
    (renderItems xs).length ≤ fuel → readItems fuel (renderItems xs ++ rest) = some (xs, rest)
  | [], 0, _, h => by simp [renderItems] at h
  | _ :: _, 0, _, h => by simp [renderItems] at h
  | [], fuel + 1, rest, _ => by
    rw [renderItems, List.cons_append, readItems, skipSpace_cons (by decide)]
    rfl
  | x :: xs, fuel + 1, rest, h => by
    rw [renderItems] at h ⊢
    simp only [List.length_cons, List.length_append] at h
    have hx := readValue_render x fuel (renderItems xs ++ rest) (by omega)
      (ends_renderItems xs rest)
    have hxs := readItems_render xs fuel rest (by omega)
    rw [List.cons_append, List.append_assoc, readItems_cons, hx]
    simp only [hxs, Option.map_some]

theorem readMember_render : ∀ (k : String) (v : Json) (fuel : Nat) (rest : List Char),
    (quote k).length + ((render v).length + 1) ≤ fuel → Ends rest →
    readMember fuel (quote k ++ ':' :: (render v ++ rest)) = some ((k, v), rest)
  | _, _, 0, _, h, _ => by simp at h
  | k, v, fuel + 1, rest, h, hends => by
    have hv := readValue_render v fuel rest (by simp [quote] at h; omega) hends
    rw [readMember_cons, hv]
    rfl

theorem readMembers_render : ∀ (ms : List (String × Json)) (fuel : Nat) (rest : List Char),
    (renderMembers ms).length ≤ fuel →
    readMembers fuel (renderMembers ms ++ rest) = some (ms, rest)
  | [], 0, _, h => by simp [renderMembers] at h
  | (_, _) :: _, 0, _, h => by simp [renderMembers] at h
  | [], fuel + 1, rest, _ => by
    rw [renderMembers, List.cons_append]
    exact readMembers_close fuel rest
  | (k, v) :: ms, fuel + 1, rest, h => by
    rw [renderMembers] at h ⊢
    simp only [List.length_cons, List.length_append] at h
    have hm := readMember_render k v fuel (renderMembers ms ++ rest) (by omega)
      (ends_renderMembers ms rest)
    have hms := readMembers_render ms fuel rest (by omega)
    rw [List.cons_append, List.append_assoc, List.cons_append, List.append_assoc,
      readMembers_cons, hm]
    simp only [hms, Option.map_some]

end

/-! ## A value's text is one line -/

theorem newline_notMem_quote (s : String) : '\n' ∉ quote s := by
  have hescape := newline_notMem_escape s
  simp [quote, hescape]

mutual

theorem newline_notMem_render : ∀ j : Json, '\n' ∉ render j
  | .null => by rw [render]; decide
  | .bool true => by rw [render]; decide
  | .bool false => by rw [render]; decide
  | .num n => by
    rw [render]
    intro hmem
    exact absurd (List.all_eq_true.mp n.numeric _ hmem) (by decide)
  | .constant .nan => by rw [render]; decide
  | .constant .infinity => by rw [render]; decide
  | .constant .negInfinity => by rw [render]; decide
  | .str s => by
    rw [render]
    exact newline_notMem_quote s
  | .arr [] => by rw [render]; decide
  | .arr (x :: xs) => by
    have hx := newline_notMem_render x
    have hxs := newline_notMem_renderItems xs
    simp [render, hx, hxs]
  | .obj [] => by rw [render]; decide
  | .obj ((k, v) :: ms) => by
    have hk := newline_notMem_quote k
    have hv := newline_notMem_render v
    have hms := newline_notMem_renderMembers ms
    simp [render, hk, hv, hms]

theorem newline_notMem_renderItems : ∀ xs : List Json, '\n' ∉ renderItems xs
  | [] => by rw [renderItems]; decide
  | x :: xs => by
    have hx := newline_notMem_render x
    have hxs := newline_notMem_renderItems xs
    simp [renderItems, hx, hxs]

theorem newline_notMem_renderMembers : ∀ ms : List (String × Json), '\n' ∉ renderMembers ms
  | [] => by rw [renderMembers]; decide
  | (k, v) :: ms => by
    have hk := newline_notMem_quote k
    have hv := newline_notMem_render v
    have hms := newline_notMem_renderMembers ms
    simp [renderMembers, hk, hv, hms]

end

end Json
