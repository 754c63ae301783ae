import LlmProxy.Lib.JsonSpaced

/-! # Where a JSON text is inside a string

`QuoteState` follows a text character by character: outside the strings, within one, or behind a
backslash in one; a backslash outside ends it. What the parser reads leaves it outside
(`readValue_outside`), and every key of an object is read behind a quote that opens a string
(`keyAt_of_parse`).

> `keys_of_turned`: an object that starts within a string of a `dumps` text has its strings turned
> inside out, so that each of its keys starts with a colon, a comma or a bracket.
-/

namespace Json

inductive QuoteState where
  | out
  | within
  | escaped
  | dead
  deriving DecidableEq

namespace QuoteState

def step : QuoteState → Char → QuoteState
  | .out, c => if c = '"' then .within else if c = '\\' then .dead else .out
  | .within, c => if c = '"' then .out else if c = '\\' then .escaped else .within
  | .escaped, _ => .within
  | .dead, _ => .dead

def run (s : QuoteState) (cs : List Char) : QuoteState := cs.foldl step s

@[simp] theorem run_nil (s : QuoteState) : s.run [] = s := rfl

@[simp] theorem run_cons (s : QuoteState) (c : Char) (cs : List Char) :
    s.run (c :: cs) = (s.step c).run cs := rfl

theorem run_append (s : QuoteState) (cs ds : List Char) : s.run (cs ++ ds) = (s.run cs).run ds :=
  List.foldl_append

theorem run_dead (cs : List Char) : dead.run cs = dead := by
  induction cs with
  | nil => rfl
  | cons c cs ih => exact ih

theorem run_out {cs : List Char} (h : ∀ c ∈ cs, c ≠ '"' ∧ c ≠ '\\') : out.run cs = out := by
  induction cs with
  | nil => rfl
  | cons c cs ih =>
    obtain ⟨⟨hquote, hslash⟩, hcs⟩ := List.forall_mem_cons.mp h
    rw [run_cons, step, if_neg hquote, if_neg hslash]
    exact ih hcs

theorem run_within {cs : List Char} (h : ∀ c ∈ cs, c ≠ '"' ∧ c ≠ '\\') :
    within.run cs = within := by
  induction cs with
  | nil => rfl
  | cons c cs ih =>
    obtain ⟨⟨hquote, hslash⟩, hcs⟩ := List.forall_mem_cons.mp h
    rw [run_cons, step, if_neg hquote, if_neg hslash]
    exact ih hcs

end QuoteState

open QuoteState

/-! ## What the parser reads -/

/-- From outside to outside. -/
def Outside (cs rest : List Char) : Prop := ∃ used, cs = used ++ rest ∧ out.run used = out

namespace Outside

theorem refl (cs : List Char) : Outside cs cs := ⟨[], rfl, rfl⟩

theorem trans {cs ds es : List Char} (h : Outside cs ds) (h' : Outside ds es) : Outside cs es := by
  obtain ⟨used, rfl, hused⟩ := h
  obtain ⟨more, rfl, hmore⟩ := h'
  exact ⟨used ++ more, (List.append_assoc _ _ _).symm, by rw [run_append, hused, hmore]⟩

theorem cons {c : Char} {cs rest : List Char} (hquote : c ≠ '"') (hslash : c ≠ '\\')
    (h : Outside cs rest) : Outside (c :: cs) rest := by
  obtain ⟨used, rfl, hused⟩ := h
  refine ⟨c :: used, rfl, ?_⟩
  rw [run_cons, step, if_neg hquote, if_neg hslash, hused]

theorem of_plain {used rest : List Char} (h : ∀ c ∈ used, c ≠ '"' ∧ c ≠ '\\') :
    Outside (used ++ rest) rest :=
  ⟨used, rfl, run_out h⟩

theorem skipSpace (cs : List Char) : Outside cs (skipSpace cs) := by
  have hplain : ∀ c ∈ cs.takeWhile isSpace, c ≠ '"' ∧ c ≠ '\\' := by
    intro c hmem
    have hspace := List.all_eq_true.mp List.all_takeWhile c hmem
    constructor
    · rintro rfl
      cases hspace
    · rintro rfl
      cases hspace
  have h := @of_plain _ (cs.dropWhile isSpace) hplain
  rwa [List.takeWhile_append_dropWhile] at h

end Outside

theorem hexVal_ne_slash {c : Char} {n : Nat} (h : hexVal c = some n) : c ≠ '\\' := by
  rintro rfl
  have hnone : hexVal '\\' = none := by decide
  rw [hnone] at h
  cases h

/-- Within a string, from within to within. -/
def Inside (cs rest : List Char) : Prop := ∃ used, cs = used ++ rest ∧ within.run used = within

theorem readHex4_inside {cs rest : List Char} {n : Nat} (h : readHex4 cs = some (n, rest)) :
    Inside cs rest := by
  unfold readHex4 at h
  split at h
  · next a b c d tail =>
    split at h
    · next ha hb hc hd =>
      obtain ⟨-, rfl⟩ : _ ∧ tail = rest := by simpa using h
      refine ⟨[a, b, c, d], rfl, run_within ?_⟩
      simp only [List.forall_mem_cons]
      exact ⟨⟨hexVal_ne_quote ha, hexVal_ne_slash ha⟩, ⟨hexVal_ne_quote hb, hexVal_ne_slash hb⟩,
        ⟨hexVal_ne_quote hc, hexVal_ne_slash hc⟩, ⟨hexVal_ne_quote hd, hexVal_ne_slash hd⟩,
        fun _ hmem => absurd hmem List.not_mem_nil⟩
    · cases h
  · cases h

theorem readLow_inside {cs rest : List Char} {n : Nat} (h : readLow cs = some (n, rest)) :
    Inside cs rest := by
  unfold readLow at h
  split at h
  · next cs =>
    split at h
    · next lo tail hhex =>
      split at h
      · obtain ⟨-, rfl⟩ : _ ∧ tail = rest := by simpa using h
        obtain ⟨used, rfl, hused⟩ := readHex4_inside hhex
        exact ⟨'\\' :: 'u' :: used, rfl, hused⟩
      · cases h
    · cases h
  · cases h

theorem readUnicode_inside {cs rest : List Char} {d : Char} (h : readUnicode cs = some (d, rest)) :
    Inside cs rest := by
  unfold readUnicode at h
  split at h
  · cases h
  · next hi tail hhex =>
    obtain ⟨used, rfl, hused⟩ := readHex4_inside hhex
    split at h
    · split at h
      · next lo tail' hlow =>
        obtain ⟨-, rfl⟩ : _ ∧ tail' = rest := by simpa using h
        obtain ⟨more, rfl, hmore⟩ := readLow_inside hlow
        exact ⟨used ++ more, (List.append_assoc _ _ _).symm, by rw [run_append, hused, hmore]⟩
      · obtain ⟨-, rfl⟩ : _ ∧ tail = rest := by simpa using h
        exact ⟨used, rfl, hused⟩
    · obtain ⟨-, rfl⟩ : _ ∧ tail = rest := by simpa using h
      exact ⟨used, rfl, hused⟩

theorem readChar_inside {c d : Char} {cs rest : List Char} (hquote : c ≠ '"')
    (h : readChar c cs = some (d, rest)) : Inside (c :: cs) rest := by
  unfold readChar at h
  split at h
  · next hslash =>
    rw [hslash]
    cases cs with
    | nil => cases h
    | cons e cs =>
      rw [readEscape] at h
      split at h
      · obtain ⟨used, rfl, hused⟩ := readUnicode_inside h
        exact ⟨'\\' :: e :: used, rfl, hused⟩
      · obtain ⟨d', -, hpair⟩ := Option.map_eq_some_iff.mp h
        obtain ⟨-, rfl⟩ : d' = d ∧ cs = rest := by simpa using hpair
        exact ⟨['\\', e], rfl, rfl⟩
  · next hslash =>
    split at h
    · obtain ⟨-, rfl⟩ : c = d ∧ cs = rest := by simpa using h
      refine ⟨[c], rfl, run_within ?_⟩
      rw [List.forall_mem_singleton]
      exact ⟨hquote, hslash⟩
    · cases h

theorem readString_outside {fuel : Nat} {cs s rest : List Char}
    (h : readString fuel cs = some (s, rest)) :
    ∃ used, cs = used ++ rest ∧ within.run used = out := by
  induction fuel generalizing cs s with
  | zero => cases h
  | succ fuel ih =>
    cases cs with
    | nil => cases h
    | cons c cs =>
      unfold readString at h
      split at h
      · next hc =>
        obtain ⟨-, rfl⟩ : [] = s ∧ cs = rest := by simpa using h
        exact ⟨['"'], by rw [hc]; rfl, rfl⟩
      · next hc =>
        split at h
        · cases h
        · next d tail hread =>
          obtain ⟨⟨s', rest'⟩, htail, hpair⟩ := Option.map_eq_some_iff.mp h
          obtain ⟨-, rfl⟩ : d :: s' = s ∧ rest' = rest := by simpa using hpair
          obtain ⟨used, heq, hused⟩ := readChar_inside hc hread
          obtain ⟨more, rfl, hmore⟩ := ih htail
          exact ⟨used ++ more, by rw [heq, List.append_assoc], by rw [run_append, hused, hmore]⟩

theorem readLiteral_outside {body rest : List Char} {s : String}
    (h : readLiteral body = some (s, rest)) : Outside ('"' :: body) rest := by
  obtain ⟨⟨cs, rest'⟩, hread, hpair⟩ := Option.map_eq_some_iff.mp h
  obtain ⟨-, rfl⟩ : String.ofList cs = s ∧ rest' = rest := by simpa using hpair
  obtain ⟨used, rfl, hused⟩ := readString_outside hread
  exact ⟨'"' :: used, rfl, hused⟩

theorem readAtom_outside {cs rest : List Char} {j : Json} (h : readAtom cs = some (j, rest)) :
    Outside cs rest := by
  unfold readAtom at h
  split at h
  · next word j' hfind =>
    obtain ⟨-, rfl⟩ : j' = j ∧ cs.drop word.length = rest := by simpa using h
    have hall : (keywords.all fun keyword => keyword.1.all fun c => c != '"' && c != '\\') = true := by
      decide
    have hplain : ∀ keyword ∈ keywords, ∀ c ∈ keyword.1, c ≠ '"' ∧ c ≠ '\\' := by
      intro keyword hkeyword c hmem
      simpa using List.all_eq_true.mp (List.all_eq_true.mp hall keyword hkeyword) c hmem
    obtain ⟨tail, htail⟩ : word <+: cs := List.isPrefixOf_iff_prefix.mp
      (by simpa using List.find?_some hfind)
    have hout := @Outside.of_plain _ tail
      (hplain (word, j') (List.mem_of_find?_eq_some hfind))
    rw [← htail, List.drop_left]
    exact hout
  · unfold readNumber at h
    split at h
    · obtain ⟨-, rfl⟩ : _ ∧ cs.dropWhile numChar = rest := by simpa using h
      have hplain : ∀ c ∈ cs.takeWhile numChar, c ≠ '"' ∧ c ≠ '\\' := by
        intro c hmem
        have hnum := List.all_eq_true.mp List.all_takeWhile c hmem
        constructor
        · rintro rfl
          cases hnum
        · rintro rfl
          cases hnum
      have hout := @Outside.of_plain _ (cs.dropWhile numChar) hplain
      rwa [List.takeWhile_append_dropWhile] at hout
    · cases h

theorem readAtom_ne_obj {cs rest : List Char} {j : Json} {ms : List (String × Json)}
    (h : readAtom cs = some (j, rest)) : j ≠ .obj ms := by
  unfold readAtom at h
  split at h
  · next word j' hfind =>
    obtain ⟨rfl, -⟩ : j' = j ∧ cs.drop word.length = rest := by simpa using h
    have hmem := List.mem_of_find?_eq_some hfind
    simp only [keywords, List.mem_cons, Prod.mk.injEq, List.not_mem_nil, or_false] at hmem
    rcases hmem with ⟨-, rfl⟩ | ⟨-, rfl⟩ | ⟨-, rfl⟩ | ⟨-, rfl⟩ | ⟨-, rfl⟩ | ⟨-, rfl⟩ <;>
      exact Json.noConfusion
  · unfold readNumber at h
    split at h
    · obtain ⟨rfl, -⟩ := Prod.mk.inj (Option.some.inj h)
      exact Json.noConfusion
    · cases h

/-- The key is read behind a quote that opens a string. -/
def KeyAt (cs : List Char) (k : String) : Prop :=
  ∃ front body rest, cs = front ++ '"' :: body ∧ out.run front = out ∧
    readLiteral body = some (k, rest)

theorem KeyAt.before {cs ds : List Char} {k : String} (h : Outside cs ds) (hk : KeyAt ds k) :
    KeyAt cs k := by
  obtain ⟨used, rfl, hused⟩ := h
  obtain ⟨front, body, rest, rfl, hfront, hread⟩ := hk
  exact ⟨used ++ front, body, rest, (List.append_assoc _ _ _).symm,
    by rw [run_append, hused, hfront], hread⟩

/-- What the parts of the parser leave, at one amount of fuel. -/
structure ReadsOutside (fuel : Nat) : Prop where
  value : ∀ cs v rest, readValue fuel cs = some (v, rest) →
    Outside cs rest ∧ ∀ ms, v = .obj ms → ∀ m ∈ ms, KeyAt cs m.1
  items : ∀ cs xs rest, readItems fuel cs = some (xs, rest) → Outside cs rest
  member : ∀ cs m rest, readMember fuel cs = some (m, rest) → Outside cs rest ∧ KeyAt cs m.1
  members : ∀ cs ms rest, readMembers fuel cs = some (ms, rest) →
    Outside cs rest ∧ ∀ m ∈ ms, KeyAt cs m.1

theorem Outside.open {c : Char} {cs ds rest : List Char} (hquote : c ≠ '"') (hslash : c ≠ '\\')
    (hspace : Json.skipSpace cs = c :: ds) (h : Outside ds rest) : Outside cs rest := by
  have hskip := Outside.skipSpace cs
  rw [hspace] at hskip
  exact hskip.trans (h.cons hquote hslash)

theorem readValue_step {fuel : Nat} (ih : ReadsOutside fuel) {cs rest : List Char} {v : Json}
    (h : readValue (fuel + 1) cs = some (v, rest)) :
    Outside cs rest ∧ ∀ ms, v = .obj ms → ∀ m ∈ ms, KeyAt cs m.1 := by
  rw [readValue] at h
  split at h
  · next body hspace =>
    obtain ⟨⟨s, rest'⟩, hread, hpair⟩ := Option.map_eq_some_iff.mp h
    obtain ⟨rfl, rfl⟩ : Json.str s = v ∧ rest' = rest := by simpa using hpair
    have hskip := Outside.skipSpace cs
    rw [hspace] at hskip
    exact ⟨hskip.trans (readLiteral_outside hread), fun ms heq => by cases heq⟩
  · next body hspace =>
    split at h
    · next tail hclose =>
      obtain ⟨rfl, rfl⟩ : Json.arr [] = v ∧ tail = rest := by simpa using h
      exact ⟨Outside.open (by decide) (by decide) hspace
        (Outside.open (by decide) (by decide) hclose (Outside.refl _)), fun ms heq => by cases heq⟩
    · split at h
      · cases h
      · next x tail hx =>
        obtain ⟨⟨xs, rest'⟩, hread, hpair⟩ := Option.map_eq_some_iff.mp h
        obtain ⟨rfl, rfl⟩ : Json.arr (x :: xs) = v ∧ rest' = rest := by simpa using hpair
        refine ⟨Outside.open (by decide) (by decide) hspace ?_, fun ms heq => by cases heq⟩
        exact ((Outside.skipSpace body).trans (ih.value _ _ _ hx).1).trans (ih.items _ _ _ hread)
  · next body hspace =>
    split at h
    · next tail hclose =>
      obtain ⟨rfl, rfl⟩ : Json.obj [] = v ∧ tail = rest := by simpa using h
      refine ⟨Outside.open (by decide) (by decide) hspace
        (Outside.open (by decide) (by decide) hclose (Outside.refl _)), fun ms heq => ?_⟩
      cases heq
      exact fun m hmem => absurd hmem List.not_mem_nil
    · split at h
      · cases h
      · next m tail hm =>
        obtain ⟨⟨ms, rest'⟩, hread, hpair⟩ := Option.map_eq_some_iff.mp h
        obtain ⟨rfl, rfl⟩ : Json.obj (m :: ms) = v ∧ rest' = rest := by simpa using hpair
        obtain ⟨hfirst, hkey⟩ := ih.member _ _ _ hm
        obtain ⟨hrest, hkeys⟩ := ih.members _ _ _ hread
        have hbody : Outside cs (Json.skipSpace body) :=
          Outside.open (by decide) (by decide) hspace (Outside.skipSpace body)
        refine ⟨(hbody.trans hfirst).trans hrest, fun ms' heq m' hmem => ?_⟩
        obtain rfl := Json.obj.inj heq
        rcases List.mem_cons.mp hmem with rfl | hmem
        · exact hkey.before hbody
        · exact (hkeys m' hmem).before (hbody.trans hfirst)
  · have hskip := Outside.skipSpace cs
    exact ⟨hskip.trans (readAtom_outside h), fun ms heq => absurd heq (readAtom_ne_obj h)⟩

theorem readItems_step {fuel : Nat} (ih : ReadsOutside fuel) {cs rest : List Char}
    {xs : List Json} (h : readItems (fuel + 1) cs = some (xs, rest)) : Outside cs rest := by
  rw [readItems] at h
  split at h
  · next tail hclose =>
    obtain ⟨-, rfl⟩ : [] = xs ∧ tail = rest := by simpa using h
    exact Outside.open (by decide) (by decide) hclose (Outside.refl _)
  · next tail hcomma =>
    split at h
    · cases h
    · next x tail' hx =>
      obtain ⟨⟨xs', rest'⟩, hread, hpair⟩ := Option.map_eq_some_iff.mp h
      obtain ⟨-, rfl⟩ : x :: xs' = xs ∧ rest' = rest := by simpa using hpair
      exact Outside.open (by decide) (by decide) hcomma
        ((ih.value _ _ _ hx).1.trans (ih.items _ _ _ hread))
  · cases h

theorem readMember_step {fuel : Nat} (ih : ReadsOutside fuel) {cs rest : List Char}
    {m : String × Json} (h : readMember (fuel + 1) cs = some (m, rest)) :
    Outside cs rest ∧ KeyAt cs m.1 := by
  rw [readMember] at h
  split at h
  · next body hquote =>
    split at h
    · cases h
    · next k tail hread =>
      split at h
      · next value hcolon =>
        obtain ⟨⟨v, rest'⟩, hv, hpair⟩ := Option.map_eq_some_iff.mp h
        obtain ⟨rfl, rfl⟩ : (k, v) = m ∧ rest' = rest := by simpa using hpair
        have hskip := Outside.skipSpace cs
        rw [hquote] at hskip
        have hvalue : Outside tail rest' :=
          Outside.open (by decide) (by decide) hcolon (ih.value _ _ _ hv).1
        exact ⟨(hskip.trans (readLiteral_outside hread)).trans hvalue,
          KeyAt.before hskip ⟨[], body, tail, rfl, rfl, hread⟩⟩
      · cases h
  · cases h

theorem readMembers_step {fuel : Nat} (ih : ReadsOutside fuel) {cs rest : List Char}
    {ms : List (String × Json)} (h : readMembers (fuel + 1) cs = some (ms, rest)) :
    Outside cs rest ∧ ∀ m ∈ ms, KeyAt cs m.1 := by
  rw [readMembers] at h
  split at h
  · next tail hclose =>
    obtain ⟨rfl, rfl⟩ : [] = ms ∧ tail = rest := by simpa using h
    exact ⟨Outside.open (by decide) (by decide) hclose (Outside.refl _),
      fun m hmem => absurd hmem List.not_mem_nil⟩
  · next tail hcomma =>
    split at h
    · cases h
    · next m tail' hm =>
      obtain ⟨⟨ms', rest'⟩, hread, hpair⟩ := Option.map_eq_some_iff.mp h
      obtain ⟨rfl, rfl⟩ : m :: ms' = ms ∧ rest' = rest := by simpa using hpair
      obtain ⟨hfirst, hkey⟩ := ih.member _ _ _ hm
      obtain ⟨hrest, hkeys⟩ := ih.members _ _ _ hread
      have htail : Outside cs tail :=
        Outside.open (by decide) (by decide) hcomma (Outside.refl _)
      refine ⟨(htail.trans hfirst).trans hrest, fun m' hmem => ?_⟩
      rcases List.mem_cons.mp hmem with rfl | hmem
      · exact hkey.before htail
      · exact (hkeys m' hmem).before (htail.trans hfirst)
  · cases h

theorem readsOutside (fuel : Nat) : ReadsOutside fuel := by
  induction fuel with
  | zero =>
    constructor
    · intro cs v rest h
      simp [readValue] at h
    · intro cs xs rest h
      simp [readItems] at h
    · intro cs m rest h
      simp [readMember] at h
    · intro cs ms rest h
      simp [readMembers] at h
  | succ fuel ih =>
    exact ⟨fun _ _ _ => readValue_step ih, fun _ _ _ => readItems_step ih,
      fun _ _ _ => readMember_step ih, fun _ _ _ => readMembers_step ih⟩

theorem run_of_parse {cs : List Char} {j : Json} (h : parse cs = some j) : out.run cs = out := by
  unfold parse at h
  split at h
  · next v rest hread =>
    split at h
    · next hrest =>
      obtain ⟨used, rfl, hused⟩ := ((readsOutside _).value _ _ _ hread).1
      obtain ⟨space, hspace, hrun⟩ := Outside.skipSpace rest
      rw [hrest, List.append_nil] at hspace
      rw [run_append, hused, hspace, hrun]
    · cases h
  · cases h

theorem keyAt_of_parse {cs : List Char} {ms : List (String × Json)}
    (h : parse cs = some (.obj ms)) : ∀ m ∈ ms, KeyAt cs m.1 := by
  unfold parse at h
  split at h
  · next v rest hread =>
    split at h
    · obtain rfl := Option.some.inj h
      exact ((readsOutside _).value _ _ _ hread).2 ms rfl
    · cases h
  · cases h

/-! ## What `dumps` writes -/

def follows : List Char → Bool
  | [] => true
  | c :: _ => c == ':' || c == ',' || c == '}' || c == ']'

/-- Outside its strings the text has no backslash and no angle bracket, and each string is
followed by what may stand behind it. -/
def quoted : QuoteState → List Char → Bool
  | _, [] => true
  | .out, c :: cs => c != '\\' && c != '<' && quoted (step .out c) cs
  | .within, c :: cs => (c != '"' || follows cs) && quoted (step .within c) cs
  | .escaped, _ :: cs => quoted .within cs
  | .dead, _ :: cs => quoted .dead cs

theorem quoted_of_append {s : QuoteState} {cs ds : List Char} (h : quoted s (cs ++ ds) = true) :
    quoted (s.run cs) ds = true := by
  induction cs generalizing s with
  | nil => exact h
  | cons c cs ih =>
    rw [run_cons]
    apply ih
    cases s with
    | out => exact (Bool.and_eq_true_iff.mp h).2
    | within => exact (Bool.and_eq_true_iff.mp h).2
    | escaped => exact h
    | dead => exact h

theorem quoted_out {c : Char} {cs : List Char} (hslash : c ≠ '\\') (hangle : c ≠ '<')
    (hquote : c ≠ '"') (h : quoted .out cs = true) : quoted .out (c :: cs) = true := by
  rw [quoted, step, if_neg hquote, if_neg hslash, h]
  simp [hslash, hangle]

theorem quoted_out_append {cs ds : List Char}
    (hplain : ∀ c ∈ cs, c ≠ '\\' ∧ c ≠ '<' ∧ c ≠ '"') (h : quoted .out ds = true) :
    quoted .out (cs ++ ds) = true := by
  induction cs with
  | nil => exact h
  | cons c cs ih =>
    obtain ⟨⟨hslash, hangle, hquote⟩, hcs⟩ := List.forall_mem_cons.mp hplain
    exact quoted_out hslash hangle hquote (ih hcs)

theorem plain_constant (constant : NonFinite) :
    ∀ c ∈ constant.text, c ≠ '\\' ∧ c ≠ '<' ∧ c ≠ '"' := by
  have hall : (constant.text.all fun c => c != '\\' && c != '<' && c != '"') = true := by
    cases constant with
    | nan => decide
    | infinity => decide
    | negInfinity => decide
  intro c hmem
  simpa [and_assoc] using List.all_eq_true.mp hall c hmem

theorem quoted_within_append {cs ds : List Char} (hplain : ∀ c ∈ cs, c ≠ '"' ∧ c ≠ '\\')
    (h : quoted .within ds = true) : quoted .within (cs ++ ds) = true := by
  induction cs with
  | nil => exact h
  | cons c cs ih =>
    obtain ⟨⟨hquote, hslash⟩, hcs⟩ := List.forall_mem_cons.mp hplain
    rw [List.cons_append, quoted, step, if_neg hquote, if_neg hslash, ih hcs]
    simp [hquote]

theorem quoted_unicodeEscape (n : Nat) {ds : List Char} (h : quoted .within ds = true) :
    quoted .within (unicodeEscape n ++ ds) = true := by
  have hdigit : ∀ m, m < 16 → hexDigit m ≠ '"' ∧ hexDigit m ≠ '\\' := by decide
  have hhex : ∀ c ∈ hex4 n, c ≠ '"' ∧ c ≠ '\\' := by
    simp only [hex4, List.forall_mem_cons]
    exact ⟨hdigit _ (by omega), hdigit _ (by omega), hdigit _ (by omega), hdigit _ (by omega),
      fun _ hmem => absurd hmem List.not_mem_nil⟩
  show quoted .within ('\\' :: 'u' :: (hex4 n ++ ds)) = true
  exact quoted_within_append hhex h

theorem quoted_escapeChar (c : Char) {ds : List Char} (h : quoted .within ds = true) :
    quoted .within (escapeChar c ++ ds) = true := by
  unfold escapeChar
  split
  · exact h
  · next hshort =>
    by_cases hprint : printable c = true
    · rw [if_pos hprint]
      have hplain := plainChar_of_printable hshort hprint
      refine quoted_within_append ?_ h
      rw [List.forall_mem_singleton]
      constructor
      · rintro rfl
        cases hplain
      · rintro rfl
        cases hplain
    · rw [if_neg hprint]
      by_cases hplane : c.toNat < 0x10000
      · rw [if_pos hplane]
        exact quoted_unicodeEscape _ h
      · rw [if_neg hplane, List.append_assoc]
        exact quoted_unicodeEscape _ (quoted_unicodeEscape _ h)

theorem quoted_quote (s : String) {ds : List Char} (hfollows : follows ds = true)
    (h : quoted .out ds = true) : quoted .out (quote s ++ ds) = true := by
  have hbody : ∀ cs : List Char, quoted .within (escapeChars cs ++ '"' :: ds) = true := by
    intro cs
    induction cs with
    | nil =>
      show quoted .within ('"' :: ds) = true
      rw [quoted, step, if_pos rfl, h, hfollows, Bool.or_true, Bool.and_true]
    | cons c cs ih =>
      rw [escapeChars, List.flatMap_cons, List.append_assoc]
      exact quoted_escapeChar c ih
  have htext : quote s ++ ds = '"' :: (escapeChars s.toList ++ '"' :: ds) := by
    simp [quote, escape]
  rw [htext]
  exact hbody s.toList

mutual

theorem quoted_dumps : ∀ (j : Json) (ds : List Char), follows ds = true →
    quoted .out ds = true → quoted .out (dumps j ++ ds) = true
  | .null, _, _, h => by
    rw [dumps]
    exact quoted_out_append (by simp) h
  | .bool true, _, _, h => by
    rw [dumps]
    exact quoted_out_append (by simp) h
  | .bool false, _, _, h => by
    rw [dumps]
    exact quoted_out_append (by simp) h
  | .num n, _, _, h => by
    rw [dumps]
    refine quoted_out_append ?_ h
    intro c hmem
    have hnum := List.all_eq_true.mp n.numeric c hmem
    refine ⟨?_, ?_, ?_⟩
    · rintro rfl
      cases hnum
    · rintro rfl
      cases hnum
    · rintro rfl
      cases hnum
  | .constant c, _, _, h => by
    rw [dumps]
    exact quoted_out_append (plain_constant c) h
  | .str s, _, hfollows, h => by
    rw [dumps]
    exact quoted_quote s hfollows h
  | .arr [], _, _, h => by
    rw [dumps]
    exact quoted_out_append (by simp) h
  | .arr (x :: xs), ds, _, h => by
    obtain ⟨hclose, hitems⟩ := quoted_dumpsItems xs ds h
    rw [dumps, List.cons_append, List.append_assoc]
    exact quoted_out (by decide) (by decide) (by decide) (quoted_dumps x _ hclose hitems)
  | .obj [], _, _, h => by
    rw [dumps]
    exact quoted_out_append (by simp) h
  | .obj ((k, v) :: ms), ds, _, h => by
    obtain ⟨hclose, hmembers⟩ := quoted_dumpsMembers ms ds h
    rw [dumps, List.cons_append, List.append_assoc, List.cons_append, List.cons_append,
      List.append_assoc]
    refine quoted_out (by decide) (by decide) (by decide) (quoted_quote k rfl ?_)
    exact quoted_out (by decide) (by decide) (by decide)
      (quoted_out (by decide) (by decide) (by decide) (quoted_dumps v _ hclose hmembers))

theorem quoted_dumpsItems : ∀ (xs : List Json) (ds : List Char), quoted .out ds = true →
    follows (dumpsItems xs ++ ds) = true ∧ quoted .out (dumpsItems xs ++ ds) = true
  | [], _, h => by
    rw [dumpsItems]
    exact ⟨rfl, quoted_out_append (by simp) h⟩
  | x :: xs, ds, h => by
    obtain ⟨hclose, hitems⟩ := quoted_dumpsItems xs ds h
    rw [dumpsItems, List.cons_append, List.cons_append, List.append_assoc]
    exact ⟨rfl, quoted_out (by decide) (by decide) (by decide)
      (quoted_out (by decide) (by decide) (by decide) (quoted_dumps x _ hclose hitems))⟩

theorem quoted_dumpsMembers : ∀ (ms : List (String × Json)) (ds : List Char),
    quoted .out ds = true →
    follows (dumpsMembers ms ++ ds) = true ∧ quoted .out (dumpsMembers ms ++ ds) = true
  | [], _, h => by
    rw [dumpsMembers]
    exact ⟨rfl, quoted_out_append (by simp) h⟩
  | (k, v) :: ms, ds, h => by
    obtain ⟨hclose, hmembers⟩ := quoted_dumpsMembers ms ds h
    rw [dumpsMembers, List.cons_append, List.cons_append, List.append_assoc, List.cons_append,
      List.cons_append, List.append_assoc]
    refine ⟨rfl, quoted_out (by decide) (by decide) (by decide)
      (quoted_out (by decide) (by decide) (by decide) (quoted_quote k rfl ?_))⟩
    exact quoted_out (by decide) (by decide) (by decide)
      (quoted_out (by decide) (by decide) (by decide) (quoted_dumps v _ hclose hmembers))

end

/-! ## Strings turned inside out -/

/-- The one is outside where the other is within a string. -/
def Turned : QuoteState → QuoteState → Prop
  | .within, .out => True
  | .out, .within => True
  | _, _ => False

theorem turned_step {st sg : QuoteState} {c : Char} {cs : List Char} (h : Turned st sg)
    (hq : quoted st (c :: cs) = true) :
    quoted (st.step c) cs = true ∧ (Turned (st.step c) (sg.step c) ∨ sg.step c = dead) := by
  cases st with
  | within =>
    cases sg with
    | out =>
      rw [quoted, Bool.and_eq_true] at hq
      refine ⟨hq.2, ?_⟩
      simp only [step]
      by_cases hquote : c = '"'
      · rw [if_pos hquote, if_pos hquote]
        exact .inl trivial
      · rw [if_neg hquote, if_neg hquote]
        by_cases hslash : c = '\\'
        · exact .inr (if_pos hslash)
        · rw [if_neg hslash, if_neg hslash]
          exact .inl trivial
    | _ => cases h
  | out =>
    cases sg with
    | within =>
      rw [quoted, Bool.and_eq_true, Bool.and_eq_true, bne_iff_ne] at hq
      refine ⟨hq.2, .inl ?_⟩
      simp only [step]
      by_cases hquote : c = '"'
      · rw [if_pos hquote, if_pos hquote]
        trivial
      · rw [if_neg hquote, if_neg hquote, if_neg hq.1.1, if_neg hq.1.1]
        trivial
    | _ => cases h
  | _ => cases h

theorem follows_of_turned {st sg : QuoteState} (hturned : Turned st sg) {front rest : List Char}
    (hq : quoted st (front ++ '"' :: rest) = true) (hrun : sg.run front = out) :
    follows rest = true := by
  induction front generalizing st sg with
  | nil =>
    rw [run_nil] at hrun
    subst hrun
    cases st with
    | within =>
      rw [List.nil_append, quoted, Bool.and_eq_true] at hq
      exact hq.1
    | _ => cases hturned
  | cons c front ih =>
    obtain ⟨hq', hturned' | hdead⟩ := turned_step hturned hq
    · exact ih hturned' hq' hrun
    · rw [run_cons, hdead, run_dead] at hrun
      cases hrun

theorem readLiteral_head {c : Char} {cs rest : List Char} {s : String} (hquote : c ≠ '"')
    (hslash : c ≠ '\\') (h : readLiteral (c :: cs) = some (s, rest)) :
    ∃ tail, s.toList = c :: tail := by
  obtain ⟨⟨ds, rest'⟩, hread, hpair⟩ := Option.map_eq_some_iff.mp h
  obtain ⟨rfl, -⟩ : String.ofList ds = s ∧ rest' = rest := by simpa using hpair
  rw [readString, if_neg hquote] at hread
  unfold readChar at hread
  rw [if_neg hslash] at hread
  split at hread
  · cases hread
  · next d tail hplain =>
    split at hplain
    · obtain ⟨rfl, rfl⟩ : c = d ∧ cs = tail := by simpa using hplain
      obtain ⟨⟨ds', rest''⟩, -, hpair'⟩ := Option.map_eq_some_iff.mp hread
      obtain ⟨rfl, -⟩ : c :: ds' = ds ∧ rest'' = rest' := by simpa using hpair'
      exact ⟨ds', String.toList_ofList⟩
    · cases hplain

/-- The keys of an object that starts within a string of a text are not the text's own: each
starts with what may stand behind a string. -/
theorem keys_of_turned {cs back : List Char} {ms : List (String × Json)}
    (hparse : parse cs = some (.obj ms)) (hq : quoted .within (cs ++ back) = true) :
    ∀ m ∈ ms, ∃ c tail, m.1.toList = c :: tail ∧ follows (c :: tail) = true := by
  intro m hmem
  obtain ⟨front, body, rest, rfl, hfront, hread⟩ := keyAt_of_parse hparse m hmem
  cases body with
  | nil => cases hread
  | cons c body =>
    rw [List.append_assoc, List.cons_append] at hq
    have hfollows := @follows_of_turned .within .out trivial _ _ hq hfront
    have hquote : c ≠ '"' := by
      rintro rfl
      cases hfollows
    have hslash : c ≠ '\\' := by
      rintro rfl
      cases hfollows
    obtain ⟨tail, htail⟩ := readLiteral_head hquote hslash hread
    exact ⟨c, tail, htail, hfollows⟩

theorem parse_of_cut {cs : List Char} (h : out.run cs ≠ out) : parse cs = none := by
  cases hparse : parse cs with
  | none => rfl
  | some j => exact absurd (run_of_parse hparse) h

end Json
