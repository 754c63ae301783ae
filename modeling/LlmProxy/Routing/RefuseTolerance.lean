import LlmProxy.Lib.Separated
import LlmProxy.Lib.Substitution
import LlmProxy.Routing.HintParser

/-! # The default refuse-tolerance of a key

`app/api/messages.py`, where the handler writes the default of the key into the `LLM-Hint` header
before `build_hint_with_auto_task` (`app/api/_request_pipeline.py`) reads it.

> `injected_not_dimension`: what is appended behind a `;` is read by neither parser as a dimension
> of its own. RFC 8941 makes it a parameter of the last member, the legacy parser a part of the
> last chunk.

So the default never reaches the router beside a header of the caller's.

Mirroring notes.
* The column `default_refuse_tolerance` holds what `_validate_refuse_tolerance` lets through.
* `classify` is the classifier's answer on the first 800 characters of the last user text, which
  `userText` is.
-/

namespace LlmProxy.Routing

/-- The taxonomy of `_validate_refuse_tolerance`. -/
inductive RefuseTolerance where
  | strict
  | default
  | lenient
  deriving DecidableEq

def RefuseTolerance.text : RefuseTolerance → String
  | .strict => "strict"
  | .default => "default"
  | .lenient => "lenient"

/-- `_rt_dim`. -/
def rtDim (r : RefuseTolerance) : String := "refuse-tolerance=" ++ r.text

/-- The handler's injection: the header it goes on with, and the dimension it notes. -/
def injectRefuseTolerance (rtDefault : Option RefuseTolerance) (llmHint : Option String) :
    Option String × Option String :=
  match rtDefault with
  | none => (llmHint, none)
  | some r =>
    if PyStr.contains (llmHint.getD "") "refuse-tolerance=" then (llmHint, none)
    else
      match llmHint with
      | none => (some (rtDim r), some "refuse-tolerance")
      | some h =>
        (some (if h = "" then rtDim r else h ++ ";" ++ rtDim r), some "refuse-tolerance")

/-- `build_hint_with_auto_task`: the hint, and the task it classified. -/
def buildHintWithAutoTask (sfv : String → Option SfvDictionary) (autoDetect : Bool)
    (classify : String → Option String) (userText : String) (llmHint : Option String) :
    Except String (Option LMRHHint × Option String) := do
  let hint ← parseHint sfv llmHint
  if !autoDetect then return (hint, none)
  else if (hint.bind (·.get "task")).isSome then return (hint, none)
  else if userText = "" then return (hint, none)
  else
    match classify (String.ofList (userText.toList.take 800)) with
    | none => return (hint, none)
    | some task =>
      let hint := hint.getD { raw := "task=" ++ task }
      return (some { hint with dimensions := hint.dimensions ++ [{ key := "task", value := task }] },
        some task)

def autoDimensions (autoTask : Option String) : List HintDimension :=
  autoTask.toList.map fun task => { key := "task", value := task }

theorem buildHintWithAutoTask_dimensions {sfv : String → Option SfvDictionary}
    {autoDetect : Bool} {classify : String → Option String} {userText : String}
    {llmHint : Option String} {hint : LMRHHint} {auto : Option String}
    (h : buildHintWithAutoTask sfv autoDetect classify userText llmHint = .ok (some hint, auto)) :
    ∃ read, parseHint sfv llmHint = .ok read ∧
      hint.dimensions = (read.map (·.dimensions)).getD [] ++ autoDimensions auto := by
  cases hread : parseHint sfv llmHint with
  | error e =>
    rw [buildHintWithAutoTask, hread] at h
    exact absurd h nofun
  | ok read =>
    refine ⟨read, rfl, ?_⟩
    rw [buildHintWithAutoTask, hread] at h
    have hkept : (Except.ok (read, none) : Except String (Option LMRHHint × Option String)) =
        .ok (some hint, auto) →
        hint.dimensions = (read.map (·.dimensions)).getD [] ++ autoDimensions auto := by
      intro heq
      obtain ⟨rfl, rfl⟩ := Prod.mk.inj (Except.ok.inj heq)
      simp [autoDimensions]
    simp only [bind, Except.bind, pure, Except.pure] at h
    split at h
    · exact hkept h
    · split at h
      · exact hkept h
      · split at h
        · exact hkept h
        · split at h
          · exact hkept h
          · next task _ =>
            obtain ⟨hhint, rfl⟩ := Prod.mk.inj (Except.ok.inj h)
            obtain rfl := Option.some.inj hhint
            cases read <;> simp [autoDimensions]

/-! ## The text behind the semicolon -/

/-- What the injection puts behind the caller's header. -/
def rtTail (r : RefuseTolerance) : List Char := ';' :: (rtDim r).toList

private theorem semicolon_notMem_rtDim (r : RefuseTolerance) : ';' ∉ (rtDim r).toList := by
  cases r <;> decide

private theorem comma_notMem_rtTail (r : RefuseTolerance) : ',' ∉ rtTail r := by
  cases r <;> decide

private theorem rtDim_once (r : RefuseTolerance) {before value : List Char}
    (h : (rtDim r).toList = before ++ "refuse-tolerance=".toList ++ value) : before = [] := by
  cases before with
  | nil => rfl
  | cons c before =>
    have hinfix : "refuse-tolerance=".toList <:+: (rtDim r).toList.tail :=
      ⟨before, value, by rw [h]; rfl⟩
    cases r <;> exact absurd hinfix (by decide)

/-! ## RFC 8941 -/

/-- **Behind a semicolon nothing is a member:** no member of the injected header is the default,
if the caller's header does not name it. -/
theorem rfc_injected {sfv : String → Option SfvDictionary} (hsfv : Rfc8941 sfv) {h : String}
    {r : RefuseTolerance} {d : SfvDictionary} {m : SfvMember}
    (habsent : PyStr.contains h "refuse-tolerance=" = false)
    (hread : sfv (h ++ ";" ++ rtDim r) = some d) (hvalue : m.isBoolean = false) :
    ("refuse-tolerance", m) ∉ d := by
  intro hmem
  obtain ⟨before, value, hwritten, hstart⟩ := hsfv.written hread hmem hvalue
  have htext : h.toList ++ ';' :: (rtDim r).toList =
      before ++ "refuse-tolerance=".toList ++ value := by
    have hname : "refuse-tolerance".toList ++ '=' :: value =
        "refuse-tolerance=".toList ++ value := rfl
    rw [List.append_assoc, hname, ← List.append_assoc] at hwritten
    rw [← hwritten]
    simp
  rcases Separated.infix_or_behind (by decide) htext with hinfix | ⟨before', hbefore, htail⟩
  · rw [PyStr.contains_iff.mpr hinfix] at habsent
    exact absurd habsent (by decide)
  · obtain rfl := rtDim_once r htail
    rcases hstart ';' (by rw [hbefore]; simp) with h' | h' | h' <;> exact absurd h' (by decide)

theorem mapM_sfvDimension_key {d : SfvDictionary} {dims : List HintDimension}
    (h : d.mapM sfvDimension = .ok dims) {dim : HintDimension} (hmem : dim ∈ dims) :
    ∃ m, (dim.key, m) ∈ d := by
  induction d generalizing dims with
  | nil =>
    obtain rfl := Except.ok.inj h
    exact absurd hmem List.not_mem_nil
  | cons member d ih =>
    rw [List.mapM_cons] at h
    cases hone : sfvDimension member with
    | error e =>
      rw [hone] at h
      exact absurd h nofun
    | ok one =>
      cases hrest : d.mapM sfvDimension with
      | error e =>
        rw [hone, hrest] at h
        exact absurd h nofun
      | ok rest =>
        rw [hone, hrest] at h
        obtain rfl := Except.ok.inj h
        rcases List.mem_cons.mp hmem with rfl | hmem
        · have hkey : dim.key = member.1 := by
            unfold sfvDimension at hone
            cases hcoerce : member.2.value.coerce with
            | error e =>
              rw [hcoerce] at hone
              exact absurd hone nofun
            | ok value =>
              rw [hcoerce] at hone
              exact (congrArg HintDimension.key (Except.ok.inj hone)).symm
          exact ⟨member.2, by rw [hkey]; exact List.mem_cons_self⟩
        · obtain ⟨m, hm⟩ := ih hrest hmem
          exact ⟨m, List.mem_cons_of_mem member hm⟩

/-! ## The legacy parser -/

private theorem isSpace_semicolon {blanks : List Char} (h : ∀ c ∈ blanks, PyStr.isSpace c = true) :
    ';' ∉ blanks := by
  intro hmem
  exact absurd (h ';' hmem) (by decide)

theorem modifierRe_reads {word : String} {t : List Char} (h : (modifierRe word).Reads t) :
    ∃ front blanks w back, t = front ++ ';' :: (blanks ++ w ++ back) ∧ ';' ∉ front ∧
      (∀ c ∈ blanks, PyStr.isSpace c = true) ∧
      w.map Regex.foldCase = word.toList.map Regex.foldCase ∧ ';' ∉ back := by
  obtain ⟨front, _, rfl, hfront, semi, _, rfl, hsemi, blanks, _, rfl, hblanks, w, _, rfl, hw,
    back, _, rfl, hback, rfl⟩ := h
  cases semi with
  | nil => exact absurd hsemi nofun
  | cons c semi =>
    obtain ⟨hc, hnil⟩ := List.cons.inj hsemi
    obtain rfl := List.map_eq_nil_iff.mp hnil
    have hfold : Regex.foldCase c = ';' := hc
    obtain rfl := Regex.foldCase_of_not_letter hfold (by decide)
    exact ⟨front, blanks, w, back, by simp, isSpace_semicolon hfront, hblanks, hw,
      isSpace_semicolon hback⟩

/-- **The modifiers do not reach behind the semicolon of the default.** -/
theorem spares_rtTail (r : RefuseTolerance) {word : String}
    (hword : ((rtDim r).toList.take word.toList.length).map Regex.foldCase ≠
      word.toList.map Regex.foldCase)
    (hsemicolon : ';' ∉ word.toList.map Regex.foldCase) :
    (modifierRe word).Spares (rtTail r) := by
  intro chunk before t rest ht _ heq
  obtain ⟨front, blanks, w, back, rfl, hfront, hblanks, hw, hback⟩ := modifierRe_reads ht
  have hbehind : ';' ∉ blanks ++ w ++ back := by
    have hw' : ';' ∉ w := fun hmem =>
      hsemicolon (by rw [← hw]; exact List.mem_map_of_mem (f := Regex.foldCase) hmem)
    simp only [List.mem_append, not_or]
    exact ⟨⟨isSpace_semicolon hblanks, hw'⟩, hback⟩
  -- the semicolon of the tail is not the one of the modifier: the word behind it differs
  have hdiffer : blanks ++ w ++ back ++ rest ≠ (rtDim r).toList := by
    intro heq
    cases blanks with
    | nil =>
      refine hword ?_
      rw [← hw, ← heq, ← List.length_map (f := Regex.foldCase), ← hw]
      simp
    | cons c blanks =>
      have hc : c = 'r' := by
        have hhead := congrArg List.head? heq
        cases r <;> exact Option.some.inj hhead
      exact absurd (hblanks c List.mem_cons_self) (by rw [hc]; decide)
  have hsplit : (before ++ front) ++ ';' :: (blanks ++ w ++ back ++ rest) =
      chunk ++ ';' :: (rtDim r).toList := by
    rw [rtTail] at heq
    rw [heq]
    simp
  rcases List.append_eq_append_iff.mp hsplit with ⟨a, hchunk, hrest⟩ | ⟨a, hfrontier, htail⟩
  · cases a with
    | nil => exact absurd (List.cons.inj hrest).2 hdiffer
    | cons c a =>
      obtain ⟨rfl, hinside⟩ := List.cons.inj hrest
      rcases List.append_eq_append_iff.mp hinside with ⟨b, ha, -⟩ | ⟨b, hword', hb⟩
      · exact ⟨b, by rw [hchunk, ha]; simp⟩
      · cases b with
        | nil => exact ⟨[], by rw [hchunk, hword']; simp⟩
        | cons c b =>
          obtain ⟨rfl, -⟩ := List.cons.inj hb
          exact absurd (by rw [hword']; simp) hbehind
  · cases a with
    | nil => exact absurd (List.cons.inj htail).2.symm hdiffer
    | cons c a =>
      obtain ⟨rfl, hinside⟩ := List.cons.inj htail
      exact absurd (by rw [hinside]; simp) (semicolon_notMem_rtDim r)

/-- A chunk the default stands at the end of. -/
def EndsInDefault (r : RefuseTolerance) (chunk : String) : Prop :=
  ∃ kept, chunk = String.ofList (kept ++ rtTail r)

theorem strip_endsInDefault {r : RefuseTolerance} {chunk : String} (h : EndsInDefault r chunk) :
    EndsInDefault r (PyStr.strip chunk) := by
  obtain ⟨kept, rfl⟩ := h
  have hhead : (rtTail r).head? = some ';' := rfl
  cases r with
  | strict => exact PyStr.strip_append (d := 't') hhead (by decide) (by decide) (by decide)
  | default => exact PyStr.strip_append (d := 't') hhead (by decide) (by decide) (by decide)
  | lenient => exact PyStr.strip_append (d := 't') hhead (by decide) (by decide) (by decide)

theorem dropped_endsInDefault {r : RefuseTolerance} {pattern : Regex}
    (hspares : pattern.Spares (rtTail r)) {chunk : String} (h : EndsInDefault r chunk) :
    EndsInDefault r (dropped pattern chunk) := by
  obtain ⟨kept, rfl⟩ := h
  refine strip_endsInDefault ?_
  obtain ⟨kept', hkept⟩ : ∃ kept', Regex.subFuel Char.isAlphanum pattern (fun _ => [])
      (String.ofList (kept ++ rtTail r)).length [] (kept ++ rtTail r) = kept' ++ rtTail r :=
    Regex.subFuel_append hspares _ [] kept
  refine ⟨kept', ?_⟩
  rw [Regex.remove, Regex.sub, String.toList_ofList, hkept]

theorem sovereign_spares (r : RefuseTolerance) : sovereignRe.Spares (rtTail r) := by
  cases r <;> exact spares_rtTail _ (by decide) (by decide)

theorem require_spares (r : RefuseTolerance) : requireRe.Spares (rtTail r) := by
  cases r <;> exact spares_rtTail _ (by decide) (by decide)

theorem peeled_endsInDefault {r : RefuseTolerance} {pattern : Regex}
    (hspares : pattern.Spares (rtTail r)) (present : Bool) {chunk : String}
    (h : EndsInDefault r chunk) : EndsInDefault r (peeled present pattern chunk) := by
  unfold peeled
  split
  · exact dropped_endsInDefault hspares h
  · exact h

theorem peelModifiers_endsInDefault {r : RefuseTolerance} {chunk : String}
    (h : EndsInDefault r chunk) : EndsInDefault r (peelModifiers chunk).text :=
  peeled_endsInDefault (require_spares r) _ (peeled_endsInDefault (sovereign_spares r) _ h)

theorem hintChunks_injected (h : String) (r : RefuseTolerance) :
    ∃ chunks last, hintChunks (h ++ ";" ++ rtDim r) = chunks ++ [last] ∧ EndsInDefault r last := by
  obtain ⟨fields, last, hsplit⟩ : ∃ fields last,
      PyStr.splitChars ',' (h.toList ++ rtTail r) = fields ++ [last ++ rtTail r] :=
    PyStr.splitChars_append (comma_notMem_rtTail r)
  have htext : (h ++ ";" ++ rtDim r).toList = h.toList ++ rtTail r := by
    simp [rtTail]
  have hlast : EndsInDefault r (PyStr.strip (String.ofList (last ++ rtTail r))) :=
    strip_endsInDefault ⟨last, rfl⟩
  have hne : PyStr.strip (String.ofList (last ++ rtTail r)) ≠ "" := by
    obtain ⟨kept, hkept⟩ := hlast
    rw [hkept]
    intro hempty
    have hlist := congrArg String.toList hempty
    rw [String.toList_ofList] at hlist
    exact absurd (List.append_eq_nil_iff.mp hlist).2 (List.cons_ne_nil _ _)
  refine ⟨((fields.map String.ofList).map PyStr.strip).filter (· ≠ ""), _, ?_, hlast⟩
  rw [hintChunks, PyStr.split, htext, hsplit, List.map_append, List.map_append,
    List.filter_append]
  simp only [List.map_cons, List.map_nil]
  rw [List.filter_cons_of_pos (by simpa using hne), List.filter_nil]

/-- **The legacy parser keeps the default inside a dimension:** the last one of an injected
header has the semicolon in its key or in its value. -/
theorem legacy_injected (h : String) (r : RefuseTolerance) :
    ∃ dims last, legacyDimensions (h ++ ";" ++ rtDim r) = dims ++ [last] ∧
      (';' ∈ last.key.toList ∨ ';' ∈ last.value.toList) := by
  obtain ⟨chunks, chunk, hchunks, hends⟩ := hintChunks_injected h r
  obtain ⟨kept, hkept⟩ := peelModifiers_endsInDefault hends
  have hmem : ∀ c ∈ rtTail r, c ∈ (peelModifiers chunk).text.toList := by
    intro c hc
    rw [hkept, String.toList_ofList]
    exact List.mem_append_right _ hc
  have hequals : PyStr.containsChar (peelModifiers chunk).text '=' = true :=
    List.contains_iff_mem.mpr (hmem '=' (by cases r <;> decide))
  refine ⟨(chunks.map peelModifiers).foldl mergeChunk [],
    { key := PyStr.strip (PyStr.partition (peelModifiers chunk).text '=').1,
      value := PyStr.strip (PyStr.partition (peelModifiers chunk).text '=').2,
      required := (peelModifiers chunk).required,
      sovereign := (peelModifiers chunk).sovereign }, ?_, ?_⟩
  · rw [legacyDimensions, hchunks, List.map_append, List.foldl_append]
    simp only [List.map_cons, List.map_nil, List.foldl_cons, List.foldl_nil]
    rw [mergeChunk, if_pos hequals]
  · have hne : ';' ≠ '=' := by decide
    rcases PyStr.mem_partition hne (hmem ';' List.mem_cons_self) with hk | hv
    · exact Or.inl (PyStr.mem_strip (by decide) hk)
    · exact Or.inr (PyStr.mem_strip (by decide) hv)

/-! ## What the router gets -/

theorem hintOf_dimensions {header : String} {dims : List HintDimension} {hint : LMRHHint}
    (h : hintOf header dims = some hint) : hint.dimensions = dims := by
  unfold hintOf at h
  split at h
  · exact absurd h nofun
  · exact congrArg LMRHHint.dimensions (Option.some.inj h).symm

theorem parseHint_cases {sfv : String → Option SfvDictionary} {header : String} {hint : LMRHHint}
    (h : parseHint sfv (some header) = .ok (some hint)) :
    (∃ members, sfv header = some members ∧ (∀ m ∈ members, m.2.isBoolean = false) ∧
      members.mapM sfvDimension = .ok hint.dimensions) ∨
    hint.dimensions = legacyDimensions header := by
  unfold parseHint at h
  dsimp only at h
  split at h
  · exact absurd h nofun
  · cases hrfc : parseHintRfc8941 sfv header with
    | error e =>
      rw [hrfc] at h
      exact absurd h nofun
    | ok read =>
      rw [hrfc] at h
      cases read with
      | none =>
        refine Or.inr (hintOf_dimensions (Except.ok.inj h))
      | some strict =>
        obtain rfl := Option.some.inj (Except.ok.inj h)
        left
        unfold parseHintRfc8941 at hrfc
        split at hrfc
        · exact absurd hrfc nofun
        · next members hmembers =>
          split at hrfc
          · exact absurd hrfc nofun
          · next hplain =>
            refine ⟨members, hmembers, ?_, ?_⟩
            · intro m hm
              by_contra hbool
              exact hplain (List.any_eq_true.mpr ⟨m, hm, by simpa using hbool⟩)
            · cases hdims : members.mapM sfvDimension with
              | error e =>
                rw [hdims] at hrfc
                exact absurd hrfc nofun
              | ok dims =>
                rw [hdims] at hrfc
                rw [hintOf_dimensions (Except.ok.inj hrfc)]

/-- **What is appended behind a semicolon is no dimension:** the injected header is not read as
some dimensions and the default behind them. -/
theorem injected_not_dimension {sfv : String → Option SfvDictionary} (hsfv : Rfc8941 sfv)
    {h : String} {r : RefuseTolerance} {hint : LMRHHint} {dims : List HintDimension}
    {d : HintDimension} (habsent : PyStr.contains h "refuse-tolerance=" = false)
    (hread : parseHint sfv (some (h ++ ";" ++ rtDim r)) = .ok (some hint))
    (hkey : d.key = "refuse-tolerance") (hvalue : d.value = r.text) :
    hint.dimensions ≠ dims ++ [d] := by
  intro heq
  rcases parseHint_cases hread with ⟨members, hmembers, hplain, hdims⟩ | hlegacy
  · have hmem : d ∈ hint.dimensions := by simp [heq]
    obtain ⟨m, hm⟩ := mapM_sfvDimension_key hdims hmem
    rw [hkey] at hm
    exact rfc_injected hsfv habsent hmembers (hplain _ hm) hm
  · obtain ⟨dims', last, hdims', hlast⟩ := legacy_injected h r
    rw [heq, hdims'] at hlegacy
    obtain rfl : d = last := (List.append_inj' hlegacy rfl).2 |> List.singleton_inj.mp
    rw [hkey, hvalue] at hlast
    exact absurd hlast (by cases r <;> decide)

/-- The hint the handler routes with is the caller's with the default behind it, and a header
that names the dimension itself is routed as it is. -/
def ExtendsHint (sfv : String → Option SfvDictionary) (autoDetect : Bool)
    (classify : String → Option String) (userText : String) (r : RefuseTolerance)
    (header : String) (own : LMRHHint) : Prop :=
  (own.get "refuse-tolerance" = none →
    ∃ hint auto d, buildHintWithAutoTask sfv autoDetect classify userText
        (injectRefuseTolerance (some r) (some header)).1 = .ok (some hint, auto) ∧
      d.key = "refuse-tolerance" ∧ d.value = r.text ∧
      hint.dimensions = own.dimensions ++ [d] ++ autoDimensions auto) ∧
  (own.get "refuse-tolerance" ≠ none →
    (injectRefuseTolerance (some r) (some header)).1 = some header)

/-- **The default reaches no caller's header**, and a dimension of the caller's own is left as it
is where its name is followed by the equals sign. -/
theorem injection_extends_iff (sfv : String → Option SfvDictionary) (hsfv : Rfc8941 sfv)
    (autoDetect : Bool) (classify : String → Option String) (userText : String)
    (r : RefuseTolerance) (header : String) (own : LMRHHint)
    (haccepted : parseHint sfv (some header) = .ok (some own)) :
    ExtendsHint sfv autoDetect classify userText r header own ↔
      own.get "refuse-tolerance" ≠ none ∧
        PyStr.contains header "refuse-tolerance=" = true := by
  have hne : header ≠ "" := by
    rintro rfl
    exact absurd haccepted nofun
  have hinjected : (injectRefuseTolerance (some r) (some header)).1 =
      if PyStr.contains header "refuse-tolerance=" then some header
      else some (header ++ ";" ++ rtDim r) := by
    unfold injectRefuseTolerance
    simp only [Option.getD_some]
    split
    · rfl
    · rfl
  constructor
  · rintro ⟨hextended, hunchanged⟩
    by_cases hown : own.get "refuse-tolerance" = none
    · exfalso
      obtain ⟨hint, auto, d, hrouted, hkey, hvalue, hdims⟩ := hextended hown
      obtain ⟨read, hread, hsplit⟩ := buildHintWithAutoTask_dimensions hrouted
      rw [hdims] at hsplit
      have hfront := List.append_cancel_right hsplit
      cases read with
      | none => exact absurd hfront (by simp)
      | some read =>
        rw [hinjected] at hread
        split at hread
        · -- the text stands in the header without being a dimension: nothing is added
          rw [haccepted] at hread
          obtain rfl := Option.some.inj (Except.ok.inj hread)
          exact absurd (congrArg List.length hfront) (by simp)
        · next habsent =>
          exact injected_not_dimension hsfv (by simpa using habsent) hread hkey hvalue hfront.symm
    · refine ⟨hown, ?_⟩
      have hsame := hunchanged hown
      rw [hinjected] at hsame
      split at hsame
      · next hcontains => exact hcontains
      · have hlength := congrArg String.length (Option.some.inj hsame)
        rw [String.length_append, String.length_append] at hlength
        have hsemi : (";" : String).length = 1 := rfl
        omega
  · rintro ⟨hown, hcontains⟩
    refine ⟨fun hnone => absurd hnone hown, fun _ => ?_⟩
    rw [hinjected, if_pos hcontains]

/-- The dictionaries of three headers, and nothing of any other. -/
def sfvOfThree (header : String) : Option SfvDictionary :=
  if header = "task=chat" then some [("task", { value := .item (.text "chat") })]
  else if header = "task=chat;refuse-tolerance=strict" then
    some [("task", { value := .item (.text "chat"),
                     params := [("refuse-tolerance", .text "strict")] })]
  else if header = "task=chat, refuse-tolerance=lenient" then
    some [("task", { value := .item (.text "chat") }),
      ("refuse-tolerance", { value := .item (.text "lenient") })]
  else none

theorem sfvOfThree_rfc8941 : Rfc8941 sfvOfThree := by
  refine ⟨fun {header d key m} hread hmem _ => ?_⟩
  unfold sfvOfThree at hread
  split at hread
  · next hheader =>
    obtain rfl := Option.some.inj hread
    obtain ⟨rfl, rfl⟩ := Prod.mk.inj (List.mem_singleton.mp hmem)
    exact ⟨[], "chat".toList, by rw [hheader]; rfl, nofun⟩
  · split at hread
    · next hheader =>
      obtain rfl := Option.some.inj hread
      obtain ⟨rfl, rfl⟩ := Prod.mk.inj (List.mem_singleton.mp hmem)
      exact ⟨[], "chat;refuse-tolerance=strict".toList, by rw [hheader]; rfl, nofun⟩
    · split at hread
      · next hheader =>
        obtain rfl := Option.some.inj hread
        rcases List.mem_cons.mp hmem with hmember | hmem
        · obtain ⟨rfl, rfl⟩ := Prod.mk.inj hmember
          exact ⟨[], "chat, refuse-tolerance=lenient".toList, by rw [hheader]; rfl, nofun⟩
        · obtain ⟨rfl, rfl⟩ := Prod.mk.inj (List.mem_singleton.mp hmem)
          refine ⟨"task=chat, ".toList, "lenient".toList, by rw [hheader]; rfl, ?_⟩
          intro c hc
          exact Or.inr (Or.inl (Option.some.inj hc).symm)
      · exact absurd hread nofun

/-- The two headers a handler may meet: one that names the dimension and one that does not. -/
theorem injection_extends_named :
    ExtendsHint sfvOfThree false (fun _ => none) "" .strict "task=chat, refuse-tolerance=lenient"
      { raw := "task=chat, refuse-tolerance=lenient",
        dimensions := [{ key := "task", value := "chat" },
          { key := "refuse-tolerance", value := "lenient" }] } :=
  (injection_extends_iff sfvOfThree sfvOfThree_rfc8941 false (fun _ => none) "" .strict
    "task=chat, refuse-tolerance=lenient" _ rfl).mpr ⟨by decide, by decide⟩

/-- Behind `task=chat` the default is a parameter of the task. -/
theorem injection_loses_default :
    ¬ ∀ (sfv : String → Option SfvDictionary), Rfc8941 sfv →
      ∀ autoDetect classify userText r header own,
        parseHint sfv (some header) = .ok (some own) →
        ExtendsHint sfv autoDetect classify userText r header own := by
  intro h
  obtain ⟨hextended, -⟩ := h sfvOfThree sfvOfThree_rfc8941 false (fun _ => none) "" .strict
    "task=chat" { raw := "task=chat", dimensions := [{ key := "task", value := "chat" }] } rfl
  obtain ⟨hint, auto, d, hrouted, -, -, hdims⟩ := hextended rfl
  have hread : buildHintWithAutoTask sfvOfThree false (fun _ => none) ""
      (some "task=chat;refuse-tolerance=strict") =
      .ok (some { raw := "task=chat;refuse-tolerance=strict",
                  dimensions := [{ key := "task", value := "chat" }] }, none) := rfl
  have hsame : (Except.ok (some hint, auto) :
      Except String (Option LMRHHint × Option String)) = _ := hrouted.symm.trans hread
  obtain ⟨hhint, -⟩ := Prod.mk.inj (Except.ok.inj hsame)
  obtain rfl := Option.some.inj hhint
  exact absurd (congrArg List.length hdims) (by simp)

end LlmProxy.Routing
