import LlmProxy.Lib.Dict
import LlmProxy.Lib.JsonText
import LlmProxy.Monitoring.Bodies
import LlmProxy.Privacy.Pii

/-! # The privacy filters

`apply_privacy_filters` (`app/api/_request_pipeline.py`): the prompt guard, and `mask_messages`
(`app/privacy/pii.py`), which masks the content of a message, or its text parts. The contents of a
tool result are texts too; `mask_messages` does not look into them.

> `filter_complete_iff`: what the filters let through holds no match, and differs in its texts only,
> exactly if the tool results hold none.

Mirroring notes.
* A message is a dict; its members are a list here, in which a key may be written twice.
* A raised `AttributeError` is its text. `lower` is the one of `PyStr`, and the pattern of a blocked
  request stands between single quotes.
-/

namespace LlmProxy.Privacy

variable (tables : DigitTables)

/-- The members of a message, or of a part. -/
abbrev Members := List (String × Json)

/-- `d[key] = value`, of a key that is there. -/
def setMember (key : String) (value : Json) (members : Members) : Members :=
  members.map fun m => if m.1 = key then (key, value) else m

/-! ## The filters -/

/-- A part of `mask_messages`. -/
def maskPart (part : Json) : Json × Nat :=
  match part with
  | .obj members =>
    if part.hasType "text" then
      match part.get? "text" with
      | some (.str t) =>
        let r := maskText tables t
        (.obj (setMember "text" (.str r.1) members), r.2)
      | _ => (part, 0)
    else (part, 0)
  | _ => (part, 0)

/-- A message of `mask_messages`. -/
def maskMessage (message : Members) : Members × Nat :=
  match (Json.obj message).get? "content" with
  | some (.str t) =>
    let r := maskText tables t
    (setMember "content" (.str r.1) message, r.2)
  | some (.arr parts) =>
    let masked := parts.map (maskPart tables)
    (setMember "content" (.arr (masked.map Prod.fst)) message, (masked.map Prod.snd).sum)
  | _ => (message, 0)

/-- `mask_messages`. -/
def maskMessages (messages : List Members) : List Members × Nat :=
  let masked := messages.map (maskMessage tables)
  (masked.map Prod.fst, (masked.map Prod.snd).sum)

/-- `check_text`. -/
def checkText (denylist : List String) (text : Json) : Except String (Option String) :=
  match text with
  | .str s => .ok (if s = "" then none else denylist.find? (PyStr.contains (PyStr.lower s)))
  | value => if value.truthy then .error "AttributeError: lower" else .ok none

def firstHit (denylist : List String) : List Json → Except String (Option String)
  | [] => .ok none
  | text :: texts =>
    match checkText denylist text with
    | .ok none => firstHit denylist texts
    | result => result

/-- What `check_messages` looks at. -/
def guardedTexts (message : Members) : List Json :=
  match (Json.obj message).get? "content" with
  | some (.str t) => [.str t]
  | some (.arr parts) => parts.filterMap fun part =>
    if part.hasType "text" then some ((part.get? "text").getD (.str "")) else none
  | _ => []

/-- `check_messages`. -/
def checkMessages (denylist : List String) (messages : List Members) :
    Except String (Option String) :=
  if denylist.isEmpty then .ok none else firstHit denylist (messages.flatMap guardedTexts)

structure FilterSettings where
  promptGuardEnabled : Bool
  promptGuardDenylist : String
  piiMaskingEnabled : Bool

/-- `_load_denylist`. -/
def loadDenylist (raw : String) : List String :=
  if raw = "" then []
  else ((PyStr.split raw ',').filter fun p => PyStr.strip p ≠ "").map fun p =>
    PyStr.lower (PyStr.strip p)

/-- The guard of `apply_privacy_filters`. -/
def guard (settings : FilterSettings) (messages : List Members) : Except String (Option String) :=
  if settings.promptGuardEnabled then
    checkMessages (loadDenylist settings.promptGuardDenylist) messages
  else .ok none

/-- `apply_privacy_filters`: the messages, the count and the body. -/
def applyPrivacyFilters (settings : FilterSettings) (messages : List Members)
    (body : Dict String Json) : Except String ((List Members × Nat) × Dict String Json) :=
  match guard settings messages with
  | .error e => .error e
  | .ok (some hit) => .error ("400: Request blocked by prompt guard (pattern: '" ++ hit ++ "')")
  | .ok none =>
    if settings.piiMaskingEnabled then
      let masked := maskMessages tables messages
      .ok (masked, body.set "messages" (.arr (masked.1.map .obj)))
    else .ok ((messages, 0), body)

/-! ## Texts of a message -/

/-- A part with its text changed, if it is a text part. -/
def mapTextPart (f : String → String) (part : Json) : Json :=
  match part with
  | .obj members =>
    if part.hasType "text" then
      match part.get? "text" with
      | some (.str t) => .obj (setMember "text" (.str (f t)) members)
      | _ => part
    else part
  | _ => part

def textOfPart (part : Json) : List String :=
  if part.hasType "text" then
    match part.get? "text" with
    | some (.str t) => [t]
    | _ => []
  else []

/-- A content changed: the string, or the parts of a list. -/
def mapContent (f : String → String) (g : Json → Json) (members : Members) : Members :=
  match (Json.obj members).get? "content" with
  | some (.str t) => setMember "content" (.str (f t)) members
  | some (.arr parts) => setMember "content" (.arr (parts.map g)) members
  | _ => members

def ownTexts (members : Members) : List String :=
  match (Json.obj members).get? "content" with
  | some (.str t) => [t]
  | some (.arr parts) => parts.flatMap textOfPart
  | _ => []

def mapToolResult (f : String → String) (part : Json) : Json :=
  match part with
  | .obj members =>
    if part.hasType "tool_result" then .obj (mapContent f (mapTextPart f) members) else part
  | _ => part

def toolTexts (part : Json) : List String :=
  match part with
  | .obj members => if part.hasType "tool_result" then ownTexts members else []
  | _ => []

def resultTexts (message : Members) : List String :=
  match (Json.obj message).get? "content" with
  | some (.arr parts) => parts.flatMap toolTexts
  | _ => []

def allTexts (message : Members) : List String := ownTexts message ++ resultTexts message

def blank (message : Members) : Members :=
  mapContent (fun _ => "") (fun part => mapToolResult (fun _ => "") (mapTextPart (fun _ => "") part))
    message

/-- The texts on the one side, with marks, are those on the other. -/
inductive Marks (tables : DigitTables) : List String → List String → Nat → Prop
  | nil : Marks tables [] [] 0
  | cons {t u : String} {ts us : List String} {k n : Nat}
      (hfirst : Passes tables (patterns tables) t u k) (hrest : Marks tables ts us n) :
      Marks tables (t :: ts) (u :: us) (k + n)

structure FilterComplete (settings : FilterSettings) (messages out : List Members) (n : Nat) :
    Prop where
  clean : ∀ m ∈ out, ∀ t ∈ allTexts m, Clean tables t
  counted : Marks tables (messages.flatMap allTexts) (out.flatMap allTexts) n
  others : out.map blank = messages.map blank
  /-- If the guard lets them through again, they stay as they are. -/
  again : ∀ body, (∃ hit, guard settings out = .ok (some hit)) ∨
    applyPrivacyFilters tables settings out body =
      .ok ((out, 0), body.set "messages" (.arr (out.map .obj)))

/-! ## Members -/

variable {tables}

theorem get?_obj {members : Members} {key : String} :
    (Json.obj members).get? key = (members.reverse.find? (·.1 = key)).map Prod.snd := rfl

theorem get?_setMember_self {key : String} {value old : Json} {members : Members}
    (h : (Json.obj members).get? key = some old) :
    (Json.obj (setMember key value members)).get? key = some value := by
  rw [get?_obj] at h
  rw [get?_obj, setMember, Json.find?_replaced]
  cases hfind : members.reverse.find? (·.1 = key) with
  | none =>
    rw [hfind] at h
    cases h
  | some found =>
    have hfound : found.1 = key := by simpa using List.find?_some hfind
    simp [hfound]

theorem get?_setMember_ne {key other : String} {value : Json} {members : Members}
    (h : other ≠ key) :
    (Json.obj (setMember key value members)).get? other = (Json.obj members).get? other := by
  rw [get?_obj, get?_obj, setMember, Json.find?_replaced]
  cases hfind : members.reverse.find? (·.1 = other) with
  | none => rfl
  | some found =>
    have hfound : found.1 = other := by simpa using List.find?_some hfind
    simp [hfound, h]

theorem setMember_setMember {key : String} {value old : Json} {members : Members} :
    setMember key value (setMember key old members) = setMember key value members := by
  unfold setMember
  rw [List.map_map]
  refine List.map_congr_left fun m _ => ?_
  by_cases hkey : m.1 = key
  · simp [hkey]
  · simp [hkey]

theorem hasType_setMember {key type : String} {value : Json} {members : Members}
    (h : "type" ≠ key) :
    (Json.obj (setMember key value members)).hasType type = (Json.obj members).hasType type := by
  unfold Json.hasType
  rw [get?_setMember_ne h]

theorem hasType_ne {part : Json} {type other : String} (hne : other ≠ type)
    (h : part.hasType type = true) : part.hasType other = false := by
  unfold Json.hasType at h ⊢
  split at h
  · next t _ =>
    exact decide_eq_false fun hother => hne (hother.symm.trans (of_decide_eq_true h))
  · cases h

/-! ## Changed texts -/

/-- A part is a text part with a text, or nothing that `mapTextPart` changes. -/
theorem mapTextPart_cases (part : Json) :
    (∃ members t, part = .obj members ∧ part.hasType "text" = true ∧ part.get? "text" = some (.str t) ∧
      textOfPart part = [t] ∧
      ∀ f, mapTextPart f part = .obj (setMember "text" (.str (f t)) members)) ∨
    (textOfPart part = [] ∧ ∀ f, mapTextPart f part = part) := by
  cases part with
  | obj members =>
    cases htype : (Json.obj members).hasType "text" with
    | false => exact .inr ⟨by simp [textOfPart, htype], fun f => by simp [mapTextPart, htype]⟩
    | true =>
      by_cases htext : ∃ t, (Json.obj members).get? "text" = some (.str t)
      · obtain ⟨t, ht⟩ := htext
        exact .inl ⟨members, t, rfl, rfl, ht, by simp [textOfPart, htype, ht],
          fun f => by simp [mapTextPart, htype, ht]⟩
      · refine .inr ⟨?_, fun f => ?_⟩
        · unfold textOfPart
          rw [if_pos htype]
          split
          · next t ht => exact absurd ⟨t, ht⟩ htext
          · rfl
        · unfold mapTextPart
          dsimp only
          rw [if_pos htype]
          split
          · next t ht => exact absurd ⟨t, ht⟩ htext
          · rfl
  | _ => exact .inr ⟨rfl, fun _ => rfl⟩

theorem textOfPart_mapTextPart (f : String → String) (part : Json) :
    textOfPart (mapTextPart f part) = (textOfPart part).map f := by
  rcases mapTextPart_cases part with ⟨members, t, rfl, htype, ht, htexts, hmap⟩ | ⟨htexts, hmap⟩
  · rw [hmap, htexts, textOfPart, hasType_setMember (by decide), if_pos htype,
      get?_setMember_self ht]
    rfl
  · rw [hmap, htexts, List.map_nil]

theorem mapTextPart_mapTextPart (f g : String → String) (part : Json) :
    mapTextPart f (mapTextPart g part) = mapTextPart (f ∘ g) part := by
  rcases mapTextPart_cases part with ⟨members, t, rfl, htype, ht, -, hmap⟩ | ⟨-, hmap⟩
  · rw [hmap, hmap, mapTextPart, hasType_setMember (by decide), if_pos htype,
      get?_setMember_self ht]
    dsimp only
    rw [setMember_setMember, Function.comp_apply]
  · rw [hmap, hmap, hmap]

theorem toolTexts_mapTextPart (f : String → String) (part : Json) :
    toolTexts (mapTextPart f part) = toolTexts part := by
  rcases mapTextPart_cases part with ⟨members, t, rfl, htype, -, -, hmap⟩ | ⟨-, hmap⟩
  · have hno : (Json.obj members).hasType "tool_result" = false := hasType_ne (by decide) htype
    rw [hmap, toolTexts, toolTexts, hasType_setMember (by decide), hno]
    rfl
  · rw [hmap]

/-- A content is a string, a list of parts, or nothing that `mapContent` changes. -/
theorem mapContent_cases (members : Members) :
    (∃ t, (Json.obj members).get? "content" = some (.str t) ∧
      ∀ f g, mapContent f g members = setMember "content" (.str (f t)) members) ∨
    (∃ parts, (Json.obj members).get? "content" = some (.arr parts) ∧
      ∀ f g, mapContent f g members = setMember "content" (.arr (parts.map g)) members) ∨
    ((∀ f g, mapContent f g members = members) ∧ ownTexts members = [] ∧ resultTexts members = []) := by
  unfold mapContent ownTexts resultTexts
  split
  · next t ht => exact .inl ⟨t, ht, fun _ _ => rfl⟩
  · next parts hparts => exact .inr (.inl ⟨parts, hparts, fun _ _ => rfl⟩)
  · exact .inr (.inr ⟨fun _ _ => rfl, rfl, by grind⟩)

theorem mapContent_mapContent (f f' : String → String) (g g' : Json → Json) (members : Members) :
    mapContent f g (mapContent f' g' members) = mapContent (f ∘ f') (g ∘ g') members := by
  rcases mapContent_cases members with ⟨t, ht, hmap⟩ | ⟨parts, hparts, hmap⟩ | ⟨hmap, -, -⟩
  · rw [hmap, hmap, mapContent, get?_setMember_self ht]
    exact setMember_setMember
  · rw [hmap, hmap, mapContent, get?_setMember_self hparts, ← List.map_map]
    exact setMember_setMember
  · rw [hmap, hmap, hmap]

theorem ownTexts_mapContent (f : String → String) (members : Members) :
    ownTexts (mapContent f (mapTextPart f) members) = (ownTexts members).map f := by
  rcases mapContent_cases members with ⟨t, ht, hmap⟩ | ⟨parts, hparts, hmap⟩ | ⟨hmap, hown, -⟩
  · rw [hmap, ownTexts, get?_setMember_self ht, ownTexts, ht]
    rfl
  · rw [hmap, ownTexts, get?_setMember_self hparts, ownTexts, hparts]
    dsimp only
    rw [List.flatMap_map, List.map_flatMap]
    exact List.flatMap_congr fun part _ => textOfPart_mapTextPart f part
  · rw [hmap, hown, List.map_nil]

theorem resultTexts_mapContent (f : String → String) (members : Members) :
    resultTexts (mapContent f (mapTextPart f) members) = resultTexts members := by
  rcases mapContent_cases members with ⟨t, ht, hmap⟩ | ⟨parts, hparts, hmap⟩ | ⟨hmap, -, -⟩
  · rw [hmap, resultTexts, get?_setMember_self ht, resultTexts, ht]
  · rw [hmap, resultTexts, get?_setMember_self hparts, resultTexts, hparts]
    dsimp only
    rw [List.flatMap_map]
    exact List.flatMap_congr fun part _ => toolTexts_mapTextPart f part
  · rw [hmap]

theorem blank_mapContent (f : String → String) (members : Members) :
    blank (mapContent f (mapTextPart f) members) = blank members := by
  unfold blank
  rw [mapContent_mapContent]
  congr 1
  funext part
  rw [Function.comp_apply, mapTextPart_mapTextPart]
  rfl

/-! ## Masked messages -/

/-- `mask_text`, without the count. -/
def mask (tables : DigitTables) (text : String) : String := (maskText tables text).1

theorem mask_mask : mask tables ∘ mask tables = mask tables := by
  funext text
  rw [Function.comp_apply]
  unfold mask
  rw [maskText_of_clean (maskText_clean text)]

theorem sum_map_flatMap {α : Type} (count : String → Nat) (texts : α → List String) (as : List α) :
    ((as.flatMap texts).map count).sum = (as.map fun a => ((texts a).map count).sum).sum := by
  induction as with
  | nil => rfl
  | cons a as ih => simp [ih]

theorem maskPart_eq (part : Json) : maskPart tables part =
    (mapTextPart (mask tables) part, ((textOfPart part).map fun t => (maskText tables t).2).sum) := by
  cases part with
  | obj members =>
    unfold maskPart mapTextPart textOfPart mask
    dsimp only
    split
    · split
      · simp
      · simp
    · simp
  | _ => rfl

theorem maskMessage_eq (message : Members) : maskMessage tables message =
    (mapContent (mask tables) (mapTextPart (mask tables)) message,
      ((ownTexts message).map fun t => (maskText tables t).2).sum) := by
  unfold maskMessage mapContent ownTexts
  split
  · simp [mask]
  · simp [Function.comp_def, maskPart_eq, sum_map_flatMap]
  · simp

theorem maskMessages_fst (messages : List Members) : (maskMessages tables messages).1 =
    messages.map (mapContent (mask tables) (mapTextPart (mask tables))) := by
  simp [maskMessages, maskMessage_eq, Function.comp_def]

theorem maskMessages_snd (messages : List Members) : (maskMessages tables messages).2 =
    ((messages.flatMap ownTexts).map fun t => (maskText tables t).2).sum := by
  simp [maskMessages, maskMessage_eq, Function.comp_def, sum_map_flatMap]

theorem maskMessages_again (messages : List Members) :
    maskMessages tables (maskMessages tables messages).1 = ((maskMessages tables messages).1, 0) := by
  refine Prod.ext ?_ ?_
  · rw [maskMessages_fst, maskMessages_fst, List.map_map]
    refine List.map_congr_left fun m _ => ?_
    have hparts : mapTextPart (mask tables) ∘ mapTextPart (mask tables) =
        mapTextPart (mask tables) := by
      funext part
      rw [Function.comp_apply, mapTextPart_mapTextPart, mask_mask]
    rw [Function.comp_apply, mapContent_mapContent, mask_mask, hparts]
  · rw [maskMessages_snd, maskMessages_fst, List.flatMap_map]
    refine List.sum_eq_zero_iff_forall_eq_nat.mpr fun k hk => ?_
    obtain ⟨t, ht, rfl⟩ := List.mem_map.mp hk
    obtain ⟨m, -, ht⟩ := List.mem_flatMap.mp ht
    rw [ownTexts_mapContent] at ht
    obtain ⟨u, -, rfl⟩ := List.mem_map.mp ht
    exact congrArg Prod.snd (maskText_of_clean (maskText_clean u))

/-! ## Marks -/

theorem Marks.append {ts us ts' us' : List String} {k n : Nat} (h : Marks tables ts us k)
    (h' : Marks tables ts' us' n) : Marks tables (ts ++ ts') (us ++ us') (k + n) := by
  induction h with
  | nil => simpa using h'
  | cons hfirst hrest ih =>
    rw [Nat.add_assoc]
    exact .cons hfirst ih

theorem marks_map (ts : List String) : Marks tables ts (ts.map (mask tables))
    (ts.map fun t => (maskText tables t).2).sum := by
  induction ts with
  | nil => exact .nil
  | cons t ts ih => exact .cons (maskText_passes t) ih

theorem marks_of_clean {ts : List String} (h : ∀ t ∈ ts, Clean tables t) : Marks tables ts ts 0 := by
  induction ts with
  | nil => exact .nil
  | cons t ts ih =>
    obtain ⟨hfirst, hrest⟩ := List.forall_mem_cons.mp h
    have hpasses : Passes tables (patterns tables) t (maskText tables t).1 (maskText tables t).2 :=
      maskText_passes t
    rw [maskText_of_clean hfirst] at hpasses
    exact .cons (k := 0) hpasses (ih hrest)

theorem marks_maskMessages {messages : List Members}
    (h : ∀ m ∈ messages, ∀ t ∈ resultTexts m, Clean tables t) :
    Marks tables (messages.flatMap allTexts) ((maskMessages tables messages).1.flatMap allTexts)
      (maskMessages tables messages).2 := by
  rw [maskMessages_fst, maskMessages_snd]
  induction messages with
  | nil => exact .nil
  | cons m messages ih =>
    obtain ⟨hfirst, hrest⟩ := List.forall_mem_cons.mp h
    have hown := (marks_map (ownTexts m)).append (marks_of_clean hfirst)
    have hall := hown.append (ih hrest)
    simpa [allTexts, ownTexts_mapContent, resultTexts_mapContent] using hall

/-! ## The guard -/

theorem firstHit_ok {denylist : List String} {texts : List Json}
    (h : ∀ text ∈ texts, ∃ r, checkText denylist text = .ok r) :
    ∃ r, firstHit denylist texts = .ok r := by
  induction texts with
  | nil => exact ⟨none, rfl⟩
  | cons text texts ih =>
    obtain ⟨⟨r, hr⟩, hrest⟩ := List.forall_mem_cons.mp h
    unfold firstHit
    cases r with
    | none =>
      rw [hr]
      exact ih hrest
    | some hit =>
      rw [hr]
      exact ⟨some hit, rfl⟩

theorem checkText_of_firstHit {denylist : List String} {texts : List Json}
    (h : firstHit denylist texts = .ok none) :
    ∀ text ∈ texts, checkText denylist text = .ok none := by
  induction texts with
  | nil => exact fun _ hmem => absurd hmem List.not_mem_nil
  | cons text texts ih =>
    unfold firstHit at h
    split at h
    · next hfirst => exact List.forall_mem_cons.mpr ⟨hfirst, ih h⟩
    · next hnot => exact absurd h hnot

theorem guardedTexts_mapContent {f : String → String} {message : Members} {value : Json}
    (h : value ∈ guardedTexts (mapContent f (mapTextPart f) message)) :
    (∃ s, value = .str s) ∨ value ∈ guardedTexts message := by
  rcases mapContent_cases message with ⟨t, ht, hmap⟩ | ⟨parts, hparts, hmap⟩ | ⟨hmap, -, -⟩
  · rw [hmap, guardedTexts, get?_setMember_self ht] at h
    exact .inl ⟨f t, List.mem_singleton.mp h⟩
  · rw [hmap, guardedTexts, get?_setMember_self hparts] at h
    obtain ⟨part', hpart', hvalue⟩ := List.mem_filterMap.mp h
    obtain ⟨part, hpart, rfl⟩ := List.mem_map.mp hpart'
    rcases mapTextPart_cases part with ⟨members, t, rfl, htype, ht, -, hmapped⟩ | ⟨-, hmapped⟩
    · rw [hmapped, hasType_setMember (by decide), if_pos htype, get?_setMember_self ht] at hvalue
      exact .inl ⟨f t, (Option.some.inj hvalue).symm⟩
    · rw [hmapped] at hvalue
      refine .inr ?_
      rw [guardedTexts, hparts]
      exact List.mem_filterMap.mpr ⟨part, hpart, hvalue⟩
  · rw [hmap] at h
    exact .inr h

theorem guard_maskMessages {settings : FilterSettings} {messages : List Members}
    (h : guard settings messages = .ok none) :
    ∃ r, guard settings (maskMessages tables messages).1 = .ok r := by
  unfold guard checkMessages at h ⊢
  split
  · next henabled =>
    rw [if_pos henabled] at h
    split
    · exact ⟨none, rfl⟩
    · next hsome =>
      rw [if_neg hsome] at h
      refine firstHit_ok fun value hvalue => ?_
      rw [maskMessages_fst, List.flatMap_map] at hvalue
      obtain ⟨m, hm, hvalue⟩ := List.mem_flatMap.mp hvalue
      rcases guardedTexts_mapContent hvalue with ⟨s, rfl⟩ | hbefore
      · exact ⟨_, rfl⟩
      · exact ⟨none, checkText_of_firstHit h value (List.mem_flatMap.mpr ⟨m, hm, hbefore⟩)⟩
  · exact ⟨none, rfl⟩

/-! ## The filters -/

theorem applyPrivacyFilters_masked {settings : FilterSettings} {messages : List Members}
    {body : Dict String Json} (hmasking : settings.piiMaskingEnabled = true)
    (hguard : guard settings messages = .ok none) :
    applyPrivacyFilters tables settings messages body = .ok (maskMessages tables messages,
      body.set "messages" (.arr ((maskMessages tables messages).1.map .obj))) := by
  unfold applyPrivacyFilters
  rw [hguard]
  exact if_pos hmasking

variable (tables) in
/-- **The filters are complete exactly if the tool results hold no match.** -/
theorem filter_complete_iff {settings : FilterSettings} {messages out : List Members} {n : Nat}
    {body body' : Dict String Json} (hmasking : settings.piiMaskingEnabled = true)
    (h : applyPrivacyFilters tables settings messages body = .ok ((out, n), body')) :
    FilterComplete tables settings messages out n ↔
      ∀ m ∈ messages, ∀ t ∈ resultTexts m, Clean tables t := by
  unfold applyPrivacyFilters at h
  split at h
  · cases h
  · cases h
  · next hguard =>
    rw [if_pos hmasking] at h
    obtain rfl : out = (maskMessages tables messages).1 := by
      injection h with h
      exact (congrArg (·.1.1) h).symm
    obtain rfl : n = (maskMessages tables messages).2 := by
      injection h with h
      exact (congrArg (·.1.2) h).symm
    constructor
    · intro hcomplete m hm t ht
      refine hcomplete.clean (mapContent (mask tables) (mapTextPart (mask tables)) m) ?_ t ?_
      · rw [maskMessages_fst]
        exact List.mem_map_of_mem hm
      · rw [allTexts, resultTexts_mapContent]
        exact List.mem_append_right _ ht
    · intro hclean
      refine ⟨?_, marks_maskMessages hclean, ?_, fun body => ?_⟩
      · intro m hm t ht
        rw [maskMessages_fst] at hm
        obtain ⟨before, hbefore, rfl⟩ := List.mem_map.mp hm
        rw [allTexts, ownTexts_mapContent, resultTexts_mapContent] at ht
        rcases List.mem_append.mp ht with hown | hresult
        · obtain ⟨u, -, rfl⟩ := List.mem_map.mp hown
          exact maskText_clean u
        · exact hclean before hbefore t hresult
      · rw [maskMessages_fst, List.map_map]
        exact List.map_congr_left fun m _ => blank_mapContent _ m
      · obtain ⟨r, hr⟩ := @guard_maskMessages tables _ _ hguard
        cases r with
        | some hit => exact .inl ⟨hit, hr⟩
        | none =>
          refine .inr ?_
          rw [applyPrivacyFilters_masked hmasking hr, maskMessages_again]

/-- **Masking any messages** leaves no match in a text of their own and counts its marks, leaves
tool results and all else alone, and is done for good. -/
theorem maskMessages_right (tables : DigitTables) (messages : List Members) :
    (∀ m ∈ (maskMessages tables messages).1, ∀ t ∈ ownTexts m, Clean tables t) ∧
      Marks tables (messages.flatMap ownTexts) ((maskMessages tables messages).1.flatMap ownTexts)
        (maskMessages tables messages).2 ∧
      (maskMessages tables messages).1.map resultTexts = messages.map resultTexts ∧
      (maskMessages tables messages).1.map blank = messages.map blank ∧
      maskMessages tables (maskMessages tables messages).1 =
        ((maskMessages tables messages).1, 0) := by
  refine ⟨?_, ?_, ?_, ?_, maskMessages_again messages⟩
  · rw [maskMessages_fst]
    intro m hm t ht
    obtain ⟨m', -, rfl⟩ := List.mem_map.mp hm
    rw [ownTexts_mapContent] at ht
    obtain ⟨u, -, rfl⟩ := List.mem_map.mp ht
    exact maskText_clean u
  · have hmarks := @marks_map tables (messages.flatMap ownTexts)
    rw [maskMessages_snd, maskMessages_fst]
    simpa [List.map_flatMap, List.flatMap_map, ownTexts_mapContent] using hmarks
  · rw [maskMessages_fst, List.map_map]
    exact List.map_congr_left fun m _ => resultTexts_mapContent _ m
  · rw [maskMessages_fst, List.map_map]
    exact List.map_congr_left fun m _ => blank_mapContent _ m

/-- `\w` and `\d` of the ASCII characters. -/
def asciiDigits : DigitTables where
  toCharTables := Monitoring.asciiTables
  isdecimal_ascii _ _ := rfl

/-- The guard off, masking on. -/
def maskingOn : FilterSettings :=
  { promptGuardEnabled := false, promptGuardDenylist := "", piiMaskingEnabled := true }

def mailAndResult (text result : String) : Members :=
  [("role", .str "user"),
    ("content", .arr [.obj [("type", .str "text"), ("text", .str text)],
      .obj [("type", .str "tool_result"), ("tool_use_id", .str "t1"), ("content", .str result)]])]

theorem filter_complete_iff_mail :
    FilterComplete asciiDigits maskingOn [mailAndResult "mail a@b.com" "42"]
      [mailAndResult "mail [EMAIL_REDACTED]" "42"] 1 := by
  have hmask : maskText asciiDigits "mail a@b.com" = ("mail [EMAIL_REDACTED]", 1) := by
    decide +kernel
  have hmasked : maskMessages asciiDigits [mailAndResult "mail a@b.com" "42"] =
      ([mailAndResult "mail [EMAIL_REDACTED]" "42"], 1) := by
    simp [maskMessages, maskMessage, maskPart, Json.hasType, setMember, Json.get?, mailAndResult, hmask]
  have happly : applyPrivacyFilters asciiDigits maskingOn [mailAndResult "mail a@b.com" "42"]
      .empty = _ := applyPrivacyFilters_masked rfl rfl
  rw [hmasked] at happly
  refine (filter_complete_iff asciiDigits rfl happly).mpr fun m hm t ht => ?_
  obtain rfl := List.mem_singleton.mp hm
  obtain rfl : t = "42" := by
    simpa [resultTexts, toolTexts, ownTexts, Json.hasType, Json.get?, mailAndResult] using ht
  have hnone : ∀ p ∈ patterns asciiDigits,
      (Regex.search asciiDigits.isalnum p.2 "42").isNone := by decide +kernel
  exact fun p hp => Option.isNone_iff_eq_none.mp (hnone p hp)

/-- The address in a tool result is still there. -/
theorem filter_complete_fails :
    applyPrivacyFilters asciiDigits maskingOn [mailAndResult "read it" "a@b.com"] .empty =
        .ok (([mailAndResult "read it" "a@b.com"], 0),
          Dict.empty.set "messages" (.arr [.obj (mailAndResult "read it" "a@b.com")])) ∧
      ¬ FilterComplete asciiDigits maskingOn [mailAndResult "read it" "a@b.com"]
        [mailAndResult "read it" "a@b.com"] 0 := by
  have hmask : maskText asciiDigits "read it" = ("read it", 0) := by decide +kernel
  have hmasked : maskMessages asciiDigits [mailAndResult "read it" "a@b.com"] =
      ([mailAndResult "read it" "a@b.com"], 0) := by
    simp [maskMessages, maskMessage, maskPart, Json.hasType, setMember, Json.get?, mailAndResult, hmask]
  constructor
  · rw [applyPrivacyFilters_masked rfl rfl, hmasked]
    rfl
  · intro hcomplete
    have hmem : "a@b.com" ∈ allTexts (mailAndResult "read it" "a@b.com") := by
      simp [allTexts, ownTexts, textOfPart, resultTexts, toolTexts, Json.hasType, Json.get?,
        mailAndResult]
    have hclean := hcomplete.clean _ List.mem_cons_self _ hmem ("EMAIL", emailRe) List.mem_cons_self
    have hfound : (Regex.search asciiDigits.isalnum emailRe "a@b.com").isNone = false := by
      decide +kernel
    rw [hclean] at hfound
    cases hfound

end LlmProxy.Privacy
