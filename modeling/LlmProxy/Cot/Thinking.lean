import LlmProxy.Cot.ToolEmulation
import LlmProxy.Lib.Regex

/-! # Emulated calls and a thinking block

The branch of `messages` (`app/api/messages.py`) for an emulated tool request with reasoning: the
calls are taken from the whole output of the model, and the thinking block is taken out of it only
afterwards.

> `emulation_right_iff`: calls survive the way through a text, and those of an output are the ones
> outside its thinking block, exactly when no call ends early and the block is `Quiet`.

A call in an output is told by where it stands, so that one within the block is not taken for an
equal one behind it.
-/

namespace LlmProxy.Cot

open Delims (Match)

/-! ## The handler -/

/-- What is done to the calls when the client wants one at a time. -/
def serial {α : Type} (allowParallel : Bool) (calls : List α) : List α :=
  if !allowParallel && 1 < calls.length then calls.take 1 else calls

def handlerCalls (allowParallel : Bool) (responseText : List Char) : List Json :=
  serial allowParallel (parseToolCalls responseText)

/-- An output with a block that `_THINKING_RE` matches. -/
structure ThinkingOutput where
  before : List Char
  opening : List Char
  inner : List Char
  closing : List Char
  after : List Char
  opens : opening.map Regex.foldCase = "<thinking>".toList
  closes : closing.map Regex.foldCase = "</thinking>".toList

namespace ThinkingOutput

variable (o : ThinkingOutput)

/-- The text up to the closing tag of the block. -/
def lead : List Char := o.before ++ (o.opening ++ o.inner)

def rest : List Char := o.closing ++ o.after

def text : List Char := o.lead ++ o.rest

end ThinkingOutput

def taken (text : List Char) : List (Match Char) :=
  (toolCallRe.findIter text).filter fun m => (callOf m).isSome

theorem parseToolCalls_taken (text : List Char) :
    parseToolCalls text = (taken text).filterMap callOf := by
  unfold parseToolCalls taken
  rw [List.filterMap_filter]
  refine List.filterMap_congr fun m _ => ?_
  cases callOf m with
  | none => rfl
  | some j => rfl

theorem length_taken (text : List Char) : (parseToolCalls text).length = (taken text).length := by
  rw [parseToolCalls_taken, List.length_filterMap_eq_countP, List.countP_eq_length]
  exact fun m hmem => (List.mem_filter.mp hmem).2

theorem handlerCalls_eq (allowParallel : Bool) (text : List Char) :
    handlerCalls allowParallel text = (serial allowParallel (taken text)).filterMap callOf := by
  unfold handlerCalls serial
  rw [length_taken]
  split
  · rw [parseToolCalls_taken]
    cases htaken : taken text with
    | nil => rfl
    | cons m rest =>
      have hcall : (callOf m).isSome = true :=
        (List.mem_filter.mp (htaken ▸ List.mem_cons_self : m ∈ taken text)).2
      obtain ⟨j, hj⟩ := Option.isSome_iff_exists.mp hcall
      rw [List.filterMap_cons, hj]
      simp [hj]
  · exact parseToolCalls_taken text

/-- The calls outside the block, where they stand in the output. -/
def ThinkingOutput.outside (o : ThinkingOutput) : List (Match Char) :=
  (taken o.before).map (Match.shift (o.text.length - o.before.length)) ++ taken o.after

/-- The calls taken are those outside the block. -/
structure ThinkingRight (allowParallel : Bool) (o : ThinkingOutput) : Prop where
  places : serial allowParallel (taken o.text) = serial allowParallel o.outside
  calls : handlerCalls allowParallel o.text =
    (serial allowParallel o.outside).filterMap callOf

/-! ## The condition -/

/-- What an opening that hangs over the end of the block would make a call of, up to the first
closing behind the block. -/
def ThinkingOutput.hungOver (o : ThinkingOutput) (b : List Char) : List Char :=
  (openGroup (toolCallRe.hanging o.lead)).getD [] ++ (o.closing ++ b)

/-- No closing in the block ends a call; and where an opening in front of its end is left open, the
first closing behind the block ends none, neither from it nor from an opening behind the block. -/
structure Quiet (o : ThinkingOutput) : Prop where
  inside : ∀ m ∈ toolCallRe.findIter (toolCallRe.hanging o.before ++ (o.opening ++ o.inner)),
    callOf m = none
  behind : toolCallRe.hanging o.lead ≠ [] → ∀ b rest, toolCallRe.body o.after = some (b, rest) →
    callOf ⟨o.hungOver b, 0, 0⟩ = none ∧
      ∀ m ∈ toolCallRe.findIter o.after, m.rest = rest.length → callOf m = none

/-- One call is wanted, and it stands in front of the block; or the block is quiet. -/
def Settled (allowParallel : Bool) (o : ThinkingOutput) : Prop :=
  (allowParallel = false ∧ taken o.before ≠ []) ∨ Quiet o

/-! ## The tags of the block -/

theorem toLower_symbol {c d : Char} (h : c.toLower = d) (hd : d ∈ ['<', '/', '}']) : c = d := by
  unfold Char.toLower at h
  split at h
  · next hupper =>
    have hval : c.val + ('a'.val - 'A'.val) = d.val := congrArg Char.val h
    have hsmall : d.val = '<'.val ∨ d.val = '/'.val ∨ d.val = '}'.val := by
      simp only [List.mem_cons, List.not_mem_nil, or_false] at hd
      exact hd.imp (congrArg Char.val) (Or.imp (congrArg Char.val) (congrArg Char.val))
    have hnat := congrArg UInt32.toNat hval
    have hlow : 65 ≤ c.val.toNat := hupper.1
    have hhigh : c.val.toNat ≤ 90 := hupper.2
    have hsum : (c.val + ('a'.val - 'A'.val)).toNat = c.val.toNat + 32 := by
      rw [UInt32.toNat_add]
      have hdiff : ('a'.val - 'A'.val).toNat = 32 := by decide
      rw [hdiff]
      exact Nat.mod_eq_of_lt (by omega)
    have hd' : d.val.toNat = 60 ∨ d.val.toNat = 47 ∨ d.val.toNat = 125 :=
      hsmall.imp (congrArg UInt32.toNat) (Or.imp (congrArg UInt32.toNat) (congrArg UInt32.toNat))
    omega
  · exact h

theorem foldCase_symbol {c d : Char} (h : Regex.foldCase c = d) (hd : d ∈ ['<', '/', '}']) :
    c = d := by
  have hletters : 'i' ∉ ['<', '/', '}'] ∧ 's' ∉ ['<', '/', '}'] ∧ 'k' ∉ ['<', '/', '}'] := by
    decide
  unfold Regex.foldCase at h
  split at h
  · exact absurd (h ▸ hd) hletters.1
  · split at h
    · exact absurd (h ▸ hd) hletters.2.1
    · split at h
      · exact absurd (h ▸ hd) hletters.2.2
      · exact toLower_symbol h hd

theorem readTag_fold {tags : List String} {front tail folded : List Char} {n : Nat}
    (hfold : front.map Regex.foldCase = folded) (hn : n ≤ folded.length)
    (htags : ∀ tag ∈ tags, (tag.toList.take n).map Regex.foldCase ≠ folded.take n ∧
      n ≤ tag.toList.length) : readTag tags (front ++ tail) = none := by
  cases hread : readTag tags (front ++ tail) with
  | none => rfl
  | some rest =>
    obtain ⟨tag, htag, heq⟩ := readTag_some hread
    obtain ⟨hne, hlong⟩ := htags tag htag
    have hfront : n ≤ front.length := by
      rw [← hfold, List.length_map] at hn
      exact hn
    have htake : front.take n = tag.toList.take n := by
      have h := congrArg (List.take n) heq
      rwa [List.take_append_of_le_length hfront, List.take_append_of_le_length hlong] at h
    refine absurd ?_ hne
    rw [← htake, List.map_take, hfold]

section

variable (o : ThinkingOutput)

theorem opening_cons : ∃ tail, o.opening = '<' :: tail := by
  cases hopening : o.opening with
  | nil =>
    have h := o.opens
    rw [hopening] at h
    cases h
  | cons c tail =>
    have h := o.opens
    rw [hopening] at h
    rw [foldCase_symbol (List.cons.inj h).1 (by decide)]
    exact ⟨tail, rfl⟩

theorem closing_cons : ∃ tail, o.closing = '<' :: '/' :: tail ∧ '<' ∉ '/' :: tail ∧
    '}' ∉ '<' :: '/' :: tail := by
  have hnot : ∀ d ∈ ['<', '}'], ∀ cs : List Char, d ∉ cs.map Regex.foldCase → d ∉ cs := by
    intro d hd cs hfold hmem
    refine hfold (List.mem_map.mpr ⟨d, hmem, ?_⟩)
    simp only [List.mem_cons, List.not_mem_nil, or_false] at hd
    rcases hd with rfl | rfl
    · decide
    · decide
  have h := o.closes
  match hclosing : o.closing with
  | [] =>
    rw [hclosing] at h
    exact absurd (congrArg List.length h) (by decide)
  | [c] =>
    rw [hclosing] at h
    have hlength : 1 = 11 := congrArg List.length h
    exact absurd hlength (by decide)
  | c :: d :: tail =>
    rw [hclosing] at h
    have hc : c = '<' := foldCase_symbol (List.cons.inj h).1 (by decide)
    have hd : d = '/' := foldCase_symbol (List.cons.inj (List.cons.inj h).2).1 (by decide)
    subst hc hd
    refine ⟨tail, rfl, hnot '<' (by decide) _ ?_, hnot '}' (by decide) _ ?_⟩
    · rw [(List.cons.inj h).2]
      decide
    · rw [h]
      decide

theorem splits_angle {tail : List Char} (hclose : readTag closeTags ('<' :: tail) = none) :
    toolCallRe.Splits ('<' :: tail) := by
  have hdrop : ('<' :: tail).dropWhile PyStr.isSpace = '<' :: tail := rfl
  refine splits_of (fun c cs heq tag htag => ?_) ?_ ?_
  · rw [← (List.cons.inj heq).1]
    exact (tags_tail tag htag).2.2
  · rw [hdrop]
    exact fun h => absurd (Option.some.inj h) (by decide)
  · rw [hdrop, hclose]

theorem splits_opening (tail : List Char) : toolCallRe.Splits (o.opening ++ tail) := by
  have hclose : readTag closeTags (o.opening ++ tail) = none :=
    @readTag_fold closeTags o.opening tail _ 2 o.opens (by decide) (by decide)
  obtain ⟨more, hopening⟩ := opening_cons o
  rw [hopening, List.cons_append] at hclose ⊢
  exact splits_angle hclose

theorem splits_rest : toolCallRe.Splits o.rest := by
  have hclose : readTag closeTags (o.closing ++ o.after) = none :=
    @readTag_fold closeTags o.closing o.after _ 4 o.closes (by decide) (by decide)
  obtain ⟨more, hclosing, -⟩ := closing_cons o
  unfold ThinkingOutput.rest
  rw [hclosing, List.cons_append] at hclose ⊢
  exact splits_angle hclose

theorem findIter_rest : toolCallRe.findIter o.rest = toolCallRe.findIter o.after := by
  obtain ⟨more, hclosing, hangle, -⟩ := closing_cons o
  unfold ThinkingOutput.rest
  refine Delims.findIter_of_suffix (List.suffix_append _ _) fun later hlater hsome => ?_
  obtain ⟨c, tail, rfl, hslash⟩ := openGroup_head hsome
  rw [hclosing, List.cons_append] at hlater
  rcases List.suffix_cons_iff.mp hlater with hsame | hbehind
  · exact absurd (List.cons.inj (List.cons.inj hsame).2).1 hslash
  · exact suffix_of_head rfl hbehind hangle

theorem body_rest : toolCallRe.body o.rest =
    (toolCallRe.body o.after).map fun (b, rest) => (o.closing ++ b, rest) := by
  obtain ⟨more, hclosing, -, hbrace⟩ := closing_cons o
  unfold ThinkingOutput.rest
  refine Delims.body_skip fun later hlater hsome => ?_
  refine suffix_of_head (closeGroup_head hsome) hlater ?_
  rw [hclosing]
  exact hbrace

/-! ## The matches of the output -/

def ThinkingOutput.within (o : ThinkingOutput) : List (Match Char) :=
  toolCallRe.findIter (toolCallRe.hanging o.before ++ (o.opening ++ o.inner))

def ThinkingOutput.behind (o : ThinkingOutput) : List (Match Char) :=
  toolCallRe.findIter (toolCallRe.hanging o.lead ++ o.rest)

theorem findIter_text : toolCallRe.findIter o.text =
    (toolCallRe.findIter o.before).map (Match.shift (o.text.length - o.before.length)) ++
      (o.within.map (Match.shift o.rest.length) ++ o.behind) := by
  have hlength : o.text.length - o.before.length =
      (o.opening ++ o.inner).length + o.rest.length := by
    unfold ThinkingOutput.text ThinkingOutput.lead
    simp only [List.length_append]
    omega
  have htwice : ∀ ms : List (Match Char),
      (ms.map (Match.shift (o.opening ++ o.inner).length)).map (Match.shift o.rest.length) =
        ms.map (Match.shift ((o.opening ++ o.inner).length + o.rest.length)) := by
    intro ms
    rw [List.map_map]
    refine List.map_congr_left fun m _ => ?_
    simp only [Function.comp_apply, Match.shift, Nat.add_assoc]
  have hlead : toolCallRe.findIter o.lead =
      (toolCallRe.findIter o.before).map (Match.shift (o.opening ++ o.inner).length) ++ o.within :=
    Delims.findIter_append (splits_opening o o.inner) o.before
  rw [hlength, ← htwice, ← List.append_assoc, ← List.map_append, ← hlead]
  exact Delims.findIter_append (splits_rest o) o.lead

theorem behind_quiet (h : toolCallRe.hanging o.lead = [] ∨ toolCallRe.body o.after = none) :
    o.behind = toolCallRe.findIter o.after := by
  unfold ThinkingOutput.behind
  rcases h with hnil | hnone
  · rw [hnil, List.nil_append, findIter_rest]
  · have hrest : toolCallRe.body o.rest = none := by rw [body_rest, hnone, Option.map_none]
    rw [Delims.findIter_hanging (splits_rest o) hrest, Delims.findIter_of_body_none hnone]

theorem behind_hung {b rest : List Char} (hhanging : toolCallRe.hanging o.lead ≠ [])
    (hbody : toolCallRe.body o.after = some (b, rest)) :
    ∃ start, o.after.length < start ∧
      o.behind = ⟨o.hungOver b, start, rest.length⟩ :: toolCallRe.findIter rest := by
  obtain ⟨c, tail, inner, heq, hopen, hnone⟩ :=
    (Delims.hanging_cases toolCallRe o.lead).resolve_left hhanging
  have hopens : toolCallRe.opens (c :: (tail ++ o.rest)) = some (inner ++ o.rest) := by
    have hsplits : toolCallRe.opens (c :: (tail ++ o.rest)) =
        (toolCallRe.opens (c :: tail)).map (· ++ o.rest) := (splits_rest o c tail).1
    rw [hsplits, hopen, Option.map_some]
  have hinner := Delims.body_append (splits_rest o) inner
  rw [hnone, body_rest, hbody] at hinner
  have hhung : o.hungOver b = inner ++ (o.closing ++ b) := by
    have hgroup : openGroup (c :: tail) = some inner := hopen
    unfold ThinkingOutput.hungOver
    rw [heq, hgroup, Option.getD_some]
  refine ⟨(tail ++ o.rest).length + 1, ?_, ?_⟩
  · unfold ThinkingOutput.rest
    simp only [List.length_append]
    omega
  · unfold ThinkingOutput.behind
    rw [heq, List.cons_append, Delims.findIter_found hopens hinner, hhung]

def ThinkingOutput.late (o : ThinkingOutput) : List (Match Char) :=
  (o.within.map (Match.shift o.rest.length) ++ o.behind).filter fun m => (callOf m).isSome

theorem taken_text : taken o.text =
    (taken o.before).map (Match.shift (o.text.length - o.before.length)) ++ o.late := by
  unfold taken ThinkingOutput.late
  rw [findIter_text, List.filter_append, List.filter_map]
  rfl

theorem taken_bounds {text : List Char} {m : Match Char} (h : m ∈ taken text) :
    m.start ≤ text.length ∧ m.rest < m.start :=
  Delims.findIter_bounds m (List.mem_filter.mp h).1

theorem taken_cons {text : List Char} {m : Match Char} {rest : List Char}
    (h : toolCallRe.findIter text = m :: toolCallRe.findIter rest) :
    taken text = if (callOf m).isSome then m :: taken rest else taken rest := by
  unfold taken
  rw [h, List.filter_cons]

theorem late_of_quiet (h : Quiet o) : o.late = taken o.after := by
  have hwithin : ∀ m ∈ o.within.map (Match.shift o.rest.length), ¬ (callOf m).isSome = true := by
    intro m hmem
    obtain ⟨m', hmem', rfl⟩ := List.mem_map.mp hmem
    rw [callOf_shift, h.inside m' hmem']
    exact Bool.false_ne_true
  unfold ThinkingOutput.late
  rw [List.filter_append, List.filter_eq_nil_iff.mpr hwithin, List.nil_append]
  by_cases hhanging : toolCallRe.hanging o.lead = []
  · rw [behind_quiet o (.inl hhanging)]
    rfl
  · cases hbody : toolCallRe.body o.after with
    | none =>
      rw [behind_quiet o (.inr hbody)]
      rfl
    | some found =>
      obtain ⟨b, rest⟩ := found
      obtain ⟨start, -, hbehind⟩ := behind_hung o hhanging hbody
      obtain ⟨hover, hends⟩ := h.behind hhanging b rest hbody
      have hover' : callOf ⟨o.hungOver b, start, rest.length⟩ = none := hover
      have hlate : (o.behind).filter (fun m => (callOf m).isSome) = taken rest := by
        rw [hbehind, List.filter_cons, hover', if_neg (by simp)]
        rfl
      rw [hlate]
      rcases Delims.findIter_of_body hbody with hnone | ⟨m, hfound, hrest, -⟩
      · unfold taken
        rw [hnone]
      · have hcall := hends m (by rw [hfound]; exact List.mem_cons_self) hrest
        rw [taken_cons hfound, hcall]
        rfl

theorem head?_mem {α : Type} {xs : List α} {x : α} (h : xs.head? = some x) : x ∈ xs :=
  List.mem_of_mem_head? h

theorem quiet_of_late (h : o.late.head? = (taken o.after).head?) : Quiet o := by
  have hafter : o.after.length ≤ o.rest.length := by
    unfold ThinkingOutput.rest
    simp
  -- a call of the block ends in front of the end of the block
  have hinside : ∀ m ∈ o.within, callOf m = none := by
    intro m hmem
    by_contra hcall
    have hfound : m.shift o.rest.length ∈
        (o.within.map (Match.shift o.rest.length)).filter fun m => (callOf m).isSome :=
      List.mem_filter.mpr ⟨List.mem_map_of_mem hmem, Option.isSome_iff_ne_none.mpr hcall⟩
    obtain ⟨m', rest, hcons⟩ := List.exists_cons_of_ne_nil (List.ne_nil_of_mem hfound)
    obtain ⟨m'', -, rfl⟩ := List.mem_map.mp (List.mem_filter.mp
      (hcons ▸ List.mem_cons_self : m' ∈ _)).1
    unfold ThinkingOutput.late at h
    rw [List.filter_append, hcons, List.cons_append, List.head?_cons] at h
    obtain ⟨hstart, hrest⟩ := taken_bounds (head?_mem h.symm)
    simp only [Match.shift] at hstart hrest
    omega
  have hlate : o.late = o.behind.filter fun m => (callOf m).isSome := by
    unfold ThinkingOutput.late
    rw [List.filter_append, List.filter_eq_nil_iff.mpr, List.nil_append]
    intro m hmem
    obtain ⟨m', hmem', rfl⟩ := List.mem_map.mp hmem
    rw [callOf_shift, hinside m' hmem']
    exact Bool.false_ne_true
  refine ⟨hinside, fun hhanging b rest hbody => ?_⟩
  obtain ⟨start, hstart, hbehind⟩ := behind_hung o hhanging hbody
  rw [hlate, hbehind, List.filter_cons] at h
  have hover : callOf ⟨o.hungOver b, start, rest.length⟩ = none := by
    by_contra hcall
    rw [if_pos (Option.isSome_iff_ne_none.mpr hcall), List.head?_cons] at h
    have hbound := (taken_bounds (head?_mem h.symm)).1
    simp only at hbound
    omega
  refine ⟨hover, fun m hmem hrest => ?_⟩
  have hnot : m ∉ toolCallRe.findIter rest := by
    intro hin
    have hbounds := Delims.findIter_bounds m hin
    omega
  rcases Delims.findIter_of_body hbody with hnone | ⟨m', hfound, hrest', -⟩
  · rw [hnone] at hmem
    exact absurd hmem hnot
  · rw [hfound, List.mem_cons] at hmem
    obtain rfl := hmem.resolve_right hnot
    by_contra hcall
    rw [taken_cons hfound, if_pos (Option.isSome_iff_ne_none.mpr hcall), List.head?_cons, hover,
      if_neg (by simp)] at h
    have hbounds := taken_bounds (head?_mem h)
    omega

theorem serial_eq {α : Type} (xs : List α) : serial false xs = xs.take 1 := by
  unfold serial
  cases xs with
  | nil => rfl
  | cons x xs =>
    cases xs with
    | nil => rfl
    | cons y ys => simp

theorem thinkingRight_iff (allowParallel : Bool) :
    ThinkingRight allowParallel o ↔ Settled allowParallel o := by
  have hplaces : ThinkingRight allowParallel o ↔
      serial allowParallel (taken o.text) = serial allowParallel o.outside := by
    constructor
    · exact ThinkingRight.places
    · exact fun h => ⟨h, by rw [handlerCalls_eq, h]⟩
  obtain ⟨front, hfront⟩ : ∃ front, front =
      (taken o.before).map (Match.shift (o.text.length - o.before.length)) := ⟨_, rfl⟩
  have hempty : front = [] ↔ taken o.before = [] := by rw [hfront, List.map_eq_nil_iff]
  rw [hplaces, taken_text]
  unfold ThinkingOutput.outside Settled
  rw [← hfront, ne_eq, ← hempty]
  cases allowParallel with
  | true =>
    have hall : ∀ xs : List (Match Char), serial true xs = xs := fun xs => rfl
    rw [hall, hall, List.append_cancel_left_eq]
    constructor
    · exact fun h => .inr (quiet_of_late o (congrArg List.head? h))
    · rintro (⟨hserial, -⟩ | hquiet)
      · cases hserial
      · exact late_of_quiet o hquiet
  | false =>
    rw [serial_eq, serial_eq]
    cases front with
    | nil =>
      simp only [List.nil_append, not_true_eq_false, and_false, false_or]
      constructor
      · intro h
        have hhead := congrArg List.head? h
        rw [List.head?_take, List.head?_take] at hhead
        exact quiet_of_late o hhead
      · exact fun hquiet => by rw [late_of_quiet o hquiet]
    | cons m ms =>
      refine iff_of_true rfl (.inl ⟨rfl, List.cons_ne_nil m ms⟩)

end

/-! ## The law -/

/-- The calls of a message are read from its text, and those of an output are the ones outside its
thinking block. -/
structure EmulationRight (role : String) (blocks : List EmulatedBlock) (content : Option PlainText)
    (calls : List SentCall) (allowParallel : Bool) (o : ThinkingOutput) : Prop where
  anthropic : callsIn (normalizeAnthropicMessages
      [⟨role, .blocks (blocks.map EmulatedBlock.part)⟩]) =
    (blocks.filterMap EmulatedBlock.call?).map EmulatedCall.json
  openai : callsIn (normalizeOpenaiMessages [openaiTurn content calls]) =
    calls.map fun c => c.toEmulatedCall.json
  thinking : ThinkingRight allowParallel o

/-- The calls of a message in the shape of `/v1/chat/completions` are read when none ends early. -/
theorem openai_right_iff (content : Option PlainText) (calls : List SentCall) :
    callsIn (normalizeOpenaiMessages [openaiTurn content calls]) =
      (calls.map fun c => c.toEmulatedCall.json) ↔ ∀ c ∈ calls, c.endsEarly = false := by
  have hblocks : (calls.map fun c => EmulatedBlock.call c.toEmulatedCall).filterMap
      EmulatedBlock.call? = calls.map SentCall.toEmulatedCall := by
    rw [List.filterMap_map]
    exact List.filterMap_eq_map' ▸ rfl
  have hread := read_eq_iff (calls.map fun c => EmulatedBlock.call c.toEmulatedCall)
  rw [hblocks, List.map_map, List.forall_mem_map] at hread
  rw [callsIn_openai]
  exact hread

/-- Emulated calls survive the way through a text, and a thinking block is left out, exactly when
no call's text holds a closing tag behind a brace and the block is settled. -/
theorem emulation_right_iff (role : String) (blocks : List EmulatedBlock)
    (content : Option PlainText) (calls : List SentCall) (allowParallel : Bool)
    (o : ThinkingOutput) :
    EmulationRight role blocks content calls allowParallel o ↔
      (∀ c ∈ blocks.filterMap EmulatedBlock.call?, c.endsEarly = false) ∧
        (∀ c ∈ calls, c.endsEarly = false) ∧ Settled allowParallel o := by
  rw [← read_eq_iff, ← openai_right_iff content, ← thinkingRight_iff, ← callsIn_anthropic role]
  exact ⟨fun h => ⟨h.anthropic, h.openai, h.thinking⟩, fun h => ⟨h.1, h.2.1, h.2.2⟩⟩

/-- A closing tag behind a brace in a string. -/
def closingInString : EmulatedCall := ⟨"f", [("x", .str "\x7d</tool_call>")]⟩

/-- A call the model only thinks of. -/
def consideredCall : EmulatedCall := ⟨"f", []⟩

def callInThinking : ThinkingOutput where
  before := []
  opening := "<thinking>".toList
  inner := '\n' :: (EmulatedBlock.call consideredCall).chars ++ ['\n']
  closing := "</thinking>".toList
  after := []
  opens := by decide
  closes := by decide

/-- The first call is lost on its way through a text, and the second is taken from a thinking
block. -/
theorem call_lost_call_added :
    callsIn (normalizeAnthropicMessages
        [⟨"assistant", .blocks [(EmulatedBlock.call closingInString).part]⟩]) = [] ∧
      handlerCalls true callInThinking.text = [consideredCall.json] ∧
      callInThinking.outside = [] := by
  refine ⟨?_, ?_, ?_⟩
  · have hread := callsIn_anthropic "assistant" [.call closingInString]
    have hearly : closingInString.endsEarly = true := by decide
    rw [List.flatMap_cons, EmulatedBlock.read, hearly, if_pos rfl] at hread
    exact hread
  · have hparse := parse_blocks [.text ⟨"<thinking>", by decide⟩, .call consideredCall,
      .text ⟨"</thinking>", by decide⟩]
    have hlate : consideredCall.endsEarly = false := by decide
    have htext : callInThinking.text =
        joinLines ([EmulatedBlock.text ⟨"<thinking>", by decide⟩, .call consideredCall,
          .text ⟨"</thinking>", by decide⟩].map EmulatedBlock.chars) := by decide
    unfold handlerCalls
    rw [htext, hparse]
    simp only [List.flatMap_cons, EmulatedBlock.read, hlate, List.flatMap_nil]
    rfl
  · unfold ThinkingOutput.outside taken callInThinking
    rw [Delims.findIter_nil]
    rfl

end LlmProxy.Cot
