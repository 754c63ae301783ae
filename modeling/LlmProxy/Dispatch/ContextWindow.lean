import LlmProxy.Lib.JsonText

/-! # Truncation to the context window

`truncate_to_window` (`app/api/long_context.py`): a conversation that is too long keeps its last
messages, and of those in front of them as many as still fit. They are counted from the oldest on,
so that what is left out is the middle.

> `truncation_right_iff`: a conversation is cut at its old end exactly if it fits, or if the messages
> that are kept at the front are those that stand before the tail.

Mirroring notes.
* The text of a text block is a string. A context length times 0.75 is exact.
-/

namespace LlmProxy.Dispatch

inductive ContextBlock where
  | text (text : String) (fields : List (String × Json))
  | other (block : Json)

inductive ContextContent where
  | text (text : String)
  | blocks (blocks : List ContextBlock)
  | other (content : Option Json)

/-- A message: its content, and its other fields. -/
structure ContextMessage where
  content : ContextContent
  fields : List (String × Json)

/-- `_content_to_text`. -/
def contentToText : ContextContent → String
  | .text s => s
  | .blocks blocks => "\n".intercalate (blocks.filterMap fun
      | .text s _ => some s
      | .other _ => none)
  | .other _ => ""

/-- `estimate_tokens`: three characters count as a token. -/
def estimateTokens (messages : List ContextMessage) (system : Option String) : Nat :=
  ((system.getD "").length +
    (messages.map fun m => (contentToText m.content).length).sum) / 3

/-- `effective_window`. -/
def effectiveWindow (contextLength : Int) : Int := (3 * contextLength).tdiv 4

/-- `messages[-keep_last:]`, of more messages than that; a slice from `-0` is all of them. -/
def contextTail (messages : List ContextMessage) (keepLast : Nat) : List ContextMessage :=
  if 0 < keepLast ∧ keepLast < messages.length then messages.drop (messages.length - keepLast)
  else messages

/-- `messages[:-keep_last]`, of more messages than that. -/
def contextHead (messages : List ContextMessage) (keepLast : Nat) : List ContextMessage :=
  if 0 < keepLast ∧ keepLast < messages.length then messages.take (messages.length - keepLast)
  else []

/-- The loop: the messages that fit the budget, up to the first that does not. -/
def keptHead (headBudget : Int) : Int → List ContextMessage → List ContextMessage
  | _, [] => []
  | running, m :: rest =>
    let mt : Int := estimateTokens [m] none
    if headBudget < running + mt then [] else m :: keptHead headBudget (running + mt) rest

/-- `truncate_to_window`: the messages, and how many are dropped. -/
def truncateToWindow (messages : List ContextMessage) (contextLength : Int)
    (system : Option String) (keepLast : Nat) : List ContextMessage × Nat :=
  let window := effectiveWindow contextLength
  if (estimateTokens messages system : Int) ≤ window then (messages, 0)
  else
    let tail := contextTail messages keepLast
    let headBudget := max 0 (window - estimateTokens tail system)
    let out := keptHead headBudget 0 (contextHead messages keepLast) ++ tail
    (out, messages.length - out.length)

/-! ## Estimates -/

section

variable {messages : List ContextMessage} {system : Option String}

theorem estimateTokens_mono {front back : List ContextMessage} (h : back <:+ front) :
    estimateTokens back system ≤ estimateTokens front system := by
  obtain ⟨rest, rfl⟩ := h
  unfold estimateTokens
  rw [List.map_append, List.sum_append]
  omega

theorem head_append_tail (messages : List ContextMessage) (keepLast : Nat) :
    contextHead messages keepLast ++ contextTail messages keepLast = messages := by
  unfold contextHead contextTail
  split
  · exact List.take_append_drop _ _
  · rfl

def eachTokens (messages : List ContextMessage) : Int :=
  (messages.map fun m => (estimateTokens [m] none : Int)).sum

theorem eachTokens_append (a b : List ContextMessage) :
    eachTokens (a ++ b) = eachTokens a + eachTokens b := by
  unfold eachTokens
  rw [List.map_append, List.sum_append]

theorem eachTokens_nonneg (messages : List ContextMessage) : 0 ≤ eachTokens messages := by
  induction messages with
  | nil => exact le_refl 0
  | cons m messages ih =>
    have hcons : eachTokens (m :: messages) = estimateTokens [m] none + eachTokens messages := rfl
    omega

theorem eachTokens_take_mono (messages : List ContextMessage) {i j : Nat} (h : i ≤ j) :
    eachTokens (messages.take i) ≤ eachTokens (messages.take j) := by
  obtain ⟨k, rfl⟩ := Nat.exists_eq_add_of_le h
  rw [List.take_add, eachTokens_append]
  have := eachTokens_nonneg ((messages.drop i).take k)
  omega

/-- As many of the oldest messages as fit a budget, one by one. -/
def FitsUpTo (messages : List ContextMessage) (budget : Int) (j : Nat) : Prop :=
  eachTokens (messages.take j) ≤ budget ∧ budget < eachTokens (messages.take (j + 1))

theorem FitsUpTo.unique {budget : Int} {i j : Nat} (hi : FitsUpTo messages budget i)
    (hj : FitsUpTo messages budget j) : i = j := by
  rcases lt_trichotomy i j with hlt | heq | hlt
  · have hmono := hi.2.trans_le (eachTokens_take_mono messages (Nat.succ_le_of_lt hlt))
    exact absurd hj.1 (not_le.mpr hmono)
  · exact heq
  · have hmono := hj.2.trans_le (eachTokens_take_mono messages (Nat.succ_le_of_lt hlt))
    exact absurd hi.1 (not_le.mpr hmono)

/-- **The loop** keeps the oldest messages that fit. -/
theorem keptHead_spec {budget running : Int} (hrunning : running ≤ budget)
    (messages : List ContextMessage) :
    (keptHead budget running messages = messages ∧ eachTokens messages ≤ budget - running) ∨
      ∃ j < messages.length, keptHead budget running messages = messages.take j ∧
        FitsUpTo messages (budget - running) j := by
  induction messages generalizing running with
  | nil => exact .inl ⟨rfl, by show (0 : Int) ≤ budget - running; omega⟩
  | cons m messages ih =>
    have hall : eachTokens (m :: messages) = estimateTokens [m] none + eachTokens messages := rfl
    have hcons : ∀ k, eachTokens ((m :: messages).take (k + 1)) =
        estimateTokens [m] none + eachTokens (messages.take k) := fun _ => rfl
    unfold keptHead
    dsimp only
    split
    · next hover =>
      refine .inr ⟨0, Nat.succ_pos _, rfl, ?_, ?_⟩
      · show (0 : Int) ≤ budget - running
        omega
      · rw [hcons]
        have hnone : eachTokens (messages.take 0) = 0 := rfl
        omega
    · next hfits =>
      have hrest : running + (estimateTokens [m] none : Int) ≤ budget := not_lt.mp hfits
      rcases ih hrest with ⟨hkept, hle⟩ | ⟨j, hj, hkept, hup⟩
      · exact .inl ⟨by rw [hkept], by omega⟩
      · refine .inr ⟨j + 1, Nat.succ_lt_succ hj, by rw [hkept, List.take_succ_cons], ?_, ?_⟩
        · rw [hcons]
          have := hup.1
          omega
        · rw [hcons]
          have := hup.2
          omega

end

/-! ## The cut -/

/-- The cut is the longest end of the conversation that fits; it holds the tail. -/
structure TruncationRight (messages : List ContextMessage) (contextLength : Int)
    (system : Option String) (keepLast : Nat) (cut : List ContextMessage × Nat) : Prop where
  suffix : cut.1 <:+ messages
  keepsTail : contextTail messages keepLast <:+ cut.1
  fits : (estimateTokens cut.1 system : Int) ≤ effectiveWindow contextLength
  longest : ∀ longer, longer <:+ messages → cut.1.length < longer.length →
    effectiveWindow contextLength < estimateTokens longer system
  dropped : cut.1.length + cut.2 = messages.length
  unchanged : (estimateTokens messages system : Int) ≤ effectiveWindow contextLength →
    cut = (messages, 0)

/-- The messages that fit the budget at the old end are the ones before the tail, and no more of
these fit. -/
def OldestAreNewest (messages : List ContextMessage) (contextLength : Int)
    (system : Option String) (keepLast : Nat) : Prop :=
  ∃ j < (contextHead messages keepLast).length,
    FitsUpTo (contextHead messages keepLast)
      (effectiveWindow contextLength - estimateTokens (contextTail messages keepLast) system) j ∧
    (contextHead messages keepLast).take j =
      (contextHead messages keepLast).drop ((contextHead messages keepLast).length - j) ∧
    (estimateTokens ((contextHead messages keepLast).drop
      ((contextHead messages keepLast).length - j) ++ contextTail messages keepLast) system : Int) ≤
        effectiveWindow contextLength ∧
    effectiveWindow contextLength < estimateTokens ((contextHead messages keepLast).drop
      ((contextHead messages keepLast).length - (j + 1)) ++ contextTail messages keepLast) system

section

variable {messages : List ContextMessage} {contextLength : Int} {system : Option String}
  {keepLast : Nat}

theorem truncate_eq (hover : ¬ (estimateTokens messages system : Int) ≤ effectiveWindow contextLength)
    (hfits : (estimateTokens (contextTail messages keepLast) system : Int) ≤
      effectiveWindow contextLength) :
    truncateToWindow messages contextLength system keepLast =
      (keptHead (effectiveWindow contextLength -
          estimateTokens (contextTail messages keepLast) system) 0
          (contextHead messages keepLast) ++ contextTail messages keepLast,
        messages.length - (keptHead (effectiveWindow contextLength -
          estimateTokens (contextTail messages keepLast) system) 0
          (contextHead messages keepLast) ++ contextTail messages keepLast).length) := by
  unfold truncateToWindow
  dsimp only
  rw [if_neg hover, max_eq_right (by omega)]

theorem suffix_head_tail (j : Nat) (hj : j ≤ (contextHead messages keepLast).length) :
    (contextHead messages keepLast).drop ((contextHead messages keepLast).length - j) ++
        contextTail messages keepLast <:+ messages ∧
      ((contextHead messages keepLast).drop ((contextHead messages keepLast).length - j) ++
        contextTail messages keepLast).length = j + (contextTail messages keepLast).length := by
  constructor
  · refine ⟨(contextHead messages keepLast).take ((contextHead messages keepLast).length - j), ?_⟩
    rw [← List.append_assoc, List.take_append_drop, head_append_tail]
  · rw [List.length_append, List.length_drop]
    omega

/-- **Where it does not fit**, it is cut at the old end exactly in the one case. -/
theorem truncation_right_over
    (hover : ¬ (estimateTokens messages system : Int) ≤ effectiveWindow contextLength)
    (hfits : (estimateTokens (contextTail messages keepLast) system : Int) ≤
      effectiveWindow contextLength) :
    TruncationRight messages contextLength system keepLast
        (truncateToWindow messages contextLength system keepLast) ↔
      OldestAreNewest messages contextLength system keepLast := by
  have hlength : (contextHead messages keepLast).length + (contextTail messages keepLast).length =
      messages.length := by
    rw [← List.length_append, head_append_tail]
  rw [truncate_eq hover hfits]
  rcases keptHead_spec (by omega : (0 : Int) ≤ effectiveWindow contextLength -
    estimateTokens (contextTail messages keepLast) system) (contextHead messages keepLast) with
      ⟨hall, hle⟩ | ⟨j, hj, hkept, hup⟩
  · rw [hall, head_append_tail]
    refine iff_of_false (fun h => hover h.fits) fun ⟨j, hj, hup, _⟩ => ?_
    have hmono := eachTokens_take_mono (contextHead messages keepLast) (Nat.succ_le_of_lt hj)
    rw [List.take_length] at hmono
    have hover' := hup.2.trans_le hmono
    omega
  · rw [Int.sub_zero] at hup
    rw [hkept]
    have hcut : ((contextHead messages keepLast).take j ++
        contextTail messages keepLast).length = j + (contextTail messages keepLast).length := by
      rw [List.length_append, List.length_take_of_le hj.le]
    constructor
    · intro h
      obtain ⟨hsuffix, hsame⟩ := @suffix_head_tail messages keepLast j hj.le
      have heq : (contextHead messages keepLast).take j ++ contextTail messages keepLast =
          (contextHead messages keepLast).drop ((contextHead messages keepLast).length - j) ++
            contextTail messages keepLast :=
        (List.suffix_of_suffix_length_le h.suffix hsuffix (by rw [hcut, hsame])).eq_of_length
          (by rw [hcut, hsame])
      obtain ⟨hnext, hlonger⟩ := @suffix_head_tail messages keepLast (j + 1) hj
      refine ⟨j, hj, hup, List.append_cancel_right heq, ?_, ?_⟩
      · rw [← heq]
        exact h.fits
      · exact h.longest _ hnext (by rw [hcut, hlonger]; omega)
    · rintro ⟨i, hi, hup', hsame, hin, hout⟩
      obtain rfl := hup.unique hup'
      obtain ⟨hsuffix, -⟩ := @suffix_head_tail messages keepLast j hj.le
      obtain ⟨hnext, hlonger⟩ := @suffix_head_tail messages keepLast (j + 1) hj
      refine ⟨?_, List.suffix_append _ _, ?_, fun longer hlong hlt => ?_, ?_, fun h => absurd h hover⟩
      · rw [hsame]
        exact hsuffix
      · rw [hsame]
        exact hin
      · rw [hcut] at hlt
        have hend := List.suffix_of_suffix_length_le hnext hlong (by rw [hlonger]; omega)
        have hmono := @estimateTokens_mono system _ _ hend
        omega
      · rw [hcut]
        omega

/-- **The recent context is kept** exactly if all of it fits, or the two ends are the same. -/
theorem truncation_right_iff
    (hfits : (estimateTokens (contextTail messages keepLast) system : Int) ≤
      effectiveWindow contextLength) :
    TruncationRight messages contextLength system keepLast
        (truncateToWindow messages contextLength system keepLast) ↔
      (estimateTokens messages system : Int) ≤ effectiveWindow contextLength ∨
        OldestAreNewest messages contextLength system keepLast := by
  by_cases hall : (estimateTokens messages system : Int) ≤ effectiveWindow contextLength
  · refine iff_of_true ?_ (.inl hall)
    have hcut : truncateToWindow messages contextLength system keepLast = (messages, 0) :=
      if_pos hall
    rw [hcut]
    refine ⟨List.suffix_refl _, ⟨_, head_append_tail messages keepLast⟩, hall,
      fun longer hlong hlt => ?_, Nat.add_zero _, fun _ => rfl⟩
    exact absurd hlong.length_le (not_le.mpr hlt)
  · rw [or_iff_right hall]
    exact truncation_right_over hall hfits

end

def spoken (text : String) : ContextMessage := ⟨.text text, [("role", .str "user")]⟩

/-- Three messages in a window of six tokens: the first is kept, and the second, which is newer and
longer, is not. -/
theorem truncation_drops_the_middle :
    (estimateTokens
        (contextTail [spoken "one", spoken "two, and then some", spoken "now"] 1) none : Int) ≤
          effectiveWindow 8 ∧
      truncateToWindow [spoken "one", spoken "two, and then some", spoken "now"] 8 none 1 =
        ([spoken "one", spoken "now"], 1) ∧
      ¬ TruncationRight [spoken "one", spoken "two, and then some", spoken "now"] 8 none 1
        (truncateToWindow [spoken "one", spoken "two, and then some", spoken "now"] 8 none 1) := by
  have hcut : truncateToWindow [spoken "one", spoken "two, and then some", spoken "now"] 8 none 1 =
      ([spoken "one", spoken "now"], 1) := rfl
  refine ⟨by decide, hcut, fun h => ?_⟩
  rw [hcut] at h
  obtain ⟨rest, hrest⟩ := h.suffix
  -- two messages of three: the cut would start with the second
  obtain ⟨first, rfl⟩ : ∃ first, rest = [first] := by
    have hlength := congrArg List.length hrest
    simp only [List.length_append, List.length_cons, List.length_nil] at hlength
    exact List.length_eq_one_iff.mp (by omega)
  have hsecond := congrArg
    (fun l : List ContextMessage => l.map fun m => contentToText m.content) hrest
  simp [spoken, contentToText] at hsecond

/-- Two long messages before a short one: both are cut. -/
theorem truncation_right_iff_middle :
    TruncationRight [spoken "one, and then some", spoken "two, and then some", spoken "now"] 8 none 1
      (truncateToWindow [spoken "one, and then some", spoken "two, and then some", spoken "now"] 8
        none 1) :=
  (truncation_right_iff (by decide)).mpr
    (Or.inr ⟨0, by decide, ⟨by decide, by decide⟩, rfl, by decide, by decide⟩)

end LlmProxy.Dispatch
