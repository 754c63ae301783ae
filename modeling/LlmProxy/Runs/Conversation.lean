import LlmProxy.Runs.EventLog

/-! # The conversation of a run

What a running step sends to the model, read as a dialogue: the tool uses of the assistant
since the last user message are what the next user message has to answer, each by exactly one
tool result, and nothing else may be answered (`Dialogue`).

The worker stores every block of an answer but parks on its first tool use, and the endpoint
answers that one alone and resumes the run; compaction keeps the last eight messages, wherever
that cuts. So a step sends a dialogue exactly when the turn that was just answered asked for
one tool, and the cut, if there is one, leaves no tool result without its tool use
(`dialogue_sent_iff`). `sent_dialogue_iff` says so of whole histories.

Mirroring notes.
* A tool is known by its id: two tool uses of one id are answered by one result.
* The prompt that emulates tools for a provider without them is put before the messages of one
  call and not stored; it has no blocks and is left out.
-/

namespace LlmProxy.Runs

/-! ## Tool uses and their results -/

def MessageBlock.toolUse? : MessageBlock → Option String
  | .toolUse id _ _ => some id
  | _ => none

def MessageBlock.toolResult? : MessageBlock → Option String
  | .toolResult id _ _ => some id
  | _ => none

def Content.toBlocks : Content → List MessageBlock
  | .text _ => []
  | .blocks bs => bs

def Message.toolUses (m : Message) : List String :=
  if m.role = .assistant then m.content.toBlocks.filterMap MessageBlock.toolUse? else []

def Message.toolResults (m : Message) : List String :=
  m.content.toBlocks.filterMap MessageBlock.toolResult?

/-- The results answer what was asked: each id exactly once, and no other. -/
def Answers (asked results : List String) : Prop :=
  (∀ id ∈ asked, results.count id = 1) ∧ ∀ id ∈ results, id ∈ asked

instance (asked results : List String) : Decidable (Answers asked results) :=
  inferInstanceAs (Decidable (_ ∧ _))

/-- Every tool use of an assistant message is answered by exactly one tool result in the next
user message, and every tool result answers such a tool use. The first argument is what has
been asked since the last user message. -/
def Dialogue : List String → List Message → Prop
  | asked, [] => asked = []
  | asked, m :: rest =>
    if m.role = .user then Answers asked m.toolResults ∧ Dialogue [] rest
    else m.toolResults = [] ∧ Dialogue (asked ++ m.toolUses) rest

instance Dialogue.decidable : (asked : List String) → (messages : List Message) →
    Decidable (Dialogue asked messages)
  | asked, [] => inferInstanceAs (Decidable (asked = []))
  | asked, m :: rest =>
    have : Decidable (Dialogue [] rest) := Dialogue.decidable [] rest
    have : Decidable (Dialogue (asked ++ m.toolUses) rest) :=
      Dialogue.decidable (asked ++ m.toolUses) rest
    inferInstanceAs (Decidable (if m.role = .user then Answers asked m.toolResults ∧
      Dialogue [] rest else m.toolResults = [] ∧ Dialogue (asked ++ m.toolUses) rest))

theorem dialogue_user {m : Message} (h : m.role = .user) (asked : List String)
    (rest : List Message) :
    Dialogue asked (m :: rest) ↔ Answers asked m.toolResults ∧ Dialogue [] rest := by
  rw [Dialogue, if_pos h]

theorem dialogue_other {m : Message} (h : m.role ≠ .user) (asked : List String)
    (rest : List Message) :
    Dialogue asked (m :: rest) ↔
      m.toolResults = [] ∧ Dialogue (asked ++ m.toolUses) rest := by
  rw [Dialogue, if_neg h]

theorem dialogue_append_iff {asked : List String} {pre rest : List Message}
    (h : Dialogue asked pre) : Dialogue asked (pre ++ rest) ↔ Dialogue [] rest := by
  induction pre generalizing asked with
  | nil =>
    have hnone : asked = [] := h
    rw [hnone, List.nil_append]
  | cons m pre ih =>
    rw [List.cons_append]
    by_cases hu : m.role = .user
    · rw [dialogue_user hu] at h ⊢
      rw [ih h.2]
      exact and_iff_right h.1
    · rw [dialogue_other hu] at h ⊢
      rw [ih h.2]
      exact and_iff_right h.1

theorem dialogue_suffix {asked : List String} {pre rest : List Message}
    (h : Dialogue asked (pre ++ rest)) : ∃ asked', Dialogue asked' rest := by
  induction pre generalizing asked with
  | nil => exact ⟨asked, h⟩
  | cons m pre ih =>
    rw [List.cons_append] at h
    by_cases hu : m.role = .user
    · exact ih ((dialogue_user hu asked _).mp h).2
    · exact ih ((dialogue_other hu asked _).mp h).2

/-- Neither asks nor answers. -/
def Message.Quiet (m : Message) : Prop :=
  m.role ≠ .user ∧ m.toolUses = [] ∧ m.toolResults = []

theorem dialogue_quiet_append {quiet : List Message} (h : ∀ m ∈ quiet, m.Quiet)
    (asked : List String) (rest : List Message) :
    Dialogue asked (quiet ++ rest) ↔ Dialogue asked rest := by
  induction quiet with
  | nil => rfl
  | cons m quiet ih =>
    obtain ⟨hu, huses, hresults⟩ := h m List.mem_cons_self
    rw [List.cons_append, dialogue_other hu, huses, List.append_nil,
      ih fun m hm => h m (List.mem_cons_of_mem _ hm)]
    exact and_iff_right hresults

/-- The first user message answers nothing but what `asked` and the messages before it ask. -/
def AnswersWithin : List String → List Message → Prop
  | _, [] => True
  | asked, m :: rest =>
    if m.role = .user then ∀ id ∈ m.toolResults, id ∈ asked
    else AnswersWithin (asked ++ m.toolUses) rest

instance AnswersWithin.decidable : (asked : List String) → (messages : List Message) →
    Decidable (AnswersWithin asked messages)
  | _, [] => .isTrue trivial
  | asked, m :: rest =>
    have : Decidable (AnswersWithin (asked ++ m.toolUses) rest) :=
      AnswersWithin.decidable (asked ++ m.toolUses) rest
    inferInstanceAs (Decidable (if m.role = .user then ∀ id ∈ m.toolResults, id ∈ asked
      else AnswersWithin (asked ++ m.toolUses) rest))

/-- What was asked before a cut may be forgotten exactly when nothing after the cut answers
it. -/
theorem dialogue_cut_iff {before asked : List String} {messages : List Message}
    (h : Dialogue (before ++ asked) messages) :
    Dialogue asked messages ↔ AnswersWithin asked messages := by
  induction messages generalizing asked with
  | nil =>
    have hnone : before ++ asked = [] := h
    exact iff_of_true (List.append_eq_nil_iff.mp hnone).2 trivial
  | cons m rest ih =>
    by_cases hu : m.role = .user
    · rw [dialogue_user hu] at h ⊢
      rw [AnswersWithin, if_pos hu]
      obtain ⟨⟨honce, -⟩, hrest⟩ := h
      constructor
      · intro hd
        exact hd.1.2
      · intro hw
        exact ⟨⟨fun id hid => honce id (List.mem_append_right _ hid), hw⟩, hrest⟩
    · rw [dialogue_other hu] at h ⊢
      rw [AnswersWithin, if_neg hu]
      obtain ⟨hresults, hrest⟩ := h
      rw [List.append_assoc] at hrest
      rw [← ih hrest]
      exact and_iff_right hresults

/-! ## System messages -/

theorem toolUses_of_role {m : Message} (h : m.role ≠ .assistant) : m.toolUses = [] := by
  unfold Message.toolUses
  rw [if_neg h]

theorem system_quiet {asked : List String} {messages : List Message}
    (h : Dialogue asked messages) : ∀ m ∈ messages, m.role = .system → m.Quiet := by
  induction messages generalizing asked with
  | nil =>
    intro m hm
    cases hm
  | cons m rest ih =>
    intro m' hm' hsys
    by_cases hu : m.role = .user
    · rcases List.mem_cons.mp hm' with rfl | hm'
      · rw [hsys] at hu
        cases hu
      · exact ih ((dialogue_user hu asked rest).mp h).2 m' hm' hsys
    · obtain ⟨hresults, hrest⟩ := (dialogue_other hu asked rest).mp h
      rcases List.mem_cons.mp hm' with rfl | hm'
      · exact ⟨hu, toolUses_of_role (by rw [hsys]; decide), hresults⟩
      · exact ih hrest m' hm' hsys

theorem dialogue_filter {asked : List String} {messages : List Message}
    (h : Dialogue asked messages) :
    Dialogue asked (messages.filter (·.role != .system)) := by
  induction messages generalizing asked with
  | nil => exact h
  | cons m rest ih =>
    by_cases hsys : m.role = .system
    · have hu : m.role ≠ .user := by rw [hsys]; decide
      rw [List.filter_cons_of_neg (by simp [hsys])]
      rw [dialogue_other hu, toolUses_of_role (by rw [hsys]; decide), List.append_nil] at h
      exact ih h.2
    · rw [List.filter_cons_of_pos (by simp [hsys])]
      by_cases hu : m.role = .user
      · rw [dialogue_user hu] at h ⊢
        exact ⟨h.1, ih h.2⟩
      · rw [dialogue_other hu] at h ⊢
        exact ⟨h.1, ih h.2⟩

/-! ## A turn and its answer -/

/-- The ids of the tool uses in an answer of the model. -/
def askedIds (blocks : List Block) : List String :=
  (blocks.map Block.stored).filterMap MessageBlock.toolUse?

def turnOf (blocks : List Block) : Message := ⟨.assistant, .blocks (blocks.map Block.stored)⟩

def answerOf (id : String) (out : Journal.ToolOutput) : Message :=
  ⟨.user, .blocks [.toolResult id out.outputText out.isError]⟩

@[simp] theorem turnOf_toolUses (blocks : List Block) :
    (turnOf blocks).toolUses = askedIds blocks := rfl

@[simp] theorem answerOf_toolResults (id : String) (out : Journal.ToolOutput) :
    (answerOf id out).toolResults = [id] := rfl

@[simp] theorem turnOf_toolResults (blocks : List Block) :
    (turnOf blocks).toolResults = [] := by
  show (blocks.map Block.stored).filterMap MessageBlock.toolResult? = []
  rw [List.filterMap_eq_nil_iff]
  intro b hb
  obtain ⟨b, -, rfl⟩ := List.mem_map.mp hb
  cases b <;> rfl

theorem firstToolUse_mem {blocks : List Block} {tool : String × String × String}
    (h : firstToolUse blocks = some tool) : tool.1 ∈ askedIds blocks := by
  induction blocks with
  | nil => cases h
  | cons b blocks ih =>
    cases b with
    | text t => exact ih h
    | toolUse id name input =>
      cases h
      exact List.mem_cons_self

theorem answers_singleton_iff {asked : List String} {id : String} (hid : id ∈ asked) :
    Answers asked [id] ↔ ∀ a ∈ asked, ∀ b ∈ asked, a = b := by
  have hcount : ∀ a, [id].count a = 1 ↔ a = id := by
    intro a
    rw [List.count_singleton]
    by_cases h : id = a
    · simp [h]
    · simp [h, Ne.symm h]
  constructor
  · intro h a ha b hb
    rw [(hcount a).mp (h.1 a ha), (hcount b).mp (h.1 b hb)]
  · intro h
    refine ⟨fun a ha => (hcount a).mpr (h a ha id hid), fun a ha => ?_⟩
    rw [List.mem_singleton.mp ha]
    exact hid

/-- The tools asked for in the turn that the last message, a single tool result, answers. -/
def answeredTurn (messages : List Message) : List String :=
  match messages.reverse with
  | ⟨.user, .blocks [.toolResult _ _ _]⟩ :: turn :: _ => turn.toolUses
  | _ => []

/-- The turn that was just answered asked for one tool only. -/
def OneTool (messages : List Message) : Prop :=
  ∀ a ∈ answeredTurn messages, ∀ b ∈ answeredTurn messages, a = b

instance (messages : List Message) : Decidable (OneTool messages) :=
  inferInstanceAs (Decidable (∀ a ∈ answeredTurn messages, ∀ b ∈ answeredTurn messages, a = b))

theorem answeredTurn_pair (pre : List Message) (blocks : List Block) (id : String)
    (out : Journal.ToolOutput) :
    answeredTurn (pre ++ [turnOf blocks, answerOf id out]) = askedIds blocks := by
  unfold answeredTurn
  rw [List.reverse_append]
  rfl

theorem dialogue_last {asked : List String} {pre : List Message} {turn answer : Message}
    (h : Dialogue asked (pre ++ [turn, answer])) (huser : answer.role = .user) :
    ∀ id ∈ turn.toolUses, answer.toolResults.count id = 1 := by
  obtain ⟨asked, h⟩ := dialogue_suffix h
  intro id hid
  by_cases hu : turn.role = .user
  · rw [toolUses_of_role (by rw [hu]; decide)] at hid
    cases hid
  · rw [dialogue_other hu, dialogue_user huser] at h
    exact h.2.1.1 id (List.mem_append_right _ hid)

theorem Dialogue.oneTool {asked : List String} {messages : List Message}
    (h : Dialogue asked messages) : OneTool messages := by
  unfold OneTool answeredTurn
  split
  · next id text isError turn before hrev =>
    have heq : messages = before.reverse ++
        [turn, ⟨.user, .blocks [.toolResult id text isError]⟩] := by
      rw [← List.reverse_reverse messages, hrev]
      simp
    rw [heq] at h
    have hcount := dialogue_last h rfl
    intro a ha b hb
    have hmem : ∀ c ∈ turn.toolUses, c = id := by
      intro c hc
      have hone : [id].count c = 1 := hcount c hc
      have hin : c ∈ [id] := List.count_pos_iff.mp (by rw [hone]; exact Nat.one_pos)
      exact List.mem_singleton.mp hin
    rw [hmem a ha, hmem b hb]
  · intro a ha
    cases ha

/-- A conversation that may be sent: a dialogue, or one with a turn behind it whose first
tool use has been answered. -/
def Resumable (messages : List Message) : Prop :=
  Dialogue [] messages ∨ ∃ pre blocks id out, Dialogue [] pre ∧ id ∈ askedIds blocks ∧
    messages = pre ++ [turnOf blocks, answerOf id out]

theorem dialogue_pair_iff {pre : List Message} {blocks : List Block} {id : String}
    (out : Journal.ToolOutput) (hpre : Dialogue [] pre) (hid : id ∈ askedIds blocks) :
    Dialogue [] (pre ++ [turnOf blocks, answerOf id out]) ↔
      OneTool (pre ++ [turnOf blocks, answerOf id out]) := by
  unfold OneTool
  rw [answeredTurn_pair, ← answers_singleton_iff hid, dialogue_append_iff hpre,
    dialogue_other (by simp [turnOf]), dialogue_user rfl]
  simp [Dialogue]

theorem Resumable.dialogue_iff {messages : List Message} (h : Resumable messages) :
    Dialogue [] messages ↔ OneTool messages := by
  rcases h with h | ⟨pre, blocks, id, out, hpre, hid, rfl⟩
  · exact iff_of_true h h.oneTool
  · exact dialogue_pair_iff out hpre hid

theorem Resumable.system_quiet {messages : List Message} (h : Resumable messages) :
    ∀ m ∈ messages, m.role = .system → m.Quiet := by
  rcases h with h | ⟨pre, blocks, id, out, hpre, -, rfl⟩
  · exact Runs.system_quiet h
  · intro m hm hsys
    rcases List.mem_append.mp hm with hm | hm
    · exact Runs.system_quiet hpre m hm hsys
    · rcases List.mem_cons.mp hm with rfl | hm
      · cases hsys
      · rw [List.mem_singleton.mp hm] at hsys
        cases hsys

/-! ## The cut of a compaction -/

/-- A compaction keeps no tool result whose tool use it summarises. -/
def CutsNoPair (messages : List Message) : Prop :=
  (splitForCompaction messages).2.1 ≠ [] → AnswersWithin [] (splitForCompaction messages).2.2

instance (messages : List Message) : Decidable (CutsNoPair messages) :=
  inferInstanceAs (Decidable (_ → _))

theorem dialogue_compacted_iff {messages : List Message} (h : Resumable messages)
    (summary : String) (tail : List Message) :
    Dialogue [] (messages.filter (·.role == .system) ++ ⟨.assistant, .text summary⟩ :: tail) ↔
      Dialogue [] tail := by
  have hsys : ∀ m ∈ messages.filter (·.role == .system), m.Quiet := by
    intro m hm
    obtain ⟨hm, hrole⟩ := List.mem_filter.mp hm
    exact h.system_quiet m hm (by simpa using hrole)
  rw [dialogue_quiet_append hsys, dialogue_other (by simp)]
  exact and_iff_right rfl

theorem Resumable.oneTool_of_tail {messages : List Message} (h : Resumable messages)
    (hlong : preservedTailMessages < (messages.filter (·.role != .system)).length)
    (htail : Dialogue [] ((messages.filter (·.role != .system)).drop
      ((messages.filter (·.role != .system)).length - preservedTailMessages))) :
    OneTool messages := by
  rcases h with h | ⟨pre, blocks, id, out, hpre, hid, rfl⟩
  · exact h.oneTool
  have hlast : [turnOf blocks, answerOf id out].filter (·.role != .system) =
      [turnOf blocks, answerOf id out] := rfl
  rw [List.filter_append, hlast] at hlong htail
  rw [List.drop_append_of_le_length (by simp [preservedTailMessages])] at htail
  have hone := htail.oneTool
  unfold OneTool at hone ⊢
  rw [answeredTurn_pair] at hone ⊢
  exact hone

/-- **What a running step sends.** The messages are a dialogue exactly when the turn that was
just answered asked for one tool and the cut of a compaction, if there is one, separates no
result from its use. -/
theorem dialogue_sent_iff {run : RunRow} {messages : List Message} {env : StepEnv}
    (h : Resumable messages) :
    Dialogue [] (Journal.sent run messages env) ↔
      OneTool messages ∧ (env.summary.isSome = true → CutsNoPair messages) := by
  unfold Journal.sent Journal.maybeCompactRun
  cases hsum : env.summary with
  | none => simpa [Writes.none] using h.dialogue_iff
  | some summary =>
    simp only [Option.bind_some, Option.isSome_some, true_implies, maybeCompact, CutsNoPair,
      splitForCompaction]
    by_cases hshort :
        (messages.filter (·.role != .system)).length ≤ preservedTailMessages
    · simpa [hshort, Writes.none] using h.dialogue_iff
    · -- more than the tail: the body is not empty
      have hlong := Nat.lt_of_not_le hshort
      rw [if_neg hshort]
      generalize hcut : (messages.filter (·.role != .system)).length -
        preservedTailMessages = cut
      have hparts := List.take_append_drop cut (messages.filter (·.role != .system))
      cases hbody : (messages.filter (·.role != .system)).take cut with
      | nil =>
        have hzero : cut = 0 ∨ messages.filter (·.role != .system) = [] :=
          List.take_eq_nil_iff.mp hbody
        rcases hzero with hzero | hzero
        · omega
        · rw [hzero] at hlong
          cases hlong
      | cons first body =>
        show Dialogue [] (messages.filter (·.role == .system) ++ _ :: _) ↔ _
        rw [dialogue_compacted_iff h]
        constructor
        · intro htail
          refine ⟨h.oneTool_of_tail hlong (by rw [hcut]; exact htail), ?_⟩
          exact fun _ => (@dialogue_cut_iff [] [] _ htail).mp htail
        · rintro ⟨hone, hwithin⟩
          have hall := dialogue_filter (h.dialogue_iff.mpr hone)
          rw [← hparts] at hall
          obtain ⟨before, htail⟩ := dialogue_suffix hall
          rw [← List.append_nil before] at htail
          exact (dialogue_cut_iff htail).mpr (hwithin (List.cons_ne_nil first body))

/-- Ten messages with a tool result in the third place: the cut falls between it and its tool
use. -/
example :
    let messages := ⟨.user, .text "q"⟩ :: turnOf [.toolUse "t1" "ls" ""] :: answerOf "t1" {} ::
      List.replicate 7 ⟨.assistant, .text "a"⟩
    Dialogue [] messages ∧ ¬ CutsNoPair messages ∧
      ∀ compact ∈ maybeCompact messages "summary", ¬ Dialogue [] compact := by
  decide

/-! ## Steps -/

/-- The worker calls a model in this iteration. -/
def Sends (run : RunRow) (env : StepEnv) : Prop :=
  run.status = .running ∧ env.clk.check < run.deadlineTs ∧
    .modelCallStart ∈ (callModelOnce 8 false env.attempts).1

instance (run : RunRow) (env : StepEnv) : Decidable (Sends run env) :=
  inferInstanceAs (Decidable (_ ∧ _ ∧ _))

/-- Whatever the worker sends to a model in this step is a dialogue. -/
def SendsDialogue (j : Journal) : Op → Prop
  | .work env => Sends j.row env → Dialogue [] (Journal.sent j.row j.messages env)
  | _ => True

/-- A turn is sent on only when it asked for one tool, and no compaction before a call cuts
between a tool use and its result. -/
def OneToolATime (j : Journal) : Op → Prop
  | .work env =>
    Sends j.row env →
      OneTool j.messages ∧ (env.summary.isSome = true → CutsNoPair j.messages)
  | _ => True

instance (j : Journal) : (op : Op) → Decidable (SendsDialogue j op)
  | .work env =>
    inferInstanceAs
      (Decidable (Sends j.row env → Dialogue [] (Journal.sent j.row j.messages env)))
  | .cancel .. | .toolResult .. => .isTrue trivial

instance (j : Journal) : (op : Op) → Decidable (OneToolATime j op)
  | .work env =>
    inferInstanceAs (Decidable (Sends j.row env →
      OneTool j.messages ∧ (env.summary.isSome = true → CutsNoPair j.messages)))
  | .cancel .. | .toolResult .. => .isTrue trivial

/-- The invariant: an open run's conversation may be sent, but for the turn a parked run waits
on, whose pending tool use is one of those asked for. -/
def Conversing (j : Journal) : Prop :=
  match j.row.status with
  | .queued | .running => Resumable j.messages
  | .requiresTool =>
    ∃ pre blocks id, Dialogue [] pre ∧ id ∈ askedIds blocks ∧
      j.messages = pre ++ [turnOf blocks] ∧ j.row.currentToolUseId = some id
  | _ => True

theorem conversing_ended {j : Journal} (h : j.row.status.terminal = true) : Conversing j := by
  unfold Conversing
  cases hs : j.row.status <;> rw [hs] at h <;> first | cases h; done | trivial

theorem conversing_open {j : Journal} (hs : j.row.status = .queued ∨ j.row.status = .running) :
    Conversing j ↔ Resumable j.messages := by
  unfold Conversing
  rcases hs with hs | hs <;> rw [hs]

theorem conversing_parked {j : Journal} (hs : j.row.status = .requiresTool) :
    Conversing j ↔ ∃ pre blocks id, Dialogue [] pre ∧ id ∈ askedIds blocks ∧
      j.messages = pre ++ [turnOf blocks] ∧ j.row.currentToolUseId = some id := by
  unfold Conversing
  rw [hs]

theorem callModelOnce_started {n : Nat} {anyFailed : Bool} {attempts : List Attempt}
    {answer : Answer} (h : (callModelOnce n anyFailed attempts).2 = .ok answer) :
    .modelCallStart ∈ (callModelOnce n anyFailed attempts).1 := by
  induction n generalizing anyFailed attempts with
  | zero => cases h
  | succ n ih =>
    cases attempts with
    | nil => cases h
    | cons a rest =>
      cases a with
      | unroutable detail => cases h
      | crashed typeName detail => cases h
      | excluded => exact ih h
      | timedOut => exact List.mem_cons_self
      | errored billing detail => cases billing <;> exact List.mem_cons_self
      | answered answer => exact List.mem_cons_self

theorem handleResponse_parked {run : RunRow} (messages : List Message) (blocks : List Block)
    (clk : Clock) (hrunning : run.status = .running) :
    let w := Journal.handleResponse run messages blocks clk
    w.row.status.terminal = true ∨ (w.row.status = .requiresTool ∧
      w.messages = messages ++ [turnOf blocks] ∧
      ∃ id ∈ askedIds blocks, w.row.currentToolUseId = some id) := by
  unfold Journal.handleResponse
  dsimp only
  split
  · next tool htool =>
    obtain ⟨t, ht, hcases⟩ := Journal.advance_tool (ctxFromRow run) clk.advance hrunning
    unfold Journal.handleToolUse
    rw [conclude_ok ht]
    rcases hcases with hs | hs | ⟨hs, -⟩
    · refine Or.inr ⟨by simpa using hs, rfl, tool.1, firstToolUse_mem htool, ?_⟩
      simp [Journal.parkOn, hs]
    · refine Or.inl ?_
      simp [hs, RunStatus.terminal]
    · refine Or.inl ?_
      simp [hs, RunStatus.terminal]
  · obtain ⟨t, ht, hcases⟩ := Journal.advance_text (ctxFromRow run) clk.advance hrunning
    unfold Journal.handleTerminalText
    rw [conclude_ok ht]
    refine Or.inl ?_
    rcases hcases with hs | hs <;> simp [hs, RunStatus.terminal]

theorem conversing_stepRunning {run : RunRow} {messages : List Message} {env : StepEnv}
    (hs : run.status = .running)
    (hsent : .modelCallStart ∈ (callModelOnce 8 false env.attempts).1 →
      Dialogue [] (Journal.sent run messages env)) {j : Journal}
    (hrow : j.row = (Journal.stepRunning run messages env).row)
    (hmsg : j.messages = (Journal.stepRunning run messages env).messages) :
    Conversing j := by
  unfold Journal.stepRunning at hrow hmsg
  dsimp only at hrow hmsg
  cases hcall : (callModelOnce 8 false env.attempts).2 with
  | error f =>
    rw [hcall] at hrow
    refine conversing_ended ?_
    rw [hrow]
    dsimp only
    rw [(Journal.failRun_eq _ f env.respond hs).1]
    rfl
  | ok answer =>
    rw [hcall] at hrow hmsg
    dsimp only at hrow hmsg
    have hstart : (Journal.maybeCompactRun run messages env).row.status = .running := by
      rw [Journal.maybeCompactRun_status, hs]
    rcases @handleResponse_parked (recordUsage answer.inTok answer.outTok answer.providerId
      (Journal.maybeCompactRun run messages env).row) (Journal.sent run messages env)
      answer.blocks env.respond hstart with hend | ⟨hparked, hms, hid⟩
    · refine conversing_ended ?_
      rw [hrow]
      exact hend
    · obtain ⟨id, hid, htool⟩ := hid
      refine (conversing_parked (by rw [hrow]; exact hparked)).mpr ?_
      refine ⟨_, answer.blocks, id, hsent (callModelOnce_started hcall), hid, ?_, ?_⟩
      · rw [hmsg]
        exact hms
      · rw [hrow]
        exact htool

theorem stepQueued_messages (run : RunRow) (messages : List Message) (clk : Clock) :
    (Journal.stepQueued run messages clk).messages = messages := by
  unfold Journal.stepQueued conclude
  split <;> rfl

theorem postToolResult_messages {node : Node} {req : Request} {run : RunRow}
    (out : Journal.ToolOutput) (messages : List Message) (clk : Clock)
    (hopens : (openToolResult node req run).isOk = true) :
    (Journal.postToolResult node req out run messages clk).messages =
      messages ++ [answerOf req.toolUseId out] := by
  obtain ⟨hsession, hs, -⟩ := Journal.openToolResult_ok hopens
  obtain ⟨t, ht⟩ : ∃ t, advance (ctxFromRow run) .toolResult clk.advance = .ok t := by
    simp only [advance, toolResult, ctxFromRow_status, hs, ne_eq, not_true, if_false]
    split <;> exact ⟨_, rfl⟩
  unfold Journal.postToolResult
  rw [hsession]
  dsimp only
  rw [conclude_ok ht]
  rfl

theorem conversing_work {node : Node} {j : Journal} {env : StepEnv} (h : Conversing j)
    (hsend : SendsDialogue j (.work env)) : Conversing (j.step node (.work env)) := by
  obtain ⟨-, hrow, hmsg⟩ := step_log node j (.work env)
  cases hend : j.row.status.terminal with
  | true =>
    rw [step_of_none node j (.work env) (Journal.work_done j.messages env hend)]
    exact h
  | false =>
    have hwork : j.writes node (.work env) = Journal.work j.row j.messages env := rfl
    rw [hwork] at hrow hmsg
    unfold Journal.work at hrow hmsg
    by_cases hdl : j.row.status.terminal = false ∧ j.row.deadlineTs ≤ env.clk.check
    · rw [if_pos hdl] at hrow
      refine conversing_ended ?_
      rw [hrow, (Journal.stepExpire_eq j.messages env.clk hend).1]
      rfl
    rw [if_neg hdl] at hrow hmsg
    have hcheck : env.clk.check < j.row.deadlineTs := Int.not_le.mp fun h => hdl ⟨hend, h⟩
    cases hs : j.row.status with
    | queued =>
      simp only [hs] at hrow hmsg
      rw [stepQueued_messages] at hmsg
      have hstatus := (Journal.stepQueued_eq j.messages env.clk hs).1
      rw [← hrow] at hstatus
      split at hstatus
      · refine conversing_ended ?_
        rw [hstatus]
        rfl
      · rw [conversing_open (Or.inr hstatus), hmsg]
        exact (conversing_open (Or.inl hs)).mp h
    | running =>
      simp only [hs] at hrow hmsg
      exact conversing_stepRunning hs (fun hstart => hsend ⟨hs, hcheck, hstart⟩) hrow hmsg
    | requiresTool =>
      simp only [hs] at hrow hmsg
      rw [conversing_parked hs] at h
      rw [conversing_parked (by rw [hrow]; exact hs), hmsg, hrow]
      exact h
    | _ =>
      rw [hs] at hend
      cases hend

theorem conversing_cancel {node : Node} {j : Journal} {req : Request} {clk : Clock}
    (h : Conversing j) : Conversing (j.step node (.cancel req clk)) := by
  obtain ⟨-, hrow, -⟩ := step_log node j (.cancel req clk)
  by_cases hopens : (openCancel node req j.row).isOk = true
  · obtain ⟨hstatus, -⟩ := Journal.cancelRun_eq j.messages clk hopens
    refine conversing_ended ?_
    rw [hrow]
    show (Journal.cancelRun node req j.row j.messages clk).row.status.terminal = true
    rw [hstatus]
    split
    · assumption
    · rfl
  · rw [step_of_none node j (.cancel req clk)
      (Journal.cancelRun_rejected j.messages clk hopens)]
    exact h

theorem conversing_toolResult {node : Node} {j : Journal} {req : Request}
    {out : Journal.ToolOutput} {clk : Clock} (h : Conversing j) :
    Conversing (j.step node (.toolResult req out clk)) := by
  obtain ⟨-, hrow, hmsg⟩ := step_log node j (.toolResult req out clk)
  by_cases hopens : (openToolResult node req j.row).isOk = true
  · obtain ⟨hsession, hparked, htool⟩ := Journal.openToolResult_ok hopens
    have hstatus : (j.step node (.toolResult req out clk)).row.status = _ :=
      (congrArg RunRow.status hrow).trans
        (Journal.postToolResult_eq out j.messages clk hopens).1
    have hms : (j.step node (.toolResult req out clk)).messages = _ :=
      hmsg.trans (postToolResult_messages out j.messages clk hopens)
    split at hstatus
    · refine conversing_ended ?_
      rw [hstatus]
      rfl
    · -- the turn the run is parked on, and now the answer to the pending tool use
      obtain ⟨pre, blocks, id, hpre, hid, hturn, hpending⟩ := (conversing_parked hparked).mp h
      have hsame : id = req.toolUseId := Option.some.inj (hpending.symm.trans htool)
      rw [conversing_open (Or.inr hstatus), hms, hturn, List.append_assoc, ← hsame]
      exact Or.inr ⟨pre, blocks, id, out, hpre, hid, rfl⟩
  · rw [step_of_none node j (.toolResult req out clk)
      (Journal.postToolResult_rejected out j.messages clk hopens)]
    exact h

theorem conversing_step {node : Node} {j : Journal} {op : Op} (h : Conversing j)
    (hsend : SendsDialogue j op) : Conversing (j.step node op) := by
  cases op with
  | work env => exact conversing_work h hsend
  | cancel req clk => exact conversing_cancel h
  | toolResult req out clk => exact conversing_toolResult h

theorem sendsDialogue_iff {j : Journal} {op : Op} (h : Conversing j) :
    SendsDialogue j op ↔ OneToolATime j op := by
  cases op with
  | work env =>
    constructor
    · intro hd hs
      have hres := (conversing_open (Or.inr hs.1)).mp h
      exact (dialogue_sent_iff hres).mp (hd hs)
    · intro hg hs
      have hres := (conversing_open (Or.inr hs.1)).mp h
      exact (dialogue_sent_iff hres).mpr (hg hs)
  | cancel req clk => exact Iff.rfl
  | toolResult req out clk => exact Iff.rfl

theorem create_messages (c : Creation) : (Journal.create c).messages = c.seed := by
  unfold Journal.create
  dsimp only
  split <;> rfl

theorem create_status (c : Creation) : (Journal.create c).row.status = .queued := by
  unfold Journal.create
  dsimp only
  split <;> rfl

/-- **When a run's conversation stays well-formed.** In every sequential history of a run
whose seed is a dialogue, everything the worker sends to a model is a dialogue exactly when
the run never resumes from a turn that asked for more than one tool, and no compaction before
a call cuts between a tool use and its result. -/
theorem sent_dialogue_iff (node : Node) (c : Creation) (ops : List Op)
    (hseed : Dialogue [] c.seed) :
    Trace.Along (Journal.step node) SendsDialogue (Journal.create c) ops ↔
      Trace.Along (Journal.step node) OneToolATime (Journal.create c) ops := by
  have hstart : Conversing (Journal.create c) := by
    rw [conversing_open (Or.inl (create_status c)), create_messages]
    exact Or.inl hseed
  exact Trace.along_iff (I := Conversing) (V := fun _ _ => True)
    (fun _ _ h _ => sendsDialogue_iff h)
    (fun _ _ h _ hg => conversing_step h ((sendsDialogue_iff h).mpr hg)) hstart
    (Trace.along_of_forall fun _ _ => trivial)

/-- A turn with one tool use, answered: what is sent is a dialogue throughout. -/
theorem sent_dialogue_of_one_tool :
    let ops := [sampleWork 1 [], sampleWork 2 [.text "ok", .toolUse "t1" "ls" ""],
      .toolResult ⟨"k1", "t1"⟩ { outputText := "a.txt" } ⟨3, 3, 3⟩, sampleWork 4 [.text "done"]]
    Trace.Along (Journal.step sampleNode) SendsDialogue (Journal.create sampleCreation) ops := by
  intro ops
  exact (sent_dialogue_iff sampleNode sampleCreation ops (by decide)).mpr (by decide)

/-- A turn with two tool uses: the run parks on the first, resumes with its result and sends
the second without one. -/
theorem second_tool_use_unanswered :
    let ops := [sampleWork 1 [], sampleWork 2 [.toolUse "t1" "ls" "", .toolUse "t2" "pwd" ""],
      .toolResult ⟨"k1", "t1"⟩ { outputText := "a.txt" } ⟨3, 3, 3⟩]
    let j : Journal := Trace.run (Journal.step sampleNode) (Journal.create sampleCreation) ops
    let env : StepEnv :=
      { clk := ⟨4, 4, 4⟩
        attempts := [.answered ⟨1, 1, "p1", [.text "done"]⟩]
        respond := ⟨4, 4, 4⟩ }
    Dialogue [] sampleCreation.seed ∧ Sends j.row env ∧
      (Journal.sent j.row j.messages env).map (fun m => (m.toolUses, m.toolResults)) =
        [([], []), (["t1", "t2"], []), ([], ["t1"])] ∧
      ¬ SendsDialogue j (.work env) := by
  decide

end LlmProxy.Runs
