import LlmProxy.Dispatch.Coherence

/-! # The conversation of the proxy-tool hops

The hop loop of `dispatch_non_streaming` (`app/api/_messages_nonstream_dispatch.py`) appends the
whole turn of the model and the result of one tool. The protocol wants every `tool_use` block of
a turn answered in the user message behind it.

> `hopFrom_log`, `hopFrom_result`: the lists a loop sends, from the trace of its hops;
> `hops_keep_conversation_iff`: they answer every block exactly when each turn that is hopped
> carries the id of one `tool_use` only.

A loop that stops before its third hop leaves no use of a registered tool behind, whatever it sent.
-/

namespace LlmProxy.Dispatch

open LlmProxy.Streaming (Completion Block Response toAnthropicResponse)
open Logged

/-! ## The trace of the loop -/

/-- One hop: the turn it appends, and the tool it runs. -/
structure Hop where
  content : List Block
  tool : String
  input : Json
  toolUseId : String
  output : String

def Hop.messages (h : Hop) : List Json :=
  [message "assistant" (.arr (h.content.map blockJson)),
    buildToolResultMessage h.toolUseId h.output]

def hopOf (env : DispatchEnv) (n : Nat) (content : List Block) : Option Hop :=
  (findProxyToolUse (env.registry n) content).map fun found =>
    ⟨content, found.1, found.2.1, found.2.2, env.runTool n found.1 found.2.1⟩

def nextContent (env : DispatchEnv) (n : Nat) : Option (List Block) :=
  ((env.up.answer (.hop n)).toOption.bind fun result =>
    (toAnthropicResponse (env.tokenHex (.hop n)) result).toOption).map (·.content)

/-- The hops of a loop: `left` to go, the n-th next. -/
def hopTrace (env : DispatchEnv) : Nat → Nat → List Block → List Hop
  | 0, _, _ => []
  | left + 1, n, content =>
    match hopOf env n content with
    | none => []
    | some h =>
      h :: match nextContent env n with
        | none => []
        | some next => hopTrace env left (n + 1) next

/-- The message lists sent with a trace, each longer by one hop. -/
def sentLists (messages : List Json) : List Hop → List (List Json)
  | [] => []
  | h :: hops => (messages ++ h.messages) :: sentLists (messages ++ h.messages) hops

section

variable {ctx : DispatchCtx} {env : DispatchEnv}

theorem hopOf_of_none {n : Nat} {content : List Block}
    (h : findProxyToolUse (env.registry n) content = none) : hopOf env n content = none := by
  unfold hopOf
  rw [h]
  rfl

theorem hopFrom_found {left n : Nat} {messages : List Json} {served : Served} {h : Hop}
    (hhop : hopOf env n served.anthropic.content = some h) :
    hopFrom ctx env (left + 1) n messages served =
      (acompletionWithRetry env.up (.hop n) served.route (messages ++ h.messages) ctx.extra >>=
        fun result => convert (env.tokenHex (.hop n)) result >>= fun response =>
          hopFrom ctx env left (n + 1) (messages ++ h.messages) ⟨served.route, result, response⟩) := by
  unfold hopOf at hhop
  cases hfound : findProxyToolUse (env.registry n) served.anthropic.content with
  | none =>
    rw [hfound] at hhop
    cases hhop
  | some found =>
    rw [hfound] at hhop
    rw [← Option.some.inj hhop, hopFrom, hfound]
    rfl

theorem hopFrom_none {left n : Nat} {messages : List Json} {served : Served}
    (h : findProxyToolUse (env.registry n) served.anthropic.content = none) :
    hopFrom ctx env left n messages served = pure (messages, served) := by
  cases left with
  | zero => rfl
  | succ left => rw [hopFrom, h]

theorem hopFrom_step {left n : Nat} {messages : List Json} {served : Served} {h : Hop}
    (hhop : hopOf env n served.anthropic.content = some h) :
    (nextContent env n = none ∧ ∃ e, hopFrom ctx env (left + 1) n messages served =
        ⟨[⟨.hop n, served.route, served.route.litellmModel, messages ++ h.messages, ctx.extra⟩],
          .error e⟩) ∨
      ∃ next : Served, nextContent env n = some next.anthropic.content ∧
        hopFrom ctx env (left + 1) n messages served =
          ⟨⟨.hop n, served.route, served.route.litellmModel, messages ++ h.messages, ctx.extra⟩ ::
            (hopFrom ctx env left (n + 1) (messages ++ h.messages) next).log,
            (hopFrom ctx env left (n + 1) (messages ++ h.messages) next).result⟩ := by
  rw [hopFrom_found hhop]
  unfold nextContent
  cases hanswer : env.up.answer (.hop n) with
  | error e =>
    left
    refine ⟨rfl, e, ?_⟩
    rw [bind_of_error (show (acompletionWithRetry env.up (.hop n) served.route
      (messages ++ h.messages) ctx.extra).result = .error e from hanswer)]
    rfl
  | ok result =>
    rw [bind_of_ok (show (acompletionWithRetry env.up (.hop n) served.route
      (messages ++ h.messages) ctx.extra).result = .ok result from hanswer)]
    cases hresponse : toAnthropicResponse (env.tokenHex (.hop n)) result with
    | error text =>
      left
      refine ⟨?_, ⟨"ValueError", text⟩, ?_⟩
      · show (Option.bind (some result) _).map _ = none
        rw [Option.bind_some, hresponse]
        rfl
      · have hfails : (convert (env.tokenHex (.hop n)) result).result =
            .error ⟨"ValueError", text⟩ := by
          unfold convert
          rw [hresponse]
          rfl
        rw [bind_of_error hfails]
        rfl
    | ok response =>
      right
      refine ⟨⟨served.route, result, response⟩, ?_, ?_⟩
      · show (Option.bind (some result) _).map _ = some response.content
        rw [Option.bind_some, hresponse]
        rfl
      · rw [bind_of_ok (convert_of_ok hresponse)]
        rfl

/-- **What a loop sends.** -/
theorem hopFrom_log (left n : Nat) (messages : List Json) (served : Served) :
    (hopFrom ctx env left n messages served).log.map (·.messages) =
      sentLists messages (hopTrace env left n served.anthropic.content) := by
  induction left generalizing n messages served with
  | zero => rfl
  | succ left ih =>
    unfold hopTrace
    cases hhop : hopOf env n served.anthropic.content with
    | none =>
      have hfound : findProxyToolUse (env.registry n) served.anthropic.content = none := by
        simpa [hopOf] using hhop
      rw [hopFrom_none hfound]
      rfl
    | some h =>
      rcases @hopFrom_step ctx env left n messages served h hhop with
        ⟨hnext, e, hrun⟩ | ⟨next, hnext, hrun⟩
      · rw [hrun, hnext]
        rfl
      · rw [hrun, hnext]
        exact congrArg _ (ih (n + 1) (messages ++ h.messages) next)

/-- **What a loop ends with**: the conversation of its hops, and an answer without a use of a
registered tool unless the hops were used up. -/
theorem hopFrom_result {left n : Nat} {messages : List Json} {served : Served}
    {out : List Json × Served} (h : (hopFrom ctx env left n messages served).result = .ok out) :
    out.1 = messages ++ (hopTrace env left n served.anthropic.content).flatMap Hop.messages ∧
      ((hopTrace env left n served.anthropic.content).length = left ∨
        findProxyToolUse
          (env.registry (n + (hopTrace env left n served.anthropic.content).length))
          out.2.anthropic.content = none) := by
  induction left generalizing n messages served with
  | zero =>
    rw [← Except.ok.inj h]
    exact ⟨(List.append_nil _).symm, Or.inl rfl⟩
  | succ left ih =>
    unfold hopTrace
    cases hhop : hopOf env n served.anthropic.content with
    | none =>
      have hfound : findProxyToolUse (env.registry n) served.anthropic.content = none := by
        simpa [hopOf] using hhop
      rw [hopFrom_none hfound] at h
      rw [← Except.ok.inj h]
      exact ⟨(List.append_nil _).symm, Or.inr hfound⟩
    | some hop =>
      rcases @hopFrom_step ctx env left n messages served hop hhop with
        ⟨hnext, e, hrun⟩ | ⟨next, hnext, hrun⟩
      · rw [hrun] at h
        cases h
      · rw [hrun] at h
        obtain ⟨hmessages, hends⟩ := ih h
        rw [hnext]
        dsimp only
        rw [List.flatMap_cons, ← List.append_assoc, hmessages, List.length_cons,
          show n + ((hopTrace env left (n + 1) next.anthropic.content).length + 1) =
            n + 1 + (hopTrace env left (n + 1) next.anthropic.content).length from by omega]
        refine ⟨rfl, hends.imp_left fun hlength => ?_⟩
        rw [hlength]

end

/-! ## Answered turns -/

def messageBlocks (m : Json) : List Json :=
  match m.get? "content" with
  | some (.arr blocks) => blocks
  | _ => []

def blockId (type key : String) (block : Json) : Option String :=
  match block.get? "type", block.get? key with
  | some (.str t), some (.str id) => if t = type then some id else none
  | _, _ => none

def toolUseIds (m : Json) : List String := (messageBlocks m).filterMap (blockId "tool_use" "id")

def toolResultIds (m : Json) : List String :=
  (messageBlocks m).filterMap (blockId "tool_result" "tool_use_id")

/-- Every `tool_use` of the turn has exactly one `tool_result` in the message. -/
def AnswersEach (turn reply : Json) : Prop :=
  ∀ id ∈ toolUseIds turn, (toolResultIds reply).count id = 1

/-- The messages come in pairs, a turn and its answer. -/
def Answered : List Json → Prop
  | [] => True
  | [_] => False
  | turn :: reply :: rest => AnswersEach turn reply ∧ Answered rest

/-- A list sent: the caller's messages, and answered turns behind them. -/
def SentAnswered (base messages : List Json) : Prop :=
  ∃ appended, messages = base ++ appended ∧ Answered appended

/-- The ids of the `tool_use` blocks of a turn. -/
def useIds (content : List Block) : List String :=
  content.filterMap fun block => match block with
    | .toolUse id _ _ => some id
    | .text _ => none

/-- The hop's tool is the only one its turn asks for. -/
def Hop.Lone (h : Hop) : Prop := ∀ id ∈ useIds h.content, id = h.toolUseId

theorem toolUseIds_turn (content : List Block) :
    toolUseIds (message "assistant" (.arr (content.map blockJson))) = useIds content := by
  show (content.map blockJson).filterMap (blockId "tool_use" "id") = useIds content
  unfold useIds
  rw [List.filterMap_map]
  congr 1
  funext block
  cases block with
  | text text => rfl
  | toolUse id name input => rfl

theorem toolResultIds_result (toolUseId output : String) :
    toolResultIds (buildToolResultMessage toolUseId output) = [toolUseId] := rfl

theorem answersEach_hop (h : Hop) :
    AnswersEach (message "assistant" (.arr (h.content.map blockJson)))
      (buildToolResultMessage h.toolUseId h.output) ↔ h.Lone := by
  unfold AnswersEach Hop.Lone
  rw [toolUseIds_turn, toolResultIds_result]
  refine forall_congr' fun id => imp_congr_right fun _ => ?_
  by_cases heq : id = h.toolUseId
  · simp [heq]
  · simp [heq, Ne.symm heq]

theorem answered_append_hop {appended : List Json} (h : Answered appended) (hop : Hop) :
    Answered (appended ++ hop.messages) ↔ hop.Lone := by
  induction appended using Answered.induct with
  | case1 =>
    rw [List.nil_append, ← answersEach_hop]
    exact and_iff_left trivial
  | case2 turn => exact h.elim
  | case3 turn reply rest ih =>
    obtain ⟨hfirst, hrest⟩ := h
    rw [← ih hrest]
    exact and_iff_right hfirst

theorem sentAnswered_append {base appended : List Json} (h : Answered appended) (hop : Hop) :
    SentAnswered base (base ++ appended ++ hop.messages) ↔ hop.Lone := by
  rw [← answered_append_hop h hop]
  constructor
  · rintro ⟨rest, hsame, hrest⟩
    rw [List.append_assoc] at hsame
    rw [List.append_cancel_left hsame]
    exact hrest
  · exact fun hall => ⟨appended ++ hop.messages, List.append_assoc _ _ _, hall⟩

theorem sentLists_answered {base appended : List Json} (h : Answered appended) (hops : List Hop) :
    (∀ sent ∈ sentLists (base ++ appended) hops, SentAnswered base sent) ↔ ∀ hop ∈ hops, hop.Lone := by
  induction hops generalizing appended with
  | nil => simp [sentLists]
  | cons hop hops ih =>
    unfold sentLists
    rw [List.forall_mem_cons, List.forall_mem_cons, sentAnswered_append h hop]
    refine and_congr_right fun hlone => ?_
    rw [List.append_assoc]
    exact ih ((answered_append_hop h hop).mpr hlone)

/-! ## The condition on the answers -/

section

variable (env : DispatchEnv)

def turnFrom (n : Nat) (content : List Block) : Nat → Option (List Block)
  | 0 => some content
  | k + 1 => nextContent env (n + k)

/-- The turn uses a registered tool. -/
def UsesTool (n : Nat) (turn : Option (List Block)) : Prop :=
  ∃ content, turn = some content ∧ (findProxyToolUse (env.registry n) content).isSome = true

/-- Every `tool_use` of the turn carries the id of its first use of a registered tool. -/
def LoneTurn (n : Nat) (turn : Option (List Block)) : Prop :=
  ∀ content found, turn = some content →
    findProxyToolUse (env.registry n) content = some found → ∀ id ∈ useIds content, id = found.2.2

/-- Of the next answers each that is hopped is lone: the turn itself, then the answers to the
hops as long as they use a registered tool. -/
def LoneTurns (left n : Nat) (content : List Block) : Prop :=
  ∀ k < left, (∀ j ≤ k, UsesTool env (n + j) (turnFrom env n content j)) →
    LoneTurn env (n + k) (turnFrom env n content k)

end

variable {ctx : DispatchCtx} {env : DispatchEnv}

/-- The answers behind a turn that is hopped. -/
def LoneBehind (env : DispatchEnv) (left n : Nat) : Prop :=
  ∀ k < left, (∀ j ≤ k, UsesTool env (n + (j + 1)) (nextContent env (n + j))) →
    LoneTurn env (n + (k + 1)) (nextContent env (n + k))

theorem loneTurns_succ {left n : Nat} {content : List Block}
    (hfirst : UsesTool env n (some content)) :
    LoneTurns env (left + 1) n content ↔
      LoneTurn env n (some content) ∧ LoneBehind env left n := by
  constructor
  · intro hall
    refine ⟨hall 0 (Nat.succ_pos left) fun j hj => ?_, fun k hk huses => ?_⟩
    · rw [Nat.le_zero.mp hj]
      exact hfirst
    · refine hall (k + 1) (Nat.succ_lt_succ hk) fun j hj => ?_
      cases j with
      | zero => exact hfirst
      | succ j => exact huses j (Nat.le_of_succ_le_succ hj)
  · rintro ⟨hhead, htail⟩ k hk huses
    cases k with
    | zero => exact hhead
    | succ k =>
      exact htail k (Nat.lt_of_succ_lt_succ hk) fun j hj => huses (j + 1) (Nat.succ_le_succ hj)

theorem loneBehind_some {left n : Nat} {next : List Block} (hnext : nextContent env n = some next) :
    LoneBehind env left n ↔ LoneTurns env left (n + 1) next := by
  have hshift : ∀ k, turnFrom env (n + 1) next k = nextContent env (n + k) := by
    intro k
    cases k with
    | zero => exact hnext.symm
    | succ k =>
      show nextContent env (n + 1 + k) = nextContent env (n + (k + 1))
      rw [Nat.add_assoc, Nat.add_comm 1 k]
  have hindex : ∀ k, n + 1 + k = n + (k + 1) := fun k => by omega
  unfold LoneBehind LoneTurns
  simp only [hshift, hindex]

theorem loneBehind_none {left n : Nat} (hnext : nextContent env n = none) :
    LoneBehind env left n := by
  intro k _ huses
  obtain ⟨content, hsome, -⟩ := huses 0 (Nat.zero_le k)
  rw [Nat.add_zero, hnext] at hsome
  cases hsome

theorem loneTurn_some {n : Nat} {content : List Block} {found : String × Json × String}
    (hfound : findProxyToolUse (env.registry n) content = some found) :
    LoneTurn env n (some content) ↔ ∀ id ∈ useIds content, id = found.2.2 := by
  constructor
  · exact fun hturn => hturn content found rfl hfound
  · intro hall content' found' hsame hfound'
    rw [← Option.some.inj hsame, hfound] at hfound'
    rw [← Option.some.inj hsame, ← Option.some.inj hfound']
    exact hall

theorem hopTrace_lone_iff (left n : Nat) (content : List Block) :
    (∀ hop ∈ hopTrace env left n content, hop.Lone) ↔ LoneTurns env left n content := by
  induction left generalizing n content with
  | zero =>
    refine iff_of_true (fun hop hmem => absurd hmem List.not_mem_nil) fun k hk => ?_
    exact absurd hk (Nat.not_lt_zero k)
  | succ left ih =>
    unfold hopTrace
    cases hfound : findProxyToolUse (env.registry n) content with
    | none =>
      rw [hopOf_of_none hfound]
      refine iff_of_true (fun hop hmem => absurd hmem List.not_mem_nil) fun k _ huses => ?_
      -- the first turn uses no tool
      obtain ⟨content', hsame, huse⟩ := huses 0 (Nat.zero_le k)
      rw [← Option.some.inj hsame, Nat.add_zero, hfound] at huse
      cases huse
    | some found =>
      have hhop : hopOf env n content =
          some ⟨content, found.1, found.2.1, found.2.2, env.runTool n found.1 found.2.1⟩ := by
        unfold hopOf
        rw [hfound]
        rfl
      rw [hhop, loneTurns_succ ⟨content, rfl, by rw [hfound]; rfl⟩, loneTurn_some hfound]
      dsimp only
      rw [List.forall_mem_cons]
      refine and_congr_right fun _ => ?_
      cases hnext : nextContent env n with
      | none =>
        exact iff_of_true (fun hop hmem => absurd hmem List.not_mem_nil) (loneBehind_none hnext)
      | some next =>
        rw [loneBehind_some hnext]
        exact ih (n + 1) next

theorem not_mem_of_findProxyToolUse_none {registry : List String} {content : List Block}
    (h : findProxyToolUse registry content = none) {id name : String} {input : Json}
    (hmem : Block.toolUse id name input ∈ content) : name ∉ registry := by
  induction content with
  | nil => cases hmem
  | cons block rest ih =>
    cases block with
    | text text =>
      rcases List.mem_cons.mp hmem with heq | hrest
      · cases heq
      · exact ih h hrest
    | toolUse id' name' input' =>
      unfold findProxyToolUse at h
      split at h
      · cases h
      · next hout =>
        rcases List.mem_cons.mp hmem with heq | hrest
        · obtain ⟨-, hname, -⟩ := Block.toolUse.inj heq
          rw [hname]
          exact fun hin => hout (List.contains_iff_mem.mpr hin)
        · exact ih h hrest

/-- The hops keep the conversation well formed: every list they send is answered, and a loop that
stops before its third hop returns no use of a registered tool. -/
structure HopsKeep (ctx : DispatchCtx) (env : DispatchEnv) (served : Served) : Prop where
  answered : ∀ call ∈ (proxyHops ctx env served).log, SentAnswered ctx.messages call.messages
  finished : ctx.proxyToolsInjected = true → ∀ out, (proxyHops ctx env served).result = .ok out →
    (proxyHops ctx env served).log.length = 3 ∨
      ∀ id name input, Block.toolUse id name input ∈ out.2.anthropic.content →
        name ∉ env.registry (proxyHops ctx env served).log.length

theorem sentLists_length (messages : List Json) (hops : List Hop) :
    (sentLists messages hops).length = hops.length := by
  induction hops generalizing messages with
  | nil => rfl
  | cons hop hops ih => exact congrArg (· + 1) (ih (messages ++ hop.messages))

theorem proxyHops_of_injected (h : ctx.proxyToolsInjected = true) (served : Served) :
    proxyHops ctx env served = hopFrom ctx env 3 0 ctx.messages served := by
  rw [proxyHops, h]
  rfl

theorem hopFrom_answered_iff (served : Served) :
    (∀ call ∈ (hopFrom ctx env 3 0 ctx.messages served).log,
        SentAnswered ctx.messages call.messages) ↔ LoneTurns env 3 0 served.anthropic.content := by
  have hall := @sentLists_answered ctx.messages [] trivial
    (hopTrace env 3 0 served.anthropic.content)
  rw [List.append_nil, ← @hopFrom_log ctx env 3 0 ctx.messages served, List.forall_mem_map] at hall
  exact hall.trans (hopTrace_lone_iff 3 0 served.anthropic.content)

/-- **The hops keep the conversation well formed** exactly when every turn they answer asks for
one tool. -/
theorem hops_keep_conversation_iff (ctx : DispatchCtx) (env : DispatchEnv) (served : Served) :
    HopsKeep ctx env served ↔
      (ctx.proxyToolsInjected = true → LoneTurns env 3 0 served.anthropic.content) := by
  cases hinjected : ctx.proxyToolsInjected with
  | false =>
    have hrun : proxyHops ctx env served = pure (ctx.messages, served) := by
      rw [proxyHops, hinjected]
      rfl
    refine iff_of_true ⟨?_, fun hyes => ?_⟩ fun hyes => nomatch hyes
    · rw [hrun]
      exact fun call hmem => absurd hmem List.not_mem_nil
    · rw [hinjected] at hyes
      cases hyes
  | true =>
    have hrun := @proxyHops_of_injected ctx env hinjected served
    have hlength : (hopFrom ctx env 3 0 ctx.messages served).log.length =
        (hopTrace env 3 0 served.anthropic.content).length := by
      rw [← sentLists_length ctx.messages, ← @hopFrom_log ctx env, List.length_map]
    constructor
    · intro h _
      have hanswered := h.answered
      rw [hrun] at hanswered
      exact (hopFrom_answered_iff served).mp hanswered
    · intro h
      refine ⟨by rw [hrun]; exact (hopFrom_answered_iff served).mpr (h rfl), fun _ out hout => ?_⟩
      rw [hrun] at hout ⊢
      rw [hlength]
      rcases (hopFrom_result hout).2 with hcap | hnone
      · exact Or.inl hcap
      · rw [Nat.zero_add] at hnone
        exact Or.inr fun id name input hmem => not_mem_of_findProxyToolUse_none hnone hmem

/-! ### Two tools in one turn -/

/-- A request with the proxy tools injected. -/
def injectedCtx : DispatchCtx := { retryingCtx with proxyToolsInjected := true }

/-- The spreadsheet tool is registered, and every call is answered by a text. -/
def excelEnv : DispatchEnv where
  up := ⟨fun _ => .ok ⟨none, none, [⟨some "done", [], none⟩], none⟩, fun _ => []⟩
  cheapWorld := gptWorld
  graderWorld := gptWorld
  fallbackWorlds := fun _ => gptWorld
  refusalWorlds := fun _ => gptWorld
  registry := fun _ => ["read_xlsx_to_markdown"]
  runTool := fun _ _ _ => "| a |"
  tokenHex := fun _ _ => ""
  isalnum := fun _ => true

/-- A turn that reads a spreadsheet and asks the caller for the weather. -/
def mixedTurn : Served where
  route := claudeRoute
  result := ⟨none, none, [], none⟩
  anthropic :=
    { id := "msg", content := [.toolUse "a" "read_xlsx_to_markdown" (.obj []),
        .toolUse "b" "get_weather" (.obj [])]
      model := "claude-sonnet-4-6", stopReason := "tool_use", inputTokens := 0, outputTokens := 0
      cacheCreation := 0, cacheRead := 0 }

/-- The caller's tool of a mixed turn is left unanswered upstream. -/
theorem mixedTurn_unanswered : ¬ HopsKeep injectedCtx excelEnv mixedTurn := by
  intro h
  have hanswered := h.answered
  rw [proxyHops_of_injected rfl] at hanswered
  have hlone := (hopFrom_answered_iff mixedTurn).mp hanswered 0 (by decide) fun j hj => by
    rw [Nat.le_zero.mp hj]
    exact ⟨_, rfl, rfl⟩
  have hsame : "b" = "a" := hlone _ _ rfl rfl "b" (by decide)
  exact absurd hsame (by decide)

end LlmProxy.Dispatch
