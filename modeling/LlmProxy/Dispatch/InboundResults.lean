import LlmProxy.Dispatch.ProxyTools

/-! # Results the patcher fills in

`patch_inbound_tool_results` (`app/proxy_tools/__init__.py`) with its return value, and for each
block of a user turn the run it made there. A run is right when the block still waits for its
result and the call is that of the nearest assistant turn before it.

> `patch_right_iff`: all runs of a call are right, and it returns their number, exactly when no id is
> a list or a dict, no content is a list or a value other than text that the patcher would lose,
> and the last call with the id of a waiting result is one of the turn before it.

What the patcher writes is the output of its runs and nothing else (`patch_writes`), and a second
call on the result runs nothing (`patch_again`).
-/

namespace LlmProxy.Dispatch

/-! ## The call -/

/-- What a call leaves; where it raises nothing is returned. -/
structure PatchCall where
  messages : List Json
  runs : List PatchRun
  returned : Option Nat

/-- `patch_inbound_tool_results`, on a list. -/
def patchInboundToolResults (env : PatchEnv) (messages : List Json) : PatchCall :=
  if messages.length < 2 then ⟨messages, [], some 0⟩
  else match collectUses env.registry messages with
    | none => ⟨messages, [], none⟩
    | some [] => ⟨messages, [], some 0⟩
    | some uses =>
      let patched := patchMessages env uses 0 messages
      ⟨patched.values, patched.runs, if patched.failed then none else some patched.runs.length⟩

/-! ## Where the runs are -/

def traceBlocks (env : PatchEnv) (uses : List ToolUse) : Nat → List Json → List (Option PatchRun)
  | _, [] => []
  | n, block :: rest =>
    match patchTarget env.same uses block with
    | none => none :: rest.map fun _ => none
    | some none => none :: traceBlocks env uses n rest
    | some (some use) =>
      some ⟨use, env.runTool n use.tool use.input⟩ :: traceBlocks env uses (n + 1) rest

def nowhere (messages : List Json) : List (List (Option PatchRun)) :=
  messages.map fun m => (blocksOf "user" m).map fun _ => none

def traceMessages (env : PatchEnv) (uses : List ToolUse) :
    Nat → List Json → List (List (Option PatchRun))
  | _, [] => []
  | n, m :: rest =>
    let patched := patchBlocks env uses n (blocksOf "user" m)
    traceBlocks env uses n (blocksOf "user" m) ::
      if patched.failed then nowhere rest
      else traceMessages env uses (n + patched.runs.length) rest

def patchTrace (env : PatchEnv) (messages : List Json) : List (List (Option PatchRun)) :=
  if messages.length < 2 then nowhere messages
  else match collectUses env.registry messages with
    | none => nowhere messages
    | some [] => nowhere messages
    | some uses => traceMessages env uses 0 messages

/-! ## What is owed -/

def waitingText (s : String) : Bool :=
  PyStr.strip s == "" || ["PLACEHOLDER", "pending", "TODO", "...", "n/a"].contains (PyStr.strip s)

def waitingPart (block : Json) : Bool :=
  block.hasType "text" && match block.get? "text" with
    | none => true
    | some (.str s) => waitingText s
    | some _ => false

/-- The content is absent, blank or a placeholder, in any shape. -/
def waits : Option Json → Bool
  | none => true
  | some .null => true
  | some (.str s) => waitingText s
  | some (.arr blocks) => blocks.all waitingPart
  | some _ => false

def useOf (registry : List String) (block : Json) : Option ToolUse :=
  if block.hasType "tool_use" then
    match block.get? "name" with
    | some (.str name) =>
      if registry.contains name then
        some ⟨orDefault (block.get? "id") (.str ""), name, orDefault (block.get? "input") (.obj [])⟩
      else none
    | _ => none
  else none

def isAssistant (m : Json) : Bool :=
  match m.get? "role" with
  | some (.str r) => r == "assistant"
  | _ => false

def resultId (block : Json) : Json := orDefault (block.get? "tool_use_id") (.str "")

/-- The nearest assistant turn before the block makes this call under its id. -/
def CalledBefore (env : PatchEnv) (before : List Json) (block : Json) (use : ToolUse) : Prop :=
  ∃ m, before.reverse.find? isAssistant = some m ∧
    ∃ call ∈ (blocksOf "assistant" m).filterMap (useOf env.registry),
      sameId env.same call.id (resultId block) = true ∧ call.tool = use.tool ∧
        call.input = use.input

/-- A run is for a result that waits, and is that of its call. -/
def RightRun (env : PatchEnv) (before : List Json) (block : Json) : Option PatchRun → Prop
  | none => True
  | some run => block.hasType "tool_result" = true ∧ waits (block.get? "content") = true ∧
      CalledBefore env before block run.use

/-- All runs are right; `before` are the messages before these. -/
def RightTrace (env : PatchEnv) : List Json → List Json → List (List (Option PatchRun)) → Prop
  | _, [], [] => True
  | before, m :: rest, t :: ts =>
    List.Forall₂ (RightRun env before) (blocksOf "user" m) t ∧
      RightTrace env (before ++ [m]) rest ts
  | _, _, _ => False

def writtenBlock (block : Json) : Option PatchRun → Json
  | none => block
  | some run => setMember "content" (.str run.output) block

/-- A message with the outputs of the runs at its blocks. -/
def written (m : Json) (t : List (Option PatchRun)) : Json :=
  if t.any Option.isSome then
    setMember "content" (.arr (List.zipWith writtenBlock (blocksOf "user" m) t)) m
  else m

structure PatchRight (env : PatchEnv) (messages : List Json) : Prop where
  runs : RightTrace env [] messages (patchTrace env messages)
  ran : (patchTrace env messages).flatten.reduceOption =
    (patchInboundToolResults env messages).runs
  outputs : ∀ n run, (patchInboundToolResults env messages).runs[n]? = some run →
    run.output = env.runTool n run.use.tool run.use.input
  written : (patchInboundToolResults env messages).messages =
    List.zipWith written messages (patchTrace env messages)
  returned : (patchInboundToolResults env messages).returned =
    some (patchInboundToolResults env messages).runs.length
  again : (∀ run ∈ (patchInboundToolResults env messages).runs, waitingText run.output = false) →
    ∀ runTool, patchInboundToolResults { env with runTool := runTool }
        (patchInboundToolResults env messages).messages =
      ⟨(patchInboundToolResults env messages).messages, [], some 0⟩

/-! ## The condition -/

/-- The name and the id of the call are no lists and no dicts. -/
def readableCall (registry : List String) (block : Json) : Bool :=
  if block.hasType "tool_use" then
    match block.get? "name" with
    | some (.str name) =>
      !registry.contains name || Json.hashable (orDefault (block.get? "id") (.str ""))
    | some (.arr _) => false
    | some (.obj _) => false
    | _ => true
  else true

def readableResult (block : Json) : Bool :=
  !block.hasType "tool_result" || (resultId block).hashable

def callsIn (registry : List String) (messages : List Json) : List ToolUse :=
  (messages.flatMap (blocksOf "assistant")).filterMap (useOf registry)

/-- The last registered call with the id of the result. -/
def lastCall (env : PatchEnv) (messages : List Json) (block : Json) : Option ToolUse :=
  (callsIn env.registry messages).reverse.find? fun use => sameId env.same use.id (resultId block)

/-- Ids can be looked up. -/
def ReadableIds (env : PatchEnv) (messages : List Json) : Prop :=
  messages.length < 2 ∨
    (∀ block ∈ messages.flatMap (blocksOf "assistant"), readableCall env.registry block = true) ∧
      (callsIn env.registry messages = [] ∨
        ∀ block ∈ messages.flatMap (blocksOf "user"), readableResult block = true)

/-- A result with a registered call and without a text of its own waits, and the last call with
its id is one of the turn before it. -/
def Answerable (env : PatchEnv) (messages : List Json) : Prop :=
  ∀ before m after, messages = before ++ m :: after →
    ∀ block ∈ blocksOf "user" m, block.hasType "tool_result" = true →
      isPlaceholder (block.get? "content") = true → ∀ use, lastCall env messages block = some use →
        waits (block.get? "content") = true ∧ CalledBefore env before block use

/-! ## Members of a block -/

theorem get?_setMember_self {key : String} {value : Json} {members : List (String × Json)} :
    (setMember key value (.obj members)).get? key = some value := by
  rw [setMember]
  split
  · next hany =>
    obtain ⟨m, hmem, hkey⟩ := List.any_eq_true.mp hany
    unfold Json.get?
    simp only [Json.find?_replaced]
    cases hfind : members.reverse.find? (·.1 = key) with
    | none =>
      have hnot := List.find?_eq_none.mp hfind m (List.mem_reverse.mpr hmem)
      exact absurd (by simpa using hkey) (by simpa using hnot)
    | some found =>
      have hfound : found.1 = key := by simpa using List.find?_some hfind
      simp [hfound]
  · simp [Json.get?]

theorem get?_setMember_ne {key other : String} {value j : Json} (h : other ≠ key) :
    (setMember key value j).get? other = j.get? other := by
  unfold setMember
  cases j with
  | obj members =>
    dsimp only
    split
    · unfold Json.get?
      simp only [Json.find?_replaced]
      cases hfind : members.reverse.find? (·.1 = other) with
      | none => rfl
      | some found =>
        have hfound : found.1 = other := by simpa using List.find?_some hfind
        simp [hfound, h]
    · simp [Json.get?, Ne.symm h]
  | _ => rfl

theorem hasType_obj {type : String} {block : Json} (h : block.hasType type = true) :
    ∃ members, block = .obj members := by
  unfold Json.hasType Json.get? at h
  cases block with
  | obj members => exact ⟨members, rfl⟩
  | _ => cases h

/-! ## The calls -/

theorem collectUse_eq {registry : List String} {uses : List ToolUse} {block : Json} :
    collectUse registry uses block =
      if readableCall registry block then some (uses ++ (useOf registry block).toList) else none := by
  unfold collectUse readableCall useOf
  split
  · cases hname : block.get? "name" with
    | none => simp
    | some name =>
      cases name with
      | str name =>
        dsimp only
        by_cases hin : registry.contains name = true
        · simp [List.contains_iff_mem.mp hin]
        · have hout : name ∉ registry := fun hmem => hin (List.contains_iff_mem.mpr hmem)
          simp [hout]
      | _ => simp
  · simp

theorem foldlM_collectUse {registry : List String} {blocks : List Json} {uses : List ToolUse} :
    blocks.foldlM (collectUse registry) uses =
      if blocks.all (readableCall registry) then
        some (uses ++ blocks.filterMap (useOf registry))
      else none := by
  induction blocks generalizing uses with
  | nil => simp
  | cons block rest ih =>
    rw [List.foldlM_cons, collectUse_eq, List.all_cons]
    cases hblock : readableCall registry block with
    | false => rfl
    | true =>
      rw [if_pos rfl, Option.bind_eq_bind, Option.bind_some, ih, Bool.true_and, List.filterMap_cons]
      cases useOf registry block with
      | none => simp
      | some use => simp

theorem collectUses_eq {registry : List String} {messages : List Json} :
    collectUses registry messages =
      if (messages.flatMap (blocksOf "assistant")).all (readableCall registry) then
        some (callsIn registry messages)
      else none := by
  unfold collectUses callsIn
  rw [foldlM_collectUse, List.nil_append]

/-! ## The loops and their trace -/

section

variable {env : PatchEnv} {uses : List ToolUse}

theorem patchTarget_none_iff {same : Json → Json → Bool} {block : Json} :
    patchTarget same uses block = none ↔ readableResult block = false := by
  unfold patchTarget readableResult resultId
  cases block.hasType "tool_result" with
  | false => simp
  | true =>
    dsimp only
    cases Json.hashable (orDefault (block.get? "tool_use_id") (.str "")) with
    | false => simp
    | true => simp

theorem zipWith_writtenBlock_none (blocks : List Json) :
    List.zipWith writtenBlock blocks (blocks.map fun _ => none) = blocks := by
  induction blocks with
  | nil => rfl
  | cons block rest ih => rw [List.map_cons, List.zipWith_cons_cons, ih, writtenBlock]

theorem reduceOption_none (blocks : List Json) :
    (blocks.map fun _ => (none : Option PatchRun)).reduceOption = [] := by
  induction blocks with
  | nil => rfl
  | cons block rest ih => rw [List.map_cons, List.reduceOption_cons_of_none, ih]

theorem traceBlocks_runs (n : Nat) (blocks : List Json) :
    (traceBlocks env uses n blocks).reduceOption = (patchBlocks env uses n blocks).runs := by
  induction blocks generalizing n with
  | nil => rfl
  | cons block rest ih =>
    cases htarget : patchTarget env.same uses block with
    | none =>
      simp only [traceBlocks, patchBlocks, htarget]
      rw [List.reduceOption_cons_of_none, reduceOption_none]
    | some target =>
      cases target with
      | none =>
        simp only [traceBlocks, patchBlocks, htarget]
        rw [List.reduceOption_cons_of_none, ih]
      | some use =>
        simp only [traceBlocks, patchBlocks, htarget]
        rw [List.reduceOption_cons_of_some, ih]

theorem patchBlocks_values (n : Nat) (blocks : List Json) :
    (patchBlocks env uses n blocks).values =
      List.zipWith writtenBlock blocks (traceBlocks env uses n blocks) := by
  induction blocks generalizing n with
  | nil => rfl
  | cons block rest ih =>
    cases htarget : patchTarget env.same uses block with
    | none =>
      simp only [traceBlocks, patchBlocks, htarget]
      rw [List.zipWith_cons_cons, zipWith_writtenBlock_none, writtenBlock]
    | some target =>
      cases target with
      | none =>
        simp only [traceBlocks, patchBlocks, htarget]
        rw [List.zipWith_cons_cons, ih, writtenBlock]
      | some use =>
        simp only [traceBlocks, patchBlocks, htarget]
        rw [List.zipWith_cons_cons, ih, writtenBlock]

theorem patchBlocks_failed (n : Nat) (blocks : List Json) :
    (patchBlocks env uses n blocks).failed = !blocks.all readableResult := by
  induction blocks generalizing n with
  | nil => rfl
  | cons block rest ih =>
    unfold patchBlocks
    rw [List.all_cons]
    split
    · next htarget => rw [patchTarget_none_iff.mp htarget, Bool.false_and, Bool.not_false]
    · next htarget =>
      have hread : readableResult block = true := by
        rw [← Bool.not_eq_false, ← @patchTarget_none_iff uses env.same, htarget]
        exact Option.some_ne_none _
      rw [hread, Bool.true_and, ih]
    · next htarget =>
      have hread : readableResult block = true := by
        rw [← Bool.not_eq_false, ← @patchTarget_none_iff uses env.same, htarget]
        exact Option.some_ne_none _
      rw [hread, Bool.true_and, ih]

theorem patchBlocks_outputs (n : Nat) (blocks : List Json) (k : Nat) (run : PatchRun)
    (h : (patchBlocks env uses n blocks).runs[k]? = some run) :
    run.output = env.runTool (n + k) run.use.tool run.use.input := by
  induction blocks generalizing n k with
  | nil => cases h
  | cons block rest ih =>
    unfold patchBlocks at h
    split at h
    · cases h
    · exact ih n k h
    · cases k with
      | zero =>
        cases h
        rfl
      | succ k =>
        have hrun := ih (n + 1) k h
        rwa [Nat.add_right_comm] at hrun

theorem any_isSome_iff {t : List (Option PatchRun)} :
    t.any Option.isSome = !t.reduceOption.isEmpty := by
  induction t with
  | nil => rfl
  | cons run t ih =>
    cases run with
    | none => rw [List.any_cons, ih, List.reduceOption_cons_of_none]; rfl
    | some run => rw [List.reduceOption_cons_of_some]; rfl

theorem zipWith_written_nowhere (messages : List Json) :
    List.zipWith written messages (nowhere messages) = messages := by
  induction messages with
  | nil => rfl
  | cons m rest ih =>
    have hsame : written m ((blocksOf "user" m).map fun _ => none) = m := by
      unfold written
      rw [any_isSome_iff, reduceOption_none]
      rfl
    rw [nowhere, List.map_cons, List.zipWith_cons_cons, hsame]
    exact congrArg (m :: ·) ih

theorem flatten_nowhere (messages : List Json) : (nowhere messages).flatten.reduceOption = [] := by
  induction messages with
  | nil => rfl
  | cons m rest ih =>
    rw [nowhere, List.map_cons, List.flatten_cons, List.reduceOption_append, reduceOption_none]
    exact ih

theorem traceMessages_runs (n : Nat) (messages : List Json) :
    (traceMessages env uses n messages).flatten.reduceOption =
      (patchMessages env uses n messages).runs := by
  induction messages generalizing n with
  | nil => rfl
  | cons m rest ih =>
    unfold traceMessages patchMessages
    dsimp only
    rw [List.flatten_cons, List.reduceOption_append, traceBlocks_runs]
    split
    · rw [flatten_nowhere, List.append_nil]
    · rw [ih]

theorem patchMessages_values (n : Nat) (messages : List Json) :
    (patchMessages env uses n messages).values =
      List.zipWith written messages (traceMessages env uses n messages) := by
  induction messages generalizing n with
  | nil => rfl
  | cons m rest ih =>
    have hhere : written m (traceBlocks env uses n (blocksOf "user" m)) =
        if (patchBlocks env uses n (blocksOf "user" m)).runs.isEmpty then m
        else setMember "content" (.arr (patchBlocks env uses n (blocksOf "user" m)).values) m := by
      unfold written
      rw [any_isSome_iff, traceBlocks_runs, patchBlocks_values]
      cases (patchBlocks env uses n (blocksOf "user" m)).runs.isEmpty with
      | true => rfl
      | false => rfl
    unfold traceMessages patchMessages
    dsimp only
    rw [List.zipWith_cons_cons, hhere]
    split
    · rw [zipWith_written_nowhere]
    · rw [ih]

theorem patchMessages_failed (n : Nat) (messages : List Json) :
    (patchMessages env uses n messages).failed =
      !(messages.flatMap (blocksOf "user")).all readableResult := by
  induction messages generalizing n with
  | nil => rfl
  | cons m rest ih =>
    unfold patchMessages
    dsimp only
    rw [List.flatMap_cons, List.all_append, patchBlocks_failed]
    cases (blocksOf "user" m).all readableResult with
    | false => rfl
    | true =>
      rw [Bool.not_true, if_neg Bool.false_ne_true, Bool.true_and]
      exact ih _

theorem patchMessages_outputs (n : Nat) (messages : List Json) (k : Nat) (run : PatchRun)
    (h : (patchMessages env uses n messages).runs[k]? = some run) :
    run.output = env.runTool (n + k) run.use.tool run.use.input := by
  induction messages generalizing n k with
  | nil => cases h
  | cons m rest ih =>
    unfold patchMessages at h
    dsimp only at h
    split at h
    · exact patchBlocks_outputs n _ k run h
    · rw [List.getElem?_append] at h
      split at h
      · exact patchBlocks_outputs n _ k run h
      · next hbehind =>
        have hrun := ih _ _ h
        have hindex : n + (patchBlocks env uses n (blocksOf "user" m)).runs.length +
            (k - (patchBlocks env uses n (blocksOf "user" m)).runs.length) = n + k := by omega
        rwa [hindex] at hrun

theorem traceBlocks_right {before : List Json} (n : Nat) (blocks : List Json)
    (hread : blocks.all readableResult = true) :
    List.Forall₂ (RightRun env before) blocks (traceBlocks env uses n blocks) ↔
      ∀ block ∈ blocks, ∀ use, patchTarget env.same uses block = some (some use) →
        waits (block.get? "content") = true ∧ CalledBefore env before block use := by
  induction blocks generalizing n with
  | nil => simp [traceBlocks]
  | cons block rest ih =>
    rw [List.all_cons, Bool.and_eq_true] at hread
    rw [List.forall_mem_cons]
    cases htarget : patchTarget env.same uses block with
    | none => exact absurd (hread.1.symm.trans (patchTarget_none_iff.mp htarget)) Bool.true_eq_false.mp
    | some target =>
      cases target with
      | none =>
        simp only [traceBlocks, htarget]
        rw [List.forall₂_cons, ih n hread.2]
        simp [RightRun]
      | some use =>
        simp only [traceBlocks, htarget]
        rw [List.forall₂_cons, ih (n + 1) hread.2]
        simp [RightRun, (patchTarget_some htarget).2]

theorem traceMessages_right {before : List Json} (n : Nat) (messages : List Json)
    (hread : (messages.flatMap (blocksOf "user")).all readableResult = true) :
    RightTrace env before messages (traceMessages env uses n messages) ↔
      ∀ front m back, messages = front ++ m :: back → ∀ block ∈ blocksOf "user" m, ∀ use,
        patchTarget env.same uses block = some (some use) →
          waits (block.get? "content") = true ∧ CalledBefore env (before ++ front) block use := by
  induction messages generalizing before n with
  | nil => simp [traceMessages, RightTrace]
  | cons m rest ih =>
    rw [List.flatMap_cons, List.all_append, Bool.and_eq_true] at hread
    have hgoes : (patchBlocks env uses n (blocksOf "user" m)).failed = false := by
      rw [patchBlocks_failed, hread.1]
      rfl
    simp only [traceMessages, hgoes, Bool.false_eq_true, if_false, RightTrace]
    rw [traceBlocks_right n _ hread.1, ih _ hread.2]
    constructor
    · rintro ⟨hhere, hrest⟩ front m' back heq
      cases front with
      | nil =>
        obtain ⟨rfl, rfl⟩ := List.cons.inj heq
        rwa [List.append_nil]
      | cons first front =>
        obtain ⟨rfl, hback⟩ := List.cons.inj heq
        rw [List.append_cons]
        exact hrest front m' back hback
    · intro h
      refine ⟨?_, ?_⟩
      · have hhere := h [] m rest rfl
        rwa [List.append_nil] at hhere
      · intro front m' back heq
        rw [← List.append_cons]
        exact h (m :: front) m' back (by rw [heq]; rfl)

/-! ## A second call -/

theorem patchBlocks_idle (n : Nat) {blocks : List Json}
    (h : ∀ block ∈ blocks, patchTarget env.same uses block = some none) :
    patchBlocks env uses n blocks = ⟨blocks, [], false⟩ := by
  induction blocks with
  | nil => rfl
  | cons block rest ih =>
    obtain ⟨hblock, hrest⟩ := List.forall_mem_cons.mp h
    simp only [patchBlocks, hblock, ih hrest]

theorem patchMessages_idle (n : Nat) {messages : List Json}
    (h : ∀ m ∈ messages, ∀ block ∈ blocksOf "user" m, patchTarget env.same uses block = some none) :
    patchMessages env uses n messages = ⟨messages, [], false⟩ := by
  induction messages generalizing n with
  | nil => rfl
  | cons m rest ih =>
    obtain ⟨hm, hrest⟩ := List.forall_mem_cons.mp h
    simp only [patchMessages, patchBlocks_idle n hm, ih _ hrest]
    rfl

theorem patchTarget_filled {block : Json} {use : ToolUse} {output : String}
    (htarget : patchTarget env.same uses block = some (some use))
    (houtput : waitingText output = false) :
    patchTarget env.same uses (setMember "content" (.str output) block) = some none := by
  obtain ⟨members, rfl⟩ := hasType_obj (patchTarget_some htarget).2
  have hread : readableResult (.obj members) = true := by
    rw [← Bool.not_eq_false, ← @patchTarget_none_iff uses env.same, htarget]
    exact Option.some_ne_none _
  have hplaceholder : isPlaceholder (some (.str output)) = false := houtput
  have htype := (patchTarget_some htarget).2
  unfold readableResult resultId at hread
  rw [htype, Bool.not_true, Bool.false_or] at hread
  have htype' : (setMember "content" (.str output) (.obj members)).hasType "tool_result" = true := by
    unfold Json.hasType at htype ⊢
    rwa [get?_setMember_ne (by decide)]
  unfold patchTarget
  rw [htype', if_pos rfl, get?_setMember_ne (by decide), get?_setMember_self, hplaceholder]
  simp [hread]

theorem patchBlocks_filled (n : Nat) {blocks : List Json}
    (hread : blocks.all readableResult = true)
    (houtputs : ∀ run ∈ (patchBlocks env uses n blocks).runs, waitingText run.output = false) :
    ∀ block ∈ (patchBlocks env uses n blocks).values,
      patchTarget env.same uses block = some none := by
  induction blocks generalizing n with
  | nil => exact fun block hmem => absurd hmem List.not_mem_nil
  | cons block rest ih =>
    rw [List.all_cons, Bool.and_eq_true] at hread
    cases htarget : patchTarget env.same uses block with
    | none => exact absurd (hread.1.symm.trans (patchTarget_none_iff.mp htarget)) Bool.true_eq_false.mp
    | some target =>
      cases target with
      | none =>
        simp only [patchBlocks, htarget] at houtputs ⊢
        exact List.forall_mem_cons.mpr ⟨htarget, ih n hread.2 houtputs⟩
      | some use =>
        simp only [patchBlocks, htarget] at houtputs ⊢
        obtain ⟨hfirst, hrest⟩ := List.forall_mem_cons.mp houtputs
        exact List.forall_mem_cons.mpr
          ⟨patchTarget_filled htarget hfirst, ih (n + 1) hread.2 hrest⟩

theorem patchBlocks_unmoved (n : Nat) (blocks : List Json)
    (h : (patchBlocks env uses n blocks).runs.isEmpty = true) :
    (patchBlocks env uses n blocks).values = blocks := by
  induction blocks generalizing n with
  | nil => rfl
  | cons block rest ih =>
    cases htarget : patchTarget env.same uses block with
    | none => simp only [patchBlocks, htarget]
    | some target =>
      cases target with
      | none =>
        simp only [patchBlocks, htarget] at h ⊢
        rw [ih n h]
      | some use =>
        simp only [patchBlocks, htarget] at h
        cases h

theorem role_of_blocksOf {role : String} {m : Json} (h : blocksOf role m ≠ []) :
    ∃ members blocks, m = .obj members ∧ m.get? "role" = some (.str role) ∧
      m.get? "content" = some (.arr blocks) := by
  unfold blocksOf at h
  split at h
  · next r blocks hrole hcontent =>
    split at h
    · next hr =>
      cases m with
      | obj members => exact ⟨members, blocks, rfl, hr ▸ hrole, hcontent⟩
      | _ => cases hrole
    · exact absurd rfl h
  · exact absurd rfl h

theorem blocksOf_setMember {role : String} {m : Json} {blocks : List Json}
    (h : blocksOf "user" m ≠ []) :
    blocksOf role (setMember "content" (.arr blocks) m) = if "user" = role then blocks else [] := by
  obtain ⟨members, old, rfl, hrole, -⟩ := role_of_blocksOf h
  unfold blocksOf
  rw [get?_setMember_ne (by decide), get?_setMember_self, hrole]

theorem blocksOf_user {m : Json} {role : String} (h : blocksOf "user" m ≠ [])
    (hrole : "user" ≠ role) : blocksOf role m = [] := by
  obtain ⟨members, old, rfl, huser, hcontent⟩ := role_of_blocksOf h
  unfold blocksOf
  rw [huser, hcontent]
  exact if_neg hrole

theorem blocks_of_run {n : Nat} {m : Json}
    (h : (patchBlocks env uses n (blocksOf "user" m)).runs.isEmpty = false) :
    blocksOf "user" m ≠ [] := by
  intro hnone
  rw [hnone] at h
  cases h

theorem patchMessages_filled (n : Nat) {messages : List Json}
    (hread : (messages.flatMap (blocksOf "user")).all readableResult = true)
    (houtputs : ∀ run ∈ (patchMessages env uses n messages).runs,
      waitingText run.output = false) :
    (∀ m ∈ (patchMessages env uses n messages).values, ∀ block ∈ blocksOf "user" m,
        patchTarget env.same uses block = some none) ∧
      (patchMessages env uses n messages).values.flatMap (blocksOf "assistant") =
        messages.flatMap (blocksOf "assistant") ∧
      (patchMessages env uses n messages).values.length = messages.length := by
  induction messages generalizing n with
  | nil => exact ⟨fun m hmem => absurd hmem List.not_mem_nil, rfl, rfl⟩
  | cons m rest ih =>
    rw [List.flatMap_cons, List.all_append, Bool.and_eq_true] at hread
    have hgoes : (patchBlocks env uses n (blocksOf "user" m)).failed = false := by
      rw [patchBlocks_failed, hread.1]
      rfl
    simp only [patchMessages, hgoes, Bool.false_eq_true, if_false] at houtputs ⊢
    obtain ⟨hhere, hrest⟩ := List.forall_mem_append.mp houtputs
    obtain ⟨hidle, hcalls, hlength⟩ := ih _ hread.2 hrest
    have hblocks := patchBlocks_filled n hread.1 hhere
    rw [List.forall_mem_cons, List.flatMap_cons, List.flatMap_cons, hcalls, List.length_cons,
      List.length_cons, hlength]
    refine ⟨⟨?_, hidle⟩, ?_, rfl⟩
    · cases hruns : (patchBlocks env uses n (blocksOf "user" m)).runs.isEmpty with
      | true =>
        rw [if_pos rfl]
        rwa [patchBlocks_unmoved n _ hruns] at hblocks
      | false =>
        rw [if_neg Bool.false_ne_true, blocksOf_setMember (blocks_of_run hruns), if_pos rfl]
        exact hblocks
    · cases hruns : (patchBlocks env uses n (blocksOf "user" m)).runs.isEmpty with
      | true => rfl
      | false =>
        rw [if_neg Bool.false_ne_true, blocksOf_setMember (blocks_of_run hruns),
          if_neg (by decide), blocksOf_user (blocks_of_run hruns) (by decide)]

end

/-! ## The call as a whole -/

section

variable {env : PatchEnv} {messages : List Json}

theorem patchTarget_calls {block : Json} {use : ToolUse} (hread : readableResult block = true) :
    patchTarget env.same (callsIn env.registry messages) block = some (some use) ↔
      block.hasType "tool_result" = true ∧ isPlaceholder (block.get? "content") = true ∧
        lastCall env messages block = some use := by
  unfold readableResult resultId at hread
  unfold patchTarget lastCall resultId
  cases htype : block.hasType "tool_result" with
  | false => simp
  | true =>
    rw [htype, Bool.not_true, Bool.false_or] at hread
    rw [if_pos rfl]
    dsimp only
    rw [hread, if_pos rfl]
    cases isPlaceholder (block.get? "content") with
    | false => simp
    | true => simp

theorem lastCall_none {block : Json} (h : callsIn env.registry messages = []) :
    lastCall env messages block = none := by
  unfold lastCall
  rw [h]
  rfl

/-- Whether the loops of a call run. -/
def Runs (env : PatchEnv) (messages : List Json) : Prop :=
  ¬ messages.length < 2 ∧ collectUses env.registry messages = some (callsIn env.registry messages) ∧
    callsIn env.registry messages ≠ []

theorem patch_cases :
    (¬ Runs env messages ∧ patchTrace env messages = nowhere messages ∧
      patchInboundToolResults env messages = ⟨messages, [],
        if messages.length < 2 ∨ (collectUses env.registry messages).isSome = true then some 0
        else none⟩) ∨
    (Runs env messages ∧
      patchTrace env messages = traceMessages env (callsIn env.registry messages) 0 messages ∧
      patchInboundToolResults env messages =
        ⟨(patchMessages env (callsIn env.registry messages) 0 messages).values,
          (patchMessages env (callsIn env.registry messages) 0 messages).runs,
          if (patchMessages env (callsIn env.registry messages) 0 messages).failed then none
          else some (patchMessages env (callsIn env.registry messages) 0 messages).runs.length⟩) := by
  unfold patchInboundToolResults patchTrace Runs
  by_cases hfew : messages.length < 2
  · simp [hfew]
  · rw [if_neg hfew, if_neg hfew]
    cases hcollect : collectUses env.registry messages with
    | none => simp [hfew]
    | some uses =>
      have huses : uses = callsIn env.registry messages := by
        rw [collectUses_eq] at hcollect
        split at hcollect
        · exact (Option.some.inj hcollect).symm
        · cases hcollect
      rw [← huses]
      cases uses with
      | nil => simp
      | cons use uses => simp [hfew]

theorem readable_of_runs (h : Runs env messages) : ReadableIds env messages ↔
    (messages.flatMap (blocksOf "user")).all readableResult = true := by
  have hcalls : ∀ block ∈ messages.flatMap (blocksOf "assistant"),
      readableCall env.registry block = true := by
    have hcollect := h.2.1
    rw [collectUses_eq] at hcollect
    split at hcollect
    · next hall => exact List.all_eq_true.mp hall
    · cases hcollect
  unfold ReadableIds
  rw [List.all_eq_true]
  constructor
  · rintro (hfew | ⟨-, hnone | hread⟩)
    · exact absurd hfew h.1
    · exact absurd hnone h.2.2
    · exact hread
  · exact fun hread => .inr ⟨hcalls, .inr hread⟩

theorem readable_of_not_runs (h : ¬ Runs env messages) : ReadableIds env messages ↔
    (messages.length < 2 ∨ (collectUses env.registry messages).isSome = true) := by
  unfold ReadableIds
  rw [collectUses_eq]
  by_cases hfew : messages.length < 2
  · simp [hfew]
  · cases hall : (messages.flatMap (blocksOf "assistant")).all (readableCall env.registry) with
    | true =>
      have hcalls : callsIn env.registry messages = [] := by
        by_contra hne
        refine h ⟨hfew, ?_, hne⟩
        rw [collectUses_eq, hall]
        rfl
      have hread := List.all_eq_true.mp hall
      simp only [hcalls, true_or, and_true, if_true, Option.isSome_some, or_true, iff_true]
      exact .inr hread
    | false =>
      rw [List.all_eq_false] at hall
      obtain ⟨block, hmem, hblock⟩ := hall
      refine iff_of_false ?_ (by simp [hfew])
      rintro (hless | ⟨hread, -⟩)
      · exact hfew hless
      · exact hblock (hread block hmem)

theorem patch_ran :
    (patchTrace env messages).flatten.reduceOption =
      (patchInboundToolResults env messages).runs := by
  obtain ⟨-, htrace, hcall⟩ | ⟨-, htrace, hcall⟩ := @patch_cases env messages
  · rw [htrace, hcall, flatten_nowhere]
  · rw [htrace, hcall, traceMessages_runs]

theorem patch_outputs (n : Nat) (run : PatchRun)
    (h : (patchInboundToolResults env messages).runs[n]? = some run) :
    run.output = env.runTool n run.use.tool run.use.input := by
  obtain ⟨-, -, hcall⟩ | ⟨-, -, hcall⟩ := @patch_cases env messages
  · rw [hcall] at h
    cases h
  · rw [hcall] at h
    have hrun := patchMessages_outputs 0 messages n run h
    rwa [Nat.zero_add] at hrun

theorem patch_writes : (patchInboundToolResults env messages).messages =
    List.zipWith written messages (patchTrace env messages) := by
  obtain ⟨-, htrace, hcall⟩ | ⟨-, htrace, hcall⟩ := @patch_cases env messages
  · rw [htrace, hcall, zipWith_written_nowhere]
  · rw [htrace, hcall, patchMessages_values]

theorem patch_returned_iff :
    (patchInboundToolResults env messages).returned =
        some (patchInboundToolResults env messages).runs.length ↔ ReadableIds env messages := by
  obtain ⟨hidle, -, hcall⟩ | ⟨hruns, -, hcall⟩ := @patch_cases env messages
  · rw [hcall, readable_of_not_runs hidle]
    by_cases hdone : messages.length < 2 ∨ (collectUses env.registry messages).isSome = true
    · rw [if_pos hdone]
      exact iff_of_true rfl hdone
    · rw [if_neg hdone]
      exact iff_of_false (by simp) hdone
  · rw [hcall, readable_of_runs hruns]
    simp only [patchMessages_failed]
    cases (messages.flatMap (blocksOf "user")).all readableResult with
    | true => simp
    | false => simp

theorem rightTrace_nowhere (before : List Json) (messages : List Json) :
    RightTrace env before messages (nowhere messages) := by
  induction messages generalizing before with
  | nil => trivial
  | cons m rest ih =>
    refine ⟨?_, ih _⟩
    rw [List.forall₂_map_right_iff]
    exact List.forall₂_same.mpr fun _ _ => trivial

theorem calls_of_few (hfew : messages.length < 2) {before after : List Json} {m block : Json}
    (heq : messages = before ++ m :: after) (hmem : block ∈ blocksOf "user" m) :
    callsIn env.registry messages = [] := by
  have hone : before = [] ∧ after = [] := by
    rw [heq, List.length_append, List.length_cons] at hfew
    exact ⟨List.length_eq_zero_iff.mp (by omega), List.length_eq_zero_iff.mp (by omega)⟩
  unfold callsIn
  rw [heq, hone.1, hone.2, List.nil_append, List.flatMap_cons,
    blocksOf_user (List.ne_nil_of_mem hmem) (by decide)]
  rfl

theorem patch_runs_iff (h : ReadableIds env messages) :
    RightTrace env [] messages (patchTrace env messages) ↔ Answerable env messages := by
  obtain ⟨hidle, htrace, -⟩ | ⟨hruns, htrace, -⟩ := @patch_cases env messages
  · rw [htrace]
    refine iff_of_true (rightTrace_nowhere _ _) ?_
    intro before m after heq block hmem htype hplaceholder use hlast
    have hnone : callsIn env.registry messages = [] := by
      by_cases hfew : messages.length < 2
      · exact calls_of_few hfew heq hmem
      · by_contra hne
        have hsome := ((readable_of_not_runs hidle).mp h).resolve_left hfew
        refine hidle ⟨hfew, ?_, hne⟩
        rw [collectUses_eq] at hsome ⊢
        split at hsome
        · next hall => rw [if_pos hall]
        · cases hsome
    rw [lastCall_none hnone] at hlast
    cases hlast
  · have hread := (readable_of_runs hruns).mp h
    rw [htrace, traceMessages_right 0 messages hread]
    have hblock : ∀ {before m after block}, messages = before ++ m :: after →
        block ∈ blocksOf "user" m → readableResult block = true := by
      intro before m after block heq hmem
      refine List.all_eq_true.mp hread block (List.mem_flatMap.mpr ⟨m, ?_, hmem⟩)
      rw [heq]
      exact List.mem_append_right _ List.mem_cons_self
    constructor
    · intro hright before m after heq block hmem htype hplaceholder use hlast
      have htarget := (patchTarget_calls (hblock heq hmem)).mpr ⟨htype, hplaceholder, hlast⟩
      have hrun := hright before m after heq block hmem use htarget
      rwa [List.nil_append] at hrun
    · intro hwaits before m after heq block hmem use htarget
      obtain ⟨htype, hplaceholder, hlast⟩ := (patchTarget_calls (hblock heq hmem)).mp htarget
      rw [List.nil_append]
      exact hwaits before m after heq block hmem htype hplaceholder use hlast

theorem patch_again (h : ReadableIds env messages)
    (houtputs : ∀ run ∈ (patchInboundToolResults env messages).runs,
      waitingText run.output = false)
    (runTool : Nat → String → Json → String) :
    patchInboundToolResults { env with runTool := runTool }
        (patchInboundToolResults env messages).messages =
      ⟨(patchInboundToolResults env messages).messages, [], some 0⟩ := by
  obtain ⟨hidle, -, hcall⟩ | ⟨hruns, -, hcall⟩ := @patch_cases env messages
  · have hdone := (readable_of_not_runs hidle).mp h
    rw [hcall]
    obtain ⟨-, -, hagain⟩ | ⟨hruns, -⟩ := @patch_cases { env with runTool := runTool } messages
    · rw [hagain, if_pos hdone]
    · exact absurd hruns hidle
  · have hread := (readable_of_runs hruns).mp h
    rw [hcall] at houtputs ⊢
    obtain ⟨hfilled, hcalls, hlength⟩ := patchMessages_filled 0 hread houtputs
    have hsame : callsIn env.registry
        (patchMessages env (callsIn env.registry messages) 0 messages).values =
          callsIn env.registry messages := by
      rw [callsIn, hcalls, callsIn]
    have hcollect : collectUses env.registry
        (patchMessages env (callsIn env.registry messages) 0 messages).values =
          some (callsIn env.registry messages) := by
      rw [← hruns.2.1, collectUses_eq, collectUses_eq, hsame, hcalls]
    obtain ⟨hidle, -⟩ | ⟨-, -, hagain⟩ := @patch_cases { env with runTool := runTool }
      (patchMessages env (callsIn env.registry messages) 0 messages).values
    · refine absurd ⟨?_, ?_, ?_⟩ hidle
      · rw [hlength]
        exact hruns.1
      · rw [hcollect, hsame]
      · rw [hsame]
        exact hruns.2.2
    · rw [hagain]
      simp only [hsame]
      have hidle := @patchMessages_idle { env with runTool := runTool } _ 0 _ hfilled
      rw [hidle]
      rfl

end

theorem patchRight_of_answerable {env : PatchEnv} {messages : List Json}
    (hread : ReadableIds env messages) (h : Answerable env messages) : PatchRight env messages where
  runs := (patch_runs_iff hread).mpr h
  ran := patch_ran
  outputs := patch_outputs
  written := patch_writes
  returned := patch_returned_iff.mpr hread
  again := patch_again hread

theorem answerable_of_patchRight {env : PatchEnv} {messages : List Json}
    (h : PatchRight env messages) : ReadableIds env messages ∧ Answerable env messages :=
  have hread := patch_returned_iff.mp h.returned
  ⟨hread, (patch_runs_iff hread).mp h.runs⟩

/-- A call of the patcher is right exactly when ids can be looked up and each result it fills in
waits for the call it gets. -/
theorem patch_right_iff (env : PatchEnv) (messages : List Json) :
    PatchRight env messages ↔ ReadableIds env messages ∧ Answerable env messages :=
  ⟨answerable_of_patchRight, fun h => patchRight_of_answerable h.1 h.2⟩

/-! ## A result that is an image -/

/-- A result of the caller, in an image block. -/
def imageResult : Json :=
  .obj [("type", .str "tool_result"), ("tool_use_id", .str "toolu"),
    ("content", .arr [.obj [("type", .str "image"), ("source", .obj [])]])]

def answeredByImage : List Json :=
  [message "assistant" (.arr [askingBlock "read_xlsx_to_markdown"]),
    message "user" (.arr [imageResult])]

def spreadsheetEnv : PatchEnv where
  registry := ["read_xlsx_to_markdown"]
  same _ _ := false
  runTool _ _ _ := "error: file_id is required"

/-- The tool runs and its output takes the place of the image. -/
theorem image_result_lost : ¬ PatchRight spreadsheetEnv answeredByImage := by
  intro h
  have hwaits := (answerable_of_patchRight h).2
    [message "assistant" (.arr [askingBlock "read_xlsx_to_markdown"])]
    (message "user" (.arr [imageResult])) [] rfl imageResult List.mem_cons_self rfl rfl
    ⟨.str "toolu", "read_xlsx_to_markdown", .obj []⟩ rfl
  cases hwaits.1

end LlmProxy.Dispatch
