import LlmProxy.Dispatch.Hops

/-! # The proxy tools a request is given

`inject_anthropic_async` (`app/proxy_tools/__init__.py`) adds a registered tool to a request when
the caller defines none of its name and the policy of the key allows it. The tools are run in two
other places, on results of the caller (`patch_inbound_tool_results`) and on turns of the model
(the hop loop), and both look a name up in the whole registry.

> `given_iff`: what injection adds;
> `patchInbound_runs`, `patchInbound_patched`: what the patcher runs, and that it writes nothing else;
> `only_given_iff`: only tools the request was given are run exactly when it was given every tool
> registered by then.

The registry is read anew each time, from a cache that other requests fill, so each read has a
list of its own. What a tool does of a call is its own: the wrapper of an aggregator tool asks the
policy again and answers a denied call with an error text, which takes the place of the block too.
-/

namespace LlmProxy.Dispatch

open LlmProxy.Streaming (Completion Block Response toAnthropicResponse)
open Logged

/-! ## Injection -/

/-- `ProxyTool`. -/
structure ProxyTool where
  name : String
  anthropicSchema : Json

/-- The lists of a key; an absent list is `none`. -/
structure McpPolicy where
  mcpToolsAllow : Option (List String)
  mcpToolsDeny : Option (List String)

/-- `_matches_any`. -/
def matchesAny (name : String) (globs : Option (List String)) : Bool :=
  (globs.getD []).any (PyStr.fnmatchcase name)

/-- `is_tool_allowed_for_key`: deny wins, and an empty list allows nothing. -/
def isToolAllowedForKey (toolName : String) (policy : McpPolicy) : Bool :=
  if matchesAny toolName policy.mcpToolsDeny then false
  else match policy.mcpToolsAllow with
    | none => true
    | some [] => false
    | some globs => matchesAny toolName (some globs)

/-- `names.add`, of a list or a dict a `TypeError`. A name that is no text is no tool's. -/
def addName (names : List String) : Json → Option (List String)
  | .str name => some (name :: names)
  | .arr _ => none
  | .obj _ => none
  | _ => some names

def addTruthy (names : List String) (name : Option Json) : Option (List String) :=
  let name := name.getD .null
  if name.truthy then addName names name else some names

/-- One round of `_collect_caller_tool_names`: the name of the tool, else of its `function`. -/
def collectName (names : List String) (tool : Json) : Option (List String) :=
  match tool with
  | .obj _ =>
    if ((tool.get? "name").getD .null).truthy then addTruthy names (tool.get? "name")
    else match tool.get? "function" with
      | some (.obj members) => addTruthy names ((Json.obj members).get? "name")
      | _ => some names
  | _ => some names

/-- `list(value)`; `none` where it is no iterable. -/
def iterate : Json → Option (List Json)
  | .arr items => some items
  | .obj members => some ((members.map Prod.fst).eraseDups.map .str)
  | .str s => some (s.toList.map fun c => .str (String.singleton c))
  | _ => none

def collectCallerToolNames (existing : Json) : Option (List String) :=
  (iterate existing).bind fun items => items.foldlM collectName []

def injectTools (policy : Option McpPolicy) : List String → List ProxyTool → List ProxyTool
  | _, [] => []
  | names, tool :: rest =>
    if names.contains tool.name then injectTools policy names rest
    else if !policy.all (isToolAllowedForKey tool.name) then injectTools policy names rest
    else tool :: injectTools policy (tool.name :: names) rest

/-- `body.get("tools") or []`. -/
def existingTools (tools : Option Json) : Json :=
  match tools with
  | some tools => if tools.truthy then tools else .arr []
  | none => .arr []

/-- `inject_anthropic_async`: the tools of the body, and those of the registry among them. -/
def injectAnthropic (tools : Option Json) (policy : Option McpPolicy) (registry : List ProxyTool) :
    Option (Json × List ProxyTool) := do
  let existing := existingTools tools
  let names ← collectCallerToolNames existing
  let items ← iterate existing
  let injected := injectTools policy names registry
  -- an empty loop leaves the value as it is
  return (if injected.isEmpty then existing else .arr (items ++ injected.map (·.anthropicSchema)),
    injected)

theorem mem_injectTools_iff {policy : Option McpPolicy} {names : List String}
    {registry : List ProxyTool} {t : String} :
    t ∈ (injectTools policy names registry).map (·.name) ↔
      t ∉ names ∧ t ∈ registry.map (·.name) ∧ policy.all (isToolAllowedForKey t) = true := by
  induction registry generalizing names with
  | nil => simp [injectTools]
  | cons tool rest ih =>
    unfold injectTools
    rw [List.map_cons, List.mem_cons]
    split
    · next hin =>
      rw [ih]
      have hname : tool.name ∈ names := List.contains_iff_mem.mp hin
      constructor
      · exact fun ⟨hfree, hrest, hallowed⟩ => ⟨hfree, Or.inr hrest, hallowed⟩
      · rintro ⟨hfree, heq | hrest, hallowed⟩
        · exact absurd (heq ▸ hname) hfree
        · exact ⟨hfree, hrest, hallowed⟩
    · next hout =>
      have hname : tool.name ∉ names := fun hmem => hout (List.contains_iff_mem.mpr hmem)
      split
      · next hblocked =>
        rw [ih]
        constructor
        · exact fun ⟨hfree, hrest, hallowed⟩ => ⟨hfree, Or.inr hrest, hallowed⟩
        · rintro ⟨hfree, heq | hrest, hallowed⟩
          · rw [← heq, hallowed] at hblocked
            cases hblocked
          · exact ⟨hfree, hrest, hallowed⟩
      · next hpasses =>
        have hallows : policy.all (isToolAllowedForKey tool.name) = true := by simpa using hpasses
        rw [List.map_cons, List.mem_cons, ih]
        constructor
        · rintro (heq | ⟨hfree, hrest, hallowed⟩)
          · rw [heq]
            exact ⟨hname, Or.inl rfl, hallows⟩
          · exact ⟨fun hmem => hfree (List.mem_cons_of_mem _ hmem), Or.inr hrest, hallowed⟩
        · rintro ⟨hfree, heq | hrest, hallowed⟩
          · exact Or.inl heq
          · by_cases heq : t = tool.name
            · exact Or.inl heq
            · exact Or.inr ⟨fun hmem => (List.mem_cons.mp hmem).elim heq hfree, hrest, hallowed⟩

/-! ## The patcher -/

/-- Ids as keys of a dict: `same` is the equality of the numbers and constants, where 1, 1.0 and
`True` are one. -/
def sameId (same : Json → Json → Bool) : Json → Json → Bool
  | .str a, .str b => a == b
  | .str _, _ => false
  | _, .str _ => false
  | a, b => same a b

/-- `value or default`. -/
def orDefault (value : Option Json) (default : Json) : Json :=
  match value with
  | some v => if v.truthy then v else default
  | none => default

/-- An entry of `tool_uses`. -/
structure ToolUse where
  id : Json
  tool : String
  input : Json

/-- One block of a turn: a use of a registered tool is entered. -/
def collectUse (registry : List String) (uses : List ToolUse) (block : Json) :
    Option (List ToolUse) :=
  if block.hasType "tool_use" then
    match block.get? "name" with
    | some (.str name) =>
      if registry.contains name then
        let id := orDefault (block.get? "id") (.str "")
        if id.hashable then some (uses ++ [⟨id, name, orDefault (block.get? "input") (.obj [])⟩])
        else none
      else some uses
    | some (.arr _) => none
    | some (.obj _) => none
    | _ => some uses
  else some uses

def blocksOf (role : String) (m : Json) : List Json :=
  match m.get? "role", m.get? "content" with
  | some (.str r), some (.arr blocks) => if r = role then blocks else []
  | _, _ => []

def collectUses (registry : List String) (messages : List Json) : Option (List ToolUse) :=
  (messages.flatMap (blocksOf "assistant")).foldlM (collectUse registry) []

def isPlaceholder : Option Json → Bool
  | some (.str s) =>
    PyStr.strip s == "" || ["PLACEHOLDER", "pending", "TODO", "...", "n/a"].contains (PyStr.strip s)
  | _ => true

/-- `block[key] = value`. -/
def setMember (key : String) (value : Json) : Json → Json
  | .obj members =>
    if members.any (·.1 == key) then
      .obj (members.map fun m => if m.1 = key then (key, value) else m)
    else .obj (members ++ [(key, value)])
  | j => j

/-- The world of the patcher; the count tells its runs apart. -/
structure PatchEnv where
  registry : List String
  same : Json → Json → Bool
  runTool : Nat → String → Json → String

/-- A run of a tool: the use it is for, and what it came to. -/
structure PatchRun where
  use : ToolUse
  output : String

/-- The use whose result a block waits for; the outer `none` is a `TypeError`. -/
def patchTarget (same : Json → Json → Bool) (uses : List ToolUse) (block : Json) :
    Option (Option ToolUse) :=
  if block.hasType "tool_result" then
    let id := orDefault (block.get? "tool_use_id") (.str "")
    if id.hashable then
      -- of uses with one id the last is in the dict
      some (if isPlaceholder (block.get? "content") then
        uses.reverse.find? fun use => sameId same use.id id else none)
    else none
  else some none

structure Patching where
  values : List Json
  runs : List PatchRun
  failed : Bool

/-- The blocks of a message; `n` tools have run. An error leaves the rest as it is. -/
def patchBlocks (env : PatchEnv) (uses : List ToolUse) : Nat → List Json → Patching
  | _, [] => ⟨[], [], false⟩
  | n, block :: rest =>
    match patchTarget env.same uses block with
    | none => ⟨block :: rest, [], true⟩
    | some none =>
      let after := patchBlocks env uses n rest
      ⟨block :: after.values, after.runs, after.failed⟩
    | some (some use) =>
      let output := env.runTool n use.tool use.input
      let after := patchBlocks env uses (n + 1) rest
      ⟨setMember "content" (.str output) block :: after.values, ⟨use, output⟩ :: after.runs,
        after.failed⟩

def patchMessages (env : PatchEnv) (uses : List ToolUse) : Nat → List Json → Patching
  | _, [] => ⟨[], [], false⟩
  | n, m :: rest =>
    let patched := patchBlocks env uses n (blocksOf "user" m)
    let m' := if patched.runs.isEmpty then m else setMember "content" (.arr patched.values) m
    if patched.failed then ⟨m' :: rest, patched.runs, true⟩
    else
      let after := patchMessages env uses (n + patched.runs.length) rest
      ⟨m' :: after.values, patched.runs ++ after.runs, after.failed⟩

/-- `patch_inbound_tool_results`, on the `messages` of a body: the messages after it, and the runs.
The caller of it drops an error. -/
def patchInbound (env : PatchEnv) (messages : Option Json) : Option Json × List PatchRun :=
  match messages with
  | some (.arr items) =>
    if items.length < 2 then (messages, [])
    else match collectUses env.registry items with
      | none => (messages, [])
      | some [] => (messages, [])
      | some uses =>
        let patched := patchMessages env uses 0 items
        (some (.arr patched.values), patched.runs)
  | _ => (messages, [])

/-! ### What the patcher runs -/

theorem collectUse_mem {registry : List String} {uses uses' : List ToolUse} {block : Json}
    (h : collectUse registry uses block = some uses') (hall : ∀ use ∈ uses, use.tool ∈ registry) :
    ∀ use ∈ uses', use.tool ∈ registry := by
  unfold collectUse at h
  split at h
  · split at h
    · next name _ =>
      split at h
      · next hin =>
        dsimp only at h
        split at h
        · rw [← Option.some.inj h]
          intro use hmem
          rcases List.mem_append.mp hmem with hold | hnew
          · exact hall use hold
          · rw [List.mem_singleton.mp hnew]
            exact List.contains_iff_mem.mp hin
        · cases h
      · exact Option.some.inj h ▸ hall
    · cases h
    · cases h
    · exact Option.some.inj h ▸ hall
  · exact Option.some.inj h ▸ hall

theorem foldlM_collectUse_mem {registry : List String} {blocks : List Json}
    {uses uses' : List ToolUse} (h : blocks.foldlM (collectUse registry) uses = some uses')
    (hall : ∀ use ∈ uses, use.tool ∈ registry) : ∀ use ∈ uses', use.tool ∈ registry := by
  induction blocks generalizing uses with
  | nil => exact Option.some.inj h ▸ hall
  | cons block rest ih =>
    rw [List.foldlM_cons] at h
    cases hblock : collectUse registry uses block with
    | none =>
      rw [hblock] at h
      cases h
    | some middle =>
      rw [hblock] at h
      exact ih h (collectUse_mem hblock hall)

theorem collectUses_mem {registry : List String} {messages : List Json} {uses : List ToolUse}
    (h : collectUses registry messages = some uses) : ∀ use ∈ uses, use.tool ∈ registry :=
  foldlM_collectUse_mem h fun _ hmem => absurd hmem List.not_mem_nil

theorem patchTarget_some {same : Json → Json → Bool} {uses : List ToolUse} {block : Json}
    {use : ToolUse} (h : patchTarget same uses block = some (some use)) :
    use ∈ uses ∧ block.hasType "tool_result" = true := by
  unfold patchTarget at h
  split at h
  · next htype =>
    dsimp only at h
    split at h
    · have hfind := Option.some.inj h
      split at hfind
      · exact ⟨List.mem_reverse.mp (List.mem_of_find?_eq_some hfind), htype⟩
      · cases hfind
    · cases h
  · cases h

/-- A block after the patcher: as it was, or a result with the output of a run. -/
def PatchedBlock (ran : PatchRun → Prop) (before after : Json) : Prop :=
  after = before ∨ before.hasType "tool_result" = true ∧
    ∃ run, ran run ∧ after = setMember "content" (.str run.output) before

/-- A message after the patcher: as it was, or one of the user with patched blocks. -/
def PatchedMessage (ran : PatchRun → Prop) (before after : Json) : Prop :=
  after = before ∨ ∃ blocks, after = setMember "content" (.arr blocks) before ∧
    List.Forall₂ (PatchedBlock ran) (blocksOf "user" before) blocks

/-- The messages of a body after the patcher. -/
def PatchedBody (ran : PatchRun → Prop) (before after : Option Json) : Prop :=
  after = before ∨ ∃ items items', before = some (.arr items) ∧ after = some (.arr items') ∧
    List.Forall₂ (PatchedMessage ran) items items'

section

variable {env : PatchEnv} {uses : List ToolUse}

theorem patchBlocks_runs (n : Nat) (blocks : List Json) :
    ∀ run ∈ (patchBlocks env uses n blocks).runs, run.use ∈ uses := by
  induction blocks generalizing n with
  | nil => exact fun run hmem => absurd hmem List.not_mem_nil
  | cons block rest ih =>
    unfold patchBlocks
    split
    · exact fun run hmem => absurd hmem List.not_mem_nil
    · exact ih n
    · next use htarget =>
      intro run hmem
      rcases List.mem_cons.mp hmem with heq | hrest
      · rw [heq]
        exact (patchTarget_some htarget).1
      · exact ih (n + 1) run hrest

theorem patchMessages_runs (n : Nat) (messages : List Json) :
    ∀ run ∈ (patchMessages env uses n messages).runs, run.use ∈ uses := by
  induction messages generalizing n with
  | nil => exact fun run hmem => absurd hmem List.not_mem_nil
  | cons m rest ih =>
    unfold patchMessages
    dsimp only
    split
    · exact patchBlocks_runs n (blocksOf "user" m)
    · intro run hmem
      rcases List.mem_append.mp hmem with hhere | hrest
      · exact patchBlocks_runs n (blocksOf "user" m) run hhere
      · exact ih _ run hrest

theorem patchBlocks_patched {ran : PatchRun → Prop} (n : Nat) (blocks : List Json)
    (h : ∀ run ∈ (patchBlocks env uses n blocks).runs, ran run) :
    List.Forall₂ (PatchedBlock ran) blocks (patchBlocks env uses n blocks).values := by
  induction blocks generalizing n with
  | nil => exact .nil
  | cons block rest ih =>
    unfold patchBlocks at h ⊢
    split at h
    · exact List.forall₂_same.mpr fun _ _ => Or.inl rfl
    · exact .cons (Or.inl rfl) (ih n h)
    · next use htarget =>
      obtain ⟨hfirst, hrest⟩ := List.forall_mem_cons.mp h
      exact .cons (Or.inr ⟨(patchTarget_some htarget).2, _, hfirst, rfl⟩) (ih (n + 1) hrest)

theorem patchMessages_patched {ran : PatchRun → Prop} (n : Nat) (messages : List Json)
    (h : ∀ run ∈ (patchMessages env uses n messages).runs, ran run) :
    List.Forall₂ (PatchedMessage ran) messages (patchMessages env uses n messages).values := by
  induction messages generalizing n with
  | nil => exact .nil
  | cons m rest ih =>
    have hmessage : (∀ run ∈ (patchBlocks env uses n (blocksOf "user" m)).runs, ran run) →
        PatchedMessage ran m (if (patchBlocks env uses n (blocksOf "user" m)).runs.isEmpty then m
          else setMember "content"
            (.arr (patchBlocks env uses n (blocksOf "user" m)).values) m) := by
      intro hhere
      split
      · exact Or.inl rfl
      · exact Or.inr ⟨_, rfl, patchBlocks_patched n _ hhere⟩
    unfold patchMessages at h ⊢
    dsimp only at h ⊢
    split at h
    · next hfailed =>
      rw [if_pos hfailed]
      exact .cons (hmessage h) (List.forall₂_same.mpr fun _ _ => Or.inl rfl)
    · next hgoes =>
      rw [if_neg hgoes]
      obtain ⟨hhere, hrest⟩ := List.forall_mem_append.mp h
      exact .cons (hmessage hhere) (ih _ hrest)

end

/-- **What the patcher runs** is registered. -/
theorem patchInbound_runs (env : PatchEnv) (messages : Option Json) :
    ∀ run ∈ (patchInbound env messages).2, run.use.tool ∈ env.registry := by
  unfold patchInbound
  split
  · next items =>
    split
    · exact fun run hmem => absurd hmem List.not_mem_nil
    · split
      · exact fun run hmem => absurd hmem List.not_mem_nil
      · exact fun run hmem => absurd hmem List.not_mem_nil
      · next uses _ huses =>
        exact fun run hmem => collectUses_mem huses run.use (patchMessages_runs 0 items run hmem)
  · exact fun run hmem => absurd hmem List.not_mem_nil

/-- **What the patcher writes**: the output of a run in the place of a result. -/
theorem patchInbound_patched (env : PatchEnv) (messages : Option Json) :
    PatchedBody (· ∈ (patchInbound env messages).2) messages (patchInbound env messages).1 := by
  unfold patchInbound
  split
  · next items =>
    split
    · exact Or.inl rfl
    · split
      · exact Or.inl rfl
      · exact Or.inl rfl
      · exact Or.inr ⟨items, _, rfl, rfl, patchMessages_patched 0 items fun _ hmem => hmem⟩
  · exact Or.inl rfl

/-! ## One request -/

/-- A request to the proxy tools: the `tools` of its body, the policy of its key, and the registry
as it is read at injection, by the patcher and before each hop. -/
structure ToolSetup where
  tools : Option Json
  policy : McpPolicy
  atInjection : List ProxyTool
  atPatch : List String
  atHop : Nat → List String

namespace ToolSetup

variable (s : ToolSetup)

def injection : Option (Json × List ProxyTool) :=
  injectAnthropic s.tools (some s.policy) s.atInjection

/-- The schema of a tool of this name was injected. -/
def Given (t : String) : Prop :=
  ∃ injected, s.injection = some injected ∧ ∃ tool ∈ injected.2, tool.name = t

/-- The names of the caller's tools can be read. -/
def Readable : Prop := (collectCallerToolNames (existingTools s.tools)).isSome = true

/-- The caller defines a tool of the name. -/
def Shadowed (t : String) : Prop :=
  ∃ names, collectCallerToolNames (existingTools s.tools) = some names ∧ t ∈ names

/-- A registered tool the request is to have. -/
structure Due (t : String) : Prop where
  registered : t ∈ s.atInjection.map (·.name)
  free : ¬ s.Shadowed t
  allowed : isToolAllowedForKey t s.policy = true

end ToolSetup

/-- **What injection adds**: the registered tools with a free name that the policy allows, when it
gets through. -/
theorem given_iff (s : ToolSetup) (t : String) : s.Given t ↔ s.Readable ∧ s.Due t := by
  unfold ToolSetup.Given ToolSetup.Readable ToolSetup.injection injectAnthropic
  dsimp only
  cases hnames : collectCallerToolNames (existingTools s.tools) with
  | none =>
    constructor
    · rintro ⟨injected, h, -⟩
      cases h
    · rintro ⟨h, -⟩
      cases h
  | some names =>
    obtain ⟨items, hitems⟩ : ∃ items, iterate (existingTools s.tools) = some items := by
      unfold collectCallerToolNames at hnames
      cases h : iterate (existingTools s.tools) with
      | none =>
        rw [h] at hnames
        cases hnames
      | some items => exact ⟨items, rfl⟩
    have hshadowed : s.Shadowed t ↔ t ∈ names := by
      constructor
      · rintro ⟨names', h, hmem⟩
        rw [hnames] at h
        rw [Option.some.inj h]
        exact hmem
      · exact fun hmem => ⟨names, hnames, hmem⟩
    have hinjected := @mem_injectTools_iff (some s.policy) names s.atInjection t
    rw [hitems]
    constructor
    · rintro ⟨injected, h, tool, hmem, hname⟩
      rw [← Option.some.inj h] at hmem
      obtain ⟨hfree, hregistered, hallowed⟩ := hinjected.mp (List.mem_map.mpr ⟨tool, hmem, hname⟩)
      exact ⟨rfl, hregistered, fun h => hfree (hshadowed.mp h), hallowed⟩
    · rintro ⟨-, hdue⟩
      obtain ⟨tool, hmem, hname⟩ := List.mem_map.mp (hinjected.mpr
        ⟨fun h => hdue.free (hshadowed.mpr h), hdue.registered, hdue.allowed⟩)
      exact ⟨_, rfl, tool, hmem, hname⟩

theorem injection_isSome (s : ToolSetup) : s.injection.isSome = true ↔ s.Readable := by
  unfold ToolSetup.Readable ToolSetup.injection injectAnthropic collectCallerToolNames
  dsimp only
  cases iterate (existingTools s.tools) with
  | none => exact Iff.rfl
  | some items =>
    rw [Option.bind_some]
    cases items.foldlM collectName [] <;> exact Iff.rfl

/-! ## The tools the hops run -/

/-- The hops of `dispatch_non_streaming`. -/
def loopHops (ctx : DispatchCtx) (env : DispatchEnv) (served : Served) : List Hop :=
  if ctx.proxyToolsInjected then hopTrace env 3 0 served.anthropic.content else []

theorem findProxyToolUse_registered {registry : List String} {content : List Block}
    {found : String × Json × String} (h : findProxyToolUse registry content = some found) :
    found.1 ∈ registry := by
  induction content with
  | nil => cases h
  | cons block rest ih =>
    cases block with
    | text text => exact ih h
    | toolUse id name input =>
      unfold findProxyToolUse at h
      split at h
      · next hin =>
        rw [← Option.some.inj h]
        exact List.contains_iff_mem.mp hin
      · exact ih h

theorem hopTrace_all {env : DispatchEnv} {P : String → Prop} {left n : Nat} {content : List Block}
    (h : ∀ k < left, (∀ j < k, env.registry (n + j) ≠ []) → ∀ t ∈ env.registry (n + k), P t) :
    ∀ hop ∈ hopTrace env left n content, P hop.tool := by
  induction left generalizing n content with
  | zero => exact fun hop hmem => absurd hmem List.not_mem_nil
  | succ left ih =>
    unfold hopTrace
    cases hfound : findProxyToolUse (env.registry n) content with
    | none =>
      rw [hopOf_of_none hfound]
      exact fun hop hmem => absurd hmem List.not_mem_nil
    | some found =>
      have hregistered := findProxyToolUse_registered hfound
      have hfirst : P found.1 :=
        h 0 (Nat.succ_pos left) (fun j hj => absurd hj (Nat.not_lt_zero j)) found.1 hregistered
      have hhop : hopOf env n content =
          some ⟨content, found.1, found.2.1, found.2.2, env.runTool n found.1 found.2.1⟩ := by
        unfold hopOf
        rw [hfound]
        rfl
      rw [hhop]
      dsimp only
      refine List.forall_mem_cons.mpr ⟨hfirst, ?_⟩
      cases nextContent env n with
      | none => exact fun hop hmem => absurd hmem List.not_mem_nil
      | some next =>
        refine ih fun k hk hearlier t ht => ?_
        rw [show n + 1 + k = n + (k + 1) from by omega] at ht
        refine h (k + 1) (Nat.succ_lt_succ hk) (fun j hj => ?_) t ht
        cases j with
        | zero => exact List.ne_nil_of_mem hregistered
        | succ j =>
          rw [show n + (j + 1) = n + 1 + j from by omega]
          exact hearlier j (Nat.lt_of_succ_lt_succ hj)

theorem hopFrom_content {ctx : DispatchCtx} {env : DispatchEnv} {left n : Nat}
    {messages : List Json} {served : Served} {out : List Json × Served}
    (h : (hopFrom ctx env left n messages served).result = .ok out) :
    turnFrom env n served.anthropic.content
        (hopTrace env left n served.anthropic.content).length =
      some out.2.anthropic.content := by
  induction left generalizing n messages served with
  | zero =>
    rw [← Except.ok.inj h]
    rfl
  | succ left ih =>
    unfold hopTrace
    cases hhop : hopOf env n served.anthropic.content with
    | none =>
      have hfound : findProxyToolUse (env.registry n) served.anthropic.content = none := by
        simpa [hopOf] using hhop
      rw [hopFrom_none hfound] at h
      rw [← Except.ok.inj h]
      rfl
    | some hop =>
      rcases @hopFrom_step ctx env left n messages served hop hhop with
        ⟨hnext, e, hrun⟩ | ⟨next, hnext, hrun⟩
      · rw [hrun] at h
        cases h
      · rw [hrun] at h
        have hlast := ih h
        rw [hnext]
        dsimp only
        show nextContent env
          (n + (hopTrace env left (n + 1) next.anthropic.content).length) = _
        cases hlength : (hopTrace env left (n + 1) next.anthropic.content).length with
        | zero =>
          rw [hlength] at hlast
          exact hnext.trans hlast
        | succ k =>
          rw [hlength] at hlast
          rw [show n + (k + 1) = n + 1 + k from by omega]
          exact hlast

def asksFor (tool : String) : Completion :=
  ⟨none, none, [⟨none, [⟨some "toolu", some ⟨some tool, none⟩⟩], none⟩], none⟩

/-- A model that asks for `pick n` before the n-th hop. -/
def askingEnv (registry : Nat → List String) (pick : Nat → String) : DispatchEnv where
  up := ⟨fun site => match site with
    | .hop n => .ok (asksFor (pick (n + 1)))
    | _ => .ok (asksFor (pick 0)), fun _ => []⟩
  cheapWorld := gptWorld
  graderWorld := gptWorld
  fallbackWorlds := fun _ => gptWorld
  refusalWorlds := fun _ => gptWorld
  registry := registry
  runTool := fun _ _ _ => ""
  tokenHex := fun _ _ => ""
  isalnum := fun _ => true

theorem hopTrace_asking {registry : Nat → List String} {pick : Nat → String} {left n j : Nat}
    {input : Json} (hj : j < left) (h : ∀ i ≤ j, pick (n + i) ∈ registry (n + i)) :
    ∃ hop ∈ hopTrace (askingEnv registry pick) left n [.toolUse "toolu" (pick n) input],
      hop.tool = pick (n + j) := by
  induction left generalizing n j input with
  | zero => exact absurd hj (Nat.not_lt_zero j)
  | succ left ih =>
    have hfound : findProxyToolUse ((askingEnv registry pick).registry n)
        [.toolUse "toolu" (pick n) input] =
        some (pick n, if input.truthy then input else .obj [], "toolu") := by
      unfold findProxyToolUse
      exact if_pos (List.contains_iff_mem.mpr (h 0 (Nat.zero_le j)))
    unfold hopTrace hopOf
    rw [hfound]
    cases j with
    | zero => exact ⟨_, List.mem_cons_self, rfl⟩
    | succ j =>
      obtain ⟨hop, hmem, htool⟩ := @ih (n + 1) j (Streaming.toolInput "")
        (Nat.lt_of_succ_lt_succ hj) fun i hi => by
          rw [show n + 1 + i = n + (i + 1) from by omega]
          exact h (i + 1) (Nat.succ_le_succ hi)
      refine ⟨hop, List.mem_cons_of_mem _ hmem, ?_⟩
      rw [htool, show n + 1 + j = n + (j + 1) from by omega]

/-! ## The tools of a request and no others -/

/-- The hops of a run keep to the tools of the request, and change no other block: each list sent
is the conversation with the turns as they came, and the turn returned is the last. -/
structure LoopKeeps (s : ToolSetup) (ctx : DispatchCtx) (env : DispatchEnv) (served : Served) :
    Prop where
  given : ∀ hop ∈ loopHops ctx env served, s.Given hop.tool
  sent : (proxyHops ctx env served).log.map (·.messages) =
    sentLists ctx.messages (loopHops ctx env served)
  returned : ∀ out, (proxyHops ctx env served).result = .ok out →
    turnFrom env 0 served.anthropic.content (loopHops ctx env served).length =
      some out.2.anthropic.content

/-- Of the proxy tools only those the request was given are run for it, by the patcher on any
messages and by the hop loop on any answers, and every other block stays as it is. -/
structure OnlyGiven (s : ToolSetup) : Prop where
  patcher : ∀ (same : Json → Json → Bool) (runTool : Nat → String → Json → String)
    (messages : Option Json), ∀ run ∈ (patchInbound ⟨s.atPatch, same, runTool⟩ messages).2,
      s.Given run.use.tool
  patched : ∀ (same : Json → Json → Bool) (runTool : Nat → String → Json → String)
    (messages : Option Json),
      PatchedBody (· ∈ (patchInbound ⟨s.atPatch, same, runTool⟩ messages).2) messages
        (patchInbound ⟨s.atPatch, same, runTool⟩ messages).1
  loop : ∀ (ctx : DispatchCtx) (env : DispatchEnv) (served : Served),
    ctx.proxyToolsInjected = s.injection.isSome → env.registry = s.atHop →
      LoopKeeps s ctx env served

def askingBlock (tool : String) : Json :=
  .obj [("type", .str "tool_use"), ("id", .str "toolu"), ("name", .str tool), ("input", .obj [])]

def waitingBlock : Json :=
  .obj [("type", .str "tool_result"), ("tool_use_id", .str "toolu"), ("content", .str "")]

def waitingFor (tool : String) : List Json :=
  [message "assistant" (.arr [askingBlock tool]), message "user" (.arr [waitingBlock])]

theorem collectUses_waiting {registry : List String} {tool : String} (h : tool ∈ registry) :
    collectUses registry (waitingFor tool) = some [⟨.str "toolu", tool, .obj []⟩] := by
  have hblock : collectUse registry [] (askingBlock tool) =
      some [⟨.str "toolu", tool, .obj []⟩] := by
    show (if registry.contains tool = true then some [(⟨.str "toolu", tool, .obj []⟩ : ToolUse)]
      else some []) = _
    exact if_pos (List.contains_iff_mem.mpr h)
  show (collectUse registry [] (askingBlock tool)).bind some = _
  rw [hblock]
  rfl

theorem patchInbound_waiting {env : PatchEnv} {tool : String} (h : tool ∈ env.registry) :
    ∃ run ∈ (patchInbound env (some (.arr (waitingFor tool)))).2, run.use.tool = tool := by
  refine ⟨⟨⟨.str "toolu", tool, .obj []⟩, env.runTool 0 tool (.obj [])⟩, ?_, rfl⟩
  unfold patchInbound
  dsimp only
  rw [if_neg (show ¬ (waitingFor tool).length < 2 from Nat.lt_irrefl 2), collectUses_waiting h]
  exact List.mem_cons_self

theorem loopKeeps_of {s : ToolSetup} {ctx : DispatchCtx} {env : DispatchEnv} {served : Served}
    (h : ∀ hop ∈ loopHops ctx env served, s.Given hop.tool) : LoopKeeps s ctx env served := by
  cases hinjected : ctx.proxyToolsInjected with
  | false =>
    have hrun : proxyHops ctx env served = pure (ctx.messages, served) := by
      rw [proxyHops, hinjected]
      rfl
    have hhops : loopHops ctx env served = [] := by
      rw [loopHops, hinjected]
      rfl
    refine ⟨h, by rw [hrun, hhops]; rfl, fun out hout => ?_⟩
    rw [hrun] at hout
    rw [hhops, ← Except.ok.inj hout]
    rfl
  | true =>
    have hhops : loopHops ctx env served = hopTrace env 3 0 served.anthropic.content := by
      rw [loopHops, hinjected]
      rfl
    refine ⟨h, ?_, fun out hout => ?_⟩
    · rw [proxyHops_of_injected hinjected, hhops]
      exact hopFrom_log 3 0 ctx.messages served
    · rw [proxyHops_of_injected hinjected] at hout
      rw [hhops]
      exact hopFrom_content hout

/-- **Only tools the request was given are run** exactly when it was given every tool that is
registered by then: no policy denies one and no caller shadows one. Without an injection no hop is
made, so then only the patcher counts. -/
theorem only_given_iff (s : ToolSetup) :
    OnlyGiven s ↔
      (∀ t ∈ s.atPatch, s.Readable ∧ s.Due t) ∧
        (s.Readable → ∀ n < 3, (∀ k < n, s.atHop k ≠ []) → ∀ t ∈ s.atHop n, s.Due t) := by
  constructor
  · intro h
    refine ⟨fun t ht => ?_, fun hreadable n hn hearlier t ht => ?_⟩
    · obtain ⟨run, hmem, htool⟩ :=
        @patchInbound_waiting ⟨s.atPatch, fun _ _ => false, fun _ _ _ => ""⟩ t ht
      rw [← given_iff, ← htool]
      exact h.patcher _ _ _ run hmem
    · -- every turn before the n-th asks for the first registered tool, the n-th asks for t
      have hpick : ∀ i ≤ n, (if i < n then (s.atHop i).headD "" else t) ∈ s.atHop i := by
        intro i hi
        split
        · next hlt =>
          cases hhop : s.atHop i with
          | nil => exact absurd hhop (hearlier i hlt)
          | cons first rest => exact List.mem_cons_self
        · next hge =>
          rw [show i = n from by omega]
          exact ht
      have hinjected := (injection_isSome s).mpr hreadable
      have hkeeps := h.loop { injectedCtx with proxyToolsInjected := true }
        (askingEnv s.atHop fun i => if i < n then (s.atHop i).headD "" else t)
        ⟨claudeRoute, asksFor "", "", [.toolUse "toolu" (if 0 < n then (s.atHop 0).headD "" else t)
          (.obj [])], "", "", 0, 0, 0, 0⟩ hinjected.symm rfl
      obtain ⟨hop, hmem, htool⟩ := @hopTrace_asking s.atHop
        (fun i => if i < n then (s.atHop i).headD "" else t) 3 0 n (.obj []) hn fun i hi => by
          rw [Nat.zero_add]
          exact hpick i hi
      have hgiven := hkeeps.given hop hmem
      rw [htool, Nat.zero_add, if_neg (Nat.lt_irrefl n), given_iff] at hgiven
      exact hgiven.2
  · rintro ⟨hpatch, hhops⟩
    refine ⟨fun same runTool messages run hmem => ?_, fun same runTool messages => ?_, ?_⟩
    · rw [given_iff]
      exact hpatch _ (patchInbound_runs ⟨s.atPatch, same, runTool⟩ messages run hmem)
    · exact patchInbound_patched ⟨s.atPatch, same, runTool⟩ messages
    · intro ctx env served hinjected hregistry
      refine loopKeeps_of ?_
      unfold loopHops
      rw [hinjected]
      split
      · next hsome =>
        have hreadable := (injection_isSome s).mp hsome
        refine hopTrace_all fun k hk hearlier t ht => ?_
        rw [given_iff]
        rw [Nat.zero_add, hregistry] at ht
        refine ⟨hreadable, hhops hreadable k hk (fun j hj => ?_) t ht⟩
        rw [← hregistry, ← Nat.zero_add j]
        exact hearlier j hj
      · exact fun hop hmem => absurd hmem List.not_mem_nil

/-! ### A key without tools -/

/-- The spreadsheet tool is registered, and the key allows no tool. -/
def deniedSetup : ToolSetup where
  tools := none
  policy := ⟨some [], none⟩
  atInjection := [⟨"read_xlsx_to_markdown", .obj [("name", .str "read_xlsx_to_markdown")]⟩]
  atPatch := ["read_xlsx_to_markdown"]
  atHop := fun _ => ["read_xlsx_to_markdown"]

/-- The spreadsheet tool is run for the key all the same. -/
theorem denied_tool_runs : ¬ OnlyGiven deniedSetup := by
  intro h
  obtain ⟨run, hmem, htool⟩ := @patchInbound_waiting
    ⟨deniedSetup.atPatch, fun _ _ => false, fun _ _ _ => ""⟩ "read_xlsx_to_markdown"
    List.mem_cons_self
  have hgiven := h.patcher _ _ _ run hmem
  rw [htool, given_iff] at hgiven
  exact absurd hgiven.2.allowed (by decide)

end LlmProxy.Dispatch
