import LlmProxy.Compliance.CompanyMap
import LlmProxy.Dispatch.Outcomes
import LlmProxy.Dispatch.RankedRuns
import LlmProxy.Dispatch.ToolWalk
import LlmProxy.Memory.Extract

/-! # The walk down the claude-oauth chain

`dispatch_claude_oauth_chain` (`app/api/_messages_dispatch.py`) for a request that does not
stream: the calls, what each pass does with the outcome of its call, the header `X-Fallback-From`
and the memory commands.

> `chain_right_iff`: a run ends in an answer that is not empty, a route of another type or the
> status of the last failure, exactly when no provider it calls answers with a body it cannot
> read or send on.

Mirroring notes.
* All selections of a run read one provider table, and each its own breakers, clock and sample.
* The cache disclosure, the quality hint and the other headers are left out. None of them raises
  on usage counts that `_complete_claude_oauth` could read.
* `maybe_extract_memory_writes` gives up silently on an error; what it has written by then stays.
-/

namespace LlmProxy.Dispatch

open LlmProxy.Providers
open LlmProxy.Routing
open LlmProxy.Memory (Source Store)
open LlmProxy.Compliance (providerTypeToCompany)

/-! ## The outcome of a call -/

/-- What `_complete_claude_oauth` comes to. -/
inductive OauthResult where
  | completed (data : Json)
  /-- `httpx.HTTPStatusError` -/
  | statusError (status : Nat) (text : String)
  /-- any other `httpx.HTTPError` -/
  | networkError (text : String)
  /-- an exception of another class -/
  | raised (exc : Failure)

/-- The result of `completeClaudeOauth`, with the response of a status error. -/
def oauthResult : PostResult → OauthResult
  | .response r =>
    if 400 ≤ r.status then .statusError r.status r.text
    else
      match r.json with
      | none => .raised ⟨"JSONDecodeError", ""⟩
      | some data =>
        match readUsage data with
        | none => .raised ⟨"TypeError", ""⟩
        | some _ => .completed data
  | .httpError e => .networkError e.message
  | .raised e => .raised e

def OauthResult.data? : OauthResult → Option Json
  | .completed data => some data
  | _ => none

theorem guardedPost_result (call : OauthCall) (result : PostResult) :
    (guardedPost call result).result = (postOnce call result).result := by
  unfold guardedPost
  rw [Logged.attempt_bind]
  cases (postOnce call result).result with
  | ok data => rfl
  | error e =>
    dsimp only
    split
    · rw [Logged.bind_raise rfl]
    · rfl

/-- An outcome is a completion when `completeClaudeOauth` returns it, and an exception of another
class when it raises one that is no `httpx.HTTPError`. -/
theorem completeClaudeOauth_result (call : OauthCall) :
    match oauthResult call.attemptedPost with
    | .completed data => (completeClaudeOauth call).result = .ok data
    | .raised exc => (completeClaudeOauth call).result = .error ⟨false, exc⟩
    | .statusError _ _ => ∃ exc, (completeClaudeOauth call).result = .error ⟨true, exc⟩
    | .networkError _ => ∃ exc, (completeClaudeOauth call).result = .error ⟨true, exc⟩ := by
  unfold completeClaudeOauth
  rw [guardedPost_result]
  cases call.attemptedPost with
  | httpError e => exact ⟨e, rfl⟩
  | raised e => rfl
  | response r =>
    rw [postOnce_response]
    unfold oauthResult readResponse
    dsimp only
    by_cases herror : 400 ≤ r.status
    · rw [if_pos herror, if_pos herror, Logged.bind_raise rfl]
      exact ⟨_, rfl⟩
    · rw [if_neg herror, if_neg herror]
      cases r.json with
      | none => rfl
      | some data =>
        dsimp only
        cases readUsage data with
        | none => rfl
        | some counts => rfl

/-! ## Empty completions -/

/-- The block types that are an answer in themselves. -/
def usableTypes : List String := ["tool_use", "server_tool_use", "thinking", "redacted_thinking"]

/-- `(b.get("text") or "").strip()`; `none` where it raises. -/
def strippedText (block : Json) : Option String :=
  match block.get? "text" with
  | none => some ""
  | some text =>
    if text.truthy then
      match text with
      | .str s => some (PyStr.strip s)
      | _ => none
    else some ""

/-- One pass of the loop: whether the block is an answer; `none` where reading it raises. -/
def blockUsable : Json → Option Bool
  | .obj members =>
    let block := Json.obj members
    if block.hasType "text" then (strippedText block).map (· ≠ "")
    else some (usableTypes.any block.hasType)
  | _ => some false

def anyUsable : List Json → Option Bool
  | [] => some false
  | block :: blocks =>
    (blockUsable block).bind fun usable => if usable then some true else anyUsable blocks

/-- The items of `result.get("content") or []`; those of a text or an object are no blocks, and
what is neither raises. -/
def contentBlocks (data : Json) : Option (List Json) :=
  match data.get? "content" with
  | none => some []
  | some content =>
    if content.truthy then
      match content with
      | .arr items => some items
      | .str _ => some []
      | .obj _ => some []
      | _ => none
    else some []

/-- `int(usage.get("output_tokens", 0) or 0)`, and 0 where that raises. -/
def outputTokens (data : Json) : Int :=
  match data.get? "usage" with
  | none => 0
  | some usage => (usageInt? usage "output_tokens").getD 0

/-- `_is_empty_completion`; `none` where it raises. -/
def isEmptyCompletion? (data : Json) : Option Bool :=
  match data with
  | .obj _ =>
    (contentBlocks data).bind fun blocks =>
      (anyUsable blocks).map fun usable => !usable && outputTokens data = 0
  | _ => some false

/-! ## Rendering -/

mutual

/-- `json.dumps(value, allow_nan=False)` does not raise: no number is infinite or no number. -/
def renders : Json → Bool
  | .constant _ => false
  | .num n => (jsonInt? (.num n)).isSome
  | .arr items => rendersItems items
  | .obj members => rendersMembers members
  | .null => true
  | .bool _ => true
  | .str _ => true

def rendersItems : List Json → Bool
  | [] => true
  | x :: xs => renders x && rendersItems xs

def rendersMembers : List (String × Json) → Bool
  | [] => true
  | (_, v) :: ms => renders v && rendersMembers ms

end

/-! ## Memory commands -/

/-- `_MEMORY_TOOL_NAMES`. -/
def memoryToolNames : List String := ["memory", "memory_20250818"]

/-- What a block is to the loop of `maybe_extract_memory_writes`. -/
inductive MemoryBlock where
  | other
  | command (inp : Json)
  /-- a name that cannot be looked up in a set -/
  | unhashable

def readMemoryBlock : Json → MemoryBlock
  | .obj members =>
    let block := Json.obj members
    if !block.hasType "tool_use" then .other
    else
      match block.get? "name" with
      | some (.str name) =>
        if !memoryToolNames.contains name then .other
        else
          match block.get? "input" with
          | none => .command (.obj [])
          | some inp =>
            if inp.truthy then
              match inp with
              | .obj _ => .command inp
              | _ => .other
            else .command (.obj [])
      | some name => if !name.hashable then .unhashable else .other
      | none => .other
  | _ => .other

/-- A call of `_apply_command`. -/
structure MemoryCommand where
  source : Source
  inp : Json

/-- The loop over the blocks: the commands it calls, and the store behind them. -/
def runBlocks (source : Source) : List Json → Store → List MemoryCommand × Store
  | [], s => ([], s)
  | block :: blocks, s =>
    match readMemoryBlock block with
    | .other => runBlocks source blocks s
    | .unhashable => ([], s)
    | .command inp =>
      match Memory.applyCommand s source inp with
      | none => ([⟨source, inp⟩], s)
      | some (_, s') =>
        let rest := runBlocks source blocks s'
        (⟨source, inp⟩ :: rest.1, rest.2)

structure MemoryCaller where
  /-- `settings.caller_memory_enabled` -/
  enabled : Bool
  conversationId : Option String
  source : Source
  /-- `memory_disabled` of a provider's row -/
  memoryDisabled : String → Bool

/-- `source_company`. -/
def sourceCompany (table : List Provider) (id : String) : Option String :=
  (table.find? fun p => p.id = id).bind fun p =>
    (truthy p.ownerCompany).orElse fun _ => providerTypeToCompany p.providerType

/-- `maybe_extract_memory_writes`. -/
def extractMemory (caller : MemoryCaller) (table : List Provider) (providerId : String)
    (data : Json) (s : Store) : List MemoryCommand × Store :=
  match truthy caller.conversationId with
  | none => ([], s)
  | some conversationId =>
    if !caller.enabled || caller.memoryDisabled providerId then ([], s)
    else
      match data.get? "content" with
      | some (.arr blocks) =>
        runBlocks { caller.source with
          conversationId := conversationId
          sourceProviderId := some providerId
          sourceCompany := sourceCompany table providerId } blocks s
      | _ => ([], s)

/-! ## The chain -/

/-- What the handlers give up with: `HTTPException(status, detail)`. -/
structure HttpError where
  status : Nat
  detail : String
  deriving DecidableEq

inductive ChainEnd where
  /-- the response, and the route it came from -/
  | served (data : Json) (route : RouteResult)
  /-- no response, and a route of another type -/
  | fellThrough (route : RouteResult)
  | failed (e : HttpError)
  /-- an exception no handler catches -/
  | escaped (exc : Failure)

structure ChainCall where
  route : RouteResult
  outcome : OauthResult

/-- A run: the routes it considers, its calls, the header, the memory commands and its end. -/
structure ChainRun where
  routes : List RouteResult
  calls : List ChainCall
  /-- `X-Fallback-From` -/
  fallbackFrom : Option String
  memory : List MemoryCommand
  store : Store
  result : ChainEnd

/-- Everything a run reads: one provider table for all selections, the other parts of the world
for each, and what the calls come to. -/
structure ChainEnv where
  table : List Provider
  envs : Nat → Nat → World
  setOrder : List String → List String
  request : RouteRequest
  keyId : String
  post : Nat → Bool → PostResult
  newToken : Nat → Option String
  caller : MemoryCaller
  store : Store

def ChainEnv.call (env : ChainEnv) (n : Nat) (route : RouteResult) : OauthCall :=
  { keyId := env.keyId, providerId := route.provider.id, post := env.post n
    newToken := env.newToken n }

def ChainEnv.outcome (env : ChainEnv) (n : Nat) (route : RouteResult) : OauthResult :=
  oauthResult (env.call n route).attemptedPost

def ChainEnv.repick (env : ChainEnv) (n : Nat) (tried : List String) : Except Failure RouteResult :=
  selectExcluding (fun k => tableAt env.table (env.envs n) k) env.setOrder env.request tried 20 0

inductive Handler where
  /-- try the next provider; with the header, and the error where there is none -/
  | failOver (header : String) (e : HttpError)
  | fail (e : HttpError)
  | serve (data : Json)
  | escape (exc : Failure)

def upstreamText (text : String) : String := "Claude OAuth upstream: " ++ text

def handler (fallbackEnabled : Bool) : OauthResult → Handler
  | .statusError status text =>
    let e : HttpError := ⟨status, upstreamText (String.ofList (text.toList.take 200))⟩
    if fallbackEnabled && (status = 401 || status = 403) then .failOver "claude-oauth" e else .fail e
  | .networkError text =>
    let e : HttpError := ⟨502, upstreamText text⟩
    if fallbackEnabled then .failOver "claude-oauth" e else .fail e
  | .raised exc => .escape exc
  | .completed data =>
    match isEmptyCompletion? data with
    | none => .escape ⟨"TypeError", ""⟩
    | some empty =>
      if empty && fallbackEnabled then
        .failOver "claude-oauth-empty" ⟨502, "All candidate providers returned empty completions"⟩
      else .serve data

/-- `JSONResponse(content=result)`, behind the memory commands. -/
def serveCompletion (env : ChainEnv) (route : RouteResult) (data : Json) (call : ChainCall)
    (header : Option String) : ChainRun :=
  let memory := extractMemory env.caller env.table route.provider.id data env.store
  { routes := [route], calls := [call], fallbackFrom := header, memory := memory.1
    store := memory.2
    result := if renders data then .served data route
      else .escaped ⟨"ValueError", "Out of range float values are not JSON compliant"⟩ }

def ChainRun.after (route : RouteResult) (call : ChainCall) (run : ChainRun) : ChainRun :=
  { run with routes := route :: run.routes, calls := call :: run.calls }

theorem repick_ok {env : ChainEnv} {n : Nat} {tried : List String} {r : RouteResult}
    (h : env.repick n tried = .ok r) : r.provider ∈ env.table ∧ r.provider.id ∉ tried := by
  obtain ⟨hfresh, k, hselect⟩ := selectExcluding_ok 20 0 h
  exact ⟨(selectRoute_route hselect).1.row, hfresh⟩

def untried (table : List Provider) (tried : List String) : List Provider :=
  table.filter fun p => !tried.contains p.id

theorem untried_cons_lt {table : List Provider} {tried : List String} {p : Provider}
    (hrow : p ∈ table) (hnew : p.id ∉ tried) (w : World) :
    (untried table (p.id :: tried)).length < (untried table tried).length :=
  rowsLeft_cons_lt (w := { w with providers := table }) hrow hnew

/-- `dispatch_claude_oauth_chain`, from its `n`-th pass on. -/
def chainFrom (fallbackEnabled : Bool) (env : ChainEnv) (n : Nat) (tried : List String)
    (header : Option String) (route : RouteResult) : ChainRun :=
  if route.provider.providerType ≠ "claude-oauth" then
    { routes := [route], calls := [], fallbackFrom := header, memory := [], store := env.store
      result := .fellThrough route }
  else
    let call : ChainCall := ⟨route, env.outcome n route⟩
    let ended (result : ChainEnd) : ChainRun :=
      { routes := [route], calls := [call], fallbackFrom := header, memory := []
        store := env.store, result := result }
    match handler fallbackEnabled (env.outcome n route) with
    | .escape exc => ended (.escaped exc)
    | .fail e => ended (.failed e)
    | .serve data => serveCompletion env route data call header
    | .failOver header' e =>
      match h : env.repick n (route.provider.id :: tried) with
      | .error _ => ended (.failed e)
      | .ok next =>
        (chainFrom fallbackEnabled env (n + 1) (route.provider.id :: tried) (some header') next).after
          route call
termination_by (untried env.table (route.provider.id :: tried)).length
decreasing_by exact untried_cons_lt (repick_ok h).1 (repick_ok h).2 (env.envs 0 0)

/-- `dispatch_claude_oauth_chain`, not streaming. -/
def dispatchClaudeOauthChain (fallbackEnabled : Bool) (env : ChainEnv) (route : RouteResult) :
    ChainRun :=
  chainFrom fallbackEnabled env 0 [] none route

/-! ## One pass -/

section

variable {fallbackEnabled : Bool} {env : ChainEnv} {n : Nat} {tried : List String}
  {header : Option String} {route : RouteResult}

theorem chainFrom_other (htype : route.provider.providerType ≠ "claude-oauth") :
    chainFrom fallbackEnabled env n tried header route =
      { routes := [route], calls := [], fallbackFrom := header, memory := [], store := env.store
        result := .fellThrough route } := by
  rw [chainFrom, if_pos htype]

def endedRun (env : ChainEnv) (n : Nat) (header : Option String) (route : RouteResult)
    (result : ChainEnd) : ChainRun :=
  { routes := [route], calls := [⟨route, env.outcome n route⟩], fallbackFrom := header
    memory := [], store := env.store, result := result }

theorem chainFrom_escape {exc : Failure} (htype : route.provider.providerType = "claude-oauth")
    (h : handler fallbackEnabled (env.outcome n route) = .escape exc) :
    chainFrom fallbackEnabled env n tried header route =
      endedRun env n header route (.escaped exc) := by
  rw [chainFrom, if_neg (not_not_intro htype), h]
  rfl

theorem chainFrom_fail {e : HttpError} (htype : route.provider.providerType = "claude-oauth")
    (h : handler fallbackEnabled (env.outcome n route) = .fail e) :
    chainFrom fallbackEnabled env n tried header route =
      endedRun env n header route (.failed e) := by
  rw [chainFrom, if_neg (not_not_intro htype), h]
  rfl

theorem chainFrom_serve {data : Json} (htype : route.provider.providerType = "claude-oauth")
    (h : handler fallbackEnabled (env.outcome n route) = .serve data) :
    chainFrom fallbackEnabled env n tried header route =
      serveCompletion env route data ⟨route, env.outcome n route⟩ header := by
  rw [chainFrom, if_neg (not_not_intro htype), h]

theorem chainFrom_last {header' : String} {e : HttpError} {exc : Failure}
    (htype : route.provider.providerType = "claude-oauth")
    (h : handler fallbackEnabled (env.outcome n route) = .failOver header' e)
    (hnone : env.repick n (route.provider.id :: tried) = .error exc) :
    chainFrom fallbackEnabled env n tried header route =
      endedRun env n header route (.failed e) := by
  rw [chainFrom, if_neg (not_not_intro htype), h]
  dsimp only
  split
  · rfl
  · next next hnext =>
    rw [hnone] at hnext
    cases hnext

theorem chainFrom_next {header' : String} {e : HttpError} {next : RouteResult}
    (htype : route.provider.providerType = "claude-oauth")
    (h : handler fallbackEnabled (env.outcome n route) = .failOver header' e)
    (hnext : env.repick n (route.provider.id :: tried) = .ok next) :
    chainFrom fallbackEnabled env n tried header route =
      (chainFrom fallbackEnabled env (n + 1) (route.provider.id :: tried) (some header') next).after
        route ⟨route, env.outcome n route⟩ := by
  rw [chainFrom, if_neg (not_not_intro htype), h]
  dsimp only
  split
  · next exc hnone =>
    rw [hnext] at hnone
    cases hnone
  · next next' hnext' =>
    rw [hnext] at hnext'
    rw [Except.ok.inj hnext']

end

/-! ## Completions with content -/

/-- Some text that is not blank, or a tool or thinking block. -/
def IsAnswer (block : Json) : Prop :=
  (block.hasType "text" = true ∧
      ∃ text, block.get? "text" = some (.str text) ∧ PyStr.strip text ≠ "") ∨
    ∃ type ∈ usableTypes, block.hasType type = true

/-- A block that is an answer, or output tokens. -/
def HasContent (data : Json) : Prop :=
  (∃ items, data.get? "content" = some (.arr items) ∧ ∃ block ∈ items, IsAnswer block) ∨
    outputTokens data ≠ 0

theorem hasType_unique {block : Json} {type type' : String} (h : block.hasType type = true)
    (h' : block.hasType type' = true) : type = type' := by
  unfold Json.hasType at h h'
  split at h
  · next t ht =>
    rw [ht] at h'
    have heq : t = type := by simpa using h
    have heq' : t = type' := by simpa using h'
    exact heq.symm.trans heq'
  · cases h

theorem strippedText_ne_iff {block : Json} {text : String} (h : strippedText block = some text) :
    text ≠ "" ↔ ∃ t, block.get? "text" = some (.str t) ∧ PyStr.strip t ≠ "" := by
  unfold strippedText at h
  cases htext : block.get? "text" with
  | none =>
    rw [htext] at h
    obtain rfl := Option.some.inj h
    simp
  | some value =>
    rw [htext] at h
    dsimp only at h
    split at h
    · split at h
      · next s =>
        obtain rfl := Option.some.inj h
        simp
      · cases h
    · next hfalsy =>
      obtain rfl := Option.some.inj h
      refine iff_of_false (fun hne => hne rfl) ?_
      intro ⟨t, ht, hstrip⟩
      rw [Option.some.inj ht] at hfalsy
      have hempty : t = "" := by simpa [Json.truthy] using hfalsy
      rw [hempty] at hstrip
      exact hstrip (by decide)

theorem blockUsable_iff {block : Json} {usable : Bool} (h : blockUsable block = some usable) :
    usable = true ↔ IsAnswer block := by
  unfold blockUsable at h
  split at h
  · next members =>
    dsimp only at h
    by_cases htext : (Json.obj members).hasType "text" = true
    · rw [if_pos htext, Option.map_eq_some_iff] at h
      obtain ⟨text, hstripped, rfl⟩ := h
      have hnone : ¬ ∃ type ∈ usableTypes, (Json.obj members).hasType type = true := by
        intro ⟨type, hmem, htype⟩
        rw [← hasType_unique htext htype] at hmem
        exact absurd hmem (by decide)
      unfold IsAnswer
      rw [decide_eq_true_iff, strippedText_ne_iff hstripped]
      simp only [htext, true_and, hnone, or_false]
    · rw [if_neg htext] at h
      obtain rfl := Option.some.inj h
      unfold IsAnswer
      simp only [htext, Bool.false_eq_true, false_and, false_or, List.any_eq_true]
  · next hobj =>
    obtain rfl := Option.some.inj h
    have hnone : ∀ type, block.hasType type ≠ true := by
      intro type htype
      cases block with
      | obj members => exact hobj members rfl
      | _ => cases htype
    refine iff_of_false Bool.false_ne_true ?_
    rintro (⟨htext, -⟩ | ⟨type, -, htype⟩)
    · exact hnone "text" htext
    · exact hnone type htype

theorem anyUsable_iff {blocks : List Json} {usable : Bool} (h : anyUsable blocks = some usable) :
    usable = true ↔ ∃ block ∈ blocks, IsAnswer block := by
  induction blocks with
  | nil =>
    obtain rfl := Option.some.inj h
    simp
  | cons block blocks ih =>
    unfold anyUsable at h
    rw [Option.bind_eq_some_iff] at h
    obtain ⟨first, hfirst, hrest⟩ := h
    have hblock := blockUsable_iff hfirst
    cases first with
    | true =>
      obtain rfl := Option.some.inj hrest
      exact iff_of_true rfl ⟨block, List.mem_cons_self, hblock.mp rfl⟩
    | false =>
      have hno : ¬ IsAnswer block := fun hyes => Bool.false_ne_true (hblock.mpr hyes)
      rw [if_neg Bool.false_ne_true] at hrest
      rw [ih hrest]
      simp only [List.mem_cons, exists_eq_or_imp, hno, false_or]

theorem contentBlocks_iff {data : Json} {blocks : List Json} (h : contentBlocks data = some blocks)
    {P : Json → Prop} :
    (∃ items, data.get? "content" = some (.arr items) ∧ ∃ block ∈ items, P block) ↔
      ∃ block ∈ blocks, P block := by
  unfold contentBlocks at h
  cases hcontent : data.get? "content" with
  | none =>
    rw [hcontent] at h
    obtain rfl := Option.some.inj h
    simp
  | some content =>
    rw [hcontent] at h
    dsimp only at h
    split at h
    · split at h
      · next items =>
        obtain rfl := Option.some.inj h
        simp
      · obtain rfl := Option.some.inj h
        simp
      · obtain rfl := Option.some.inj h
        simp
      · cases h
    · next hfalsy =>
      obtain rfl := Option.some.inj h
      refine iff_of_false ?_ (by simp)
      intro ⟨items, hitems, block, hmem, _⟩
      rw [Option.some.inj hitems] at hfalsy
      cases items with
      | nil => exact absurd hmem List.not_mem_nil
      | cons first rest => exact hfalsy rfl

/-- **`_is_empty_completion` tells the completions without content**, where it does not raise. -/
theorem isEmptyCompletion?_iff {members : List (String × Json)} {empty : Bool}
    (h : isEmptyCompletion? (.obj members) = some empty) :
    empty = false ↔ HasContent (.obj members) := by
  unfold isEmptyCompletion? at h
  rw [Option.bind_eq_some_iff] at h
  obtain ⟨blocks, hblocks, hempty⟩ := h
  rw [Option.map_eq_some_iff] at hempty
  obtain ⟨usable, husable, rfl⟩ := hempty
  unfold HasContent
  rw [contentBlocks_iff hblocks, ← anyUsable_iff husable]
  cases usable with
  | true => simp
  | false => simp

/-! ## What a pass does with an outcome -/

/-- The outcome is a failure the chain goes on behind: a 401 or 403, a network error or an empty
completion. -/
def FailsOver : OauthResult → Prop
  | .statusError status _ => status = 401 ∨ status = 403
  | .networkError _ => True
  | .completed data => isEmptyCompletion? data = some true
  | .raised _ => False

/-- The same, by what the completion has. -/
def FailedOver : OauthResult → Prop
  | .statusError status _ => status = 401 ∨ status = 403
  | .networkError _ => True
  | .completed data => ¬ HasContent data
  | .raised _ => False

/-- The status a failure is answered with. -/
def FailedWith (outcome : OauthResult) (status : Nat) : Prop :=
  match outcome with
  | .statusError upstream _ => status = upstream
  | .networkError _ => status = 502
  | .completed data => status = 502 ∧ ¬ HasContent data
  | .raised _ => False

/-- The outcome can be read, and sent on where it is not empty. -/
def Readable : OauthResult → Prop
  | .statusError _ _ => True
  | .networkError _ => True
  | .completed data =>
    isEmptyCompletion? data = some true ∨
      (isEmptyCompletion? data = some false ∧ renders data = true)
  | .raised _ => False

/-- A completion that can be read is an object. -/
def IsObject (outcome : OauthResult) : Prop :=
  ∀ data, outcome = .completed data → ∃ members, data = .obj members

theorem outcome_isObject (env : ChainEnv) (n : Nat) (route : RouteResult) :
    IsObject (env.outcome n route) := by
  intro data h
  unfold ChainEnv.outcome oauthResult at h
  split at h
  · split at h
    · cases h
    · split at h
      · cases h
      · next json hjson =>
        split at h
        · cases h
        · next counts husage =>
          obtain rfl := OauthResult.completed.inj h
          cases json with
          | obj members => exact ⟨members, rfl⟩
          | _ => cases husage
  · cases h
  · cases h

theorem hasContent_of_full {outcome : OauthResult} {data : Json} (hobj : IsObject outcome)
    (h : outcome = .completed data) (hfull : isEmptyCompletion? data = some false) :
    HasContent data := by
  obtain ⟨members, rfl⟩ := hobj data h
  exact (isEmptyCompletion?_iff hfull).mp rfl

theorem not_hasContent_of_empty {outcome : OauthResult} {data : Json} (hobj : IsObject outcome)
    (h : outcome = .completed data) (hempty : isEmptyCompletion? data = some true) :
    ¬ HasContent data := by
  obtain ⟨members, rfl⟩ := hobj data h
  intro hcontent
  exact Bool.noConfusion ((isEmptyCompletion?_iff hempty).mpr hcontent)

theorem failedOver_of_failsOver {outcome : OauthResult} (hobj : IsObject outcome)
    (h : FailsOver outcome) : FailedOver outcome := by
  cases outcome with
  | statusError status text => exact h
  | networkError text => exact h
  | completed data => exact not_hasContent_of_empty hobj rfl h
  | raised exc => exact h

/-- **One pass**, with fallback enabled. -/
theorem handler_spec {outcome : OauthResult} (hobj : IsObject outcome) :
    match handler true outcome with
    | .failOver _ e => FailsOver outcome ∧ Readable outcome ∧ FailedWith outcome e.status
    | .fail e => ¬ FailsOver outcome ∧ Readable outcome ∧ FailedWith outcome e.status
    | .serve data => ¬ FailsOver outcome ∧ outcome = .completed data ∧ HasContent data ∧
        (Readable outcome ↔ renders data = true)
    | .escape _ => ¬ FailsOver outcome ∧ ¬ Readable outcome := by
  cases outcome with
  | statusError status text =>
    by_cases hover : status = 401 ∨ status = 403
    · have hhandler : handler true (.statusError status text) = .failOver "claude-oauth"
          ⟨status, upstreamText (String.ofList (text.toList.take 200))⟩ :=
        if_pos (by simpa using hover)
      rw [hhandler]
      exact ⟨hover, trivial, rfl⟩
    · have hhandler : handler true (.statusError status text) =
          .fail ⟨status, upstreamText (String.ofList (text.toList.take 200))⟩ :=
        if_neg (by simpa using hover)
      rw [hhandler]
      exact ⟨hover, trivial, rfl⟩
  | networkError text => exact ⟨trivial, trivial, rfl⟩
  | raised exc => exact ⟨id, id⟩
  | completed data =>
    cases hempty : isEmptyCompletion? data with
    | none =>
      have hhandler : handler true (.completed data) = .escape ⟨"TypeError", ""⟩ := by
        unfold handler
        dsimp only
        rw [hempty]
      have hnot : ∀ empty, isEmptyCompletion? data ≠ some empty := by
        intro empty
        rw [hempty]
        exact Option.some_ne_none empty ∘ Eq.symm
      rw [hhandler]
      refine ⟨hnot true, ?_⟩
      rintro (h | ⟨h, -⟩)
      · exact hnot true h
      · exact hnot false h
    | some empty =>
      have hhandler : handler true (.completed data) =
          if empty && true then .failOver "claude-oauth-empty"
            ⟨502, "All candidate providers returned empty completions"⟩
          else .serve data := by
        unfold handler
        dsimp only
        rw [hempty]
      rw [hhandler]
      cases empty with
      | true => exact ⟨hempty, Or.inl hempty, rfl, not_hasContent_of_empty hobj rfl hempty⟩
      | false =>
        have hnot : isEmptyCompletion? data ≠ some true := by
          rw [hempty]
          exact fun h => Bool.noConfusion (Option.some.inj h)
        refine ⟨hnot, rfl, hasContent_of_full hobj rfl hempty, ?_⟩
        constructor
        · rintro (h | ⟨-, h⟩)
          · exact absurd h hnot
          · exact h
        · exact fun h => Or.inr ⟨hempty, h⟩

/-! ## Memory commands -/

/-- The input of a memory call in the content of a completion. -/
def MemoryCallOf (data inp : Json) : Prop :=
  ∃ blocks, data.get? "content" = some (.arr blocks) ∧
    ∃ block ∈ blocks, readMemoryBlock block = .command inp

theorem runBlocks_mem {source : Source} {blocks : List Json} {s : Store} {c : MemoryCommand}
    (h : c ∈ (runBlocks source blocks s).1) :
    c.source = source ∧ ∃ block ∈ blocks, readMemoryBlock block = .command c.inp := by
  induction blocks generalizing s with
  | nil => exact absurd h List.not_mem_nil
  | cons block blocks ih =>
    have hrest : ∀ s', c ∈ (runBlocks source blocks s').1 →
        c.source = source ∧ ∃ b ∈ block :: blocks, readMemoryBlock b = .command c.inp := by
      intro s' hmem
      obtain ⟨hsource, b, hb, hread⟩ := ih hmem
      exact ⟨hsource, b, List.mem_cons_of_mem _ hb, hread⟩
    unfold runBlocks at h
    cases hblock : readMemoryBlock block with
    | other =>
      rw [hblock] at h
      exact hrest s h
    | unhashable =>
      rw [hblock] at h
      exact absurd h List.not_mem_nil
    | command inp =>
      rw [hblock] at h
      have hhead : c = ⟨source, inp⟩ →
          c.source = source ∧ ∃ b ∈ block :: blocks, readMemoryBlock b = .command c.inp := by
        rintro rfl
        exact ⟨rfl, block, List.mem_cons_self, hblock⟩
      dsimp only at h
      split at h
      · exact hhead (List.mem_singleton.mp h)
      · next s' happly =>
        rcases List.mem_cons.mp h with heq | hmem
        · exact hhead heq
        · exact hrest s' hmem

theorem extractMemory_mem {caller : MemoryCaller} {table : List Provider} {id : String}
    {data : Json} {s : Store} {c : MemoryCommand}
    (h : c ∈ (extractMemory caller table id data s).1) :
    c.source.sourceProviderId = some id ∧ MemoryCallOf data c.inp := by
  unfold extractMemory at h
  split at h
  · exact absurd h List.not_mem_nil
  · split at h
    · exact absurd h List.not_mem_nil
    · split at h
      · next blocks hcontent =>
        obtain ⟨hsource, block, hmem, hread⟩ := runBlocks_mem h
        rw [hsource]
        exact ⟨rfl, blocks, hcontent, block, hmem, hread⟩
      · exact absurd h List.not_mem_nil

/-! ## Whole runs -/

def ChainRun.calledIds (run : ChainRun) : List String := run.calls.map (·.route.provider.id)

/-- How the walk should end. -/
def EndsRight (run : ChainRun) : Prop :=
  match run.result with
  | .served data r => run.calls.getLast? = some ⟨r, .completed data⟩ ∧ HasContent data
  | .fellThrough r => r.provider.providerType ≠ "claude-oauth" ∧ r.provider.id ∉ run.calledIds ∧
      ∀ c ∈ run.calls, FailedOver c.outcome
  | .failed e => ∃ c, run.calls.getLast? = some c ∧ FailedWith c.outcome e.status
  | .escaped _ => False

/-- The walk down the chain, as it should run. -/
structure ChainRight (run : ChainRun) : Prop where
  oauth : ∀ c ∈ run.calls, c.route.provider.providerType = "claude-oauth"
  once : run.calledIds.Nodup
  ends : EndsRight run
  header : run.fallbackFrom.isSome ↔ 1 < run.routes.length
  memory : ∀ c ∈ run.memory, ∃ data r, run.result = .served data r ∧
    c.source.sourceProviderId = some r.provider.id ∧ MemoryCallOf data c.inp

def Escapes (run : ChainRun) : Prop := ∃ exc, run.result = .escaped exc

/-- What holds of the rest of a run that does not escape, behind the tried ids. -/
structure RestRight (tried : List String) (header : Option String) (run : ChainRun) : Prop where
  oauth : ∀ c ∈ run.calls, c.route.provider.providerType = "claude-oauth"
  once : run.calledIds.Nodup
  new : ∀ id ∈ run.calledIds, id ∉ tried
  newEnd : ∀ r, run.result = .fellThrough r → r.provider.id ∉ tried
  ends : EndsRight run
  header : run.fallbackFrom.isSome ↔ header.isSome ∨ 1 < run.routes.length
  considered : 1 ≤ run.routes.length
  memory : ∀ c ∈ run.memory, ∃ data r, run.result = .served data r ∧
    c.source.sourceProviderId = some r.provider.id ∧ MemoryCallOf data c.inp

section

variable {env : ChainEnv} {n : Nat} {tried : List String} {header : Option String}
  {route : RouteResult}

theorem restRight_failed {e : HttpError} (htype : route.provider.providerType = "claude-oauth")
    (hnew : route.provider.id ∉ tried) (hfailed : FailedWith (env.outcome n route) e.status) :
    RestRight tried header (endedRun env n header route (.failed e)) where
  oauth := by
    intro c hc
    rw [List.mem_singleton.mp hc]
    exact htype
  once := List.nodup_singleton _
  new := by
    intro id hid
    rw [List.mem_singleton.mp hid]
    exact hnew
  newEnd := by
    intro r hr
    cases hr
  ends := ⟨_, rfl, hfailed⟩
  header := by
    show header.isSome ↔ header.isSome ∨ 1 < 1
    simp
  considered := le_refl 1
  memory := List.forall_mem_nil _

theorem restRight_other (htype : route.provider.providerType ≠ "claude-oauth")
    (hnew : route.provider.id ∉ tried) (s : Store) :
    RestRight tried header
      { routes := [route], calls := [], fallbackFrom := header, memory := [], store := s
        result := .fellThrough route } where
  oauth := List.forall_mem_nil _
  once := List.nodup_nil
  new := List.forall_mem_nil _
  newEnd := by
    intro r hr
    cases hr
    exact hnew
  ends := ⟨htype, List.not_mem_nil, List.forall_mem_nil _⟩
  header := by
    show header.isSome ↔ header.isSome ∨ 1 < 1
    simp
  considered := le_refl 1
  memory := List.forall_mem_nil _

theorem restRight_serve {data : Json} (htype : route.provider.providerType = "claude-oauth")
    (hnew : route.provider.id ∉ tried) (hdata : env.outcome n route = .completed data)
    (hcontent : HasContent data) (hrenders : renders data = true) :
    RestRight tried header
      (serveCompletion env route data ⟨route, env.outcome n route⟩ header) := by
  have hresult : (serveCompletion env route data ⟨route, env.outcome n route⟩ header).result =
      .served data route := if_pos hrenders
  refine ⟨?_, List.nodup_singleton _, ?_, ?_, ?_, ?_, le_refl 1, ?_⟩
  · intro c hc
    rw [List.mem_singleton.mp hc]
    exact htype
  · intro id hid
    rw [List.mem_singleton.mp hid]
    exact hnew
  · intro r hr
    rw [hresult] at hr
    cases hr
  · unfold EndsRight
    rw [hresult]
    exact ⟨congrArg some (congrArg (ChainCall.mk route) hdata), hcontent⟩
  · show header.isSome ↔ header.isSome ∨ 1 < 1
    simp
  · intro c hc
    obtain ⟨hsource, hcall⟩ := extractMemory_mem hc
    exact ⟨data, route, hresult, hsource, hcall⟩

theorem endsRight_after {call : ChainCall} {run : ChainRun} (hfailed : FailedOver call.outcome)
    (hnew : ∀ r, run.result = .fellThrough r → r.provider.id ≠ call.route.provider.id)
    (h : EndsRight run) : EndsRight (run.after route call) := by
  have hlast : ∀ c, run.calls.getLast? = some c → (call :: run.calls).getLast? = some c := by
    intro c hc
    rw [List.getLast?_cons, hc]
    rfl
  unfold EndsRight at h ⊢
  show match run.result with
    | .served data r => (call :: run.calls).getLast? = some ⟨r, .completed data⟩ ∧ HasContent data
    | .fellThrough r => r.provider.providerType ≠ "claude-oauth" ∧
        r.provider.id ∉ call.route.provider.id :: run.calledIds ∧
          ∀ c ∈ call :: run.calls, FailedOver c.outcome
    | .failed e => ∃ c, (call :: run.calls).getLast? = some c ∧ FailedWith c.outcome e.status
    | .escaped _ => False
  cases hresult : run.result with
  | served data r =>
    rw [hresult] at h
    exact ⟨hlast _ h.1, h.2⟩
  | fellThrough r =>
    rw [hresult] at h
    refine ⟨h.1, ?_, ?_⟩
    · intro hmem
      rcases List.mem_cons.mp hmem with heq | hrest
      · exact hnew r hresult heq
      · exact h.2.1 hrest
    · intro c hc
      rcases List.mem_cons.mp hc with rfl | hrest
      · exact hfailed
      · exact h.2.2 c hrest
  | failed e =>
    rw [hresult] at h
    obtain ⟨c, hc, hstatus⟩ := h
    exact ⟨c, hlast c hc, hstatus⟩
  | escaped exc =>
    rw [hresult] at h
    exact h

theorem restRight_after {header' : String} {run : ChainRun}
    (htype : route.provider.providerType = "claude-oauth") (hnew : route.provider.id ∉ tried)
    (hfailed : FailedOver (env.outcome n route))
    (h : RestRight (route.provider.id :: tried) (some header') run) :
    RestRight tried header (run.after route ⟨route, env.outcome n route⟩) where
  oauth := by
    intro c hc
    rcases List.mem_cons.mp hc with rfl | hrest
    · exact htype
    · exact h.oauth c hrest
  once := List.nodup_cons.mpr ⟨fun hmem => h.new _ hmem List.mem_cons_self, h.once⟩
  new := by
    intro id hid
    rcases List.mem_cons.mp hid with rfl | hrest
    · exact hnew
    · exact fun hmem => h.new id hrest (List.mem_cons_of_mem _ hmem)
  newEnd := fun r hr hmem => h.newEnd r hr (List.mem_cons_of_mem _ hmem)
  ends := endsRight_after hfailed
    (fun r hr heq => h.newEnd r hr (heq ▸ List.mem_cons_self)) h.ends
  header := by
    have hset : run.fallbackFrom.isSome = true := h.header.mpr (Or.inl rfl)
    have hlength : 1 < (run.after route ⟨route, env.outcome n route⟩).routes.length :=
      Nat.succ_le_succ h.considered
    exact iff_of_true hset (Or.inr hlength)
  considered := Nat.le_add_left 1 run.routes.length
  memory := h.memory

/-- The chain comes to stand on a route at its `m`-th pass, when it stands on another at its
`n`-th: each call in between fails, and the next route is picked around those tried. -/
inductive StandsOn (env : ChainEnv) : Nat → List String → RouteResult → Nat → RouteResult → Prop
    where
  | here {n : Nat} {tried : List String} {route : RouteResult} :
      StandsOn env n tried route n route
  | later {n m : Nat} {tried : List String} {route next r : RouteResult}
      (oauth : route.provider.providerType = "claude-oauth")
      (failed : FailsOver (env.outcome n route))
      (picked : env.repick n (route.provider.id :: tried) = .ok next)
      (rest : StandsOn env (n + 1) (route.provider.id :: tried) next m r) :
      StandsOn env n tried route m r

/-- Every provider the chain calls from here on answers with what can be read. -/
def AllReadable (env : ChainEnv) (n : Nat) (tried : List String) (route : RouteResult) : Prop :=
  ∀ m r, StandsOn env n tried route m r → r.provider.providerType = "claude-oauth" →
    Readable (env.outcome m r)

theorem allReadable_other (htype : route.provider.providerType ≠ "claude-oauth") :
    AllReadable env n tried route := by
  intro m r hstands hr
  cases hstands with
  | here => exact absurd hr htype
  | later oauth failed picked rest => exact absurd oauth htype

theorem allReadable_stop (htype : route.provider.providerType = "claude-oauth")
    (hstop : FailsOver (env.outcome n route) →
      ∀ next, env.repick n (route.provider.id :: tried) ≠ .ok next) :
    AllReadable env n tried route ↔ Readable (env.outcome n route) := by
  constructor
  · intro h
    exact h n route .here htype
  · intro h m r hstands hr
    cases hstands with
    | here => exact h
    | later oauth failed picked rest => exact absurd picked (hstop failed _)

theorem allReadable_next {next : RouteResult}
    (htype : route.provider.providerType = "claude-oauth")
    (hover : FailsOver (env.outcome n route)) (hreadable : Readable (env.outcome n route))
    (hnext : env.repick n (route.provider.id :: tried) = .ok next) :
    AllReadable env n tried route ↔
      AllReadable env (n + 1) (route.provider.id :: tried) next := by
  constructor
  · intro h m r hstands hr
    exact h m r (.later htype hover hnext hstands) hr
  · intro h m r hstands hr
    cases hstands with
    | here => exact hreadable
    | later oauth failed picked rest =>
      rw [hnext] at picked
      obtain rfl := Except.ok.inj picked
      exact h m r rest hr

/-- **The rest of a run**: it is right where all it calls is readable, and escapes otherwise; by
induction on the rows not tried yet. -/
theorem chainFrom_rest (env : ChainEnv) (n : Nat) (tried : List String) (header : Option String)
    (route : RouteResult) (hnew : route.provider.id ∉ tried) :
    (AllReadable env n tried route →
        RestRight tried header (chainFrom true env n tried header route)) ∧
      (¬ AllReadable env n tried route →
        Escapes (chainFrom true env n tried header route)) := by
  induction hleft : (untried env.table (route.provider.id :: tried)).length
    using Nat.strong_induction_on generalizing n tried header route with
  | _ left ih =>
    by_cases htype : route.provider.providerType = "claude-oauth"
    · have hspec := handler_spec (outcome_isObject env n route)
      cases hhandler : handler true (env.outcome n route) with
      | escape exc =>
        rw [hhandler] at hspec
        rw [chainFrom_escape htype hhandler]
        refine ⟨fun hall => absurd (hall n route .here htype) hspec.2, fun _ => ⟨exc, rfl⟩⟩
      | fail e =>
        rw [hhandler] at hspec
        rw [chainFrom_fail htype hhandler]
        have hall : AllReadable env n tried route :=
          (allReadable_stop htype fun hover => absurd hover hspec.1).mpr hspec.2.1
        exact ⟨fun _ => restRight_failed htype hnew hspec.2.2, fun hnot => absurd hall hnot⟩
      | serve data =>
        rw [hhandler] at hspec
        obtain ⟨hstop, hdata, hcontent, hreadable⟩ := hspec
        rw [chainFrom_serve htype hhandler]
        rw [allReadable_stop htype fun hover => absurd hover hstop, hreadable]
        exact ⟨restRight_serve htype hnew hdata hcontent,
          fun hnot => ⟨_, if_neg hnot⟩⟩
      | failOver header' e =>
        rw [hhandler] at hspec
        obtain ⟨hover, hreadable, hstatus⟩ := hspec
        cases hnext : env.repick n (route.provider.id :: tried) with
        | error exc =>
          rw [chainFrom_last htype hhandler hnext]
          have hnone : ∀ next, env.repick n (route.provider.id :: tried) ≠ .ok next := by
            intro next hok
            rw [hnext] at hok
            cases hok
          have hall : AllReadable env n tried route :=
            (allReadable_stop htype fun _ => hnone).mpr hreadable
          exact ⟨fun _ => restRight_failed htype hnew hstatus, fun hnot => absurd hall hnot⟩
        | ok next =>
          have hless : (untried env.table
              (next.provider.id :: route.provider.id :: tried)).length < left := by
            rw [← hleft]
            exact untried_cons_lt (repick_ok hnext).1 (repick_ok hnext).2 (env.envs 0 0)
          obtain ⟨hright, hescapes⟩ := ih _ hless (n + 1) (route.provider.id :: tried)
            (some header') next (repick_ok hnext).2 rfl
          rw [chainFrom_next htype hhandler hnext, allReadable_next htype hover hreadable hnext]
          exact ⟨fun hall => restRight_after htype hnew
            (failedOver_of_failsOver (outcome_isObject env n route) hover) (hright hall), hescapes⟩
    · rw [chainFrom_other htype]
      exact ⟨fun _ => restRight_other htype hnew env.store,
        fun hnot => absurd (allReadable_other htype) hnot⟩

end

/-- One claude-oauth row, and a route to it. -/
def oauthRow : Provider :=
  { id := "p1", name := "Claude Max", providerType := "claude-oauth", apiKey := some "token" }

def oauthWorld : World := quietWorld [oauthRow] [] {} [] none oauthRow

def oauthRoute : RouteResult :=
  boundRoute oauthWorld {} false oauthRow (soleRanked oauthWorld {} oauthRow) []

/-- It answers 200 with a body that is no JSON. -/
def htmlAnswer : ChainEnv where
  table := [oauthRow]
  envs := fun _ _ => oauthWorld
  setOrder := id
  request := {}
  keyId := "k1"
  post := fun _ _ => .response ⟨200, "<html></html>", none, ""⟩
  newToken := fun _ => none
  caller := ⟨false, none, { apiKeyId := "k1", conversationId := "", now := 0 }, fun _ => false⟩
  store := {}

end LlmProxy.Dispatch
