import LlmProxy.Lib.Interleaving
import LlmProxy.Lib.Json
import LlmProxy.Lib.PyNum
import LlmProxy.Lib.Session
import LlmProxy.Providers.Row

/-! # The AI provider supervisor

`app/monitoring/ai_provider_supervisor.py`: a scan loads the enabled providers into one session,
and each is reviewed in turn: its lock is looked at, a classifier is asked, and what it suggests is
applied to the loaded object and committed. The session does not expire what it has loaded
(`expire_on_commit=False`), so the object of a review is the row as the scan has read it.

Mirroring notes.
* What the classifier call fails with, an exception of `parse_llm_response` included, is no answer.
* The review row stands for its insert alone: it raises on a value SQLite cannot bind. Behind it the
  session holds the write lock, so flush, apply and commit are one stretch.
* A review comes with the moments it draws. Dates are not bounded.
-/

namespace LlmProxy.Supervisor

open LlmProxy.Cluster (Stamp serverNow)
open LlmProxy.Providers (Provider FlushClock)

structure Settings where
  autoApply : Bool := false
  maxPriorityDelta : Int := 2
  maxAutoSkipHours : Int := 24
  deriving DecidableEq, Repr

inductive PyError where
  | attributeError
  | typeError
  | valueError
  | overflowError
  | interfaceError
  deriving DecidableEq, Repr

/-! ## The classifier's answer -/

def validVerdicts : List String := ["normal", "watch", "deprioritize", "disable", "investigate"]

structure VerdictData where
  verdict : String
  reasoning : Json
  suggestedPriorityDelta : Json
  suggestedAutoSkipHours : Json

def fence : List Char := "```".toList

def unfence (s : String) : String :=
  if PyStr.startsWith s "```" then
    let body := if PyStr.containsChar s '\n' then (PyStr.partition s '\n').2 else s
    if fence.isSuffixOf body.toList then String.ofList (body.toList.take (body.length - 3))
    else body
  else s

/-- `(value or "")[:2000]`. -/
def reasoningOf (value : Json) : Except PyError Json :=
  if !value.truthy then .ok (.str "")
  else match value with
    | .str s => .ok (.str (String.ofList (s.toList.take 2000)))
    | .arr items => .ok (.arr (items.take 2000))
    | _ => .error .typeError

/-- `parse_llm_response`. -/
def parseLlmResponse (text : String) : Except PyError (Option VerdictData) :=
  if text = "" then .ok none
  else match Json.parse (PyStr.strip (unfence (PyStr.strip text))).toList with
    | none => .ok none
    | some data =>
      match data with
      | .obj _ =>
        match data.get? "verdict" with
        | some (.str verdict) =>
          if verdict ∈ validVerdicts then do
            let reasoning ← reasoningOf ((data.get? "reasoning").getD .null)
            .ok (some
              { verdict
                reasoning
                suggestedPriorityDelta := (data.get? "suggested_priority_delta").getD .null
                suggestedAutoSkipHours := (data.get? "suggested_auto_skip_hours").getD .null })
          else .ok none
        | _ => .ok none
      | _ => .error .attributeError

/-- `classify_with_llm`, from the text of the answer on. -/
def classifyWithLlm (answer : Option String) : Option VerdictData :=
  match answer.map parseLlmResponse with
  | some (.ok data) => data
  | _ => none

/-! ## Numbers -/

def truncate (q : Rat) : Int := if 0 ≤ q then q.floor else q.ceil

/-- A float literal from here on reads as infinity. -/
def floatLimit : Rat := 2 ^ 1024 - 2 ^ 970

/-- `int(value)` of a JSON number. -/
def intOfNumeral (n : Json.Numeral) : Except PyError Int :=
  match PyNum.int? (String.ofList n.text) with
  | some i => .ok i
  | none =>
    match PyNum.float? (String.ofList n.text) with
    | some (.fin q) => if q < floatLimit ∧ -floatLimit < q then .ok (truncate q)
        else .error .overflowError
    | _ => .error .valueError

/-- `int(value or 0)`. -/
def intOf (value : Json) : Except PyError Int :=
  if !value.truthy then .ok 0
  else match value with
    | .bool _ => .ok 1
    | .num n => intOfNumeral n
    | .constant .nan => .error .valueError
    | .constant _ => .error .overflowError
    | .str s =>
      match PyNum.int? s with
      | some i => .ok i
      | none => .error .valueError
    | _ => .error .typeError

/-- `max(1, min(value, cap))`. -/
def clamp (value cap : Int) : Int := max 1 (min value cap)

/-- SQLite binds the value: no list, no object, no integer beyond 64 bits. -/
def bindable : Json → Bool
  | .arr _ | .obj _ => false
  | .num n =>
    match PyNum.int? (String.ofList n.text) with
    | some i => decide (-(2 ^ 63) ≤ i ∧ i < 2 ^ 63)
    | none => true
  | _ => true

/-! ## The suggestion -/

def microsPerHour : Int := 3600000000

/-- `_apply_suggestion`: the provider object afterwards. -/
def applySuggestion (cfg : Settings) (now : Stamp) (provider : Provider) (data : VerdictData) :
    Except PyError Provider :=
  if provider.manualOverrideUntil.isSome then .ok provider
  else if data.verdict = "deprioritize" then do
    let delta ← intOf data.suggestedPriorityDelta
    .ok
      { provider with
        priority := (if provider.priority = 0 then 10 else provider.priority) +
          clamp delta cfg.maxPriorityDelta }
  else if data.verdict = "disable" then do
    let hours ← intOf data.suggestedAutoSkipHours
    let reasoning := match data.reasoning with
      | .str s => s
      | _ => ""
    .ok
      { provider with
        autoSkipUntil := some (now + clamp hours cfg.maxAutoSkipHours * microsPerHour)
        autoSkipReason := some
          ("ai_supervisor: " ++ String.ofList (reasoning.toList.take 200)) }
  else .ok provider

/-- What a review makes of the object it has loaded, once it has an answer. -/
def reviewed (cfg : Settings) (now : Stamp) (provider : Provider) (data : VerdictData) :
    Except PyError Provider :=
  -- the insert of the review row
  if bindable data.reasoning && bindable data.suggestedPriorityDelta &&
      bindable data.suggestedAutoSkipHours then
    if cfg.autoApply && (data.verdict = "deprioritize" || data.verdict = "disable") then
      applySuggestion cfg now provider data
    else .ok provider
  else .error .interfaceError

/-- The `UPDATE` of the row: the changed columns, and the two stamps of every update. -/
def writeRow (clk : FlushClock) (loaded new current : Provider) : Provider :=
  if new = loaded then current
  else
    { current with
      priority := Session.column loaded.priority new.priority current.priority
      autoSkipUntil := Session.column loaded.autoSkipUntil new.autoSkipUntil current.autoSkipUntil
      autoSkipReason :=
        Session.column loaded.autoSkipReason new.autoSkipReason current.autoSkipReason
      updatedAt := some (serverNow clk.db)
      lastUserEditAt := some clk.unix }

/-! ## One stretch -/

/-- One review of a scan: the provider, whether it had traffic, the text of the classifier's
answer, and the moments of the apply and of the flush. -/
structure Review where
  providerId : String
  hasTraffic : Bool := true
  answer : Option String
  now : Stamp
  clk : FlushClock
  deriving DecidableEq, Repr

/-- A review, or an operator's commit of a provider's row. -/
inductive Call where
  | review (r : Review)
  | edit (p : Provider)
  deriving DecidableEq

/-- A review before its scan, with its object loaded, and while the classifier is called. `began`
is the row at that moment, which no code reads. -/
inductive Task where
  | scan (r : Review)
  | loaded (r : Review) (provider : Provider)
  | classifying (r : Review) (provider : Provider) (began : Option Provider)
  | edit (p : Provider)
  | done
  | raised (e : PyError)
  deriving DecidableEq

def start (_ : List Provider) : Call → Task
  | .review r => .scan r
  | .edit p => .edit p

def getRow (rows : List Provider) (id : String) : Option Provider := rows.find? (·.id = id)

def setRow (rows : List Provider) (id : String) (f : Provider → Provider) : List Provider :=
  rows.map fun p => if p.id = id then f p else p

def next (cfg : Settings) (rows : List Provider) : Task → List Provider × Task
  | .scan r =>
    match rows.find? fun p => p.id = r.providerId && !p.deleted && p.enabled with
    | some p => (rows, .loaded r p)
    | none => (rows, .done)
  | .loaded r provider =>
    if provider.manualOverrideUntil.isSome || !r.hasTraffic then (rows, .done)
    else (rows, .classifying r provider (getRow rows provider.id))
  | .classifying r provider _ =>
    match classifyWithLlm r.answer with
    | none => (rows, .done)
    | some data =>
      match reviewed cfg r.now provider data with
      | .error e => (rows, .raised e)
      | .ok new => (setRow rows provider.id (writeRow r.clk provider new), .done)
  | .edit p => (setRow rows p.id fun _ => p, .done)
  | t => (rows, t)

end LlmProxy.Supervisor
