import LlmProxy.Lib.Json
import LlmProxy.Lib.Lettered
import LlmProxy.Lib.PyNum
import LlmProxy.Memory.Store

/-! # Memory-tool commands

`_apply_command` and `_path_to_tag` (`app/memory/extract.py`): a `memory` tool call in a provider's
answer becomes calls of the store, attributed to the provider and its company. The edits read the
entry without a blocklist and put the edited text back; `rename` puts the old text under the new
tag.

Mirroring notes.
* The calls of one command read one clock, and Redis answers all of them or none.
* A path that is no text raises, as every error of the store does; the caller swallows it.
-/

namespace LlmProxy.Memory

open LlmProxy.Cluster (EditStamp)

structure Source where
  apiKeyId : String
  conversationId : String
  memoryTagDefault : Option String := none
  sourceProviderId : Option String := none
  sourceCompany : Option String := none
  now : EditStamp
  nodeId : Option String := none
  redisOk : Bool := true
  deriving DecidableEq, Repr

def Source.key (src : Source) (tag : String) : MemoryKey :=
  ⟨src.apiKeyId, some src.conversationId, tag⟩

/-- The `put` every command makes. -/
def Source.put (src : Source) (tag content : String) : Put :=
  { key := src.key tag
    content := content
    sourceProviderId := src.sourceProviderId
    sourceCompany := src.sourceCompany
    now := src.now
    nodeId := src.nodeId }

/-- `s.strip("/")`. -/
def stripSlashes (s : String) : String :=
  String.ofList ((s.toList.dropWhile (· == '/')).reverse.dropWhile (· == '/')).reverse

/-- `s[len(start):]`. -/
def afterStart (s start : String) : String := String.ofList (s.toList.drop start.length)

/-- `_path_to_tag`. -/
def pathToTag (path : String) : String :=
  let s := PyStr.strip path
  let s :=
    if PyStr.startsWith s "/memories/" then afterStart s "/memories/"
    else if PyStr.startsWith s "memories/" then afterStart s "memories/"
    else s
  let s := stripSlashes s
  if s = "" then "default" else s

example : pathToTag "/memories/user_facts.md" = "user_facts.md" := by decide +kernel

/-! ## The fields of a command -/

def strField (inp : Json) (field : String) : Option String :=
  match inp.get? field with
  | some (.str s) => some s
  | _ => none

/-- A field that is an `int`, as `True` and `False` are. -/
def intField (inp : Json) (field : String) : Option Int :=
  match inp.get? field with
  | some (.bool b) => some (if b then 1 else 0)
  | some (.num n) => PyNum.int? (String.ofList n.text)
  | _ => none

/-- `inp.get("content") or inp.get("new_str")`, if that is a text. -/
def insertedText (inp : Json) : Option String :=
  match inp.get? "content" with
  | some v => if v.truthy then strField inp "content" else strField inp "new_str"
  | none => strField inp "new_str"

/-- The tag a command is about; `none` where the path raises. -/
def commandTag (src : Source) (inp : Json) : Option String :=
  let fallback := (src.memoryTagDefault.filter (· ≠ "")).getD "default"
  match inp.get? "path" with
  | none => some fallback
  | some path => if path.truthy then (strField inp "path").map pathToTag else some fallback

/-! ## The edits -/

/-- What a command makes of the entry it reads. -/
inductive Edit where
  | strReplace (old new : String)
  | insert (line : Int) (text : String)
  | keep
  deriving DecidableEq, Repr

/-- `max(0, min(n, line - 1))`. -/
def lineIndex (n : Nat) (line : Int) : Nat := (max 0 (min (n : Int) (line - 1))).toNat

/-- A text becomes a line of its own, and the lines are joined by `sep`. -/
def insertLine {α : Type} (letter : α → Char) (sep : α) (line : Int) (text content : List α) :
    List α :=
  let lines := Lettered.splitLines letter content
  let i := lineIndex lines.length line
  [sep].intercalate (lines.take i ++ text :: lines.drop i)

/-- The edited content; `none` where there is nothing to replace. -/
def Edit.apply (content : String) : Edit → Option String
  | .strReplace old new =>
    if PyStr.contains content old then
      some (String.ofList (Lettered.replaceFirst id old.toList new.toList content.toList))
    else none
  | .insert line text =>
    some (String.ofList (insertLine id '\n' line text.toList content.toList))
  | .keep => some content

/-! ## The commands -/

/-- A command with its fields read; `skip` is one that leaves the store as it is. -/
inductive Command where
  | skip
  | create (tag content : String)
  | edit (tag : String) (e : Edit)
  | delete (tag : String)
  | rename (tag newTag : String)
  deriving DecidableEq, Repr

/-- The checks of `_apply_command`, in its order. -/
def readCommand (src : Source) (inp : Json) : Option Command :=
  (commandTag src inp).map fun tag =>
    match strField inp "command" with
    | some "create" =>
      match strField inp "content" with
      | some content => .create tag content
      | none => .skip
    | some "str_replace" =>
      match strField inp "old_str", strField inp "new_str" with
      | some old, some new => .edit tag (.strReplace old new)
      | _, _ => .skip
    | some "insert" =>
      match intField inp "insert_line", insertedText inp with
      | some line, some text => .edit tag (.insert line text)
      | _, _ => .skip
    | some "delete" => .delete tag
    | some "rename" =>
      match strField inp "new_path" with
      | some newPath => .rename tag (pathToTag newPath)
      | none => .skip
    | _ => .skip

/-- Put the edited entry under a tag; `False` if there is nothing to edit. -/
def editEntry (s : Store) (src : Source) (tag newTag : String) (e : Edit) :
    Option (Bool × Store) :=
  (get s src.redisOk (src.key tag)).bind fun read =>
    match read.1.bind fun existing => e.apply existing.content with
    | none => some (false, read.2)
    | some content =>
      (put read.2 src.redisOk (src.put newTag content)).map fun written => (true, written.2)

/-- Its calls of the store: whether the store was changed, and the store. -/
def runCommand (s : Store) (src : Source) : Command → Option (Bool × Store)
  | .skip => some (false, s)
  | .create tag content =>
    (put s src.redisOk (src.put tag content)).map fun written => (true, written.2)
  | .edit tag e => editEntry s src tag tag e
  | .delete tag => delete s src.redisOk (src.key tag) src.now
  | .rename tag newTag =>
    (editEntry s src tag newTag .keep).bind fun renamed =>
      if renamed.1 then
        (delete renamed.2 src.redisOk (src.key tag) src.now).map fun deleted => (true, deleted.2)
      else some renamed

/-- `_apply_command`. -/
def applyCommand (s : Store) (src : Source) (inp : Json) : Option (Bool × Store) :=
  (readCommand src inp).bind (runCommand s src)

end LlmProxy.Memory
