import Mathlib.Logic.Function.Basic
import LlmProxy.Lib.TextEdits

/-! # A map of files

Files by name, and what a command makes of them, as a relation: the text of a file is edited as
`TextEdits` says, a file is moved as a whole, and a command that cannot be carried out leaves the
map as it is and answers `false`.

> `FileStep.rename_self`: a file renamed to itself stays.
-/

abbrev FileMap (ν : Type) := ν → Option String

inductive FileCommand (ν : Type) where
  /-- an argument is missing or of another type -/
  | invalid
  | create (name : ν) (content : String)
  | strReplace (name : ν) (old new : String)
  | insert (name : ν) (line : Int) (text : String)
  | delete (name : ν)
  | rename (name newName : ν)

namespace FileMap

open TextEdits (ReplacesFirst InsertsLine splitLines)

variable {ν : Type} [DecidableEq ν]

/-- The number of lines a new line is put behind, for its 1-based number. -/
def position (lines : Nat) (line : Int) : Nat := (max 0 (min (lines : Int) (line - 1))).toNat

/-- `FileStep m c ok m'`: the command `c` takes `m` to `m'` and answers `ok`. -/
inductive FileStep (m : FileMap ν) : FileCommand ν → Bool → FileMap ν → Prop where
  | invalid : FileStep m .invalid false m
  | created (name : ν) (content : String) :
      FileStep m (.create name content) true (Function.update m name (some content))
  | replaced {name : ν} {old new content result : String} (found : m name = some content)
      (edit : ReplacesFirst old.toList new.toList content.toList result.toList) :
      FileStep m (.strReplace name old new) true (Function.update m name (some result))
  | notReplaced {name : ν} {old new : String}
      (absent : ∀ content, m name = some content → PyStr.contains content old = false) :
      FileStep m (.strReplace name old new) false m
  | inserted {name : ν} {line : Int} {text content result : String} (found : m name = some content)
      (edit : InsertsLine (position (splitLines content.toList).length line) text.toList
        content.toList result.toList) :
      FileStep m (.insert name line text) true (Function.update m name (some result))
  | notInserted {name : ν} {line : Int} {text : String} (absent : m name = none) :
      FileStep m (.insert name line text) false m
  | deleted {name : ν} {content : String} (found : m name = some content) :
      FileStep m (.delete name) true (Function.update m name none)
  | notDeleted {name : ν} (absent : m name = none) : FileStep m (.delete name) false m
  | renamed {name newName : ν} {content : String} (found : m name = some content) :
      FileStep m (.rename name newName) true
        (Function.update (Function.update m name none) newName (some content))
  | notRenamed {name newName : ν} (absent : m name = none) :
      FileStep m (.rename name newName) false m

theorem FileStep.rename_self {m m' : FileMap ν} {name : ν} {ok : Bool}
    (h : FileStep m (.rename name name) ok m') : m' = m := by
  cases h with
  | renamed found => rw [Function.update_idem, ← found, Function.update_eq_self]
  | notRenamed absent => rfl

theorem FileStep.insert_inv {m m' : FileMap ν} {name : ν} {line : Int} {text : String}
    (h : FileStep m (.insert name line text) true m') :
    ∃ content result, m name = some content ∧
      InsertsLine (position (splitLines content.toList).length line) text.toList content.toList
        result.toList ∧
      m' name = some result := by
  cases h with
  | inserted found edit => exact ⟨_, _, found, edit, Function.update_self _ _ _⟩

end FileMap
