import LlmProxy.Lib.Regex
import LlmProxy.Routing.Lmrh

/-! # Reading the `LLM-Hint` header

`app/routing/lmrh/parse.py`. A header is read by RFC 8941 where that gives no boolean member, and
otherwise by the comma-tolerant legacy parser.

Mirroring notes.
* `http_sfv` is a parameter `sfv`: the dictionary it reads a header as, `none` where it is not
  installed or raises. `Rfc8941` is the part of the format the results need.
* A token and a string are both a `BareItem.text`; a decimal carries the text `str` gives it.
* `",".join` raises `TypeError` on a member of an inner list that is no text: `coerceItem` gives
  such a member no text, and the exception leaves the parser as an `Except.error`.
* The two patterns have no `\b`, so the table of letters `Regex` asks for plays no part.
-/

namespace LlmProxy.Routing

/-! ## What `http_sfv` reads -/

inductive BareItem where
  | boolean (b : Bool)
  | integer (n : Int)
  | decimal (shown : String)
  | text (s : String)
  | bytes (data : List UInt8)
  deriving DecidableEq

/-- `bool(v)`. -/
def BareItem.truthy : BareItem → Bool
  | .boolean b => b
  | .integer n => n ≠ 0
  | .decimal shown => shown.toList.any fun c => '1' ≤ c && c ≤ '9'
  | .text s => s ≠ ""
  | .bytes data => data ≠ []

inductive MemberValue where
  | item (v : BareItem)
  | innerList (items : List BareItem)
  deriving DecidableEq

structure SfvMember where
  value : MemberValue
  params : List (String × BareItem) := []
  deriving DecidableEq

/-- The members of a dictionary, in the order of `d.items()`. -/
abbrev SfvDictionary := List (String × SfvMember)

def SfvMember.isBoolean (m : SfvMember) : Bool :=
  match m.value with
  | .item (.boolean _) => true
  | _ => false

/-- `params.get(name, False)`, as a truth value. -/
def SfvMember.flag (m : SfvMember) (name : String) : Bool :=
  ((m.params.find? (·.1 = name)).map (·.2.truthy)).getD false

/-- A dictionary of RFC 8941 writes the value of a member behind `key=`, and a member stands
first, or behind a comma and optional blanks and tabs. Only a boolean is written without `=`. -/
structure Rfc8941 (sfv : String → Option SfvDictionary) : Prop where
  written : ∀ {header d key m}, sfv header = some d → (key, m) ∈ d → m.isBoolean = false →
    ∃ before value, header.toList = before ++ key.toList ++ '=' :: value ∧
      ∀ c, before.getLast? = some c → c = ',' ∨ c = ' ' ∨ c = '\t'

/-! ## `_parse_hint_rfc8941` -/

/-- One byte in `repr` of a byte string. -/
def reprByte (quote : Char) (b : UInt8) : String :=
  let c := Char.ofNat b.toNat
  if c = quote || c = '\\' then String.ofList ['\\', c]
  else if c = '\t' then "\\t"
  else if c = '\n' then "\\n"
  else if c = '\r' then "\\r"
  else if b < 32 || 127 ≤ b then
    String.ofList ['\\', 'x', Nat.digitChar (b.toNat / 16), Nat.digitChar (b.toNat % 16)]
  else String.singleton c

/-- `str(v)` of a byte string. -/
def reprBytes (data : List UInt8) : String :=
  let quote := if data.contains 39 && !data.contains 34 then '"' else '\''
  "b" ++ String.singleton quote ++ String.join (data.map (reprByte quote)) ++
    String.singleton quote

/-- `_coerce_sfv_value` of a value. -/
def coerceSfvValue : BareItem → String
  | .boolean b => if b then "true" else "false"
  | .integer n => toString n
  | .decimal shown => shown
  | .text s => s
  | .bytes data => reprBytes data

/-- `_coerce_sfv_value` of a member of an inner list: its `.value`, where that is a text. -/
def coerceItem : BareItem → Option String
  | .text s => some s
  | _ => none

def MemberValue.coerce : MemberValue → Except String String
  | .item v => .ok (coerceSfvValue v)
  | .innerList items =>
    match items.mapM coerceItem with
    | some texts => .ok (PyStr.join "," texts)
    | none => .error "TypeError"

def sfvDimension (member : String × SfvMember) : Except String HintDimension := do
  let value ← member.2.value.coerce
  let sovereign := member.2.flag "sovereign"
  return { key := member.1, value, required := member.2.flag "require" || sovereign, sovereign }

/-- `hint if hint.dimensions else None`. -/
def hintOf (header : String) (dimensions : List HintDimension) : Option LMRHHint :=
  if dimensions = [] then none else some { raw := header, dimensions }

/-- `_parse_hint_rfc8941`. -/
def parseHintRfc8941 (sfv : String → Option SfvDictionary) (header : String) :
    Except String (Option LMRHHint) :=
  match sfv header with
  | none => .ok none
  | some d =>
    -- a boolean member is a bare token: the header was meant for the legacy parser
    if d.any (·.2.isBoolean) then .ok none
    else (d.mapM sfvDimension).map (hintOf header)

/-! ## `_parse_hint_legacy` -/

/-- `\s*;\s*word\s*`. -/
def modifierRe (word : String) : Regex :=
  Regex.concat [.many PyStr.isSpace, .text ";", .many PyStr.isSpace, .text word,
    .many PyStr.isSpace]

/-- `_SOVEREIGN_RE`. -/
def sovereignRe : Regex := modifierRe "sovereign"

/-- `_REQUIRE_RE`. -/
def requireRe : Regex := modifierRe "require"

/-- `bool(pattern.search(chunk))`. -/
def found (pattern : Regex) (chunk : String) : Bool :=
  (pattern.search Char.isAlphanum chunk).isSome

/-- `pattern.sub("", chunk).strip()`. -/
def dropped (pattern : Regex) (chunk : String) : String :=
  PyStr.strip (pattern.remove Char.isAlphanum chunk)

/-- `if present: chunk = pattern.sub("", chunk).strip()`. -/
def peeled (present : Bool) (pattern : Regex) (chunk : String) : String :=
  if present then dropped pattern chunk else chunk

structure HintChunk where
  text : String
  required : Bool
  sovereign : Bool
  deriving DecidableEq

/-- The `;` modifiers, peeled off a chunk. -/
def peelModifiers (chunk : String) : HintChunk :=
  let sovereign := found sovereignRe chunk
  let chunk := peeled sovereign sovereignRe chunk
  let required := found requireRe chunk || sovereign
  { text := peeled required requireRe chunk, required, sovereign }

/-- One chunk of the merge: a dimension of its own, or more of the value before it. -/
def mergeChunk (merged : List HintDimension) (chunk : HintChunk) : List HintDimension :=
  if PyStr.containsChar chunk.text '=' then
    let parts := PyStr.partition chunk.text '='
    merged ++ [{ key := PyStr.strip parts.1, value := PyStr.strip parts.2,
                 required := chunk.required, sovereign := chunk.sovereign }]
  else
    match merged.getLast? with
    | some prev =>
      merged.dropLast ++
        [{ prev with
            value := if chunk.text = "" then prev.value else prev.value ++ "," ++ chunk.text
            required := prev.required || chunk.required
            sovereign := prev.sovereign || chunk.sovereign }]
    | none => []

/-- The chunks of a header: its fields between commas, less the blank ones. -/
def hintChunks (header : String) : List String :=
  ((PyStr.split header ',').map PyStr.strip).filter (· ≠ "")

def legacyDimensions (header : String) : List HintDimension :=
  ((hintChunks header).map peelModifiers).foldl mergeChunk []

/-- `_parse_hint_legacy`. -/
def parseHintLegacy (header : String) : Option LMRHHint :=
  hintOf header (legacyDimensions header)

/-- `parse_hint`. -/
def parseHint (sfv : String → Option SfvDictionary) (header : Option String) :
    Except String (Option LMRHHint) :=
  match header with
  | none => .ok none
  | some header =>
    if header = "" then .ok none
    else do
      match ← parseHintRfc8941 sfv header with
      | some hint => return some hint
      | none => return parseHintLegacy header

example : legacyDimensions "region=us,ca;require, task=chat" =
    [{ key := "region", value := "us,ca", required := true },
     { key := "task", value := "chat" }] := by decide +kernel

end LlmProxy.Routing
