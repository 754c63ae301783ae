import Mathlib
import LlmProxy.Lib.PyStr

/-! # Python numerals

`int(text)` and `float(text)` on the ASCII numerals: surrounding white space, a sign, single
underscores between digits, and for `float` a fraction, an exponent and the named values.
Finite floats are exact rationals here; rounding to 53 bits is not modelled.
-/

namespace PyNum

/-- The digits of a run, most significant first; underscores stand between digits only. -/
def digits? (cs : List Char) : Option (List Nat) :=
  let ds := cs.filter (· ≠ '_')
  if ds.isEmpty || !ds.all Char.isDigit || cs.head? = some '_' || cs.getLast? = some '_' ||
      (cs.zip cs.tail).any (· = ('_', '_')) then none
  else some (ds.map fun c => c.toNat - '0'.toNat)

def natOf (ds : List Nat) : Nat := ds.foldl (fun n d => 10 * n + d) 0

def signOf : List Char → Int × List Char
  | '-' :: cs => (-1, cs)
  | '+' :: cs => (1, cs)
  | cs => (1, cs)

/-- `int(s)`; `none` is the `ValueError`, which more than 4300 digits raise as well. -/
def int? (s : String) : Option Int :=
  let (sign, cs) := signOf (PyStr.strip s).toList
  ((digits? cs).filter (·.length ≤ 4300)).map fun ds => sign * (natOf ds : Int)

inductive Float where
  | fin (q : Rat)
  | inf
  | negInf
  | nan
  deriving DecidableEq

/-- `q <= f`. -/
def leFloat (q : Rat) : Float → Bool
  | .fin r => q ≤ r
  | .inf => true
  | .negInf => false
  | .nan => false

def scale10 (q : Rat) (e : Int) : Rat :=
  if 0 ≤ e then q * 10 ^ e.toNat else q / 10 ^ (-e).toNat

/-- The digits before and after the point; one side may be empty, not both. -/
def mantissa? (cs : List Char) : Option Rat :=
  let run (part : List Char) : Option (List Nat) := if part.isEmpty then some [] else digits? part
  let whole := cs.takeWhile (· ≠ '.')
  let frac := (cs.dropWhile (· ≠ '.')).drop 1
  if whole.isEmpty && frac.isEmpty then none
  else match run whole, run frac with
    | some w, some f => some (scale10 (natOf (w ++ f) : Rat) (-(f.length : Int)))
    | _, _ => none

/-- `float(s)`; `none` is the `ValueError`. -/
def float? (s : String) : Option Float :=
  let (sign, cs) := signOf (PyStr.lower (PyStr.strip s)).toList
  if cs = "inf".toList ∨ cs = "infinity".toList then some (if sign = 1 then .inf else .negInf)
  else if cs = "nan".toList then some .nan
  else
    let exponent := (cs.dropWhile (· ≠ 'e')).drop 1
    let (esign, edigits) := signOf exponent
    match mantissa? (cs.takeWhile (· ≠ 'e')) with
    | none => none
    | some q =>
      if cs.contains 'e' then
        (digits? edigits).map fun ds => .fin (sign * scale10 q (esign * (natOf ds : Int)))
      else some (.fin (sign * q))

example : float? " 1_0.5e-1 " = some (.fin (105 / 100)) := by decide +kernel

end PyNum

/-! ## Formats of numbers and times

`f"{q:.nf}"` of a number that is exact (ties go to the even digit), and `isoformat()` of a naive
`datetime`, given as microseconds since 1970.
-/

namespace PyFormat

/-- The digits of `n`, padded with zeros to a width. -/
def zeroPadded (width : Nat) (n : Nat) : String :=
  String.ofList (List.replicate (width - (toString n).length) '0') ++ toString n

/-- `round(q, n)`. -/
def round (n : Nat) (q : Rat) : Rat :=
  let scaled := q * 10 ^ n
  let low := ⌊scaled⌋
  let rounded :=
    if scaled - low < 1 / 2 then low
    else if 1 / 2 < scaled - low then low + 1
    else low + low % 2
  rounded / 10 ^ n

/-- `f"{q:.nf}"`. -/
def fixed (n : Nat) (q : Rat) : String :=
  let scaled := |q| * 10 ^ n
  let low := ⌊scaled⌋.toNat
  let rounded :=
    if scaled - low < 1 / 2 then low
    else if 1 / 2 < scaled - low then low + 1
    else low + low % 2
  let whole := toString (rounded / 10 ^ n)
  (if q < 0 then "-" else "") ++
    (if n = 0 then whole else whole ++ "." ++ zeroPadded n (rounded % 10 ^ n))

/-- Year, month and day of the day with that number, counted from 1970-01-01. -/
def civil (day : Int) : Int × Nat × Nat :=
  -- years are counted from March here, in eras of 400
  let shifted := day + 719468
  let era := shifted / 146097
  let dayOfEra := (shifted % 146097).toNat
  let yearOfEra := (dayOfEra - dayOfEra / 1460 + dayOfEra / 36524 - dayOfEra / 146096) / 365
  let dayOfYear := dayOfEra - (365 * yearOfEra + yearOfEra / 4 - yearOfEra / 100)
  let monthFromMarch := (5 * dayOfYear + 2) / 153
  let month := if monthFromMarch < 10 then monthFromMarch + 3 else monthFromMarch - 9
  (era * 400 + yearOfEra + (if month ≤ 2 then 1 else 0), month,
    dayOfYear - (153 * monthFromMarch + 2) / 5 + 1)

/-- `isoformat()`. -/
def isoformat (stamp : Int) : String :=
  let date := civil (stamp / 86400000000)
  let micros := (stamp % 86400000000).toNat
  let seconds := micros / 1000000
  zeroPadded 4 date.1.toNat ++ "-" ++ zeroPadded 2 date.2.1 ++ "-" ++ zeroPadded 2 date.2.2 ++ "T" ++
    zeroPadded 2 (seconds / 3600) ++ ":" ++ zeroPadded 2 (seconds / 60 % 60) ++ ":" ++
    zeroPadded 2 (seconds % 60) ++
    (if micros % 1000000 = 0 then "" else "." ++ zeroPadded 6 (micros % 1000000))

example : isoformat 951782400000001 = "2000-02-29T00:00:00.000001" := by decide +kernel

end PyFormat
