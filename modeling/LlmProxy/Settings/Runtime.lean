import LlmProxy.Lib.Dict
import LlmProxy.Lib.PyStr
import LlmProxy.Lib.Table
import LlmProxy.Cluster.Stamp
import LlmProxy.Settings.Schema

/-! # Settings in the database and in the process

`app/config_runtime.py` and the settings section of `apply_sync` (`app/cluster/sync.py`). A setting
is stored as a text with the name of its type, and read back by `_coerce`, which raises
`ValueError` on a text that is no numeral. `save` commits the rows first and coerces afterwards; a
merge coerces each row it takes, and an exception rolls the section back.

> `find?_storeSetting`: a row after a write;
> `find?_saveRows`: the row of a key that is saved;
> `apply_mem`: the value of a key that is installed.

Mirroring notes.
* What `int(text)` and `float(text)` accept is a parameter (`Numerals`): nothing here depends on it.
* A number that is saved is given by its text, `str(value)`.
-/

namespace LlmProxy.Settings

open LlmProxy.Cluster (EditStamp)

/-- Python's `int` and `float` of a text; `none` is the `ValueError`. -/
structure Numerals (φ : Type) where
  int? : String → Option Int
  float? : String → Option φ

inductive SettingValue (φ : Type) where
  | none
  | bool (b : Bool)
  | int (n : Int)
  | float (x : φ)
  | str (s : String)
  deriving DecidableEq

/-- A value given to `save`. -/
inductive SavedValue where
  | none
  | bool (b : Bool)
  | number (text : String)
  | str (s : String)
  deriving DecidableEq, Repr

variable {φ : Type} (py : Numerals φ)

/-- `_coerce`; `none` is the `ValueError`. -/
def coerce (raw typ : String) : Option (SettingValue φ) :=
  if typ = "bool" then some (.bool (["1", "true", "yes"].contains (PyStr.lower raw)))
  else if typ = "int" then (py.int? raw).map .int
  else if typ = "float" then (py.float? raw).map .float
  else if raw = "" ∨ raw = "None" then some .none
  else some (.str raw)

/-- `"" if val is None else str(val)`. -/
def SavedValue.text : SavedValue → String
  | .none => ""
  | .bool true => "True"
  | .bool false => "False"
  | .number text => text
  | .str s => s

/-- The settings object, by field. -/
abbrev Live (φ : Type) := String → SettingValue φ

/-- `hasattr(settings, key)`, for the keys of `SCHEMA`. -/
def hasField (key : String) : Bool := (schema key).any fun entry => entry.annotation.isSome

/-- One override of `apply`. -/
def applyOne (live : Live φ) (o : String × SettingValue φ) : Live φ :=
  if hasField o.1 then fun field => if field = o.1 then o.2 else live field else live

/-- `apply`. -/
def apply (overrides : List (String × SettingValue φ)) (live : Live φ) : Live φ :=
  overrides.foldl applyOne live

/-! ## Rows -/

structure SystemSetting where
  key : String
  value : String
  valueType : String
  updatedAt : Option EditStamp
  deriving DecidableEq, Repr

/-- What `load` installs for a row; the inner `none` is the `ValueError`. -/
def loadRow (row : SystemSetting) : Option (Option (String × SettingValue φ)) :=
  (schema row.key).map fun entry =>
    (coerce py row.value (canonicalType entry)).map fun value => (row.key, value)

/-- `load`; `none` is the `ValueError`. -/
def load (rows : List SystemSetting) (live : Live φ) : Option (Live φ) :=
  ((rows.filterMap (loadRow py)).mapM id).map fun overrides => apply overrides live

/-- A row as it is sent to a peer. A text that is missing there reads as its default. -/
structure PeerSetting where
  key : String
  value : String
  valueType : String
  updatedAt : EditStamp
  deriving DecidableEq, Repr

def PeerSetting.row (s : PeerSetting) : SystemSetting := ⟨s.key, s.value, s.valueType, some s.updatedAt⟩

/-- The three columns that are written to a row that is there. -/
def PeerSetting.write (s : PeerSetting) (r : SystemSetting) : SystemSetting :=
  { r with value := s.value, valueType := s.valueType, updatedAt := some s.updatedAt }

/-- `if row: … else: db.add(…)`. -/
def storeSetting (table : List SystemSetting) (s : PeerSetting) : List SystemSetting :=
  Table.upsert [fun r => r.key == s.key] s.write (some s.row) table

/-- What `save` writes for a key. -/
def savedSetting (now : EditStamp) (entry : SettingMeta) (key : String) (value : SavedValue) :
    PeerSetting :=
  ⟨key, value.text, canonicalType entry, now⟩

/-- One entry of `updates`. -/
def saveEntry (now : EditStamp) (table : List SystemSetting) (update : String × SavedValue) :
    List SystemSetting :=
  match schema update.1 with
  | none => table
  | some entry => storeSetting table (savedSetting now entry update.1 update.2)

/-- What `save` installs for an entry; the inner `none` is the `ValueError`. -/
def savedOverride (update : String × SavedValue) : Option (Option (String × SettingValue φ)) :=
  (schema update.1).map fun entry =>
    (coerce py update.2.text entry.type).map fun value => (update.1, value)

/-- `save`: the committed rows, and the settings, or the `ValueError` raised after the commit. -/
def save (now : EditStamp) (table : List SystemSetting) (live : Live φ)
    (updates : Dict String SavedValue) : List SystemSetting × Option (Live φ) :=
  (updates.items.foldl (saveEntry now) table,
    ((updates.items.filterMap (savedOverride py)).mapM id).map fun coerced => apply coerced live)

/-! ## The merge -/

/-- The settings section of `_build_sync_payload`. -/
def buildPeerSetting (row : SystemSetting) : PeerSetting :=
  ⟨row.key, row.value, row.valueType, row.updatedAt.getD 0⟩

/-- The row is passed over: no setting, or not newer than ours. -/
def skipsSetting (table : List SystemSetting) (s : PeerSetting) : Bool :=
  (schema s.key).isNone ||
    (table.find? fun r => r.key == s.key).any fun r => s.updatedAt ≤ r.updatedAt.getD 0

/-- One row of the settings section: the table, and what is to be applied; `none` is the
`ValueError`. -/
def applySetting (table : List SystemSetting) (s : PeerSetting) :
    Option (List SystemSetting × List (String × SettingValue φ)) :=
  if skipsSetting table s then some (table, [])
  else
    (coerce py s.value s.valueType).map fun value => (storeSetting table s, [(s.key, value)])

def applySettingRows (table : List SystemSetting) :
    List PeerSetting → Option (List SystemSetting × List (String × SettingValue φ))
  | [] => some (table, [])
  | s :: rows => do
    let (table, taken) ← applySetting py table s
    let (table, rest) ← applySettingRows table rows
    return (table, taken ++ rest)

/-- The settings section of `apply_sync`: the table and the settings. An exception leaves both as
they were. -/
def applySettings (table : List SystemSetting) (live : Live φ) (rows : List PeerSetting) :
    Option (List SystemSetting × Live φ) :=
  (applySettingRows py table rows).map fun taken => (taken.1, apply taken.2 live)

/-! ## What is stored and installed -/

variable {now : EditStamp} {table : List SystemSetting} {live : Live φ} {key : String}
  {value : SavedValue} {entry : SettingMeta} {overrides : List (String × SettingValue φ)}

/-- **A row after a write**. -/
theorem find?_storeSetting (s : PeerSetting) (key : String) :
    (storeSetting table s).find? (fun r => r.key == key) =
      if s.key = key then some s.row else table.find? fun r => r.key == key := by
  have hfind := @Table.find?_upsert_key SystemSetting PeerSetting String _ _ SystemSetting.key
    PeerSetting.key PeerSetting.write (fun s => some s.row) table key
    (fun _ _ => rfl) (fun _ _ h => by rw [← Option.some.inj h]; rfl) s
  unfold storeSetting
  rw [hfind]
  by_cases hkey : s.key = key
  · rw [if_pos hkey, if_pos (beq_iff_eq.mpr hkey)]
    cases hrow : table.find? fun r => r.key == key with
    | none => rfl
    | some r =>
      have hfound := List.find?_some hrow
      have hr : r.key = s.key := (eq_of_beq hfound).trans hkey.symm
      show some (s.write r) = some s.row
      unfold PeerSetting.write PeerSetting.row
      rw [hr]
  · rw [if_neg hkey, if_neg fun hsame => hkey (eq_of_beq hsame)]
    rfl

theorem find?_saveEntry_other {update : String × SavedValue} (h : update.1 ≠ key) :
    (saveEntry now table update).find? (fun r => r.key == key) =
      table.find? fun r => r.key == key := by
  unfold saveEntry
  split
  · rfl
  · rw [find?_storeSetting]
    exact if_neg h

theorem find?_saveRows_other {updates : List (String × SavedValue)}
    (h : key ∉ updates.map Prod.fst) :
    (updates.foldl (saveEntry now) table).find? (fun r => r.key == key) =
      table.find? fun r => r.key == key := by
  induction updates generalizing table with
  | nil => rfl
  | cons update updates ih =>
    rw [List.map_cons, List.mem_cons, not_or] at h
    exact (ih h.2).trans (find?_saveEntry_other (Ne.symm h.1))

/-- **The row of a key that is saved**. -/
theorem find?_saveRows {updates : List (String × SavedValue)}
    (hnodup : (updates.map Prod.fst).Nodup) (hmem : (key, value) ∈ updates)
    (hentry : schema key = some entry) :
    (updates.foldl (saveEntry now) table).find? (fun r => r.key == key) =
      some (savedSetting now entry key value).row := by
  induction updates generalizing table with
  | nil => cases hmem
  | cons update updates ih =>
    rw [List.map_cons, List.nodup_cons] at hnodup
    rcases List.mem_cons.mp hmem with rfl | hmem
    · show (updates.foldl (saveEntry now) _).find? _ = _
      rw [find?_saveRows_other hnodup.1]
      unfold saveEntry
      rw [hentry]
      exact (find?_storeSetting _ key).trans (if_pos rfl)
    · exact ih hnodup.2 hmem

theorem apply_other (h : key ∉ overrides.map Prod.fst) : apply overrides live key = live key := by
  induction overrides generalizing live with
  | nil => rfl
  | cons o overrides ih =>
    rw [List.map_cons, List.mem_cons, not_or] at h
    refine (ih h.2).trans ?_
    unfold applyOne
    split
    · exact if_neg h.1
    · rfl

/-- **The value of a key that is installed**. -/
theorem apply_mem {w : SettingValue φ} (hnodup : (overrides.map Prod.fst).Nodup)
    (hmem : (key, w) ∈ overrides) (hfield : hasField key = true) :
    apply overrides live key = w := by
  induction overrides generalizing live with
  | nil => cases hmem
  | cons o overrides ih =>
    rw [List.map_cons, List.nodup_cons] at hnodup
    rcases List.mem_cons.mp hmem with rfl | hmem
    · refine (apply_other hnodup.1).trans ?_
      unfold applyOne
      rw [if_pos hfield]
      exact if_pos rfl
    · exact ih hnodup.2 hmem

theorem hasField_of_schema (h : schema key = some entry) : hasField key = true := by
  unfold hasField
  rw [h]
  exact schema_field h

end LlmProxy.Settings
