import LlmProxy.Lib.Trace
import LlmProxy.Memory.Extract

/-! # Who produced what the memory store returns

Nodes that write their memory, read it and exchange it, with a text beside every content that says
of each character which company's provider produced it, if that is known. The calls are those of
`store.py`, `extract.py` and the merge; the texts are only carried along (`Marked.runCommand_store`,
`Marked.applyRow_store`).

`source_company` is one label for a whole row. `put` keeps the label the row has if the new write
has none, an edit labels all it keeps with the company of the editor, and a merge replaces the
content under the label the row has here. So the label need not be the producers':

> `provenance_sound`: in every run whose steps are all `Attributable`, every character of an entry
> that passes a blocklist was produced by a known company outside it.
-/

namespace LlmProxy.Memory

open LlmProxy.Cluster (EditStamp)
open Trace

/-! ## Marked texts -/

/-- A text whose characters carry the company of the provider that produced them. -/
abbrev Text := List (Char × Option String)

def mark (company : Option String) (text : String) : Text := text.toList.map (·, company)

def spelled (t : Text) : String := String.ofList (t.map Prod.fst)

@[simp] theorem spelled_mark (company : Option String) (text : String) :
    spelled (mark company text) = text := by
  unfold spelled mark
  rw [List.map_map]
  simp [Function.comp_def]

/-- The edited text; what the edit adds, line feeds included, is its author's. -/
def Edit.trace (company : Option String) (t : Text) : Edit → Text
  | .strReplace old new => Lettered.replaceFirst Prod.fst old.toList (mark company new) t
  | .insert line text => insertLine Prod.fst ('\n', company) line (mark company text) t
  | .keep => t

theorem map_fst_eq {t : Text} {content : String} (h : spelled t = content) :
    t.map Prod.fst = content.toList := by
  rw [← h, spelled, String.toList_ofList]

theorem map_insertLine {company : Option String} (line : Int) (text t : Text) :
    (insertLine Prod.fst ('\n', company) line text t).map Prod.fst =
      insertLine id '\n' line (text.map Prod.fst) (t.map Prod.fst) := by
  have hlines : (Lettered.splitLines Prod.fst t).map (List.map Prod.fst) =
      Lettered.splitLines id (t.map Prod.fst) :=
    @Lettered.map_splitLines _ _ Prod.fst id Prod.fst (fun _ => rfl) t
  unfold insertLine
  simp only
  rw [Lettered.map_intercalate, ← hlines]
  simp

/-- **The text after an edit** spells the edited content. -/
theorem spelled_trace {company : Option String} {t : Text} {content content' : String} {e : Edit}
    (h : spelled t = content) (he : e.apply content = some content') :
    spelled (e.trace company t) = content' := by
  have hfst := map_fst_eq h
  cases e with
  | strReplace old new =>
    simp only [Edit.apply] at he
    split at he
    · rw [← Option.some.inj he]
      unfold Edit.trace spelled
      have hmap : (Lettered.replaceFirst Prod.fst old.toList (mark company new) t).map Prod.fst =
          Lettered.replaceFirst id old.toList ((mark company new).map Prod.fst) (t.map Prod.fst) :=
        @Lettered.map_replaceFirst _ _ Prod.fst id Prod.fst (fun _ => rfl) old.toList
          (mark company new) t
      rw [hmap, hfst, map_fst_eq (spelled_mark company new)]
    · cases he
  | insert line text =>
    rw [← Option.some.inj he]
    unfold Edit.trace spelled
    rw [map_insertLine, hfst, map_fst_eq (spelled_mark company text)]
  | keep => exact h.trans (Option.some.inj he)

/-! ## A node -/

/-- A store with the texts of its rows and of its Redis entries. -/
structure Marked extends Store where
  rows : MemoryKey → Text := fun _ => []
  entries : String → Text := fun _ => []

/-- The text of what `get` answers from. -/
def Marked.textOf (m : Marked) (redisOk : Bool) (k : MemoryKey) : Text :=
  if (m.cached redisOk k).isSome then m.entries (cacheKey k) else m.rows k

def Marked.get (m : Marked) (redisOk : Bool) (k : MemoryKey) (blockedCompanies : List String) :
    Option (Option (MemoryEntry × Text) × Marked) :=
  (Memory.get m.toStore redisOk k blockedCompanies).map fun read =>
    (read.1.map (·, m.textOf redisOk k),
      { m with
        toStore := read.2
        entries :=
          if redisOk then Function.update m.entries (cacheKey k) (m.textOf redisOk k)
          else m.entries })

def Marked.put (m : Marked) (redisOk : Bool) (w : Put) (t : Text) : Option Marked :=
  (Memory.put m.toStore redisOk w).map fun written =>
    { m with toStore := written.2, rows := Function.update m.rows w.key t }

def Marked.delete (m : Marked) (redisOk : Bool) (k : MemoryKey) (now : EditStamp) :
    Option (Bool × Marked) :=
  (Memory.delete m.toStore redisOk k now).map fun deleted =>
    (deleted.1, { m with toStore := deleted.2 })

def Marked.editEntry (m : Marked) (src : Source) (tag newTag : String) (e : Edit) :
    Option (Bool × Marked) :=
  (m.get src.redisOk (src.key tag) []).bind fun read =>
    match read.1.bind fun existing => (e.apply existing.1.content).map (·, existing.2) with
    | none => some (false, read.2)
    | some (content, t) =>
      (read.2.put src.redisOk (src.put newTag content) (e.trace src.sourceCompany t)).map (true, ·)

def Marked.runCommand (m : Marked) (src : Source) : Command → Option (Bool × Marked)
  | .skip => some (false, m)
  | .create tag content =>
    (m.put src.redisOk (src.put tag content) (mark src.sourceCompany content)).map (true, ·)
  | .edit tag e => m.editEntry src tag tag e
  | .delete tag => m.delete src.redisOk (src.key tag) src.now
  | .rename tag newTag =>
    (m.editEntry src tag newTag .keep).bind fun renamed =>
      if renamed.1 then
        (renamed.2.delete src.redisOk (src.key tag) src.now).map fun deleted => (true, deleted.2)
      else some renamed

def Marked.applyRow (m : Marked) (row : PeerMemory × Text) : Marked :=
  { m with
    table := applyMemoryRow m.table row.1
    rows := if row.1.taken (m.row row.1.key) then Function.update m.rows row.1.key row.2 else m.rows }

/-! ### The texts are only carried along -/

theorem Marked.editEntry_store (m : Marked) (src : Source) (tag newTag : String) (e : Edit) :
    (m.editEntry src tag newTag e).map (fun r => (r.1, r.2.toStore)) =
      Memory.editEntry m.toStore src tag newTag e := by
  unfold Marked.editEntry Memory.editEntry Marked.get
  cases Memory.get m.toStore src.redisOk (src.key tag) with
  | none => rfl
  | some read =>
    obtain ⟨entry, s'⟩ := read
    cases entry with
    | none => rfl
    | some entry =>
      simp only [Option.map_some, Option.bind_some]
      cases e.apply entry.content with
      | none => rfl
      | some content =>
        simp only [Option.map_some, Marked.put, Option.map_map]
        rfl

theorem Marked.runCommand_store (m : Marked) (src : Source) (c : Command) :
    (m.runCommand src c).map (fun r => (r.1, r.2.toStore)) =
      Memory.runCommand m.toStore src c := by
  cases c with
  | skip => rfl
  | create tag content =>
    simp only [Marked.runCommand, Memory.runCommand, Marked.put, Option.map_map]
    rfl
  | edit tag e => exact m.editEntry_store src tag tag e
  | delete tag =>
    simp only [Marked.runCommand, Memory.runCommand, Marked.delete]
    cases Memory.delete m.toStore src.redisOk (src.key tag) src.now <;> rfl
  | rename tag newTag =>
    simp only [Marked.runCommand, Memory.runCommand, ← m.editEntry_store src tag newTag .keep]
    cases m.editEntry src tag newTag .keep with
    | none => rfl
    | some renamed =>
      simp only [Option.bind_some, Option.map_some]
      split
      · simp only [Marked.delete, Option.map_map]
        rfl
      · rfl

/-! ## The condition -/

/-- Every character is of the company on the label, if there is one. -/
def Attributed (label : Option String) (t : Text) : Prop :=
  ∀ company, label = some company → ∀ x ∈ t, x.2 = some company

/-- A write that names a company, or makes the row, writes only text of that company. One that
names none finds no label on the row, or writes only text of the company on it. -/
def Fits (row : Option CallerMemory) (company : Option String) (t : Text) : Prop :=
  if row = none ∨ company.any (· ≠ "") = true then Attributed company t
  else ∀ existing ∈ row, Attributed existing.sourceCompany t

/-- What the commands of a company write, they may write. -/
def CommandFits (m : Marked) (src : Source) : Command → Prop
  | .create tag content =>
    Fits (m.row (src.key tag)) src.sourceCompany (mark src.sourceCompany content)
  | .edit tag e =>
    ∀ entry t m', m.get src.redisOk (src.key tag) [] = some (some (entry, t), m') →
      (e.apply entry.content).isSome →
      Fits (m.row (src.key tag)) src.sourceCompany (e.trace src.sourceCompany t)
  | .rename tag newTag =>
    ∀ entry t m', m.get src.redisOk (src.key tag) [] = some (some (entry, t), m') →
      Fits (m.row (src.key newTag)) src.sourceCompany t
  | _ => True

/-- A row that replaces one with a label is of the company on it. -/
def RowFits (m : Marked) (row : PeerMemory × Text) : Prop :=
  row.1.taken (m.row row.1.key) = true →
    ∀ existing ∈ m.row row.1.key, Attributed existing.sourceCompany row.2

/-! ## The invariant of a node -/

/-- A text and a label that go with the content. -/
structure Carries (t : Text) (content : String) (label : Option String) : Prop where
  spelled : spelled t = content
  attributed : Attributed label t

structure Sound (m : Marked) : Prop where
  nodup : (m.table.map CallerMemory.key).Nodup
  row : ∀ k row, m.row k = some row → Carries (m.rows k) row.content row.sourceCompany
  entry : ∀ key e, m.redis key = some e → Carries (m.entries key) e.content e.sourceCompany

variable {m m' : Marked} {redisOk : Bool} {k : MemoryKey} {blocked : List String}

theorem filtered_some {e e' : MemoryEntry} (h : e.filtered blocked = some e') :
    e' = e ∧ filteredByBlocklist e.sourceCompany blocked = false := by
  unfold MemoryEntry.filtered at h
  split at h
  · cases h
  · next hpass => exact ⟨(Option.some.inj h).symm, Bool.eq_false_iff.mpr hpass⟩

theorem label_of_filtered {e e' : MemoryEntry} (h : e.filtered blocked = some e')
    (hblocked : blocked ≠ []) : ∃ company, e'.sourceCompany = some company ∧ company ∉ blocked := by
  obtain ⟨rfl, hpass⟩ := filtered_some h
  unfold filteredByBlocklist at hpass
  rw [if_neg (by simpa using hblocked)] at hpass
  cases hlabel : e'.sourceCompany with
  | none =>
    rw [hlabel] at hpass
    cases hpass
  | some company =>
    rw [hlabel] at hpass
    exact ⟨company, rfl, by simpa using hpass⟩

/-- What `get` returns, and what it does to the store. -/
theorem get_cases {s : Store} (entry : Option MemoryEntry) (s' : Store)
    (h : Memory.get s redisOk k blocked = some (entry, s')) :
    (∃ e, s.cached redisOk k = some e ∧ entry = e.filtered blocked ∧ s' = s) ∨
    s.cached redisOk k = none ∧
      (entry = none ∧ s' = s ∨
        ∃ row, s.row k = some row ∧ entry = some row.entry ∧
          row.entry.filtered blocked = some row.entry ∧
          s' = s.setRedis redisOk k (some row.entry)) := by
  unfold Memory.get at h
  split at h
  · next e he =>
    cases h
    exact Or.inl ⟨e, he, rfl, rfl⟩
  · next hnone =>
    refine Or.inr ⟨hnone, ?_⟩
    obtain ⟨row, hrow, hread⟩ := Option.map_eq_some_iff.mp h
    have hfind : s.row k = row := lookup_eq_some hrow
    cases row with
    | none =>
      cases hread
      exact Or.inl ⟨rfl, rfl⟩
    | some row =>
      by_cases hdead : row.deletedAt.isSome = true
      · simp only [readRow, hdead, if_true] at hread
        cases hread
        exact Or.inl ⟨rfl, rfl⟩
      · simp only [readRow, hdead] at hread
        cases hfiltered : row.entry.filtered blocked with
        | none =>
          rw [hfiltered] at hread
          cases hread
          exact Or.inl ⟨rfl, rfl⟩
        | some e =>
          obtain ⟨rfl, -⟩ := filtered_some hfiltered
          rw [hfiltered] at hread
          cases hread
          exact Or.inr ⟨row, hfind, rfl, hfiltered, rfl⟩

theorem cached_some {s : Store} {e : MemoryEntry} (h : s.cached redisOk k = some e) :
    redisOk = true ∧ s.redis (cacheKey k) = some e := by
  unfold Store.cached at h
  split at h
  · next hok => exact ⟨hok, h⟩
  · cases h

theorem setRedis_table (s : Store) (redisOk : Bool) (k : MemoryKey) (e : Option MemoryEntry) :
    (s.setRedis redisOk k e).table = s.table := by
  unfold Store.setRedis
  split <;> rfl

theorem setRedis_row (s : Store) (redisOk : Bool) (k k' : MemoryKey) (e : Option MemoryEntry) :
    (s.setRedis redisOk k e).row k' = s.row k' := by
  unfold Store.setRedis
  split <;> rfl

theorem setRedis_redis {s : Store} {key : String} {e' : Option MemoryEntry} {e : MemoryEntry}
    (h : (s.setRedis redisOk k e').redis key = some e) :
    redisOk = true ∧ key = cacheKey k ∧ e' = some e ∨
      ¬ (redisOk = true ∧ key = cacheKey k) ∧ s.redis key = some e := by
  unfold Store.setRedis at h
  split at h
  · next hok =>
    by_cases hkey : key = cacheKey k
    · rw [hkey] at h
      simp only [Function.update_self] at h
      exact Or.inl ⟨hok, hkey, h⟩
    · simp only [Function.update_of_ne hkey] at h
      exact Or.inr ⟨fun hboth => hkey hboth.2, h⟩
  · next hok => exact Or.inr ⟨fun hboth => hok hboth.1, h⟩

/-- **What a read returns** of a sound node: a text that spells the content, all of it of the
company on the label. -/
theorem get_carries (h : Sound m) {entry : MemoryEntry} {t : Text}
    (hget : m.get redisOk k blocked = some (some (entry, t), m')) :
    Carries t entry.content entry.sourceCompany ∧
      (blocked ≠ [] → ∃ company, entry.sourceCompany = some company ∧ company ∉ blocked) := by
  obtain ⟨read, hread, heq⟩ := Option.map_eq_some_iff.mp hget
  obtain ⟨entry', hentry, hpair⟩ := Option.map_eq_some_iff.mp (Prod.ext_iff.mp heq).1
  obtain ⟨rfl, rfl⟩ := Prod.ext_iff.mp hpair
  obtain ⟨e, hcached, hfiltered, -⟩ | ⟨hnone, hcase⟩ := get_cases read.1 read.2 hread
  · rw [hentry] at hfiltered
    obtain ⟨heq', -⟩ := filtered_some hfiltered.symm
    refine ⟨?_, label_of_filtered hfiltered.symm⟩
    have htext : m.textOf redisOk k = m.entries (cacheKey k) := by
      unfold Marked.textOf
      rw [hcached]
      rfl
    simp only [heq', htext]
    exact h.entry _ e (cached_some hcached).2
  · obtain ⟨hnil, -⟩ | ⟨row, hrow, hsome, hfiltered, -⟩ := hcase
    · rw [hnil] at hentry
      cases hentry
    · have htext : m.textOf redisOk k = m.rows k := by
        unfold Marked.textOf
        rw [hnone]
        rfl
      rw [hsome] at hentry
      cases hentry
      refine ⟨?_, label_of_filtered hfiltered⟩
      simp only [htext]
      exact h.row k row hrow

/-- The texts of the Redis entries after a read of the pair. -/
def entriesAfter (m : Marked) (redisOk : Bool) (k : MemoryKey) : String → Text :=
  if redisOk then Function.update m.entries (cacheKey k) (m.textOf redisOk k) else m.entries

theorem entriesAfter_other {key : String} (h : ¬ (redisOk = true ∧ key = cacheKey k)) :
    entriesAfter m redisOk k key = m.entries key := by
  unfold entriesAfter
  split
  · next hok => exact Function.update_of_ne (fun hkey => h ⟨hok, hkey⟩) _ _
  · rfl

theorem entriesAfter_hit {e : MemoryEntry} (h : m.cached redisOk k = some e) :
    entriesAfter m redisOk k = m.entries := by
  unfold entriesAfter Marked.textOf
  rw [if_pos (cached_some h).1, h, Option.isSome_some, if_pos rfl, Function.update_eq_self]

theorem entriesAfter_fill (hok : redisOk = true) (h : m.cached redisOk k = none) :
    entriesAfter m redisOk k (cacheKey k) = m.rows k := by
  unfold entriesAfter Marked.textOf
  rw [if_pos hok, h, Function.update_self]
  rfl

/-- **A read leaves the node sound**, and its rows as they are. -/
theorem get_sound (h : Sound m) {read : Option (MemoryEntry × Text)}
    (hget : m.get redisOk k blocked = some (read, m')) :
    Sound m' ∧ ∀ k', m'.row k' = m.row k' := by
  obtain ⟨read', hread, heq⟩ := Option.map_eq_some_iff.mp hget
  obtain ⟨-, rfl⟩ := Prod.ext_iff.mp heq
  have hcases := get_cases read'.1 read'.2 hread
  obtain ⟨e, hcached, -, hs⟩ | ⟨hnone, ⟨-, hs⟩ | ⟨row, hrow, -, -, hs⟩⟩ := hcases
  · simp only [hs]
    refine ⟨⟨h.nodup, h.row, fun key e' he' => ?_⟩, fun _ => trivial⟩
    show Carries (entriesAfter m redisOk k key) _ _
    rw [entriesAfter_hit hcached]
    exact h.entry key e' he'
  · simp only [hs]
    refine ⟨⟨h.nodup, h.row, fun key e' he' => ?_⟩, fun _ => trivial⟩
    show Carries (entriesAfter m redisOk k key) _ _
    rw [entriesAfter_other]
    · exact h.entry key e' he'
    · rintro ⟨hok, rfl⟩
      unfold Store.cached at hnone
      rw [if_pos hok] at hnone
      rw [hnone] at he'
      cases he'
  · simp only [hs]
    refine ⟨⟨?_, fun k' row' hrow' => ?_, fun key e' he' => ?_⟩, fun k' => setRedis_row _ _ _ k' _⟩
    · rw [setRedis_table]
      exact h.nodup
    · change (m.setRedis redisOk k (some row.entry)).row k' = some row' at hrow'
      rw [setRedis_row] at hrow'
      exact h.row k' row' hrow'
    · show Carries (entriesAfter m redisOk k key) _ _
      obtain ⟨hok, rfl, hfilled⟩ | ⟨hother, hkept⟩ := setRedis_redis he'
      · cases hfilled
        rw [entriesAfter_fill hok hnone]
        exact h.row k row hrow
      · rw [entriesAfter_other hother]
        exact h.entry key e' hkept

/-! ### Writes -/

/-- The row after a `put`. -/
def Put.over (w : Put) : Option CallerMemory → CallerMemory
  | none => w.insert
  | some existing => w.update existing

theorem orKept_of_truthy {new existing : Option String} (h : new.any (· ≠ "") = true) :
    orKept new existing = new := if_pos h

theorem orKept_of_not_truthy {new existing : Option String} (h : ¬ new.any (· ≠ "") = true) :
    orKept new existing = existing := if_neg h

theorem attributed_over {w : Put} {row : Option CallerMemory} {t : Text}
    (h : Fits row w.sourceCompany t) : Attributed (w.over row).sourceCompany t := by
  unfold Fits at h
  split at h
  · next hnamed =>
    cases row with
    | none => exact h
    | some existing =>
      have htruthy := hnamed.resolve_left (fun hnone => nomatch hnone)
      show Attributed (orKept w.sourceCompany existing.sourceCompany) t
      rw [orKept_of_truthy htruthy]
      exact h
  · next hunnamed =>
    cases row with
    | none => exact absurd (Or.inl rfl) hunnamed
    | some existing =>
      show Attributed (orKept w.sourceCompany existing.sourceCompany) t
      rw [orKept_of_not_truthy fun htruthy => hunnamed (Or.inr htruthy)]
      exact h existing rfl

theorem put_row {s s' : Store} {w : Put} {e : MemoryEntry}
    (h : Memory.put s redisOk w = some (e, s')) (k : MemoryKey) :
    s'.row k = if k = w.key then some (w.over (s.row w.key)) else s.row k := by
  obtain ⟨existing, hlookup, heq⟩ := Option.map_eq_some_iff.mp h
  obtain ⟨-, rfl⟩ := Prod.ext_iff.mp heq
  have hrow : s.row w.key = existing := lookup_eq_some hlookup
  rw [setRedis_row]
  show (commitRow s.table w.key existing w.update w.insert).find? _ = _
  split
  · next hk =>
    rw [hk, hrow]
    cases existing with
    | none => exact find?_commitRow_none _ rfl hrow
    | some row =>
      rw [find?_commitRow_some]
      unfold Store.row at hrow
      rw [hrow]
      exact congrArg some (flush_self rfl)
  · next hk => exact find?_commitRow_other rfl hk

theorem put_nodup {s s' : Store} {w : Put} {e : MemoryEntry}
    (h : Memory.put s redisOk w = some (e, s')) (hnodup : (s.table.map CallerMemory.key).Nodup) :
    (s'.table.map CallerMemory.key).Nodup := by
  obtain ⟨existing, hlookup, heq⟩ := Option.map_eq_some_iff.mp h
  obtain ⟨-, rfl⟩ := Prod.ext_iff.mp heq
  rw [setRedis_table]
  refine nodup_commitRow hnodup rfl ?_
  rintro rfl
  exact lookup_eq_some hlookup

theorem put_redis {s s' : Store} {w : Put} {e e' : MemoryEntry} {key : String}
    (h : Memory.put s redisOk w = some (e, s')) (he' : s'.redis key = some e') :
    s.redis key = some e' := by
  obtain ⟨existing, -, heq⟩ := Option.map_eq_some_iff.mp h
  obtain ⟨-, rfl⟩ := Prod.ext_iff.mp heq
  obtain ⟨-, -, hnone⟩ | ⟨-, hkept⟩ := setRedis_redis he'
  · cases hnone
  · exact hkept

/-- **A write that fits** leaves the node sound. -/
theorem put_sound (h : Sound m) {w : Put} {t : Text} (ht : spelled t = w.content)
    (hfits : Fits (m.row w.key) w.sourceCompany t) (hput : m.put redisOk w t = some m') :
    Sound m' := by
  obtain ⟨written, hwritten, rfl⟩ := Option.map_eq_some_iff.mp hput
  refine ⟨put_nodup hwritten h.nodup, fun k row hrow => ?_,
    fun key e he => h.entry key e (put_redis hwritten he)⟩
  have hrows := put_row hwritten k
  change written.2.row k = some row at hrow
  rw [hrow] at hrows
  split at hrows
  · next hk =>
    rw [hk]
    simp only [Function.update_self]
    cases hrows
    refine ⟨?_, attributed_over hfits⟩
    rw [ht]
    cases m.row w.key <;> rfl
  · next hk =>
    simp only [Function.update_of_ne hk]
    exact h.row k row hrows.symm

theorem delete_row {s s' : Store} {now : EditStamp} {found : Bool}
    (h : Memory.delete s redisOk k now = some (found, s')) {k' : MemoryKey} {row' : CallerMemory}
    (hrow' : s'.row k' = some row') :
    ∃ row, s.row k' = some row ∧ row'.content = row.content ∧
      row'.sourceCompany = row.sourceCompany := by
  obtain ⟨row, hlookup, heq⟩ := Option.map_eq_some_iff.mp h
  have hrow : s.row k = row := lookup_eq_some hlookup
  cases row with
  | none =>
    cases heq
    exact ⟨row', hrow', rfl, rfl⟩
  | some row =>
    simp only at heq
    split at heq
    · cases heq
      exact ⟨row', hrow', rfl, rfl⟩
    · cases heq
      rw [setRedis_row] at hrow'
      change (commitRow s.table k (some row) (CallerMemory.tombstone now) row).find? _ = _ at hrow'
      by_cases hk : k' = k
      · rw [hk, find?_commitRow_some] at hrow'
        unfold Store.row at hrow
        have hflush : flush row (CallerMemory.tombstone now row) row =
            CallerMemory.tombstone now row := flush_self rfl
        rw [hrow, Option.map_some, hflush] at hrow'
        cases hrow'
        rw [hk]
        exact ⟨row, hrow, rfl, rfl⟩
      · have hkey : row.key = k := by
          have hfound := List.find?_some hrow
          exact eq_of_beq hfound
        rw [find?_commitRow_other hkey hk] at hrow'
        exact ⟨row', hrow', rfl, rfl⟩

theorem delete_nodup {s s' : Store} {now : EditStamp} {found : Bool}
    (h : Memory.delete s redisOk k now = some (found, s'))
    (hnodup : (s.table.map CallerMemory.key).Nodup) : (s'.table.map CallerMemory.key).Nodup := by
  obtain ⟨row, -, heq⟩ := Option.map_eq_some_iff.mp h
  cases row with
  | none =>
    cases heq
    exact hnodup
  | some row =>
    simp only at heq
    split at heq
    · cases heq
      exact hnodup
    · cases heq
      rw [setRedis_table]
      show ((commitRow s.table k (some row) (CallerMemory.tombstone now) row).map _).Nodup
      rw [keys_commitRow_some]
      exact hnodup

theorem delete_redis {s s' : Store} {now : EditStamp} {found : Bool} {key : String}
    {e : MemoryEntry} (h : Memory.delete s redisOk k now = some (found, s'))
    (he : s'.redis key = some e) : s.redis key = some e := by
  obtain ⟨row, -, heq⟩ := Option.map_eq_some_iff.mp h
  cases row with
  | none =>
    cases heq
    exact he
  | some row =>
    simp only at heq
    split at heq
    · cases heq
      exact he
    · cases heq
      obtain ⟨-, -, hnone⟩ | ⟨-, hkept⟩ := setRedis_redis he
      · cases hnone
      · exact hkept

/-- **A deletion** leaves the node sound. -/
theorem delete_sound (h : Sound m) {now : EditStamp} {found : Bool}
    (hdelete : m.delete redisOk k now = some (found, m')) : Sound m' := by
  obtain ⟨deleted, hdeleted, heq⟩ := Option.map_eq_some_iff.mp hdelete
  obtain ⟨-, rfl⟩ := Prod.ext_iff.mp heq
  refine ⟨delete_nodup hdeleted h.nodup, fun k' row' hrow' => ?_,
    fun key e he => h.entry key e (delete_redis hdeleted he)⟩
  obtain ⟨row, hrow, hcontent, hlabel⟩ := delete_row hdeleted hrow'
  rw [hcontent, hlabel]
  exact h.row k' row hrow

/-! ### Commands -/

theorem editEntry_sound (h : Sound m) {src : Source} {tag newTag : String} {e : Edit} {ok : Bool}
    (hfits : ∀ entry t m', m.get src.redisOk (src.key tag) [] = some (some (entry, t), m') →
      (e.apply entry.content).isSome →
      Fits (m.row (src.key newTag)) src.sourceCompany (e.trace src.sourceCompany t))
    (hedit : m.editEntry src tag newTag e = some (ok, m')) : Sound m' := by
  obtain ⟨⟨read, m₁⟩, hget, hedit⟩ := Option.bind_eq_some_iff.mp hedit
  obtain ⟨hsound, hrows⟩ := get_sound h hget
  cases read with
  | none =>
    cases hedit
    exact hsound
  | some read =>
    obtain ⟨entry, t⟩ := read
    simp only [Option.bind_some] at hedit
    cases hcontent : e.apply entry.content with
    | none =>
      rw [hcontent] at hedit
      cases hedit
      exact hsound
    | some content =>
      rw [hcontent] at hedit
      obtain ⟨m₂, hput, heq⟩ := Option.map_eq_some_iff.mp hedit
      cases heq
      have hspelled : spelled (e.trace src.sourceCompany t) = content :=
        spelled_trace (get_carries h hget).1.spelled hcontent
      refine put_sound hsound (w := src.put newTag content) hspelled ?_ hput
      show Fits (m₁.row (src.key newTag)) src.sourceCompany _
      rw [hrows]
      exact hfits entry t m₁ hget (by rw [hcontent]; rfl)

/-- **Commands that fit** leave the node sound. -/
theorem runCommand_sound (h : Sound m) {src : Source} {c : Command} {ok : Bool}
    (hfits : CommandFits m src c) (hrun : m.runCommand src c = some (ok, m')) : Sound m' := by
  cases c with
  | skip =>
    cases hrun
    exact h
  | create tag content =>
    obtain ⟨m₁, hput, heq⟩ := Option.map_eq_some_iff.mp hrun
    cases heq
    exact put_sound h (w := src.put tag content) (spelled_mark _ content) hfits hput
  | edit tag e => exact editEntry_sound h hfits hrun
  | delete tag => exact delete_sound h hrun
  | rename tag newTag =>
    obtain ⟨⟨renamed, m₁⟩, hedit, hrest⟩ := Option.bind_eq_some_iff.mp hrun
    have hsound : Sound m₁ :=
      editEntry_sound h (fun entry t m₂ hget _ => hfits entry t m₂ hget) hedit
    simp only at hrest
    split at hrest
    · obtain ⟨deleted, hdelete, heq⟩ := Option.map_eq_some_iff.mp hrest
      cases heq
      exact delete_sound hsound hdelete
    · cases hrest
      exact hsound

/-! ### Merges -/

theorem applyMemoryRow_row (s : Store) (r : PeerMemory) (k : MemoryKey) :
    ({ s with table := applyMemoryRow s.table r } : Store).row k =
      if r.apiKeyId ≠ "" ∧ k = r.key then
        Table.mergeRow mergeCallerMemory insertCallerMemory (some r) (s.row k)
      else s.row k := by
  show (applyMemoryRow s.table r).find? (fun e => e.key == k) = _
  by_cases hid : r.apiKeyId = ""
  · rw [if_neg fun h => h.1 hid]
    unfold applyMemoryRow
    rw [if_pos hid]
    rfl
  · rw [find?_applyMemoryRow hid]
    by_cases hk : k = r.key
    · rw [hk, if_pos (beq_self_eq_true r.key), if_pos ⟨hid, rfl⟩]
      rfl
    · have hne : ¬ (r.key == k) = true := by
        rw [beq_false_of_ne (Ne.symm hk)]
        exact Bool.false_ne_true
      rw [if_neg hne, if_neg fun h => hk h.2]
      rfl

theorem nodup_applyMemoryRow {table : List CallerMemory}
    (h : (table.map CallerMemory.key).Nodup) (r : PeerMemory) :
    ((applyMemoryRow table r).map CallerMemory.key).Nodup := by
  unfold applyMemoryRow
  split
  · exact h
  · exact Table.nodup_upsert_key mergeCallerMemory_key insertCallerMemory_key h r

theorem applyRow_sound (h : Sound m) {row : PeerMemory × Text} (hspelled : spelled row.2 = row.1.content)
    (hfits : RowFits m row) : Sound (m.applyRow row) := by
  obtain ⟨r, t⟩ := row
  refine ⟨nodup_applyMemoryRow h.nodup r, fun k row' hrow' => ?_, h.entry⟩
  change ({ m.toStore with table := applyMemoryRow m.table r } : Store).row k = some row' at hrow'
  rw [applyMemoryRow_row] at hrow'
  show Carries ((if r.taken (m.row r.key) then Function.update m.rows r.key t else m.rows) k) _ _
  split at hrow'
  · next hk =>
    obtain ⟨hid, rfl⟩ := hk
    cases hlocal : m.row r.key with
    | none =>
      rw [hlocal] at hrow'
      have htaken : r.taken none = true := by simpa [PeerMemory.taken] using hid
      rw [if_pos htaken, Function.update_self]
      cases hrow'
      exact ⟨hspelled, fun _ hlabel => nomatch hlabel⟩
    | some existing =>
      rw [hlocal] at hrow'
      cases hrow'
      by_cases htaken : r.taken (some existing) = true
      · rw [if_pos htaken, Function.update_self, mergeCallerMemory_taken htaken]
        refine ⟨hspelled, hfits ?_ existing hlocal⟩
        rw [hlocal]
        exact htaken
      · rw [if_neg htaken]
        have hold : ¬ existing.updatedAt < r.updatedAt := by
          intro hlt
          apply htaken
          simp [PeerMemory.taken, hid, hlt]
        have hkept : mergeCallerMemory r existing = existing := if_neg hold
        rw [hkept]
        exact h.row r.key existing hlocal
  · next hk =>
    by_cases htaken : r.taken (m.row r.key) = true
    · have hid : r.apiKeyId ≠ "" := by
        unfold PeerMemory.taken at htaken
        simpa using (Bool.and_eq_true_iff.mp htaken).1
      rw [if_pos htaken, Function.update_of_ne fun heq => hk ⟨hid, heq⟩]
      exact h.row k row' hrow'
    · rw [if_neg htaken]
      exact h.row k row' hrow'

/-! ## Nodes that push their rows to each other -/

/-- The nodes, and the payloads in the air with the texts of their rows. -/
structure Nodes where
  node : Nat → Marked := fun _ => {}
  sent : List (List (PeerMemory × Text)) := []

/-- What happens on the nodes: a `get` of some key's blocklist, a `put` (an admin's has no
company), a `delete`, a command of a provider's answer, a push and a delivery. -/
inductive Event where
  | get (n : Nat) (redisOk : Bool) (k : MemoryKey) (blockedCompanies : List String)
  | put (n : Nat) (redisOk : Bool) (w : Put)
  | delete (n : Nat) (redisOk : Bool) (k : MemoryKey) (now : EditStamp)
  | command (n : Nat) (src : Source) (inp : Json)
  | push (n : Nat) (now : EditStamp)
  | deliver (payload n : Nat)

def Nodes.set (c : Nodes) (n : Nat) (m : Option Marked) : Nodes :=
  { c with node := Function.update c.node n (m.getD (c.node n)) }

def Marked.payload (m : Marked) (now : EditStamp) : List (PeerMemory × Text) :=
  (m.table.filter fun r => now - 7 * 86400 ≤ r.updatedAt).map fun r =>
    (buildPeerMemory r, m.rows r.key)

def Nodes.step (c : Nodes) : Event → Nodes
  | .get n redisOk k blocked => c.set n (((c.node n).get redisOk k blocked).map Prod.snd)
  | .put n redisOk w => c.set n ((c.node n).put redisOk w (mark w.sourceCompany w.content))
  | .delete n redisOk k now => c.set n (((c.node n).delete redisOk k now).map Prod.snd)
  | .command n src inp =>
    c.set n (((readCommand src inp).bind ((c.node n).runCommand src)).map Prod.snd)
  | .push n now => { c with sent := c.sent ++ [(c.node n).payload now] }
  | .deliver i n =>
    match c.sent[i]? with
    | some payload => c.set n (some (payload.foldl Marked.applyRow (c.node n)))
    | none => c

/-- What a step writes, it may write. -/
def Attributable (c : Nodes) : Event → Prop
  | .put n _ w => Fits ((c.node n).row w.key) w.sourceCompany (mark w.sourceCompany w.content)
  | .command n src inp => ∀ command, readCommand src inp = some command →
      CommandFits (c.node n) src command
  | .deliver i n => ∀ payload, c.sent[i]? = some payload →
      Along Marked.applyRow RowFits (c.node n) payload
  | _ => True

/-- Every node is sound, and every text in the air spells the content of its row. -/
structure AllSound (c : Nodes) : Prop where
  node : ∀ n, Sound (c.node n)
  sent : ∀ payload ∈ c.sent, ∀ row ∈ payload, spelled row.2 = row.1.content

theorem AllSound.set {c : Nodes} (h : AllSound c) {n : Nat} {m : Option Marked}
    (hm : ∀ m', m = some m' → Sound m') : AllSound (c.set n m) := by
  refine ⟨fun n' => ?_, h.sent⟩
  show Sound (Function.update c.node n (m.getD (c.node n)) n')
  by_cases hn : n' = n
  · rw [hn, Function.update_self]
    cases m with
    | none => exact h.node n
    | some m' => exact hm m' rfl
  · rw [Function.update_of_ne hn]
    exact h.node n'

theorem payload_spelled (h : Sound m) (now : EditStamp) :
    ∀ row ∈ m.payload now, spelled row.2 = row.1.content := by
  intro row hrow
  obtain ⟨r, hr, rfl⟩ := List.mem_map.mp hrow
  have hmem : r ∈ m.table := (List.mem_filter.mp hr).1
  have hfind : m.row r.key = some r := by
    obtain ⟨r', hr'⟩ := Option.isSome_iff_exists.mp
      (mem_keys_iff.mp (List.mem_map_of_mem (f := CallerMemory.key) hmem))
    have hfound := List.find?_some hr'
    have hsame := List.inj_on_of_nodup_map h.nodup (List.mem_of_find?_eq_some hr') hmem
      (eq_of_beq hfound)
    rw [hsame] at hr'
    exact hr'
  exact (h.row r.key r hfind).spelled

theorem payload_sound {payload : List (PeerMemory × Text)} (h : Sound m)
    (hspelled : ∀ row ∈ payload, spelled row.2 = row.1.content)
    (hfits : Along Marked.applyRow RowFits m payload) :
    Sound (payload.foldl Marked.applyRow m) := by
  induction payload generalizing m with
  | nil => exact h
  | cons row rest ih =>
    have hone := applyRow_sound h (hspelled row List.mem_cons_self) hfits.1
    exact ih hone (fun r hr => hspelled r (List.mem_cons_of_mem row hr)) hfits.2

theorem step_sound {c : Nodes} (h : AllSound c) (e : Event) (hfits : Attributable c e) :
    AllSound (c.step e) := by
  cases e with
  | get n redisOk k blocked =>
    refine h.set fun m' hm' => ?_
    obtain ⟨⟨read, m⟩, hget, rfl⟩ := Option.map_eq_some_iff.mp hm'
    exact (get_sound (h.node n) hget).1
  | put n redisOk w =>
    exact h.set fun m' hm' => put_sound (h.node n) (spelled_mark _ w.content) hfits hm'
  | delete n redisOk k now =>
    refine h.set fun m' hm' => ?_
    obtain ⟨⟨found, m⟩, hdelete, rfl⟩ := Option.map_eq_some_iff.mp hm'
    exact delete_sound (h.node n) hdelete
  | command n src inp =>
    refine h.set fun m' hm' => ?_
    obtain ⟨⟨ok, m⟩, hrun, rfl⟩ := Option.map_eq_some_iff.mp hm'
    obtain ⟨command, hread, hrun⟩ := Option.bind_eq_some_iff.mp hrun
    exact runCommand_sound (h.node n) (hfits command hread) hrun
  | push n now =>
    refine ⟨h.node, fun payload hpayload => ?_⟩
    rcases List.mem_append.mp hpayload with hsent | hnew
    · exact h.sent payload hsent
    · rw [List.mem_singleton.mp hnew]
      exact payload_spelled (h.node n) now
  | deliver i n =>
    cases hi : c.sent[i]? with
    | none =>
      simp only [Nodes.step, hi]
      exact h
    | some payload =>
      simp only [Nodes.step, hi]
      refine h.set fun m' hm' => ?_
      cases hm'
      exact payload_sound (h.node n) (h.sent payload (List.mem_of_getElem? hi)) (hfits payload hi)

/-- Nothing is remembered anywhere. -/
def noMemory : Nodes := {}

theorem noMemory_sound : AllSound noMemory := by
  refine ⟨fun n => ⟨List.nodup_nil, ?_, ?_⟩, ?_⟩
  · intro k row hrow
    cases hrow
  · intro key e he
    cases he
  · intro payload hpayload
    cases hpayload

/-- **Provenance**: in every run from empty nodes whose steps are all attributable, an entry that
`get` returns under a blocklist comes with a text that spells its content and whose every character
was produced by a provider of a known company outside the blocklist. -/
theorem provenance_sound (events : List Event) (h : Along Nodes.step Attributable noMemory events)
    (n : Nat) (redisOk : Bool) (k : MemoryKey) (blocked : List String) (entry : MemoryEntry)
    (t : Text) (m' : Marked) (hblocked : blocked ≠ [])
    (hget : ((run Nodes.step noMemory events).node n).get redisOk k blocked =
      some (some (entry, t), m')) :
    spelled t = entry.content ∧
      ∀ x ∈ t, ∃ company, x.2 = some company ∧ company ∉ blocked := by
  have hsound := run_inv_of_along (I := AllSound) (fun _ e hs hg => step_sound hs e hg)
    noMemory_sound h
  obtain ⟨hcarries, hlabel⟩ := get_carries (hsound.node n) hget
  obtain ⟨company, hcompany, hoff⟩ := hlabel hblocked
  exact ⟨hcarries.spelled, fun x hx => ⟨company, hcarries.attributed company hcompany x hx, hoff⟩⟩

/-! ### An answer that is shared -/

/-- A command of an answer of `company` on node `n`. -/
def answers (n : Nat) (company : Option String) (now : EditStamp) (fields : List (String × Json)) :
    Event :=
  .command n { apiKeyId := "key", conversationId := "c", sourceCompany := company, now := now }
    (.obj (("path", .str "notes") :: fields))

def creates (n : Nat) (company : Option String) (now : EditStamp) (text : String) : Event :=
  answers n company now [("command", .str "create"), ("content", .str text)]

def tagKey (tag : String) : MemoryKey := ⟨"key", some "c", tag⟩

def plan : List Event := [creates 0 (some "acme") 1 "plan"]

theorem attributed_mark (company : Option String) (text : String) :
    Attributed company (mark company text) := by
  intro c hc x hx
  obtain ⟨_, -, rfl⟩ := List.mem_map.mp hx
  exact hc

theorem plan_attributable : Along Nodes.step Attributable noMemory plan := by
  refine ⟨fun command hread => ?_, trivial⟩
  have hcreate : some (Command.create "notes" "plan") = some command :=
    Eq.trans (by decide +kernel) hread
  rw [← Option.some.inj hcreate]
  show Fits none (some "acme") (mark (some "acme") "plan")
  unfold Fits
  rw [if_pos (Or.inl rfl)]
  exact attributed_mark (some "acme") "plan"

/-- The text is sent to another node. -/
def sharedPlan : List Event := plan ++ [.push 0 2, .deliver 0 1]

theorem sharedPlan_attributable : Along Nodes.step Attributable noMemory sharedPlan := by
  refine ⟨plan_attributable.1, trivial, fun payload hpayload => ?_, trivial⟩
  have hsent : payload.length = 1 := by
    rw [← Option.some.inj hpayload]
    rfl
  obtain ⟨row, rfl⟩ := List.length_eq_one_iff.mp hsent
  exact ⟨fun _ existing hexisting => (nomatch hexisting), trivial⟩

theorem provenance_sound_plan :
    spelled (mark (some "acme") "plan") = "plan" ∧
      ∀ x ∈ mark (some "acme") "plan", ∃ company, x.2 = some company ∧ company ∉ ["globex"] :=
  provenance_sound sharedPlan sharedPlan_attributable 0 true (tagKey "notes") ["globex"]
    { key := tagKey "notes", content := "plan", contentFormat := "text", updatedAt := 1,
      sourceCompany := some "acme" }
    (mark (some "acme") "plan") _ (by decide) (by rfl)

/-! ### Four texts under another's label -/

/-- The `get` returns a character of a company that is blocked, or of none that is known. -/
def leaks (events : List Event) (n : Nat) (k : MemoryKey) (blocked : List String) : Bool :=
  match ((run Nodes.step noMemory events).node n).get true k blocked with
  | some (some (_, t), _) => t.any fun x => x.2.all blocked.contains
  | _ => false

/-- An admin replaces the text of a provider. -/
def overwritten : List Event :=
  plan ++ [.put 0 true { key := tagKey "notes", content := "mine", now := 2 }]

/-- Another company's provider edits the text. -/
def edited : List Event :=
  plan ++ [answers 0 (some "globex") 2
    [("command", .str "str_replace"), ("old_str", .str "an"), ("new_str", .str "um")]]

/-- Another company's provider renames it. -/
def renamed : List Event :=
  plan ++ [answers 0 (some "globex") 2 [("command", .str "rename"), ("new_path", .str "other")]]

/-- A text of another company arrives for the same tag. -/
def synchronised : List Event :=
  plan ++ [creates 1 (some "globex") 2 "leak", .push 1 3, .deliver 0 0]

/-- **Four labels that are not the producers'**: a `put` without a company and a merge keep the
label of the old text, an edit and a renaming give the old text the label of the editor. -/
theorem labels_mislead :
    leaks overwritten 0 (tagKey "notes") ["globex"] = true ∧
      leaks edited 0 (tagKey "notes") ["acme"] = true ∧
      leaks renamed 0 (tagKey "other") ["acme"] = true ∧
      leaks synchronised 0 (tagKey "notes") ["globex"] = true := by
  refine ⟨?_, ?_, ?_, ?_⟩ <;> decide +kernel

end LlmProxy.Memory
