import LlmProxy.Lib.FileMap
import LlmProxy.Memory.Freshness
import LlmProxy.Memory.Provenance

/-! # The memory tool as a map of files

`_apply_command` (`app/memory/extract.py`) over the store, compared with the map of files its
commands speak of: for one API key and conversation the entries are the files, by tag.

> `commands_refine_iff`: a run of commands is one of the file map exactly when every path is a
> text, no entry is renamed to itself and lines are inserted in texts with plain lines only.

Everything else the commands do as the map does, from every store whose Redis holds what the rows
hold (`CacheAgrees`), which the commands keep (`applyCommand_step`).

Mirroring notes.
* Redis answers all commands of a run or none.
* As in Python an argument that is false is one that is not given, and a `bool` is an `int`.
-/

namespace LlmProxy.Memory

open LlmProxy.Cluster (EditStamp)
open FileMap (FileStep position)
open TextEdits (PlainLines splitLines ReplacesFirst InsertsLine)

/-! ## Conversations -/

structure Conversation where
  apiKeyId : String
  conversationId : String
  redisOk : Bool

/-- A command with what the answer it comes from brings along. -/
structure Turn where
  memoryTagDefault : Option String := none
  sourceProviderId : Option String := none
  sourceCompany : Option String := none
  now : EditStamp
  nodeId : Option String := none
  inp : Json

def Turn.source (t : Turn) (c : Conversation) : Source where
  apiKeyId := c.apiKeyId
  conversationId := c.conversationId
  memoryTagDefault := t.memoryTagDefault
  sourceProviderId := t.sourceProviderId
  sourceCompany := t.sourceCompany
  now := t.now
  nodeId := t.nodeId
  redisOk := c.redisOk

def Conversation.key (c : Conversation) (tag : String) : MemoryKey :=
  ⟨c.apiKeyId, some c.conversationId, tag⟩

def Store.files (s : Store) (c : Conversation) : FileMap String :=
  fun tag => liveContent (s.row (c.key tag))

def Command.file : Command → FileCommand String
  | .create tag content => .create tag content
  | .edit tag (.strReplace old new) => .strReplace tag old new
  | .edit tag (.insert line text) => .insert tag line text
  | .delete tag => .delete tag
  | .rename tag newTag => .rename tag newTag
  | _ => .invalid

/-- The command of a turn; a path that is no text makes it invalid. -/
def Turn.command (t : Turn) (c : Conversation) : FileCommand String :=
  match readCommand (t.source c) t.inp with
  | some command => command.file
  | none => .invalid

/-- Every command of the run is a step of the file map. -/
def Refines (c : Conversation) : Store → List Turn → Prop
  | _, [] => True
  | s, t :: rest =>
    ∃ ok s', applyCommand s (t.source c) t.inp = some (ok, s') ∧
      FileStep (s.files c) (t.command c) ok (s'.files c) ∧ Refines c s' rest

/-- The command meets none of the cases in which the store and the file map part. -/
def FitsFiles (m : FileMap String) : Command → Prop
  | .edit tag (.insert line _) =>
    ∀ content, m tag = some content →
      PlainLines (position (splitLines content.toList).length line) content.toList
  | .rename tag newTag => m tag = none ∨ newTag ≠ tag
  | _ => True

/-- Every command of the run can be read, and fits the files it meets. -/
def AllFit (c : Conversation) : Store → List Turn → Prop
  | _, [] => True
  | s, t :: rest =>
    ∃ command, readCommand (t.source c) t.inp = some command ∧ FitsFiles (s.files c) command ∧
      ∀ ok s', applyCommand s (t.source c) t.inp = some (ok, s') → AllFit c s' rest

/-! ## Names -/

/-- A name as it can stand below `/memories/`. -/
structure PlainName (name : String) : Prop where
  nonempty : name ≠ ""
  noSlash : name.toList.head? ≠ some '/' ∧ name.toList.getLast? ≠ some '/'
  noSpace : name.toList.head?.any PyStr.isSpace = false ∧
    name.toList.getLast?.any PyStr.isSpace = false

theorem dropWhile_of_head? {p : Char → Bool} {cs : List Char} (h : cs.head?.any p = false) :
    cs.dropWhile p = cs := by
  cases cs with
  | nil => rfl
  | cons c cs =>
    have hc : p c = false := h
    rw [List.dropWhile_cons_of_neg (by simp [hc])]

theorem strip_of_ends {p : Char → Bool} {cs : List Char} (hhead : cs.head?.any p = false)
    (hlast : cs.getLast?.any p = false) : ((cs.dropWhile p).reverse.dropWhile p).reverse = cs := by
  rw [dropWhile_of_head? hhead, dropWhile_of_head? (by rw [List.head?_reverse]; exact hlast),
    List.reverse_reverse]

/-- The file of a path below `/memories/` is the one of its name. -/
theorem pathToTag_memories {name : String} (h : PlainName name) :
    pathToTag ("/memories/" ++ name) = name := by
  have hchars : name.toList ≠ [] := fun hnil => h.nonempty (String.toList_eq_nil_iff.mp hnil)
  have hpath : ("/memories/" ++ name).toList = "/memories/".toList ++ name.toList :=
    String.toList_append
  have hstrip : PyStr.strip ("/memories/" ++ name) = "/memories/" ++ name := by
    unfold PyStr.strip
    rw [strip_of_ends, String.ofList_toList]
    · rw [hpath]
      rfl
    · rw [hpath, List.getLast?_append_of_ne_nil _ hchars]
      exact h.noSpace.2
  have hstart : PyStr.startsWith ("/memories/" ++ name) "/memories/" = true := by
    unfold PyStr.startsWith
    rw [hpath]
    exact List.isPrefixOf_iff_prefix.mpr (List.prefix_append _ _)
  have hrest : afterStart ("/memories/" ++ name) "/memories/" = name := by
    unfold afterStart
    rw [hpath]
    have hdrop : ("/memories/".toList ++ name.toList).drop "/memories/".toList.length =
        name.toList := List.drop_left
    exact (congrArg String.ofList hdrop).trans String.ofList_toList
  have hslashes : stripSlashes name = name := by
    unfold stripSlashes
    rw [strip_of_ends, String.ofList_toList]
    · cases hhead : name.toList.head? with
      | none => rfl
      | some c =>
        have hc : c ≠ '/' := fun heq => h.noSlash.1 (by rw [hhead, heq])
        simpa using hc
    · cases hlast : name.toList.getLast? with
      | none => rfl
      | some c =>
        have hc : c ≠ '/' := fun heq => h.noSlash.2 (by rw [hlast, heq])
        simpa using hc
  unfold pathToTag
  simp only [hstrip, hstart, if_true, hrest, hslashes, if_neg h.nonempty]

/-! ## The calls of the store -/

/-- One row for each pair, and Redis holds the contents of the rows. -/
structure CacheAgrees (c : Conversation) (s : Store) : Prop where
  nodup : (s.table.map CallerMemory.key).Nodup
  cached : ∀ tag e, s.cached c.redisOk (c.key tag) = some e → s.files c tag = some e.content

variable {c : Conversation} {s : Store} {tag : String}

theorem key_injective (c : Conversation) : Function.Injective c.key :=
  fun _ _ h => (MemoryKey.mk.inj h).2.2

theorem cacheKey_injective (c : Conversation) :
    Function.Injective fun tag => cacheKey (c.key tag) := by
  intro tag tag' h
  simp only [cacheKey, Conversation.key] at h
  exact String.append_right_inj _ |>.mp h

theorem cached_setRedis_none (s : Store) (redisOk : Bool) (k : MemoryKey) :
    (s.setRedis redisOk k none).cached redisOk k = none := by
  unfold Store.setRedis Store.cached
  cases redisOk with
  | true => simp
  | false => rfl

/-- `get` reads the file, and leaves the files. -/
theorem get_files (h : CacheAgrees c s) (tag : String) :
    ∃ entry s', Memory.get s c.redisOk (c.key tag) = some (entry, s') ∧
      entry.map MemoryEntry.content = s.files c tag ∧ s'.files c = s.files c ∧
      CacheAgrees c s' := by
  cases hcached : s.cached c.redisOk (c.key tag) with
  | some e =>
    have hget : Memory.get s c.redisOk (c.key tag) = some (some e, s) := by
      unfold Memory.get
      rw [hcached]
      rfl
    exact ⟨some e, s, hget, (h.cached tag e hcached).symm, rfl, h⟩
  | none =>
    have hread := readRow_content (s.row (c.key tag))
    cases hrow : readRow (s.row (c.key tag)) [] with
    | none =>
      have hget : Memory.get s c.redisOk (c.key tag) = some (none, s) := by
        unfold Memory.get
        have hfound : readRow (s.table.find? fun r => r.key == c.key tag) [] = none := hrow
        rw [hcached, lookup_of_nodup h.nodup]
        simp only [Option.map_some, hfound]
      rw [hrow] at hread
      exact ⟨none, s, hget, hread, rfl, h⟩
    | some entry =>
      have hget : Memory.get s c.redisOk (c.key tag) =
          some (some entry, s.setRedis c.redisOk (c.key tag) (some entry)) := by
        unfold Memory.get
        have hfound : readRow (s.table.find? fun r => r.key == c.key tag) [] = some entry := hrow
        rw [hcached, lookup_of_nodup h.nodup]
        simp only [Option.map_some, hfound]
      rw [hrow] at hread
      have hfiles : (s.setRedis c.redisOk (c.key tag) (some entry)).files c = s.files c := by
        funext other
        exact congrArg liveContent (setRedis_row s c.redisOk (c.key tag) (c.key other) _)
      refine ⟨some entry, _, hget, hread, hfiles, ?_, ?_⟩
      · rw [setRedis_table]
        exact h.nodup
      · intro other e he
        rw [hfiles]
        obtain ⟨hok, hredis⟩ := cached_some he
        rcases setRedis_redis hredis with ⟨-, hkey, heq⟩ | ⟨-, hkept⟩
        · have hsame : other = tag := cacheKey_injective c hkey
          rw [hsame, ← Option.some.inj heq]
          exact hread.symm
        · apply h.cached
          unfold Store.cached
          rw [if_pos hok]
          exact hkept

theorem CacheAgrees.change {s' : Store} {content : Option String} (h : CacheAgrees c s)
    (hnodup : (s'.table.map CallerMemory.key).Nodup)
    (hfiles : s'.files c = Function.update (s.files c) tag content)
    (hgone : s'.cached c.redisOk (c.key tag) = none)
    (hkept : ∀ k e, s'.redis k = some e → s.redis k = some e) : CacheAgrees c s' := by
  refine ⟨hnodup, fun other e he => ?_⟩
  by_cases hsame : other = tag
  · rw [hsame, hgone] at he
    cases he
  · rw [hfiles, Function.update_of_ne hsame]
    obtain ⟨hok, hredis⟩ := cached_some he
    apply h.cached
    unfold Store.cached
    rw [if_pos hok]
    exact hkept _ _ hredis

/-- `put` binds the file. -/
theorem put_files (h : CacheAgrees c s) (w : Put) (hkey : w.key = c.key tag) :
    ∃ e s', Memory.put s c.redisOk w = some (e, s') ∧
      s'.files c = Function.update (s.files c) tag (some w.content) ∧ CacheAgrees c s' := by
  have hput : ∃ e s', Memory.put s c.redisOk w = some (e, s') := by
    unfold Memory.put
    rw [lookup_of_nodup h.nodup]
    exact ⟨_, _, rfl⟩
  obtain ⟨e, s', hput⟩ := hput
  have hfiles : s'.files c = Function.update (s.files c) tag (some w.content) := by
    funext other
    unfold Store.files
    rw [put_row hput, hkey]
    by_cases hsame : other = tag
    · rw [hsame, if_pos rfl, Function.update_self]
      cases s.row (c.key tag) <;> rfl
    · rw [if_neg fun heq => hsame (key_injective c heq), Function.update_of_ne hsame]
  have hgone : s'.cached c.redisOk (c.key tag) = none := by
    obtain ⟨existing, -, heq⟩ := Option.map_eq_some_iff.mp hput
    obtain ⟨-, rfl⟩ := Prod.ext_iff.mp heq
    rw [← hkey]
    exact cached_setRedis_none _ _ _
  exact ⟨e, s', hput, hfiles, h.change (put_nodup hput h.nodup) hfiles hgone
    fun _ _ => put_redis hput⟩

/-- `delete` removes the file, and says whether there was one. -/
theorem delete_files (h : CacheAgrees c s) (tag : String) (now : EditStamp) :
    ∃ s', Memory.delete s c.redisOk (c.key tag) now = some ((s.files c tag).isSome, s') ∧
      s'.files c = Function.update (s.files c) tag none ∧ CacheAgrees c s' := by
  have hnone : s.files c tag = none →
      s.files c = Function.update (s.files c) tag none := fun hfile => by
    rw [← hfile, Function.update_eq_self]
  have hlookup := lookup_of_nodup h.nodup (c.key tag)
  cases hrow : s.table.find? (fun r => r.key == c.key tag) with
  | none =>
    have hfile : s.files c tag = none := congrArg liveContent hrow
    have hdelete : Memory.delete s c.redisOk (c.key tag) now = some (false, s) := by
      unfold Memory.delete
      rw [hlookup, hrow]
      rfl
    rw [hfile]
    exact ⟨s, hdelete, hnone hfile, h⟩
  | some row =>
    by_cases hdead : row.deletedAt.isSome = true
    · have hfile : s.files c tag = none := by
        refine (congrArg liveContent hrow).trans ?_
        simp only [liveContent, Option.bind_some, hdead, if_true]
      have hdelete : Memory.delete s c.redisOk (c.key tag) now = some (false, s) := by
        unfold Memory.delete
        rw [hlookup, hrow]
        simp only [Option.map_some, hdead, if_true]
      rw [hfile]
      exact ⟨s, hdelete, hnone hfile, h⟩
    · have hfile : s.files c tag = some row.content := by
        refine (congrArg liveContent hrow).trans ?_
        simp only [liveContent, Option.bind_some, if_neg hdead]
      let table := commitRow s.table (c.key tag) (some row) (CallerMemory.tombstone now) row
      let s' : Store := ({ s with table := table } : Store).setRedis c.redisOk (c.key tag) none
      have hdelete : Memory.delete s c.redisOk (c.key tag) now = some (true, s') := by
        unfold Memory.delete
        rw [hlookup, hrow]
        simp only [Option.map_some, if_neg hdead]
        rfl
      have hkey : row.key = c.key tag := by
        have hfound := List.find?_some hrow
        exact eq_of_beq hfound
      have hfiles : s'.files c = Function.update (s.files c) tag none := by
        funext other
        have hrows : s'.row (c.key other) = table.find? fun r => r.key == c.key other :=
          setRedis_row _ _ _ _ _
        unfold Store.files
        rw [hrows]
        by_cases hsame : other = tag
        · have hflush : flush row (CallerMemory.tombstone now row) row =
              CallerMemory.tombstone now row := flush_self rfl
          rw [hsame, Function.update_self, find?_commitRow_some, hrow, Option.map_some, hflush]
          rfl
        · rw [Function.update_of_ne hsame,
            find?_commitRow_other hkey fun heq => hsame (key_injective c heq)]
          rfl
      rw [hfile]
      exact ⟨s', hdelete, hfiles, h.change (delete_nodup hdelete h.nodup) hfiles
        (cached_setRedis_none _ _ _) fun _ _ => delete_redis hdelete⟩

/-! ## One command -/

def editedFiles (m : FileMap String) (newTag : String) : Option String → FileMap String
  | some content => Function.update m newTag (some content)
  | none => m

theorem editEntry_files (h : CacheAgrees c s) (t : Turn) (tag newTag : String) (e : Edit) :
    ∃ s', editEntry s (t.source c) tag newTag e =
        some (((s.files c tag).bind e.apply).isSome, s') ∧
      s'.files c = editedFiles (s.files c) newTag ((s.files c tag).bind e.apply) ∧
      CacheAgrees c s' := by
  obtain ⟨entry, s₁, hget, hentry, hfiles, hagrees⟩ := get_files h tag
  have hread : Memory.get s (t.source c).redisOk ((t.source c).key tag) = some (entry, s₁) := hget
  have hedit : (entry.bind fun existing => e.apply existing.content) =
      (s.files c tag).bind e.apply := by
    rw [← hentry]
    cases entry <;> rfl
  unfold editEntry
  rw [hread, Option.bind_some]
  simp only [hedit]
  cases hnew : (s.files c tag).bind e.apply with
  | none => exact ⟨s₁, rfl, hfiles, hagrees⟩
  | some content =>
    obtain ⟨written, s', hput, hfiles', hagrees'⟩ :=
      put_files hagrees ((t.source c).put newTag content) rfl
    refine ⟨s', ?_, ?_, hagrees'⟩
    · show (Memory.put s₁ c.redisOk ((t.source c).put newTag content)).map _ = _
      rw [hput]
      rfl
    · rw [hfiles', hfiles]
      rfl

/-- `readCommand` reads no edit that keeps the text. -/
theorem readCommand_ne_keep (src : Source) (inp : Json) (tag : String) :
    readCommand src inp ≠ some (.edit tag .keep) := by
  intro h
  obtain ⟨tag', -, hcommand⟩ := Option.map_eq_some_iff.mp h
  split at hcommand
  · split at hcommand <;> cases hcommand
  · split at hcommand <;> cases hcommand
  · split at hcommand <;> cases hcommand
  · cases hcommand
  · split at hcommand <;> cases hcommand
  · cases hcommand

/-- A command refines the map of files, up to what does not fit. -/
def StepsAs (c : Conversation) (s : Store) (src : Source) (command : Command) : Prop :=
  ∃ ok s', runCommand s src command = some (ok, s') ∧ CacheAgrees c s' ∧
    (FileStep (s.files c) command.file ok (s'.files c) ↔ FitsFiles (s.files c) command)

theorem strReplace_step (h : CacheAgrees c s) (t : Turn) (tag old new : String) :
    StepsAs c s (t.source c) (.edit tag (.strReplace old new)) := by
  obtain ⟨s', hrun, hfiles, hagrees⟩ := editEntry_files h t tag tag (.strReplace old new)
  refine ⟨_, s', hrun, hagrees, iff_of_true ?_ trivial⟩
  rw [hfiles]
  cases hfile : s.files c tag with
  | none =>
    refine .notReplaced fun content hcontent => ?_
    rw [hfile] at hcontent
    cases hcontent
  | some content =>
    cases hfound : PyStr.contains content old with
    | false =>
      have happly : Edit.apply content (.strReplace old new) = none := by
        simp only [Edit.apply, hfound, Bool.false_eq_true, if_false]
      rw [Option.bind_some, happly]
      refine .notReplaced fun content' hcontent' => ?_
      rw [hfile] at hcontent'
      rw [← Option.some.inj hcontent']
      exact hfound
    | true =>
      have happly : Edit.apply content (.strReplace old new) =
          some (String.ofList
            (Lettered.replaceFirst id old.toList new.toList content.toList)) := by
        simp only [Edit.apply, hfound, if_true]
      rw [Option.bind_some, happly]
      refine .replaced hfile ?_
      rw [String.toList_ofList]
      exact TextEdits.replacesFirst_replaceFirst new.toList hfound

theorem insert_step (h : CacheAgrees c s) (t : Turn) (tag : String) (line : Int) (text : String) :
    StepsAs c s (t.source c) (.edit tag (.insert line text)) := by
  obtain ⟨s', hrun, hfiles, hagrees⟩ := editEntry_files h t tag tag (.insert line text)
  refine ⟨_, s', hrun, hagrees, ?_⟩
  rw [hfiles]
  cases hfile : s.files c tag with
  | none =>
    refine iff_of_true (.notInserted hfile) fun content hcontent => ?_
    rw [hfile] at hcontent
    cases hcontent
  | some content =>
    have happly : Edit.apply content (.insert line text) =
        some (String.ofList (insertLine id '\n' line text.toList content.toList)) := rfl
    rw [Option.bind_some, happly]
    have hplain : InsertsLine (position (splitLines content.toList).length line) text.toList
        content.toList (insertLine id '\n' line text.toList content.toList) ↔
          PlainLines (position (splitLines content.toList).length line) content.toList :=
      TextEdits.joined_insert_iff
    constructor
    · intro hstep content' hcontent'
      rw [hfile] at hcontent'
      rw [← Option.some.inj hcontent', ← hplain]
      obtain ⟨before, result, hbefore, hinserts, hresult⟩ := hstep.insert_inv
      rw [hfile] at hbefore
      have hsame : result =
          String.ofList (insertLine id '\n' line text.toList content.toList) := by
        have hupdated : editedFiles (s.files c) tag
            (some (String.ofList (insertLine id '\n' line text.toList content.toList))) tag =
              some (String.ofList (insertLine id '\n' line text.toList content.toList)) :=
          Function.update_self _ _ _
        exact Option.some.inj (hresult.symm.trans hupdated)
      rw [hsame, String.toList_ofList, ← Option.some.inj hbefore] at hinserts
      exact hinserts
    · intro hfits
      refine .inserted hfile ?_
      rw [String.toList_ofList, hplain]
      exact hfits content hfile

theorem delete_step (h : CacheAgrees c s) (t : Turn) (tag : String) :
    StepsAs c s (t.source c) (.delete tag) := by
  obtain ⟨s', hrun, hfiles, hagrees⟩ := delete_files h tag t.now
  refine ⟨_, s', hrun, hagrees, iff_of_true ?_ trivial⟩
  rw [hfiles]
  cases hfile : s.files c tag with
  | none =>
    rw [← hfile, Function.update_eq_self, hfile]
    exact .notDeleted hfile
  | some content => exact .deleted hfile

theorem rename_step (h : CacheAgrees c s) (t : Turn) (tag newTag : String) :
    StepsAs c s (t.source c) (.rename tag newTag) := by
  obtain ⟨s₁, hedit, hfiles₁, hagrees₁⟩ := editEntry_files h t tag newTag .keep
  cases hfile : s.files c tag with
  | none =>
    rw [hfile] at hedit hfiles₁
    refine ⟨false, s₁, ?_, hagrees₁, iff_of_true ?_ (Or.inl hfile)⟩
    · simp only [runCommand]
      rw [hedit]
      rfl
    · rw [hfiles₁]
      exact .notRenamed hfile
  | some content =>
    rw [hfile] at hedit hfiles₁
    obtain ⟨s', hdelete, hfiles', hagrees'⟩ := delete_files hagrees₁ tag t.now
    have hrun : runCommand s (t.source c) (.rename tag newTag) = some (true, s') := by
      simp only [runCommand]
      rw [hedit]
      show (Memory.delete s₁ c.redisOk (c.key tag) t.now).map _ = _
      rw [hdelete]
      rfl
    have hmoved : s₁.files c = Function.update (s.files c) newTag (some content) := hfiles₁
    refine ⟨true, s', hrun, hagrees', ?_⟩
    rw [hfiles', hmoved]
    constructor
    · intro hstep
      refine Or.inr fun hself => ?_
      rw [hself] at hstep
      have hsame := congrFun hstep.rename_self tag
      rw [Function.update_self, hfile] at hsame
      cases hsame
    · rintro (hnone | hne)
      · rw [hfile] at hnone
        cases hnone
      · rw [Function.update_comm hne]
        exact .renamed hfile

/-- **One command**: it raises nothing, keeps the store, and is the step of the file map exactly
when it fits. -/
theorem runCommand_step (h : CacheAgrees c s) (t : Turn) {command : Command}
    (hread : readCommand (t.source c) t.inp = some command) :
    StepsAs c s (t.source c) command := by
  cases command with
  | skip => exact ⟨false, s, rfl, h, iff_of_true .invalid trivial⟩
  | create tag content =>
    obtain ⟨e, s', hput, hfiles, hagrees⟩ :=
      put_files h ((t.source c).put tag content) rfl
    refine ⟨true, s', ?_, hagrees, iff_of_true ?_ trivial⟩
    · show (Memory.put s c.redisOk ((t.source c).put tag content)).map _ = _
      rw [hput]
      rfl
    · rw [hfiles]
      exact .created tag content
  | edit tag e =>
    cases e with
    | strReplace old new => exact strReplace_step h t tag old new
    | insert line text => exact insert_step h t tag line text
    | keep => exact absurd hread (readCommand_ne_keep _ _ tag)
  | delete tag => exact delete_step h t tag
  | rename tag newTag => exact rename_step h t tag newTag

/-! ## Runs -/

theorem refines_iff (h : CacheAgrees c s) (turns : List Turn) :
    Refines c s turns ↔ AllFit c s turns := by
  induction turns generalizing s with
  | nil => exact Iff.rfl
  | cons t rest ih =>
    unfold Refines AllFit applyCommand Turn.command
    cases hread : readCommand (t.source c) t.inp with
    | none => simp
    | some command =>
      obtain ⟨ok, s', hrun, hagrees, hstep⟩ := runCommand_step h t hread
      simp only [Option.bind_some, hrun, Option.some.injEq, exists_eq_left', Prod.mk.injEq]
      constructor
      · rintro ⟨ok', s'', ⟨rfl, rfl⟩, hfile, hrest⟩
        refine ⟨hstep.mp hfile, ?_⟩
        rintro ok' s'' ⟨rfl, rfl⟩
        exact (ih hagrees).mp hrest
      · rintro ⟨hfits, hrest⟩
        exact ⟨ok, s', ⟨rfl, rfl⟩, hstep.mpr hfits, (ih hagrees).mpr (hrest ok s' ⟨rfl, rfl⟩)⟩

/-- **The memory tool is a map of files.** Names below `/memories/` are files of their own; and
from every store whose Redis holds what the rows hold, every command of a run is a step of the
file map exactly when all of them fit. -/
theorem commands_refine_iff (c : Conversation) (s : Store) (turns : List Turn)
    (h : CacheAgrees c s) :
    ((∀ name name', PlainName name → PlainName name' →
        pathToTag ("/memories/" ++ name) = pathToTag ("/memories/" ++ name') → name = name') ∧
      Refines c s turns) ↔ AllFit c s turns := by
  rw [← refines_iff h turns]
  refine and_iff_right fun name name' hname hname' heq => ?_
  rw [← pathToTag_memories hname, heq, pathToTag_memories hname']

/-! ## A fixed run -/

def talk : Conversation := ⟨"k1", "c1", true⟩

theorem emptyStore_agrees : CacheAgrees talk {} := by
  refine ⟨List.nodup_nil, fun tag e he => ?_⟩
  cases he

/-- `create` of `/memories/notes`. -/
def createNotes : Turn where
  now := 0
  inp := .obj [("command", .str "create"), ("path", .str "/memories/notes"), ("content", .str "x")]

/-- `rename` of `/memories/notes` to itself. -/
def renameNotes : Turn where
  now := 1
  inp := .obj [("command", .str "rename"), ("path", .str "/memories/notes"),
    ("new_path", .str "/memories/notes")]

theorem readCommand_createNotes :
    readCommand (createNotes.source talk) createNotes.inp = some (.create "notes" "x") := by
  decide +kernel

theorem readCommand_renameNotes :
    readCommand (renameNotes.source talk) renameNotes.inp = some (.rename "notes" "notes") := by
  decide +kernel

theorem commands_refine_iff_notes :
    CacheAgrees talk {} ∧
      (((∀ name name', PlainName name → PlainName name' →
          pathToTag ("/memories/" ++ name) = pathToTag ("/memories/" ++ name') → name = name') ∧
        Refines talk {} [createNotes, renameNotes]) ↔ AllFit talk {} [createNotes, renameNotes]) :=
  ⟨emptyStore_agrees, commands_refine_iff talk {} [createNotes, renameNotes] emptyStore_agrees⟩

/-- The entry is lost. -/
theorem rename_self_loses :
    ¬ ((∀ name name', PlainName name → PlainName name' →
          pathToTag ("/memories/" ++ name) = pathToTag ("/memories/" ++ name') → name = name') ∧
        Refines talk {} [createNotes, renameNotes]) := by
  rintro ⟨-, hrefines⟩
  obtain ⟨command, -, -, hnext⟩ := (refines_iff emptyStore_agrees _).mp hrefines
  obtain ⟨ok, s', hrun, -, hstep⟩ :=
    runCommand_step emptyStore_agrees createNotes readCommand_createNotes
  have hfile : s'.files talk "notes" = some "x" := by
    generalize hfiles : s'.files talk = files at hstep
    cases hstep.mpr trivial with
    | created name content => exact Function.update_self _ _ _
  have happly : applyCommand {} (createNotes.source talk) createNotes.inp = some (ok, s') := by
    unfold applyCommand
    rw [readCommand_createNotes]
    exact hrun
  obtain ⟨command', hread, hfits, -⟩ := hnext ok s' happly
  rw [readCommand_renameNotes] at hread
  rw [← Option.some.inj hread] at hfits
  rcases hfits with hnone | hne
  · rw [hfile] at hnone
    cases hnone
  · exact hne rfl

end LlmProxy.Memory
