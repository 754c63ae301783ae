import Mathlib.Data.List.Infix
import LlmProxy.Memory.Calls

/-! # What a read of the memory store returns

The shared state is `Coherent`: one row for each pair, which holds the last of its changes, and in
Redis no entry of a pair that is older than the last write of it that has returned. Every call is
`OnTrack` with it. One stretch of a call that is `Orderly` keeps both, and nothing a call does takes
a change back (`Later`), so the others stay on track.

> `get_returns_last_write`.
-/

namespace LlmProxy.Memory

open LlmProxy.Cluster (EditStamp)
open Interleaving Trace

/-! ## Nothing is taken back -/

/-- What every stretch of every call leaves as it is. -/
structure Later (s s' : Node) : Prop where
  changes : ∀ k, s.changes k <+: s'.changes k
  settled : ∀ k, s.settled k ≤ s'.settled k
  rows : ∀ k, (s.row k).isSome → (s'.row k).isSome

variable {s s' : Node} {k : MemoryKey}

theorem Later.refl (s : Node) : Later s s :=
  ⟨fun _ => List.prefix_rfl, fun _ => le_refl _, fun _ h => h⟩

theorem Later.trans {s'' : Node} (h : Later s s') (h' : Later s' s'') : Later s s'' :=
  ⟨fun k => (h.changes k).trans (h'.changes k), fun k => le_trans (h.settled k) (h'.settled k),
    fun k hk => h'.rows k (h.rows k hk)⟩

theorem later_setRedis (s : Node) (k : MemoryKey) (entry : Option MemoryEntry) :
    Later s (s.setRedis k entry) :=
  ⟨fun _ => List.prefix_rfl, fun _ => le_refl _, fun _ h => h⟩

theorem later_settle (s : Node) (k : MemoryKey) (change : Nat) : Later s (s.settle k change) := by
  refine ⟨fun _ => List.prefix_rfl, fun k' => ?_, fun _ h => h⟩
  unfold Node.settle
  by_cases hk : k' = k
  · rw [hk]
    simp only [Function.update_self]
    exact le_max_left _ _
  · simp only [Function.update_of_ne hk]
    exact le_refl _

theorem later_commit (s : Node) (k : MemoryKey) (loaded : Option CallerMemory)
    (update : CallerMemory → CallerMemory) (insert : CallerMemory) (content : Option String) :
    Later s (s.commit k loaded update insert content) := by
  refine ⟨fun k' => ?_, fun _ => le_refl _, fun k' hk' => ?_⟩
  · unfold Node.commit
    by_cases hk : k' = k
    · rw [hk]
      simp only [Function.update_self]
      exact List.prefix_append _ _
    · simp only [Function.update_of_ne hk]
      exact List.prefix_rfl
  · unfold Store.row Node.commit at *
    rw [← mem_keys_iff] at hk' ⊢
    cases loaded with
    | none =>
      unfold commitRow
      rw [List.map_append]
      exact List.mem_append_left _ hk'
    | some row =>
      simp only [keys_commitRow_some]
      exact hk'

theorem later_stretchGet (s : Node) (k : MemoryKey) (blocked : List String) (since : Nat)
    (stage : Reading) : Later s (stretchGet s k blocked since stage).1 := by
  cases stage with
  | askRedis =>
    simp only [stretchGet]
    split <;> exact Later.refl s
  | select => exact Later.refl s
  | answer row =>
    simp only [stretchGet]
    split
    · exact Later.refl s
    · exact later_setRedis s k _

theorem later_stretchPut (s : Node) (w : Put) (stage : Writing) :
    Later s (stretchPut s w stage).1 := by
  cases stage with
  | select => exact Later.refl s
  | commit loaded => exact later_commit s w.key loaded w.update _ _
  | invalidate change => exact (later_setRedis s w.key none).trans (later_settle _ w.key change)

theorem later_stretchDelete (s : Node) (k : MemoryKey) (now : EditStamp) (stage : Writing) :
    Later s (stretchDelete s k now stage).1 := by
  cases stage with
  | select => exact Later.refl s
  | commit loaded =>
    cases loaded with
    | none => exact Later.refl s
    | some row =>
      simp only [stretchDelete]
      split
      · exact Later.refl s
      · exact later_commit s k (some row) _ _ none
  | invalidate change => exact (later_setRedis s k none).trans (later_settle _ k change)

theorem later_stretchMerge (s : Node) (r : PeerMemory) (stage : Writing) :
    Later s (stretchMerge s r stage).1 := by
  cases stage with
  | select => exact Later.refl s
  | commit loaded =>
    simp only [stretchMerge]
    split
    · exact (later_commit s r.key loaded r.write _ _).trans (later_settle _ r.key _)
    · exact Later.refl s
  | invalidate change => exact Later.refl s

/-- **No stretch takes anything back**. -/
theorem next_later (s : Node) (task : Task) : Later s (next s task).1 := by
  cases task with
  | getting k blocked since stage => exact later_stretchGet s k blocked since stage
  | putting w stage => exact later_stretchPut s w stage
  | deleting k now stage => exact later_stretchDelete s k now stage
  | merging r stage => exact later_stretchMerge s r stage
  | got => exact Later.refl s
  | done => exact Later.refl s
  | raised => exact Later.refl s

/-! ## The invariant -/

/-- The rows hold the last changes, and Redis none older than the last that has settled. -/
structure Coherent (s : Node) : Prop where
  nodup : (s.table.map CallerMemory.key).Nodup
  last : ∀ k, (s.changes k).getLast? = some (liveContent (s.row k))
  settled : ∀ k, s.settled k < (s.changes k).length
  cached : ∀ k e, s.redis (cacheKey k) = some e → e.key = k →
    some e.content ∈ (s.changes k).drop (s.settled k)

/-- What a call knows of the state. -/
def OnTrack (s : Node) : Task → Prop
  | .getting k _ since (.answer row) =>
    since ≤ s.settled k ∧ liveContent row ∈ (s.changes k).drop since ∧ ∀ r ∈ row, r.key = k
  | .getting k _ since _ => since ≤ s.settled k
  | .putting w (.commit (some _)) => (s.row w.key).isSome
  | .putting w (.invalidate change) => change < (s.changes w.key).length
  | .deleting k _ (.commit (some row)) => (s.row k).isSome ∧ row.key = k
  | .deleting k _ (.invalidate change) => change < (s.changes k).length
  | .merging r (.commit (some _)) => (s.row r.key).isSome
  | .got k blocked since entry =>
    blocked = [] → entry.map MemoryEntry.content ∈ (s.changes k).drop since
  | .raised => False
  | _ => True

theorem mem_drop_mono {α : Type} {l l' : List α} {m n : Nat} {x : α} (hl : l <+: l') (hn : m ≤ n)
    (h : x ∈ l.drop n) : x ∈ l'.drop m := by
  obtain ⟨t, rfl⟩ := hl
  have hm : x ∈ l.drop m := (List.drop_subset_drop_left l hn) h
  rw [List.drop_append]
  exact List.mem_append_left _ hm

theorem getLast?_mem_drop {α : Type} {l : List α} {n : Nat} {x : α} (h : l.getLast? = some x)
    (hn : n < l.length) : x ∈ l.drop n := by
  refine List.mem_of_getLast? ?_
  rw [List.getLast?_drop, if_neg (by omega), h]

theorem OnTrack.mono (h : Later s s') {task : Task} (ht : OnTrack s task) : OnTrack s' task := by
  cases task with
  | getting k blocked since stage =>
    cases stage with
    | askRedis => exact le_trans ht (h.settled k)
    | select => exact le_trans ht (h.settled k)
    | answer row =>
      exact ⟨le_trans ht.1 (h.settled k), mem_drop_mono (h.changes k) le_rfl ht.2.1, ht.2.2⟩
  | putting w stage =>
    cases stage with
    | select => trivial
    | commit loaded =>
      cases loaded with
      | none => trivial
      | some row => exact h.rows _ ht
    | invalidate change => exact lt_of_lt_of_le ht (h.changes _).length_le
  | deleting k now stage =>
    cases stage with
    | select => trivial
    | commit loaded =>
      cases loaded with
      | none => trivial
      | some row => exact ⟨h.rows _ ht.1, ht.2⟩
    | invalidate change => exact lt_of_lt_of_le ht (h.changes _).length_le
  | merging r stage =>
    cases stage with
    | select => trivial
    | commit loaded =>
      cases loaded with
      | none => trivial
      | some row => exact h.rows _ ht
    | invalidate change => trivial
  | got k blocked since entry => exact fun hb => mem_drop_mono (h.changes k) le_rfl (ht hb)
  | done => trivial
  | raised => exact ht

/-! ## What the stretches do to the shared state -/

theorem Coherent.fill (h : Coherent s) {entry : MemoryEntry} (hkey : entry.key = k)
    (hfresh : some entry.content ∈ (s.changes k).drop (s.settled k)) :
    Coherent (s.setRedis k (some entry)) := by
  refine ⟨h.nodup, h.last, h.settled, fun k' e he hek => ?_⟩
  unfold Node.setRedis at he
  by_cases hk : cacheKey k' = cacheKey k
  · rw [hk] at he
    simp only [Function.update_self, Option.some.injEq] at he
    rw [← he, hkey] at hek
    rw [← he, ← hek]
    exact hfresh
  · simp only [Function.update_of_ne hk] at he
    exact h.cached k' e he hek

theorem Coherent.invalidate (h : Coherent s) {change : Nat}
    (hchange : change < (s.changes k).length) :
    Coherent ((s.setRedis k none).settle k change) := by
  have hsettled : ∀ k', k' ≠ k →
      ((s.setRedis k none).settle k change).settled k' = s.settled k' := fun k' hk =>
    Function.update_of_ne hk _ _
  refine ⟨h.nodup, h.last, fun k' => ?_, fun k' e he hek => ?_⟩
  · by_cases hk : k' = k
    · rw [hk]
      show Function.update s.settled k (max (s.settled k) change) k < _
      rw [Function.update_self]
      exact max_lt (h.settled k) hchange
    · rw [hsettled k' hk]
      exact h.settled k'
  · have hne : cacheKey k' ≠ cacheKey k := by
      intro hk
      change Function.update s.redis (cacheKey k) none (cacheKey k') = some e at he
      rw [hk, Function.update_self] at he
      cases he
    change Function.update s.redis (cacheKey k) none (cacheKey k') = some e at he
    rw [Function.update_of_ne hne] at he
    rw [hsettled k' fun hk => hne (by rw [hk])]
    exact h.cached k' e he hek

theorem Coherent.settle (h : Coherent s) {content : Option String}
    (hlast : (s.changes k).getLast? = some content)
    (hcached : ∀ e, s.redis (cacheKey k) = some e → e.key = k → content = some e.content) :
    Coherent (s.settle k ((s.changes k).length - 1)) := by
  have hpos : 0 < (s.changes k).length := lt_of_le_of_lt (Nat.zero_le _) (h.settled k)
  have hmax : max (s.settled k) ((s.changes k).length - 1) < (s.changes k).length :=
    max_lt (h.settled k) (Nat.sub_lt hpos Nat.one_pos)
  refine ⟨h.nodup, h.last, fun k' => ?_, fun k' e he hek => ?_⟩
  · show Function.update s.settled k _ k' < _
    by_cases hk : k' = k
    · rw [hk, Function.update_self]
      exact hmax
    · rw [Function.update_of_ne hk]
      exact h.settled k'
  · show some e.content ∈ (s.changes k').drop (Function.update s.settled k _ k')
    by_cases hk : k' = k
    · subst hk
      rw [Function.update_self, ← hcached e he hek]
      exact getLast?_mem_drop hlast hmax
    · rw [Function.update_of_ne hk]
      exact h.cached k' e he hek

variable {loaded : Option CallerMemory} {update : CallerMemory → CallerMemory}
  {insert : CallerMemory} {content : Option String}

theorem liveContent_commit (hu : Undisturbed s k loaded update)
    (hrow : ∀ row, loaded = some row → (s.row k).isSome)
    (hinsert : insert.key = k) (hnone : loaded = none → liveContent (some insert) = content)
    (hsome : ∀ row, loaded = some row → liveContent (some (update row)) = content) :
    liveContent ((s.commit k loaded update insert content).row k) = content := by
  cases loaded with
  | none =>
    have hfind := find?_commitRow_none update hinsert hu
    exact (congrArg liveContent hfind).trans (hnone rfl)
  | some row =>
    obtain ⟨current, hcurrent⟩ := Option.isSome_iff_exists.mp (hrow row rfl)
    have hfind := find?_commitRow_some s.table k update insert row
    change s.row k = some current at hcurrent
    unfold Store.row at hcurrent
    rw [hcurrent] at hfind
    have hlanded := liveContent_flush_iff.mpr (hu current hcurrent)
    exact (congrArg liveContent hfind).trans (hlanded.trans (hsome row rfl))

theorem Coherent.commit (h : Coherent s) (hu : Undisturbed s k loaded update)
    (hinsert : insert.key = k)
    (hcontent : liveContent ((s.commit k loaded update insert content).row k) = content) :
    Coherent (s.commit k loaded update insert content) := by
  have hlater := later_commit s k loaded update insert content
  have hnone : loaded = none → s.row k = none := by
    rintro rfl
    exact hu
  refine ⟨nodup_commitRow h.nodup hinsert hnone, fun k' => ?_, fun k' => ?_, fun k' e he hek => ?_⟩
  · by_cases hk : k' = k
    · rw [hk, hcontent]
      show (Function.update s.changes k (s.changes k ++ [content]) k).getLast? = _
      rw [Function.update_self, List.getLast?_concat]
    · show (Function.update s.changes k (s.changes k ++ [content]) k').getLast? =
        some (liveContent ((commitRow s.table k loaded update insert).find? fun r => r.key == k'))
      rw [Function.update_of_ne hk, find?_commitRow_other hinsert hk]
      exact h.last k'
  · exact lt_of_lt_of_le (h.settled k') (hlater.changes k').length_le
  · exact mem_drop_mono (hlater.changes k') le_rfl (h.cached k' e he hek)

/-! ## The stretches of each call -/

theorem lookup_of_nodup {table : List CallerMemory} (h : (table.map CallerMemory.key).Nodup)
    (k : MemoryKey) : lookup table k = some (table.find? fun r => r.key == k) := by
  unfold lookup
  rw [← List.head?_filter]
  have hkeys : ∀ a ∈ table.filter (fun r => r.key == k), a.key = k := fun a ha =>
    eq_of_beq (List.mem_filter.mp ha).2
  have hnodup := (h.sublist (List.filter_sublist.map CallerMemory.key) : 
    ((table.filter fun r => r.key == k).map CallerMemory.key).Nodup)
  cases hrows : table.filter (fun r => r.key == k) with
  | nil => rfl
  | cons a rest =>
    cases rest with
    | nil => rfl
    | cons b rest =>
      rw [hrows] at hkeys hnodup
      have ha := hkeys a List.mem_cons_self
      have hb := hkeys b (List.mem_cons_of_mem a List.mem_cons_self)
      rw [List.map_cons, List.map_cons, ha, hb] at hnodup
      exact absurd List.mem_cons_self (List.nodup_cons.mp hnodup).1

theorem Coherent.select (h : Coherent s) (k : MemoryKey) (task : Option CallerMemory → Task) :
    s.select k task = task (s.row k) := by
  unfold Node.select
  rw [lookup_of_nodup h.nodup]
  rfl

theorem row_key {row : CallerMemory} (h : s.row k = some row) : row.key = k := by
  have hfound := List.find?_some h
  exact eq_of_beq hfound

theorem readRow_content (row : Option CallerMemory) :
    (readRow row []).map MemoryEntry.content = liveContent row := by
  cases row with
  | none => rfl
  | some row =>
    unfold readRow liveContent
    simp only [Option.bind_some]
    split <;> rfl

theorem readRow_some {row : Option CallerMemory} {blocked : List String} {e : MemoryEntry}
    (h : readRow row blocked = some e) : ∃ r, row = some r ∧ e = r.entry := by
  cases row with
  | none => cases h
  | some r =>
    unfold readRow MemoryEntry.filtered at h
    simp only at h
    split at h
    · cases h
    · split at h
      · cases h
      · exact ⟨r, rfl, (Option.some.inj h).symm⟩

theorem stretchGet_safe (h : Coherent s) {blocked : List String} {since : Nat} {stage : Reading}
    (ht : OnTrack s (.getting k blocked since stage))
    (hg : Orderly s (.getting k blocked since stage)) :
    Coherent (stretchGet s k blocked since stage).1 ∧
      OnTrack (stretchGet s k blocked since stage).1 (stretchGet s k blocked since stage).2 := by
  cases stage with
  | askRedis =>
    simp only [stretchGet]
    split
    · next entry hentry =>
      refine ⟨h, fun hb => ?_⟩
      have hcached := h.cached k entry hentry (hg entry hentry)
      rw [hb]
      exact mem_drop_mono List.prefix_rfl ht hcached
    · exact ⟨h, ht⟩
  | select =>
    refine ⟨h, ?_⟩
    show OnTrack s (s.select k _)
    rw [h.select]
    have hlt : since < (s.changes k).length := lt_of_le_of_lt ht (h.settled k)
    exact ⟨ht, getLast?_mem_drop (h.last k) hlt, fun r hr => row_key hr⟩
  | answer row =>
    simp only [stretchGet]
    split
    · next hnone =>
      refine ⟨h, fun hb => ?_⟩
      rw [hb] at hnone
      have hcontent := readRow_content row
      rw [hnone] at hcontent
      rw [Option.map_none] at hcontent ⊢
      rw [hcontent]
      exact ht.2.1
    · next entry hentry =>
      obtain ⟨r, rfl, rfl⟩ := readRow_some hentry
      refine ⟨h.fill (ht.2.2 r rfl) (hg _ hentry), fun hb => ?_⟩
      rw [hb] at hentry
      have hcontent := readRow_content (some r)
      rw [hentry] at hcontent
      rw [hcontent]
      exact ht.2.1

theorem stretchPut_safe (h : Coherent s) {w : Put} {stage : Writing}
    (ht : OnTrack s (.putting w stage)) (hg : Orderly s (.putting w stage)) :
    Coherent (stretchPut s w stage).1 ∧
      OnTrack (stretchPut s w stage).1 (stretchPut s w stage).2 := by
  cases stage with
  | select =>
    refine ⟨h, ?_⟩
    show OnTrack s (s.select w.key _)
    rw [h.select]
    cases hrow : s.row w.key with
    | none => trivial
    | some row => exact Option.isSome_iff_exists.mpr ⟨row, hrow⟩
  | commit loaded =>
    have hrows : ∀ row, loaded = some row → (s.row w.key).isSome := by
      rintro row rfl
      exact ht
    have hcontent : liveContent
        ((s.commit w.key loaded w.update w.insert (some w.content)).row w.key) = some w.content :=
      liveContent_commit hg hrows rfl (fun _ => rfl) fun _ _ => rfl
    refine ⟨h.commit hg rfl hcontent, ?_⟩
    show (s.changes w.key).length < (Function.update s.changes w.key _ w.key).length
    rw [Function.update_self, List.length_append]
    exact Nat.lt_succ_self _
  | invalidate change => exact ⟨h.invalidate ht, trivial⟩

theorem stretchDelete_safe (h : Coherent s) {now : EditStamp} {stage : Writing}
    (ht : OnTrack s (.deleting k now stage)) :
    Coherent (stretchDelete s k now stage).1 ∧
      OnTrack (stretchDelete s k now stage).1 (stretchDelete s k now stage).2 := by
  cases stage with
  | select =>
    refine ⟨h, ?_⟩
    show OnTrack s (s.select k _)
    rw [h.select]
    cases hrow : s.row k with
    | none => trivial
    | some row => exact ⟨Option.isSome_iff_exists.mpr ⟨row, hrow⟩, row_key hrow⟩
  | commit loaded =>
    cases loaded with
    | none => exact ⟨h, trivial⟩
    | some row =>
      simp only [stretchDelete]
      split
      · exact ⟨h, trivial⟩
      · next hlive =>
        -- a deletion is written whatever has become of the row
        have hu : Undisturbed s k (some row) (CallerMemory.tombstone now) := by
          intro current _
          have hdead : (CallerMemory.tombstone now row).deletedAt.isSome = true := rfl
          unfold Landed
          rw [if_pos hdead]
          intro hsame
          rw [← hsame] at hlive
          exact absurd rfl hlive
        have hcontent : liveContent ((s.commit k (some row) (.tombstone now) row none).row k) =
            none :=
          liveContent_commit hu (fun _ _ => ht.1) ht.2 (fun h => nomatch h) fun _ _ => rfl
        refine ⟨h.commit hu ht.2 hcontent, ?_⟩
        show (s.changes k).length < (Function.update s.changes k _ k).length
        rw [Function.update_self, List.length_append]
        exact Nat.lt_succ_self _
  | invalidate change => exact ⟨h.invalidate ht, trivial⟩

theorem stretchMerge_safe (h : Coherent s) {r : PeerMemory} {stage : Writing}
    (ht : OnTrack s (.merging r stage)) (hg : Orderly s (.merging r stage)) :
    Coherent (stretchMerge s r stage).1 ∧
      OnTrack (stretchMerge s r stage).1 (stretchMerge s r stage).2 := by
  cases stage with
  | select =>
    refine ⟨h, ?_⟩
    show OnTrack s (.merging r (.commit (s.row r.key)))
    cases hrow : s.row r.key with
    | none => trivial
    | some row => exact Option.isSome_iff_exists.mpr ⟨row, hrow⟩
  | commit loaded =>
    simp only [stretchMerge]
    split
    · next htaken =>
      obtain ⟨hu, hcached⟩ := hg htaken
      have hrows : ∀ row, loaded = some row → (s.row r.key).isSome := by
        rintro row rfl
        exact ht
      have hcontent : liveContent
          ((s.commit r.key loaded r.write r.insert r.liveContent).row r.key) = r.liveContent :=
        liveContent_commit hu hrows rfl (fun _ => rfl) fun _ _ => rfl
      have hcommit := h.commit hu rfl hcontent
      have hchanges : (s.commit r.key loaded r.write r.insert r.liveContent).changes r.key =
          s.changes r.key ++ [r.liveContent] := Function.update_self _ _ _
      have hlast : ((s.commit r.key loaded r.write r.insert r.liveContent).changes r.key).getLast? =
          some r.liveContent := by
        rw [hchanges, List.getLast?_concat]
      have hsettle := hcommit.settle hlast hcached
      rw [hchanges, List.length_append, List.length_singleton, Nat.add_sub_cancel] at hsettle
      exact ⟨hsettle, trivial⟩
    · exact ⟨h, trivial⟩
  | invalidate change => exact ⟨h, trivial⟩

/-! ## Main theorem -/

theorem next_safe (h : Coherent s) {task : Task} (ht : OnTrack s task) (hg : Orderly s task) :
    Coherent (next s task).1 ∧ OnTrack (next s task).1 (next s task).2 := by
  cases task with
  | getting k blocked since stage => exact stretchGet_safe h ht hg
  | putting w stage => exact stretchPut_safe h ht hg
  | deleting k now stage => exact stretchDelete_safe h ht
  | merging r stage => exact stretchMerge_safe h ht hg
  | got => exact ⟨h, ht⟩
  | done => exact ⟨h, ht⟩
  | raised => exact ⟨h, ht⟩

theorem outline : Outline start next Coherent OnTrack Orderly where
  start s c _ := by
    cases c with
    | get k blocked => exact le_refl (s.settled k)
    | put w => trivial
    | delete k now => trivial
    | merge r => trivial
  shared _ _ h ht hg := (next_safe h ht hg).1
  own _ _ h ht hg := (next_safe h ht hg).2
  other s t _ _ _ _ hu := hu.mono (next_later s t)

/-- A node with nothing in its table, and no calls. -/
def emptyNode : Pool Node Task := ⟨{}, fun _ => none⟩

theorem coherent_empty : Safe Coherent OnTrack emptyNode := by
  refine ⟨⟨List.nodup_nil, fun _ => rfl, fun _ => Nat.one_pos, ?_⟩, ?_⟩
  · intro _ _ h
    cases h
  · intro _ _ h
    cases h

/-- The call is a write of the pair. -/
def Task.Writes (k : MemoryKey) : Task → Prop
  | .putting w _ => w.key = k
  | .deleting k' _ _ => k' = k
  | .merging r _ => r.key = k
  | _ => False

theorem changes_commit_other (s : Node) {k k' : MemoryKey} (h : k' ≠ k)
    (loaded : Option CallerMemory) (update : CallerMemory → CallerMemory) (insert : CallerMemory)
    (content : Option String) :
    (s.commit k' loaded update insert content).changes k = s.changes k :=
  Function.update_of_ne h.symm _ _

theorem changes_next_other (s : Node) {task : Task} (h : ¬ task.Writes k) :
    (next s task).1.changes k = s.changes k := by
  cases task with
  | getting k' blocked since stage =>
    show (stretchGet s k' blocked since stage).1.changes k = _
    cases stage with
    | askRedis =>
      simp only [stretchGet]
      split <;> rfl
    | select => rfl
    | answer row =>
      simp only [stretchGet]
      split <;> rfl
  | putting w stage =>
    cases stage with
    | select => rfl
    | commit loaded => exact changes_commit_other s h loaded w.update w.insert _
    | invalidate change => rfl
  | deleting k' now stage =>
    show (stretchDelete s k' now stage).1.changes k = _
    cases stage with
    | select => rfl
    | commit loaded =>
      cases loaded with
      | none => rfl
      | some row =>
        simp only [stretchDelete]
        split
        · rfl
        · exact changes_commit_other s h (some row) _ row none
    | invalidate change => rfl
  | merging r stage =>
    show (stretchMerge s r stage).1.changes k = _
    cases stage with
    | select => rfl
    | commit loaded =>
      simp only [stretchMerge]
      split
      · exact changes_commit_other s h loaded r.write r.insert _
      · rfl
    | invalidate change => rfl
  | got => rfl
  | done => rfl
  | raised => rfl

/-- **The memory store as a map**: in every run whose stretches are all orderly, what a `get`
without a blocklist has returned was written by the last write of its pair that had returned when
it began, or by a later one; no call has raised; and what comes next of a call changes a pair only
if the call is a write of it. -/
theorem get_returns_last_write (as : List (Act Call))
    (h : Along (step start next) (Guarded Orderly) emptyNode as) (i : Nat) :
    (∀ k since entry, (run (step start next) emptyNode as).calls i = some (.got k [] since entry) →
      entry.map MemoryEntry.content ∈
        ((run (step start next) emptyNode as).shared.changes k).drop since) ∧
    (run (step start next) emptyNode as).calls i ≠ some .raised ∧
    ∀ k task, (run (step start next) emptyNode as).calls i = some task → ¬ task.Writes k →
      (next (run (step start next) emptyNode as).shared task).1.changes k =
        (run (step start next) emptyNode as).shared.changes k := by
  have hsafe := run_safe outline coherent_empty h
  refine ⟨fun k since entry hi => hsafe.calls i _ hi rfl, fun hi => hsafe.calls i _ hi, ?_⟩
  intro k task _ hk
  exact changes_next_other _ hk

/-! ### A write and a read -/

def notes : MemoryKey := ⟨"key", none, "notes"⟩

/-- Everything a call has to do, one stretch after the other. -/
def alone (i : Nat) (c : Call) : List (Act Call) :=
  [.call i c, .resume i, .resume i, .resume i]

def written : List (Act Call) :=
  alone 0 (.put { key := notes, content := "new", now := 1 }) ++ alone 1 (.get notes [])

theorem written_orderly : Along (step start next) (Guarded Orderly) emptyNode written := by
  refine ⟨trivial, ?_, ?_, ?_, trivial, ?_, ?_, ?_, trivial⟩
  · rintro _ ⟨⟩
    trivial
  · rintro _ ⟨⟩
    rfl
  · rintro _ ⟨⟩
    trivial
  · rintro _ ⟨⟩ _ ⟨⟩
  · rintro _ ⟨⟩
    trivial
  · rintro _ ⟨⟩ _ ⟨⟩
    decide +kernel

theorem get_returns_last_write_written :
    some "new" ∈ ((run (step start next) emptyNode written).shared.changes notes).drop 1 :=
  (get_returns_last_write written written_orderly 1).1 notes 1
    (some { key := notes, content := "new", contentFormat := "text", updatedAt := 1 })
    (by rfl)

/-! ### Reads that return something else -/

/-- The `get` with this number has returned what no write from `since` on has written. -/
def misled (as : List (Act Call)) (i : Nat) : Bool :=
  match (run (step start next) emptyNode as).calls i with
  | some (.got k _ since entry) =>
    !(((run (step start next) emptyNode as).shared.changes k).drop since).contains
      (entry.map MemoryEntry.content)
  | _ => false

/-- Two pairs are written, and the first is read before the second. -/
def readBoth (k k' : MemoryKey) : List (Act Call) :=
  alone 0 (.put { key := k, content := "first", now := 1 }) ++
    alone 1 (.put { key := k', content := "second", now := 2 }) ++
    alone 2 (.get k []) ++ alone 3 (.get k' [])

/-- A `get` has selected the row before the second write, and fills Redis after it. -/
def filledLate : List (Act Call) :=
  alone 0 (.put { key := notes, content := "old", now := 1 }) ++
    [.call 1 (.get notes []), .resume 1, .resume 1] ++
    alone 2 (.put { key := notes, content := "new", now := 2 }) ++ [.resume 1] ++
    alone 3 (.get notes [])

def fromPeer : PeerMemory :=
  { apiKeyId := "key", conversationId := none, memoryTag := "notes", content := "new",
    contentFormat := "text", updatedAt := 2, updatedByNode := none, sourceProviderId := none,
    sourceRequestId := none, deletedAt := none }

/-- The row has been read before the merge. -/
def mergedOver : List (Act Call) :=
  alone 0 (.put { key := notes, content := "old", now := 1 }) ++ alone 1 (.get notes []) ++
    alone 2 (.merge fromPeer) ++ alone 3 (.get notes [])

/-- Both writes look for the row before one of them has committed. -/
def insertedTwice : List (Act Call) :=
  [.call 0 (.put { key := notes, content := "one", now := 1 }),
    .call 1 (.put { key := notes, content := "two", now := 2 }), .resume 0, .resume 1,
    .resume 0, .resume 1, .resume 0, .resume 1] ++ alone 2 (.get notes [])

/-- **Four ways to read something else**: a null conversation and one called `__default__`, or a
colon on either side, share a Redis key; a late fill outlives the write; a merge leaves Redis as it
is; and a pair that was inserted twice cannot be read. -/
theorem gets_misled :
    misled (readBoth notes ⟨"key", some "__default__", "notes"⟩) 3 = true ∧
      misled (readBoth ⟨"key", some "a:b", "c"⟩ ⟨"key", some "a", "b:c"⟩) 3 = true ∧
      misled filledLate 3 = true ∧ misled mergedOver 3 = true ∧
      (run (step start next) emptyNode insertedTwice).calls 2 = some .raised := by
  refine ⟨?_, ?_, ?_, ?_, ?_⟩ <;> decide +kernel

end LlmProxy.Memory
