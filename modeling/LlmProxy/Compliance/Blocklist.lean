import LlmProxy.Cluster.ApiKeys
import LlmProxy.Lib.TtlCache

/-! # The effective blocklist

`get_effective_blocklist` (`app/compliance/policy.py`): the companies a key blocks and those the
system blocks, held for half a minute for each key. Edits of either drop entries with
`invalidate_blocklist_cache`.

> `blocklist_served`: how old what a request is answered may be;
> `ban_takes_effect`: a system ban holds from the call that drops the entries.

Mirroring notes.
* A system list is the one its setting holds as JSON; a text that is no list is the empty one.
* The setting is read when the row has come back, with no `await` behind it. A key's row that cannot
  be read stands as an empty list.
* A request without a key id is answered from the setting and takes no part.
-/

namespace LlmProxy.Compliance

open Trace TtlCache

/-- What a blocklist is made from: `blocked_companies` of the key rows and
`compliance_system_blocked_companies`. -/
structure BlockStore where
  keys : List Cluster.ApiKey := []
  system : List String := []

/-- `per_key`. -/
def BlockStore.perKey (store : BlockStore) (apiKeyId : String) : List String :=
  (((store.keys.find? (·.id = apiKeyId)).bind (·.blockedCompanies)).getD []).filter (· ≠ "")

/-- `_get_system_blocklist`. -/
def BlockStore.systemBlocklist (store : BlockStore) : List String := store.system.filter (· ≠ "")

/-- `get_effective_blocklist` behind its cache. -/
def effectiveBlocklist : Source String BlockStore (List String) (List String) where
  peek apiKeyId store := store.perKey apiKeyId
  failed := some []
  build _ perKey store := perKey ++ store.systemBlocklist
  ttl := 30
  ttl_pos := by decide +kernel

/-- The state of a node whose processes act. -/
abbrev blocklistRun (store : BlockStore) (as : List (Action String BlockStore)) :
    TtlCache.State String BlockStore (List String) (List String) :=
  run (step effectiveBlocklist) (start 0 store) as

/-- **How old an answer is**: the key's list of a moment less than half a minute before the request,
or later, when a request that loads for the key reads it, or nothing if it cannot, and the system's
of then or later. -/
theorem blocklist_served {store : BlockStore} {as : List (Action String BlockStore)}
    {a : Action String BlockStore} {apiKeyId : String} {asked : Rat} {blocklist : List String}
    (h : answer effectiveBlocklist (blocklistRun store as) a = some (apiKeyId, asked, blocklist)) :
    ∃ pre request broken mid, pre ++ .read request broken :: mid <+: as ∧
      asked - 30 < (blocklistRun store pre).clock ∧
      ((blocklistRun store pre).loads request).map Load.key = some apiKeyId ∧
      blocklist = (if broken then [] else (blocklistRun store pre).store.perKey apiKeyId) ++
        (blocklistRun store (pre ++ .read request broken :: mid)).store.systemBlocklist := by
  obtain ⟨since, hsince, pre, request, broken, mid, row, hpre, hclock, hreads, rfl⟩ :=
    served_of_answer h
  refine ⟨pre, request, broken, mid, hpre, lt_of_lt_of_le hsince hclock, hreads.loading, ?_⟩
  have hrow : row = if broken then [] else (blocklistRun store pre).store.perKey apiKeyId := by
    have hread := hreads.row
    cases broken with
    | true => exact (Option.some.inj hread).symm
    | false => exact (Option.some.inj hread).symm
  rw [← hrow]
  rfl

/-- **A ban takes effect** with the call that drops the entries: as long as the setting keeps a
company, every answer has it, also that of a request that was loading when the setting was
written. -/
theorem ban_takes_effect {store : BlockStore} {before after : List (Action String BlockStore)}
    {company : String} (hcompany : company ≠ "")
    (hbanned : ∀ pre, pre <+: after →
      company ∈ (blocklistRun store (before ++ .drop (fun _ => true) :: pre)).store.system)
    {a : Action String BlockStore} {apiKeyId : String} {asked : Rat} {blocklist : List String}
    (h : answer effectiveBlocklist (blocklistRun store (before ++ .drop (fun _ => true) :: after))
      a = some (apiKeyId, asked, blocklist)) : company ∈ blocklist := by
  have hrun : ∀ pre, blocklistRun store (before ++ .drop (fun _ => true) :: pre) =
      run (step effectiveBlocklist)
        (step effectiveBlocklist (blocklistRun store before) (.drop fun _ => true)) pre := by
    intro pre
    rw [blocklistRun, run_append, run_cons]
  rw [hrun] at h
  refine answer_of_built (P := (company ∈ ·)) (fun e he => absurd he (Option.some_ne_none e).symm) ?_ h
  intro pre hpre row
  have hmem := hbanned pre hpre
  rw [hrun] at hmem
  exact List.mem_append_right _ (List.mem_filter.mpr ⟨hmem, by simpa using hcompany⟩)

/-- A key that blocks one company. -/
def blockingKey : Cluster.ApiKey :=
  { id := "k1", name := "ann", keyHash := "h", keyPrefix := "llmp-", blockedCompanies := some ["xai"] }

/-- The run of a request that reads the key's list before the system's is written. -/
def readsBeforeWrite : List (Action String BlockStore) :=
  [.tick 5, .ask 0 "k1", .read 0 false, .write ⟨[], ["openai"]⟩]

theorem blocklist_served_k1 : ∃ pre request broken mid,
    pre ++ .read request broken :: mid <+: readsBeforeWrite ∧
      (5 : Rat) - 30 < (blocklistRun ⟨[blockingKey], []⟩ pre).clock ∧
      ((blocklistRun ⟨[blockingKey], []⟩ pre).loads request).map Load.key = some "k1" ∧
      ["xai", "openai"] =
        (if broken then [] else (blocklistRun ⟨[blockingKey], []⟩ pre).store.perKey "k1") ++
          (blocklistRun ⟨[blockingKey], []⟩ (pre ++ .read request broken :: mid)).store.systemBlocklist :=
  @blocklist_served _ _ (.fill 0) "k1" 5 _ (by decide +kernel)

/-- A request that loads while the ban is set, and is answered behind it. -/
theorem ban_takes_effect_loading : "openai" ∈ ["xai", "openai"] :=
  @ban_takes_effect ⟨[blockingKey], []⟩
    [.ask 0 "k1", .read 0 false, .write ⟨[blockingKey], ["openai"]⟩] [] "openai" (by decide)
    (fun pre hpre => by rw [List.prefix_nil.mp hpre]; decide +kernel) (.fill 0) "k1" 0 _
    (by decide +kernel)

end LlmProxy.Compliance
