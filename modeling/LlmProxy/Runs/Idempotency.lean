import Mathlib.Data.List.Nodup
import LlmProxy.Lib.Dict
import LlmProxy.Runs.EventLog

/-! # Idempotent creation

`create_run` with its replay: an in-process cache in front of the `run_idempotency` table, in
front of the `runs` table. The table has one row for each pair of API key and idempotency key;
a row counts for a day, and after that the code means to create a new run under the pair.

The cache is written before the commit, and the row of a pair is never replaced. So the insert
of a second run under a pair violates the primary key, the request fails, and the cache keeps
the mapping of a run that was never committed. `createRun_cases` says of every request what it
can do; what follows for histories of requests is in `Intake.lean`.

Mirroring notes.
* The three clock readings of a request (cache, table, new run) come in this order.
* What the database refuses beside a duplicate key (a value it cannot bind, a locked file) is
  the request's `refused`.
* A message of the body that is no object has no `.get`, and the request raises: the body's
  messages are then `none`. The same goes for a `max_turns` that is no number.
-/

namespace LlmProxy.Runs

/-- `(api_key_id, idempotency_key)`. -/
structure IdemKey where
  apiKeyId : String
  idempotencyKey : String
  deriving DecidableEq, Repr

/-! ## The cache -/

/-- `TTL_SEC` and `_IDEMPOTENCY_TTL_SEC`. -/
def ttlSec : Time := 24 * 60 * 60

def defaultMaxSize : Nat := 10000

/-- `_IdempotencyCache`: the run's id and creation time, the least recently used first. -/
abbrev IdempotencyCache := Dict IdemKey (String × Time)

namespace IdempotencyCache

/-- `get`: what is cached, and the cache after the lookup. -/
def get (c : IdempotencyCache) (k : IdemKey) (now : Time) :
    Option String × IdempotencyCache :=
  match c.get? k with
  | none => (none, c)
  | some (runId, createdAt) =>
    if ttlSec ≤ now - createdAt then (none, c.erase k) else (some runId, c.moveToEnd k)

def put (c : IdempotencyCache) (k : IdemKey) (runId : String) (createdAt : Time) :
    IdempotencyCache :=
  ((c.set k (runId, createdAt)).moveToEnd k).evict defaultMaxSize

def invalidate (c : IdempotencyCache) (k : IdemKey) : IdempotencyCache := c.erase k

theorem get_spec (c : IdempotencyCache) (k : IdemKey) (now : Time) :
    (∀ e ∈ (c.get k now).2.items, e ∈ c.items) ∧
      ∀ runId ∈ (c.get k now).1, ∃ createdAt, (k, runId, createdAt) ∈ c.items ∧
        now < createdAt + ttlSec := by
  unfold get
  split
  · exact ⟨fun e he => he, fun runId h => nomatch h⟩
  · next runId createdAt hget =>
    split
    · exact ⟨fun e he => (Dict.mem_erase.mp he).1, fun runId h => nomatch h⟩
    · next hfresh =>
      refine ⟨fun e he => Dict.mem_moveToEnd he, fun r hr => ?_⟩
      cases hr
      have hlt := Int.not_le.mp hfresh
      exact ⟨createdAt, Dict.mem_of_get? hget, Int.lt_add_of_sub_left_lt hlt⟩

theorem mem_put {c : IdempotencyCache} {k : IdemKey} {runId : String} {createdAt : Time}
    {e : IdemKey × String × Time} (h : e ∈ (c.put k runId createdAt).items) :
    e = (k, runId, createdAt) ∨ e ∈ c.items :=
  Dict.mem_set (Dict.mem_moveToEnd (Dict.mem_of_mem_evict h))

theorem self_mem_put (c : IdempotencyCache) (k : IdemKey) (runId : String) (createdAt : Time) :
    (k, runId, createdAt) ∈ (c.put k runId createdAt).items :=
  Dict.mem_evict_moveToEnd (by decide) (Dict.get?_set_self c k (runId, createdAt))

end IdempotencyCache

/-! ## The request -/

/-- A field of the body that should be a text. -/
inductive KeyField where
  | missing
  | notString
  | text (key : String)
  deriving DecidableEq, Repr

/-- The `max_turns` of the body: missing or falsy, a number, or something `int` raises on. -/
inductive TurnsField where
  | falsy
  | number (n : Int)
  | unreadable
  deriving DecidableEq, Repr

/-- The clock readings of one request, in order. -/
structure Readings where
  lookup : Time
  check : Time
  now : Time
  lookup_le : lookup ≤ check := by decide
  check_le : check ≤ now := by decide

structure CreateRequest where
  apiKeyId : String
  idempotencyKey : KeyField
  deadlineTs : Option Time
  maxTurns : TurnsField := .falsy
  system : Option String := none
  messages : Option (List Message)
  /-- the id `new_run_id` draws -/
  newId : String
  times : Readings
  refused : Bool := false

inductive Reply where
  | created (runId : String) (status : RunStatus)
  /-- `"idempotent": true` -/
  | replayed (runId : String) (status : RunStatus)
  /-- 400 -/
  | badRequest (detail : String)
  /-- 500 -/
  | raised
  deriving DecidableEq, Repr

def Reply.runId? : Reply → Option String
  | .created id _ | .replayed id _ => some id
  | .badRequest _ | .raised => none

def idempotencyKeyMaxLen : Nat := 256

def defaultTurnsCeiling : Int := 50

/-- `_runs_max_turns_ceiling`, of the configured value. -/
def runsMaxTurnsCeiling (configured : Int) : Int := max 1 (min configured hardTurnsCeiling)

def KeyField.reject : KeyField → Option Reply
  | .missing => none
  | .notString => some (.badRequest "idempotency_key must be a string")
  | .text key =>
    if idempotencyKeyMaxLen < key.length then
      some (.badRequest "idempotency_key exceeds 256 chars")
    else none

/-- The requested turns; none when reading them raises. -/
def TurnsField.requested : TurnsField → Option Int
  | .falsy => some defaultTurnsCeiling
  | .number n => some n
  | .unreadable => none

/-- The checks of `create_run`: its reply to a body it does not accept. -/
def CreateRequest.reject (req : CreateRequest) : Option Reply :=
  match req.idempotencyKey.reject with
  | some reply => some reply
  | none =>
    match req.deadlineTs with
    | none => some (.badRequest "deadline_ts (unix seconds, future) is required")
    | some ts =>
      if ts ≤ 0 then some (.badRequest "deadline_ts (unix seconds, future) is required")
      else if req.maxTurns.requested = none then some .raised
      else none

def CreateRequest.key? (req : CreateRequest) : Option IdemKey :=
  match req.idempotencyKey with
  | .text key => some ⟨req.apiKeyId, key⟩
  | _ => none

def CreateRequest.creation (req : CreateRequest) (nodeId : String) (ceiling : Int)
    (messages : List Message) : Creation :=
  { apiKeyId := req.apiKeyId, ownerNodeId := nodeId, deadlineTs := req.deadlineTs.getD 0
    requestedTurns := req.maxTurns.requested.getD 0, ceiling := runsMaxTurnsCeiling ceiling
    system := req.system, messages := messages, now := req.times.now }

/-! ## The store -/

/-- A `run_idempotency` row. -/
structure Mapping where
  key : IdemKey
  runId : String
  createdAt : Time
  deriving DecidableEq, Repr

/-- What a node keeps: the cache of its process and the two tables. -/
structure RunStore where
  cache : IdempotencyCache := .empty
  mappings : List Mapping := []
  runs : List (String × Journal) := []

namespace RunStore

/-- `select(Run).where(Run.id == …)`. -/
def run? (s : RunStore) (id : String) : Option (String × Journal) := s.runs.find? (·.1 = id)

/-- `select(RunIdempotency)` by its primary key. -/
def mapping? (s : RunStore) (k : IdemKey) : Option Mapping := s.mappings.find? (·.key = k)

/-- The table half of the replay; a hit warms the cache. -/
def replayTable (s : RunStore) (k : IdemKey) (check : Time) :
    RunStore × Option (String × RunStatus) :=
  match s.mapping? k with
  | none => (s, none)
  | some existing =>
    if check - existing.createdAt < ttlSec then
      match s.run? existing.runId with
      | some (id, j) =>
        ({ s with cache := s.cache.put k id existing.createdAt }, some (id, j.row.status))
      | none => (s, none)
    else (s, none)

def replay (s : RunStore) (k : IdemKey) (t : Readings) :
    RunStore × Option (String × RunStatus) :=
  let hit := s.cache.get k t.lookup
  match hit.1 with
  | some cachedRunId =>
    match s.run? cachedRunId with
    | some (id, j) => ({ s with cache := hit.2 }, some (id, j.row.status))
    | none => replayTable { s with cache := hit.2.invalidate k } k t.check
  | none => replayTable { s with cache := hit.2 } k t.check

/-- The commit of a new run violates a primary key or is refused. -/
def commitFails (s : RunStore) (req : CreateRequest) : Bool :=
  req.refused || (s.run? req.newId).isSome ||
    req.key?.any fun k => (s.mapping? k).isSome

/-- The new run's writes in the process, before the commit. -/
def warm (s : RunStore) (req : CreateRequest) : RunStore :=
  match req.key? with
  | some k => { s with cache := s.cache.put k req.newId req.times.now }
  | none => s

def insert (s : RunStore) (req : CreateRequest) (j : Journal) : RunStore :=
  { s with
    runs := s.runs ++ [(req.newId, j)]
    mappings := s.mappings ++
      (req.key?.map fun k => (⟨k, req.newId, req.times.now⟩ : Mapping)).toList }

def createFresh (s : RunStore) (nodeId : String) (ceiling : Int) (req : CreateRequest) :
    RunStore × Reply :=
  match req.messages with
  | none => (s, .raised)
  | some messages =>
    let s := s.warm req
    if s.commitFails req then (s, .raised)
    else
      (s.insert req (Journal.create (req.creation nodeId ceiling messages)),
        .created req.newId .queued)

/-- `create_run`. -/
def createRun (s : RunStore) (nodeId : String) (ceiling : Int) (req : CreateRequest) :
    RunStore × Reply :=
  match req.reject with
  | some reply => (s, reply)
  | none =>
    match req.key? with
    | none => s.createFresh nodeId ceiling req
    | some k =>
      let r := s.replay k req.times
      match r.2 with
      | some (id, status) => (r.1, .replayed id status)
      | none => r.1.createFresh nodeId ceiling req

/-! ## What the store keeps -/

/-- The tables fit together: a pair has one row, it names a run created when the row was, and
the cache holds nothing but the rows. -/
structure Sound (s : RunStore) : Prop where
  unique : (s.mappings.map Mapping.key).Nodup
  runIds : (s.runs.map Prod.fst).Nodup
  mapped : ∀ m ∈ s.mappings, ∃ j, (m.runId, j) ∈ s.runs ∧ j.row.createdAt = m.createdAt
  cached : ∀ e ∈ s.cache.items, (⟨e.1, e.2.1, e.2.2⟩ : Mapping) ∈ s.mappings

theorem Sound.mapping_eq {s : RunStore} (h : s.Sound) {m m' : Mapping} (hm : m ∈ s.mappings)
    (hm' : m' ∈ s.mappings) (hkey : m.key = m'.key) : m = m' :=
  List.inj_on_of_nodup_map h.unique hm hm' hkey

theorem Sound.run_eq {s : RunStore} (h : s.Sound) {id : String} {j j' : Journal}
    (hj : (id, j) ∈ s.runs) (hj' : (id, j') ∈ s.runs) : j = j' :=
  congrArg Prod.snd (List.inj_on_of_nodup_map h.runIds hj hj' rfl)

theorem Sound.run?_eq {s : RunStore} (h : s.Sound) {id : String} {j : Journal}
    (hj : (id, j) ∈ s.runs) : s.run? id = some (id, j) := by
  unfold run?
  cases hfind : s.runs.find? (·.1 = id) with
  | none =>
    have hne := List.find?_eq_none.mp hfind (id, j) hj
    simp at hne
  | some r =>
    have hid : r.1 = id := by simpa using List.find?_some hfind
    have hr : (id, r.2) ∈ s.runs := hid ▸ List.mem_of_find?_eq_some hfind
    rw [h.run_eq hj hr, ← hid]

theorem mapping?_eq_some {s : RunStore} {k : IdemKey} {m : Mapping}
    (h : s.mapping? k = some m) : m ∈ s.mappings ∧ m.key = k :=
  ⟨List.mem_of_find?_eq_some h, by simpa using List.find?_some h⟩

theorem mapping?_eq_none {s : RunStore} {k : IdemKey} :
    s.mapping? k = none ↔ ∀ m ∈ s.mappings, m.key ≠ k := by
  simp [mapping?]

/-- The store with another cache whose entries are old ones or rows of the table. -/
def Recached (s s' : RunStore) : Prop :=
  s'.mappings = s.mappings ∧ s'.runs = s.runs ∧
    ∀ e ∈ s'.cache.items, e ∈ s.cache.items ∨ (⟨e.1, e.2.1, e.2.2⟩ : Mapping) ∈ s.mappings

/-- The row and the run a replay answers from. -/
def Answering (s : RunStore) (k : IdemKey) (t : Readings) (answer : String × RunStatus) :
    Prop :=
  ∃ m ∈ s.mappings, m.key = k ∧ t.lookup < m.createdAt + ttlSec ∧
    ∃ j, (m.runId, j) ∈ s.runs ∧ answer = (m.runId, j.row.status)

theorem replayTable_spec {s : RunStore} (h : s.Sound) (k : IdemKey) (t : Readings) :
    Recached s (s.replayTable k t.check).1 ∧
      match (s.replayTable k t.check).2 with
      | some answer => s.Answering k t answer
      | none => (s.replayTable k t.check).1 = s ∧
          ∀ m ∈ s.mappings, m.key = k → m.createdAt + ttlSec ≤ t.check := by
  have hsame : Recached s s := ⟨rfl, rfl, fun e he => Or.inl he⟩
  unfold replayTable
  cases hmap : s.mapping? k with
  | none => exact ⟨hsame, rfl, fun m hm hk => absurd hk (mapping?_eq_none.mp hmap m hm)⟩
  | some m =>
    obtain ⟨hm, hk⟩ := mapping?_eq_some hmap
    obtain ⟨j, hj, -⟩ := h.mapped m hm
    dsimp only
    by_cases hfresh : t.check - m.createdAt < ttlSec
    · rw [if_pos hfresh, h.run?_eq hj]
      dsimp only
      have hcheck : t.check < m.createdAt + ttlSec := Int.lt_add_of_sub_left_lt hfresh
      refine ⟨⟨rfl, rfl, ?_⟩, m, hm, hk, Int.lt_of_le_of_lt t.lookup_le hcheck, j, hj, rfl⟩
      intro e he
      rcases IdempotencyCache.mem_put he with rfl | he
      · exact Or.inr (by rw [← hk]; exact hm)
      · exact Or.inl he
    · rw [if_neg hfresh]
      refine ⟨hsame, rfl, fun m' hm' hk' => ?_⟩
      rw [h.mapping_eq hm' hm (hk'.trans hk.symm)]
      exact Int.add_le_of_le_sub_left (Int.not_lt.mp hfresh)

theorem Sound.recached {s s' : RunStore} (h : s.Sound) (hs : Recached s s') : s'.Sound := by
  obtain ⟨hmappings, hruns, hcache⟩ := hs
  refine ⟨?_, ?_, ?_, ?_⟩
  · rw [hmappings]
    exact h.unique
  · rw [hruns]
    exact h.runIds
  · rw [hmappings, hruns]
    exact h.mapped
  · intro e he
    rw [hmappings]
    rcases hcache e he with he | hm
    · exact h.cached e he
    · exact hm

theorem replay_spec {s : RunStore} (h : s.Sound) (k : IdemKey) (t : Readings) :
    Recached s (s.replay k t).1 ∧
      match (s.replay k t).2 with
      | some answer => s.Answering k t answer
      | none => (∀ e ∈ (s.replay k t).1.cache.items, e ∈ s.cache.items) ∧
          ∀ m ∈ s.mappings, m.key = k → m.createdAt + ttlSec ≤ t.check := by
  obtain ⟨hless, hhit⟩ := IdempotencyCache.get_spec s.cache k t.lookup
  unfold replay
  dsimp only
  cases hcached : (s.cache.get k t.lookup).1 with
  | some runId =>
    -- the cached id is the pair's row, so the run is there
    obtain ⟨createdAt, hmem, hlookup⟩ := hhit runId hcached
    have hm : (⟨k, runId, createdAt⟩ : Mapping) ∈ s.mappings := h.cached _ hmem
    obtain ⟨j, hj, -⟩ := h.mapped _ hm
    dsimp only at hj ⊢
    rw [h.run?_eq hj]
    dsimp only
    exact ⟨⟨rfl, rfl, fun e he => Or.inl (hless e he)⟩, _, hm, rfl, hlookup, j, hj, rfl⟩
  | none =>
    dsimp only
    have hrecached : Recached s { s with cache := (s.cache.get k t.lookup).2 } :=
      ⟨rfl, rfl, fun e he => Or.inl (hless e he)⟩
    obtain ⟨htable, hanswer⟩ := replayTable_spec (h.recached hrecached) k t
    refine ⟨⟨htable.1, htable.2.1, fun e he => ?_⟩, ?_⟩
    · rcases htable.2.2 e he with he | hm
      · exact Or.inl (hless e he)
      · exact Or.inr hm
    · split at hanswer
      · exact hanswer
      · refine ⟨fun e he => ?_, hanswer.2⟩
        rw [hanswer.1] at he
        exact hless e he

theorem commitFails_eq_false {s : RunStore} {req : CreateRequest} :
    s.commitFails req = false ↔
      (∀ k, req.key? = some k → ∀ m ∈ s.mappings, m.key ≠ k) ∧
        (∀ r ∈ s.runs, r.1 ≠ req.newId) ∧ req.refused = false := by
  have hrun : (s.run? req.newId).isSome = false ↔ ∀ r ∈ s.runs, r.1 ≠ req.newId := by
    simp [run?]
  have hmap : (req.key?.any fun k => (s.mapping? k).isSome) = false ↔
      ∀ k, req.key? = some k → ∀ m ∈ s.mappings, m.key ≠ k := by
    cases req.key? with
    | none => simp
    | some k => simp [mapping?]
  unfold commitFails
  rw [Bool.or_eq_false_iff, Bool.or_eq_false_iff, hrun, hmap]
  constructor
  · rintro ⟨⟨hrefused, hnew⟩, hfree⟩
    exact ⟨hfree, hnew, hrefused⟩
  · rintro ⟨hfree, hnew, hrefused⟩
    exact ⟨⟨hrefused, hnew⟩, hfree⟩

/-- `s'` is the store as a replay without an answer leaves it, with the pair's row out of
date. -/
structure Missed (s : RunStore) (req : CreateRequest) (s' : RunStore) : Prop where
  mappings : s'.mappings = s.mappings
  runs : s'.runs = s.runs
  cache : ∀ e ∈ s'.cache.items, e ∈ s.cache.items
  unanswered : ∀ k, req.key? = some k → (s.replay k req.times).2 = none
  outdated : ∀ k, req.key? = some k → ∀ m ∈ s.mappings, m.key = k →
    m.createdAt + ttlSec ≤ req.times.check

/-- What `create_run` can do. -/
inductive Creates (s : RunStore) (req : CreateRequest) : RunStore × Reply → Prop
  | rejected {reply : Reply} (hreply : reply.runId? = none) (hreject : req.reject = some reply) :
    Creates s req (s, reply)
  | replayed {k : IdemKey} {answer : String × RunStatus} {s' : RunStore}
    (hkey : req.key? = some k) (hs : Recached s s') (hanswer : s.Answering k req.times answer)
    (hreplay : (s.replay k req.times).2 = some answer) :
    Creates s req (s', .replayed answer.1 answer.2)
  /-- the body has no messages, or there is no pair and the commit fails -/
  | raised {s' : RunStore} (hs : Missed s req s')
    (hwhy : req.messages = none ∨ req.key? = none) : Creates s req (s', .raised)
  /-- the commit fails under a pair -/
  | stale {k : IdemKey} {messages : List Message} {s' : RunStore} (hkey : req.key? = some k)
    (hreject : req.reject = none) (hmessages : req.messages = some messages)
    (hs : Missed s req s') (hfails : s.commitFails req = true) :
    Creates s req (s'.warm req, .raised)
  | created {s' : RunStore} {j : Journal} (hs : Missed s req s')
    (hcommit : s.commitFails req = false) (hj : j.row.createdAt = req.times.now) :
    Creates s req ((s'.warm req).insert req j, .created req.newId .queued)

theorem reject_failed {req : CreateRequest} {reply : Reply} (h : req.reject = some reply) :
    reply.runId? = none := by
  unfold CreateRequest.reject at h
  split at h
  · next reply' hkey =>
    cases h
    unfold KeyField.reject at hkey
    split at hkey
    · cases hkey
    · cases hkey
      rfl
    · split at hkey
      · cases hkey
        rfl
      · cases hkey
  · split at h
    · cases h
      rfl
    · split at h
      · cases h
        rfl
      · split at h
        · cases h
          rfl
        · cases h

@[simp] theorem warm_runs (s : RunStore) (req : CreateRequest) : (s.warm req).runs = s.runs := by
  unfold warm
  split <;> rfl

@[simp] theorem warm_mappings (s : RunStore) (req : CreateRequest) :
    (s.warm req).mappings = s.mappings := by
  unfold warm
  split <;> rfl

theorem commitFails_congr {s s' : RunStore} (hm : s'.mappings = s.mappings)
    (hr : s'.runs = s.runs) (req : CreateRequest) : s'.commitFails req = s.commitFails req := by
  simp only [commitFails, run?, mapping?, hm, hr]

theorem create_createdAt (c : Creation) : (Journal.create c).row.createdAt = c.now := by
  unfold Journal.create
  dsimp only
  split <;> rfl

theorem createFresh_cases {s s' : RunStore} {nodeId : String} {ceiling : Int}
    {req : CreateRequest} (hreject : req.reject = none) (hs : Missed s req s') :
    Creates s req (s'.createFresh nodeId ceiling req) := by
  unfold createFresh
  split
  · next hmessages => exact .raised hs (Or.inl hmessages)
  · next messages hmessages =>
    have hcommit : (s'.warm req).commitFails req = s.commitFails req :=
      commitFails_congr ((warm_mappings s' req).trans hs.mappings)
        ((warm_runs s' req).trans hs.runs) req
    dsimp only
    rw [hcommit]
    cases hfails : s.commitFails req with
    | true =>
      rw [if_pos rfl]
      cases hkey : req.key? with
      | none =>
        have hwarm : s'.warm req = s' := by
          unfold warm
          rw [hkey]
        rw [hwarm]
        exact .raised hs (Or.inr hkey)
      | some k => exact .stale hkey hreject hmessages hs hfails
    | false =>
      rw [if_neg Bool.false_ne_true]
      exact .created hs hfails (create_createdAt _)

theorem createRun_cases {s : RunStore} (h : s.Sound) (nodeId : String) (ceiling : Int)
    (req : CreateRequest) : Creates s req (s.createRun nodeId ceiling req) := by
  unfold createRun
  split
  · next reply hreject => exact .rejected (reject_failed hreject) hreject
  · next hreject =>
    split
    · next hkey =>
      refine createFresh_cases hreject ⟨rfl, rfl, fun e he => he, ?_, ?_⟩
      · intro k hk
        rw [hkey] at hk
        cases hk
      · intro k hk
        rw [hkey] at hk
        cases hk
    · next k hkey =>
      obtain ⟨hs, hanswer⟩ := replay_spec h k req.times
      dsimp only
      split
      · next id status hreplay =>
        rw [hreplay] at hanswer
        exact .replayed hkey hs hanswer hreplay
      · next hreplay =>
        rw [hreplay] at hanswer
        refine createFresh_cases hreject ⟨hs.1, hs.2.1, hanswer.1, ?_, ?_⟩
        · intro k' hk'
          rw [hkey] at hk'
          cases hk'
          exact hreplay
        · intro k' hk'
          rw [hkey] at hk'
          cases hk'
          exact hanswer.2

theorem Missed.recached {s s' : RunStore} {req : CreateRequest} (h : Missed s req s') :
    Recached s s' :=
  ⟨h.mappings, h.runs, fun e he => Or.inl (h.cache e he)⟩

theorem warm_cache {s : RunStore} {req : CreateRequest} {e : IdemKey × String × Time}
    (h : e ∈ (s.warm req).cache.items) :
    (∃ k, req.key? = some k ∧ e = (k, req.newId, req.times.now)) ∨ e ∈ s.cache.items := by
  unfold warm at h
  split at h
  · next k hkey =>
    rcases IdempotencyCache.mem_put h with rfl | h
    · exact Or.inl ⟨k, hkey, rfl⟩
    · exact Or.inr h
  · exact Or.inr h

theorem mem_insert_mappings {s : RunStore} {req : CreateRequest} {j : Journal} {m : Mapping} :
    m ∈ (s.insert req j).mappings ↔ m ∈ s.mappings ∨
      ∃ k, req.key? = some k ∧ m = ⟨k, req.newId, req.times.now⟩ := by
  unfold insert
  rw [List.mem_append]
  cases req.key? with
  | none => simp
  | some k => simp

theorem Sound.insert {s s' : RunStore} {req : CreateRequest} {j : Journal} (h : s.Sound)
    (hs : Missed s req s') (hcommit : s.commitFails req = false)
    (hj : j.row.createdAt = req.times.now) : ((s'.warm req).insert req j).Sound := by
  obtain ⟨hfree, hnew, -⟩ := commitFails_eq_false.mp hcommit
  have hruns : ((s'.warm req).insert req j).runs = s.runs ++ [(req.newId, j)] := by
    show (s'.warm req).runs ++ _ = _
    rw [warm_runs, hs.runs]
  have hmem : ∀ m, m ∈ ((s'.warm req).insert req j).mappings ↔ m ∈ s.mappings ∨
      ∃ k, req.key? = some k ∧ m = ⟨k, req.newId, req.times.now⟩ := by
    intro m
    rw [mem_insert_mappings, warm_mappings, hs.mappings]
  refine ⟨?_, ?_, ?_, ?_⟩
  · show (((s'.warm req).mappings ++ _).map Mapping.key).Nodup
    rw [warm_mappings, hs.mappings]
    cases hkey : req.key? with
    | none => simpa using h.unique
    | some k =>
      rw [Option.map_some, Option.toList_some, List.map_append]
      refine h.unique.append (List.nodup_singleton _) ?_
      intro k' hk' hnew'
      obtain ⟨m, hm, rfl⟩ := List.mem_map.mp hk'
      exact hfree k hkey m hm (List.mem_singleton.mp hnew')
  · rw [hruns, List.map_append]
    refine h.runIds.append (List.nodup_singleton _) ?_
    intro id hid hnew'
    obtain ⟨r, hr, rfl⟩ := List.mem_map.mp hid
    exact hnew r hr (List.mem_singleton.mp hnew')
  · intro m hm
    rw [hruns]
    rcases (hmem m).mp hm with hm | ⟨k, -, rfl⟩
    · obtain ⟨j', hj', hcreated⟩ := h.mapped m hm
      exact ⟨j', List.mem_append_left _ hj', hcreated⟩
    · exact ⟨j, List.mem_append_right _ List.mem_cons_self, hj⟩
  · intro e he
    rw [hmem]
    rcases warm_cache he with ⟨k, hkey, rfl⟩ | he
    · exact Or.inr ⟨k, hkey, rfl⟩
    · exact Or.inl (h.cached e (hs.cache e he))

end RunStore

end LlmProxy.Runs
