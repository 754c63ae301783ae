import LlmProxy.Runs.Idempotency

/-! # Histories of creation requests

A node takes creation requests one after another, under any pairs of keys; between them the
worker and the endpoints step the runs, and the process restarts with an empty cache.

`Idempotent` is what a request is promised: within a day of the run its pair was told, that run
and no other; a day later a new run; and no trace of a request that fails. On a node that has
kept the promise so far it holds exactly when nothing stands in the way of the commit:

> no request comes to create a run while the table still has a row of its pair, and the database
> takes the rows of every request that does (`Unobstructed`).

`idempotent_iff` says so of whole histories.
-/

namespace LlmProxy.Runs

/-- The store, and the run each answered request of a pair was told. -/
structure Intake where
  store : RunStore := {}
  answered : List (IdemKey × String) := []

inductive Act where
  | create (req : CreateRequest)
  /-- a step of the worker or an endpoint on a run -/
  | progress (id : String) (node : Node) (op : Op)
  | restart

def told (req : CreateRequest) (reply : Reply) : List (IdemKey × String) :=
  match req.key?, reply.runId? with
  | some k, some id => [(k, id)]
  | _, _ => []

section

variable (nodeId : String) (ceiling : Int)

def Intake.step (d : Intake) : Act → Intake
  | .create req =>
    let r := d.store.createRun nodeId ceiling req
    ⟨r.1, d.answered ++ told req r.2⟩
  | .progress id node op =>
    { d with
      store :=
        { d.store with
          runs := d.store.runs.map fun r => if r.1 = id then (r.1, r.2.step node op) else r } }
  | .restart => { d with store := { d.store with cache := .empty } }

/-- What a request is promised, in the state it finds. -/
structure Idempotent (d : Intake) (req : CreateRequest) : Prop where
  /-- less than a day after the run an earlier request of the pair was told: the same run, and
  no new one -/
  same : ∀ k id j, req.key? = some k → req.reject = none → (k, id) ∈ d.answered →
    (id, j) ∈ d.store.runs → req.times.check < j.row.createdAt + ttlSec →
    (d.store.createRun nodeId ceiling req).2.runId? = some id ∧
      (d.store.createRun nodeId ceiling req).1.runs = d.store.runs
  /-- a day or more after every run the pair was told: a new run -/
  fresh : ∀ k, req.key? = some k → req.reject = none → req.messages.isSome = true →
    req.refused = false → (∀ r ∈ d.store.runs, r.1 ≠ req.newId) →
    (∀ id j, (k, id) ∈ d.answered → (id, j) ∈ d.store.runs →
      j.row.createdAt + ttlSec ≤ req.times.lookup) →
    (d.store.createRun nodeId ceiling req).2 = .created req.newId .queued ∧
      ∃ j, (d.store.createRun nodeId ceiling req).1.runs = d.store.runs ++ [(req.newId, j)] ∧
        j.row.createdAt = req.times.now
  clean : (d.store.createRun nodeId ceiling req).2.runId? = none →
    (∀ e ∈ (d.store.createRun nodeId ceiling req).1.cache.items, e ∈ d.store.cache.items) ∧
      (d.store.createRun nodeId ceiling req).1.mappings = d.store.mappings

end

/-- A request under a pair that comes to create a run finds no row of the pair, draws a new id,
and is not refused by the database. -/
def Unobstructed (d : Intake) (req : CreateRequest) : Prop :=
  ∀ k, req.key? = some k → req.reject = none → req.messages.isSome = true →
    (d.store.replay k req.times).2 = none →
    (∀ m ∈ d.store.mappings, m.key ≠ k) ∧ (∀ r ∈ d.store.runs, r.1 ≠ req.newId) ∧
      req.refused = false

/-- The invariant: a sound store, and the answers are its rows. -/
structure Kept (d : Intake) : Prop where
  sound : d.store.Sound
  answers : ∀ k id, (k, id) ∈ d.answered ↔ ∃ m ∈ d.store.mappings, m.key = k ∧ m.runId = id

section

variable {nodeId : String} {ceiling : Int} {d : Intake} {req : CreateRequest}

theorem Unobstructed.commits {k : IdemKey} (h : Unobstructed d req) (hkey : req.key? = some k)
    (hreject : req.reject = none) (hmessages : req.messages.isSome = true)
    (hnone : (d.store.replay k req.times).2 = none) : d.store.commitFails req = false := by
  obtain ⟨hfree, hrest⟩ := h k hkey hreject hmessages hnone
  refine RunStore.commitFails_eq_false.mpr ⟨fun k' hk' => ?_, hrest⟩
  rw [hkey] at hk'
  cases hk'
  exact hfree

theorem Idempotent.unobstructed (h : Kept d) (hp : Idempotent nodeId ceiling d req) :
    Unobstructed d req := by
  intro k hkey hreject hmessages hnone
  have hcommit : d.store.commitFails req = false := by
    have hclean := hp.clean
    have hcases := RunStore.createRun_cases h.sound nodeId ceiling req
    generalize d.store.createRun nodeId ceiling req = r at hclean hcases
    cases hcases with
    | rejected hreply hrejected =>
      rw [hreject] at hrejected
      cases hrejected
    | replayed hkey' hs hanswer hreplay =>
      rw [hkey] at hkey'
      cases hkey'
      rw [hnone] at hreplay
      cases hreplay
    | raised hs hwhy =>
      rcases hwhy with hwhy | hwhy
      · rw [hwhy] at hmessages
        cases hmessages
      · rw [hwhy] at hkey
        cases hkey
    | stale hkey' _ _ hs hfails =>
      have hleft := (hclean rfl).1 (k, req.newId, req.times.now) (by
        unfold RunStore.warm
        rw [hkey]
        exact IdempotencyCache.self_mem_put _ _ _ _)
      have hdue := hs.outdated k hkey _ (h.sound.cached _ hleft) rfl
      have hday : req.times.now < req.times.now + ttlSec := Int.lt_add_of_pos_right _ (by decide)
      exact absurd (Int.le_trans hdue req.times.check_le) (Int.not_le.mpr hday)
    | created hs hcommit hj => exact hcommit
  obtain ⟨hfree, hrest⟩ := RunStore.commitFails_eq_false.mp hcommit
  exact ⟨hfree k hkey, hrest⟩

theorem Kept.row_of_answer (h : Kept d) {k : IdemKey} {id : String} {j : Journal}
    (htold : (k, id) ∈ d.answered) (hj : (id, j) ∈ d.store.runs) :
    (⟨k, id, j.row.createdAt⟩ : Mapping) ∈ d.store.mappings := by
  obtain ⟨m, hm, rfl, rfl⟩ := (h.answers k id).mp htold
  obtain ⟨j', hj', hcreated⟩ := h.sound.mapped m hm
  rw [h.sound.run_eq hj hj', hcreated]
  exact hm

theorem Unobstructed.not_stale {k : IdemKey} {messages : List Message} {s' : RunStore}
    (h : Unobstructed d req) (hkey : req.key? = some k) (hreject : req.reject = none)
    (hmessages : req.messages = some messages) (hs : RunStore.Missed d.store req s') :
    ¬ d.store.commitFails req = true := by
  rw [h.commits hkey hreject (by rw [hmessages]; rfl) (hs.unanswered k hkey)]
  exact Bool.false_ne_true

theorem idempotent_same (h : Kept d) {k : IdemKey} {id : String} {j : Journal}
    (hkey : req.key? = some k) (hreject : req.reject = none) (htold : (k, id) ∈ d.answered)
    (hj : (id, j) ∈ d.store.runs) (hcheck : req.times.check < j.row.createdAt + ttlSec) :
    (d.store.createRun nodeId ceiling req).2.runId? = some id ∧
      (d.store.createRun nodeId ceiling req).1.runs = d.store.runs := by
  have hrow := h.row_of_answer htold hj
  -- the row is in date, so every case but a replay from it is out
  have hmissed : ∀ s', ¬ RunStore.Missed d.store req s' := by
    intro s' hs
    exact absurd (hs.outdated k hkey _ hrow rfl) (Int.not_le.mpr hcheck)
  have hcases := RunStore.createRun_cases h.sound nodeId ceiling req
  generalize d.store.createRun nodeId ceiling req = r at hcases
  cases hcases with
  | rejected _ hrejected =>
    rw [hreject] at hrejected
    cases hrejected
  | replayed hkey' hs hanswer _ =>
    rw [hkey] at hkey'
    cases hkey'
    obtain ⟨m, hm, hk, -, j', -, rfl⟩ := hanswer
    refine ⟨?_, hs.2.1⟩
    rw [h.sound.mapping_eq hm hrow hk]
    rfl
  | raised hs _ => exact absurd hs (hmissed _)
  | stale _ _ _ hs _ => exact absurd hs (hmissed _)
  | created hs _ _ => exact absurd hs (hmissed _)

theorem idempotent_fresh (h : Kept d) (hg : Unobstructed d req) {k : IdemKey}
    (hkey : req.key? = some k) (hreject : req.reject = none)
    (hmessages : req.messages.isSome = true)
    (hold : ∀ id j, (k, id) ∈ d.answered → (id, j) ∈ d.store.runs →
      j.row.createdAt + ttlSec ≤ req.times.lookup) :
    (d.store.createRun nodeId ceiling req).2 = .created req.newId .queued ∧
      ∃ j, (d.store.createRun nodeId ceiling req).1.runs = d.store.runs ++ [(req.newId, j)] ∧
        j.row.createdAt = req.times.now := by
  have hcases := RunStore.createRun_cases h.sound nodeId ceiling req
  generalize d.store.createRun nodeId ceiling req = r at hcases
  cases hcases with
  | rejected _ hrejected =>
    rw [hreject] at hrejected
    cases hrejected
  | replayed hkey' hs hanswer _ =>
    -- the answering row is in date, and it is a run the pair was told
    rw [hkey] at hkey'
    cases hkey'
    obtain ⟨m, hm, hk, hlookup, -⟩ := hanswer
    obtain ⟨j, hj, hcreated⟩ := h.sound.mapped m hm
    have hdue := hold m.runId j ((h.answers _ _).mpr ⟨m, hm, hk, rfl⟩) hj
    rw [hcreated] at hdue
    exact absurd hdue (Int.not_le.mpr hlookup)
  | raised _ hwhy =>
    rcases hwhy with hwhy | hwhy
    · rw [hwhy] at hmessages
      cases hmessages
    · rw [hwhy] at hkey
      cases hkey
  | stale _ _ hms hs hfails => exact absurd hfails (hg.not_stale hkey hreject hms hs)
  | created hs _ hj =>
    refine ⟨rfl, _, ?_, hj⟩
    show (RunStore.warm _ req).runs ++ _ = _
    rw [RunStore.warm_runs, hs.runs]

theorem idempotent_clean (h : Kept d) (hg : Unobstructed d req)
    (hfailed : (d.store.createRun nodeId ceiling req).2.runId? = none) :
    (∀ e ∈ (d.store.createRun nodeId ceiling req).1.cache.items, e ∈ d.store.cache.items) ∧
      (d.store.createRun nodeId ceiling req).1.mappings = d.store.mappings := by
  have hcases := RunStore.createRun_cases h.sound nodeId ceiling req
  generalize d.store.createRun nodeId ceiling req = r at hcases hfailed
  cases hcases with
  | rejected _ _ => exact ⟨fun e he => he, rfl⟩
  | replayed _ _ _ _ => cases hfailed
  | raised hs _ => exact ⟨hs.cache, hs.mappings⟩
  | stale hkey hreject hms hs hfails => exact absurd hfails (hg.not_stale hkey hreject hms hs)
  | created _ _ _ => cases hfailed

theorem idempotent_iff_unobstructed (h : Kept d) :
    Idempotent nodeId ceiling d req ↔ Unobstructed d req := by
  constructor
  · intro hp
    exact hp.unobstructed h
  · intro hg
    refine ⟨?_, ?_, ?_⟩
    · intro k id j hkey hreject htold hj hcheck
      exact idempotent_same h hkey hreject htold hj hcheck
    · intro k hkey hreject hmessages _ _ hold
      exact idempotent_fresh h hg hkey hreject hmessages hold
    · intro hfailed
      exact idempotent_clean h hg hfailed

theorem told_failed {reply : Reply} (h : reply.runId? = none) : told req reply = [] := by
  unfold told
  rw [h]
  cases req.key? <;> rfl

theorem kept_create (h : Kept d) (hg : Unobstructed d req) :
    Kept (d.step nodeId ceiling (.create req)) := by
  have hcases := RunStore.createRun_cases h.sound nodeId ceiling req
  unfold Intake.step
  dsimp only
  generalize d.store.createRun nodeId ceiling req = r at hcases
  cases hcases with
  | rejected hreply _ =>
    dsimp only
    rw [told_failed hreply, List.append_nil]
    exact h
  | @replayed k answer s' hkey hs hanswer _ =>
    refine ⟨h.sound.recached hs, fun k' id => ?_⟩
    dsimp only
    rw [hs.1, List.mem_append, h.answers]
    obtain ⟨m, hm, hk, -, j, -, rfl⟩ := hanswer
    -- the answer repeats the pair's row
    have htold : told req (.replayed m.runId j.row.status) = [(k, m.runId)] := by
      unfold told
      rw [hkey]
      rfl
    rw [htold]
    refine or_iff_left_of_imp fun hsame => ?_
    cases List.mem_singleton.mp hsame
    exact ⟨m, hm, hk, rfl⟩
  | raised hs _ =>
    refine ⟨h.sound.recached hs.recached, fun k id => ?_⟩
    dsimp only
    rw [told_failed rfl, List.append_nil, hs.mappings]
    exact h.answers k id
  | stale hkey hreject hms hs hfails => exact absurd hfails (hg.not_stale hkey hreject hms hs)
  | created hs hcommit hj =>
    refine ⟨h.sound.insert hs hcommit hj, fun k id => ?_⟩
    dsimp only
    rw [List.mem_append, h.answers]
    have htold : (k, id) ∈ told req (.created req.newId .queued) ↔
        req.key? = some k ∧ id = req.newId := by
      unfold told
      cases req.key? with
      | none => simp
      | some k' =>
        show (k, id) ∈ [(k', req.newId)] ↔ some k' = some k ∧ id = req.newId
        rw [List.mem_singleton, Prod.mk.injEq, Option.some.injEq, eq_comm]
    rw [htold]
    constructor
    · rintro (⟨m, hm, hk, hid⟩ | ⟨hkey, rfl⟩)
      · refine ⟨m, RunStore.mem_insert_mappings.mpr (Or.inl ?_), hk, hid⟩
        rw [RunStore.warm_mappings, hs.mappings]
        exact hm
      · exact ⟨_, RunStore.mem_insert_mappings.mpr (Or.inr ⟨k, hkey, rfl⟩), rfl, rfl⟩
    · rintro ⟨m, hm, hk, hid⟩
      rcases RunStore.mem_insert_mappings.mp hm with hm | ⟨k', hkey, rfl⟩
      · rw [RunStore.warm_mappings, hs.mappings] at hm
        exact Or.inl ⟨m, hm, hk, hid⟩
      · exact Or.inr ⟨by rw [hkey, ← hk], hid.symm⟩

/-! ## Steps between the requests -/

theorem conclude_createdAt {run : RunRow} {messages stored : List Message} {ctx : RunCtx}
    {event : EventKind} {clk : Clock} {data : Option String}
    {extra : Transition → RunRow → RunRow} {events : Transition → RunRow → List Emission}
    (hextra : ∀ t run, (extra t run).createdAt = run.createdAt) :
    (conclude run messages stored (transitionOn (Session.read run) ctx event clk data) extra
      events).row.createdAt = run.createdAt := by
  cases h : advance ctx event clk.advance data with
  | error e =>
    rw [conclude_error h]
    rfl
  | ok t =>
    rw [conclude_ok h]
    exact hextra t _

theorem handleResponse_createdAt (run : RunRow) (messages : List Message)
    (blocks : List Block) (clk : Clock) :
    (Journal.handleResponse run messages blocks clk).row.createdAt = run.createdAt := by
  unfold Journal.handleResponse
  dsimp only
  split
  · refine conclude_createdAt fun t run => ?_
    unfold Journal.parkOn
    split <;> rfl
  · refine conclude_createdAt fun t run => ?_
    unfold Journal.keepResult
    split <;> rfl

theorem stepRunning_createdAt (run : RunRow) (messages : List Message) (env : StepEnv) :
    (Journal.stepRunning run messages env).row.createdAt = run.createdAt := by
  have hcompact : (Journal.maybeCompactRun run messages env).row.createdAt = run.createdAt := by
    unfold Journal.maybeCompactRun
    split <;> rfl
  unfold Journal.stepRunning
  dsimp only
  split
  · exact (conclude_createdAt fun _ _ => rfl).trans hcompact
  · exact (handleResponse_createdAt _ _ _ _).trans hcompact

theorem step_createdAt (node : Node) (j : Journal) (op : Op) :
    (j.step node op).row.createdAt = j.row.createdAt := by
  rw [(step_log node j op).2.1]
  cases op with
  | work env =>
    show (Journal.work j.row j.messages env).row.createdAt = j.row.createdAt
    unfold Journal.work
    split
    · exact conclude_createdAt fun _ _ => rfl
    · split
      · exact conclude_createdAt fun _ _ => rfl
      · exact stepRunning_createdAt j.row j.messages env
      · rfl
  | cancel req clk =>
    show (Journal.cancelRun node req j.row j.messages clk).row.createdAt = j.row.createdAt
    by_cases hopens : (openCancel node req j.row).isOk = true
    · unfold Journal.cancelRun
      rw [Journal.openCancel_ok hopens]
      exact conclude_createdAt fun _ _ => rfl
    · rw [Journal.cancelRun_rejected j.messages clk hopens]
      rfl
  | toolResult req out clk =>
    show (Journal.postToolResult node req out j.row j.messages clk).row.createdAt =
      j.row.createdAt
    by_cases hopens : (openToolResult node req j.row).isOk = true
    · unfold Journal.postToolResult
      rw [(Journal.openToolResult_ok hopens).1]
      exact conclude_createdAt fun _ _ => rfl
    · rw [Journal.postToolResult_rejected out j.messages clk hopens]
      rfl

theorem kept_progress (h : Kept d) (id : String) (node : Node) (op : Op) :
    Kept (d.step nodeId ceiling (.progress id node op)) := by
  refine ⟨⟨h.sound.unique, ?_, ?_, h.sound.cached⟩, h.answers⟩
  · show ((d.store.runs.map _).map Prod.fst).Nodup
    rw [List.map_map]
    have hid : Prod.fst ∘ (fun r : String × Journal =>
        if r.1 = id then (r.1, r.2.step node op) else r) = Prod.fst := by
      funext r
      show Prod.fst (if r.1 = id then (r.1, r.2.step node op) else r) = r.1
      split <;> rfl
    rw [hid]
    exact h.sound.runIds
  · intro m hm
    obtain ⟨j, hj, hcreated⟩ := h.sound.mapped m hm
    have hmem := List.mem_map_of_mem
      (f := fun r : String × Journal => if r.1 = id then (r.1, r.2.step node op) else r) hj
    dsimp only at hmem
    split at hmem
    · exact ⟨_, hmem, by rw [step_createdAt, hcreated]⟩
    · exact ⟨j, hmem, hcreated⟩

theorem kept_restart (h : Kept d) : Kept (d.step nodeId ceiling .restart) :=
  ⟨⟨h.sound.unique, h.sound.runIds, h.sound.mapped, fun _ he => nomatch he⟩, h.answers⟩

/-! ## Whole histories -/

/-- A creation request of the history gets what it is promised. -/
def Promised (nodeId : String) (ceiling : Int) (d : Intake) : Act → Prop
  | .create req => Idempotent nodeId ceiling d req
  | _ => True

/-- Nothing is in the way of a creation request of the history. -/
def Free (d : Intake) : Act → Prop
  | .create req => Unobstructed d req
  | _ => True

theorem kept_init : Kept {} :=
  ⟨⟨List.nodup_nil, List.nodup_nil, by simp, by simp [Dict.empty]⟩, by simp⟩

end

/-- **When creation is idempotent.** In every history of a node, every creation request gets
what it is promised exactly when no request under a pair comes to create a run while the
table has a row of the pair, and each that does draws a new id and is not refused by the
database. -/
theorem idempotent_iff (nodeId : String) (ceiling : Int) (acts : List Act) :
    Trace.Along (Intake.step nodeId ceiling) (Promised nodeId ceiling) {} acts ↔
      Trace.Along (Intake.step nodeId ceiling) Free {} acts := by
  refine Trace.along_iff (I := Kept) (V := fun _ _ => True) ?_ ?_ kept_init
    (Trace.along_of_forall fun _ _ => trivial)
  · intro d act h _
    cases act with
    | create req => exact idempotent_iff_unobstructed h
    | progress id node op => exact Iff.rfl
    | restart => exact Iff.rfl
  · intro d act h _ hg
    cases act with
    | create req => exact kept_create h hg
    | progress id node op => exact kept_progress h id node op
    | restart => exact kept_restart h

/-- A request under the pair `("k1", "a")`, all its clock readings the same. -/
def sampleRequest (newId : String) (now : Time) : CreateRequest :=
  { apiKeyId := "k1", idempotencyKey := .text "a", deadlineTs := some 1000000
    messages := some [⟨.user, .text "hi"⟩], newId := newId
    times := ⟨now, now, now, Int.le_refl now, Int.le_refl now⟩ }

/-- The same pair a day later: the request fails on the row of the first one, no run is
created, and the cache maps the pair to the run that was not committed. -/
theorem second_day_fails :
    let first : Intake := Intake.step "n1" 50 {} (.create (sampleRequest "r1" 0))
    let next := first.store.createRun "n1" 50 (sampleRequest "r2" ttlSec)
    first.answered = [(⟨"k1", "a"⟩, "r1")] ∧ next.2 = .raised ∧
      next.1.runs.map Prod.fst = ["r1"] ∧
      next.1.cache.items = [(⟨"k1", "a"⟩, "r2", ttlSec)] ∧
      ¬ Idempotent "n1" 50 first (sampleRequest "r2" ttlSec) := by
  intro first next
  have hcache : next.1.cache.items = [(⟨"k1", "a"⟩, "r2", ttlSec)] := by decide
  refine ⟨by decide, by decide, by decide, hcache, fun hp => ?_⟩
  have hleft := (hp.clean (by decide)).1 (⟨"k1", "a"⟩, "r2", ttlSec) (by
    show _ ∈ next.1.cache.items
    rw [hcache]
    exact List.mem_cons_self)
  revert hleft
  decide

end LlmProxy.Runs
