import LlmProxy.Monitoring.Metrics

/-! # What the metrics add up to

`record_request` reads the row of a bucket and commits what it has computed from it, so two calls
that read the same row, or both find none, lose one of the two or leave two rows, at which every
later call of the bucket raises. The branch that inserts takes the time to first token of a failed
call, which the other branch leaves out.

> `metrics_exact_iff`: in a run, every bucket has one row with the sums and the exact means of its
> calls, after every stretch, exactly if every commit is `Fresh`.

The columns of the key are incremented in the database and need no such condition
(`keys_exact`).
-/

namespace LlmProxy.Monitoring

open LlmProxy.Cluster (Stamp)
open RollingMean (mean)
open Interleaving Trace

variable {s : Db} {c : Recording} {cs : List Recording} {m cur : ProviderMetric} {pid : String}
  {b : Stamp}

/-! ## What a row should say -/

/-- The positive times to first token of the successful calls. -/
def ttfts (cs : List Recording) : List Rat := (cs.filter Recording.timed).map Recording.ttftMs

/-- The row holds the sums over the calls and the means of their latencies and times to first
token. -/
structure Totals (m : ProviderMetric) (cs : List Recording) : Prop where
  requests : m.requests = cs.length
  successes : m.successes = cs.countP (·.success)
  failures : m.failures = cs.countP (!·.success)
  totalTokens : m.totalTokens = (cs.map fun c => c.inputTokens + c.outputTokens).sum
  totalCostUsd : m.totalCostUsd = (cs.map Recording.costUsd).sum
  inputCostUsd : m.inputCostUsd = some (cs.map fun c => c.costs.1).sum
  outputCostUsd : m.outputCostUsd = some (cs.map fun c => c.costs.2).sum
  inputTokens : m.inputTokens = some (cs.map Recording.inputTokens).sum
  outputTokens : m.outputTokens = some (cs.map Recording.outputTokens).sum
  avgLatencyMs : m.avgLatencyMs = mean (cs.map Recording.latencyMs)
  avgTtftMs : m.avgTtftMs = some (mean (ttfts cs))
  ttftRequests : m.ttftRequests = some (ttfts cs).length

def Db.calls (s : Db) (pid : String) (b : Stamp) : List Recording :=
  s.recorded.filter fun c => c.providerId = pid && bucket c.now = b

/-- One row for every bucket that has had a call, and none for the others. -/
def Exact (s : Db) : Prop :=
  ∀ pid b, (s.calls pid b = [] → s.rows pid b = []) ∧
    (s.calls pid b ≠ [] → ∃ m, s.rows pid b = [m] ∧ Totals m (s.calls pid b))

/-- What a commit asks of the table it finds: the select would answer as it did. The first call of a
bucket, if it failed, has no time to first token. -/
def Fresh (s : Db) : Task → Prop
  | .selected c metric =>
    s.rows c.providerId (bucket c.now) = metric.toList ∧
      (metric = none → c.success = false → c.ttftMs ≤ 0)
  | _ => True

instance : (t : Task) → Decidable (Fresh s t)
  | .selected _ _ => inferInstanceAs (Decidable (_ ∧ _))
  | .called _ | .done | .raised => .isTrue trivial

/-! ## One more call in the row -/

theorem ttfts_concat (cs : List Recording) (c : Recording) :
    ttfts (cs ++ [c]) = ttfts cs ++ if c.timed then [c.ttftMs] else [] := by
  unfold ttfts
  rw [List.filter_append, List.map_append]
  cases h : c.timed <;> simp [h]

theorem mean_ttfts_concat (cs : List Recording) (c : Recording) :
    mean (ttfts (cs ++ [c])) =
      if c.timed then (mean (ttfts cs) * (ttfts cs).length + c.ttftMs) / ((ttfts cs).length + 1)
      else mean (ttfts cs) := by
  rw [ttfts_concat]
  cases h : c.timed with
  | true => simp only [if_true]; exact RollingMean.mean_concat _ _
  | false => simp

theorem Totals.updated (h : Totals m cs) (c : Recording) : Totals (updated m c) (cs ++ [c]) where
  requests := by simp [Monitoring.updated, h.requests]
  successes := by
    simp only [Monitoring.updated, h.successes, List.countP_append, List.countP_singleton]
  failures := by
    simp only [Monitoring.updated, h.failures, List.countP_append, List.countP_singleton]
    cases c.success <;> rfl
  totalTokens := by simp [Monitoring.updated, h.totalTokens]
  totalCostUsd := by simp [Monitoring.updated, h.totalCostUsd]
  inputCostUsd := by simp [Monitoring.updated, h.inputCostUsd]
  outputCostUsd := by simp [Monitoring.updated, h.outputCostUsd]
  inputTokens := by simp [Monitoring.updated, h.inputTokens]
  outputTokens := by simp [Monitoring.updated, h.outputTokens]
  avgLatencyMs := by
    rw [List.map_append, List.map_singleton, RollingMean.mean_concat, List.length_map]
    simp [Monitoring.updated, h.avgLatencyMs, h.requests]
  avgTtftMs := by
    rw [mean_ttfts_concat]
    cases hc : c.timed <;> simp [Monitoring.updated, hc, h.avgTtftMs, h.ttftRequests]
  ttftRequests := by
    rw [ttfts_concat]
    cases hc : c.timed <;> simp [Monitoring.updated, hc, h.ttftRequests]

theorem totals_inserted_iff (id : Nat) (c : Recording) :
    Totals (inserted id c) [c] ↔ (c.success = false → c.ttftMs ≤ 0) := by
  have hmean : mean (ttfts [c]) = if c.timed then c.ttftMs else 0 := by
    have h := mean_ttfts_concat [] c
    simpa [ttfts] using h
  have hiff : (if c.ttftMs > 0 then c.ttftMs else 0) = mean (ttfts [c]) ↔
      (c.success = false → c.ttftMs ≤ 0) := by
    rw [hmean]
    cases hs : c.success with
    | true =>
      have htimed : c.timed = decide (0 < c.ttftMs) := by simp [Recording.timed, hs]
      rw [htimed]
      simp
    | false =>
      have htimed : c.timed = false := by simp [Recording.timed, hs]
      rw [htimed]
      by_cases hpos : 0 < c.ttftMs
      · simp [hpos, ne_of_gt hpos, not_le.mpr hpos]
      · simp [hpos, not_lt.mp hpos]
  constructor
  · intro h
    exact hiff.mp (Option.some.inj h.avgTtftMs)
  · intro h
    exact
      { requests := rfl
        successes := by simp [inserted, List.countP_singleton]
        failures := by simp only [inserted, List.countP_singleton]; cases c.success <;> rfl
        totalTokens := by simp [inserted]
        totalCostUsd := by simp [inserted]
        inputCostUsd := by simp [inserted]
        outputCostUsd := by simp [inserted]
        inputTokens := by simp [inserted]
        outputTokens := by simp [inserted]
        avgLatencyMs := by simp [inserted]
        avgTtftMs := congrArg some (hiff.mpr h)
        ttftRequests := by
          have hlen := congrArg List.length (ttfts_concat [] c)
          cases hc : c.timed <;> simp_all [inserted, ttfts] }

/-! ## One commit -/

/-- The call belongs to the bucket. -/
def Recording.falls (c : Recording) (pid : String) (b : Stamp) : Prop :=
  c.providerId = pid ∧ bucket c.now = b

instance (c : Recording) (pid : String) (b : Stamp) : Decidable (c.falls pid b) :=
  inferInstanceAs (Decidable (_ ∧ _))

theorem calls_commit (metric : Option ProviderMetric) :
    (s.commit c metric).calls pid b = s.calls pid b ++ if c.falls pid b then [c] else [] := by
  show (s.recorded ++ [c]).filter _ = _
  rw [List.filter_append]
  by_cases h : c.falls pid b
  · rw [if_pos h]
    simp [Db.calls, h.1, h.2]
  · rw [if_neg h]
    simp only [Recording.falls] at h
    simp [Db.calls, h]

theorem mem_rows : m ∈ s.rows pid b ↔ m ∈ s.metrics ∧ m.providerId = pid ∧ m.bucketTs = b := by
  simp [Db.rows]

theorem rows_update (c : Recording) (m : ProviderMetric) :
    (s.commit c (some m)).rows pid b =
      (s.rows pid b).map fun r => if r.id = m.id then flush m (updated m c) r else r := by
  show (s.metrics.map _).filter _ = _
  rw [List.filter_map]
  refine congrArg _ (List.filter_congr fun r _ => ?_)
  simp only [Function.comp]
  split <;> rfl

theorem rows_insert (c : Recording) :
    (s.commit c none).rows pid b =
      s.rows pid b ++ if c.falls pid b then [inserted s.nextId c] else [] := by
  show (s.metrics ++ [inserted s.nextId c]).filter _ = _
  rw [List.filter_append]
  by_cases h : c.falls pid b
  · rw [if_pos h]
    simp [Db.rows, inserted, h.1, h.2]
  · rw [if_neg h]
    simp only [Recording.falls] at h
    simp [Db.rows, inserted, h]

@[simp] theorem flush_self (m new : ProviderMetric) (hid : new.id = m.id)
    (hpid : new.providerId = m.providerId) (hb : new.bucketTs = m.bucketTs) :
    flush m new m = new := by
  cases new
  cases m
  simp_all [flush]

theorem flush_requests (m : ProviderMetric) (c : Recording) (cur : ProviderMetric) :
    (flush m (updated m c) cur).requests = m.requests + 1 :=
  Session.column_of_ne (Nat.succ_ne_self m.requests)

/-! ## The invariant -/

/-- The tables are exact, and the ids of the rows are unique. -/
structure Kept (s : Db) : Prop where
  exact : Exact s
  ids : (s.metrics.map ProviderMetric.id).Nodup
  idsLt : ∀ m ∈ s.metrics, m.id < s.nextId

/-- The row a call has read is the row of its bucket, or that has counted more calls since. -/
def Loaded (s : Db) : Task → Prop
  | .selected c (some m) =>
    ∃ cur, s.rows c.providerId (bucket c.now) = [cur] ∧ cur.id = m.id ∧
      m.requests ≤ cur.requests ∧ (m.requests = cur.requests → cur = m)
  | _ => True

theorem eq_of_id (h : Kept s) {r : ProviderMetric} (hr : r ∈ s.metrics) (hm : m ∈ s.metrics)
    (hid : r.id = m.id) : r = m :=
  List.inj_on_of_nodup_map h.ids hr hm hid

theorem rows_fresh_update (h : Kept s) (hf : Fresh s (.selected c (some m))) :
    (s.commit c (some m)).rows pid b =
      if c.falls pid b then [updated m c] else s.rows pid b := by
  have hmem : m ∈ s.rows c.providerId (bucket c.now) := by
    rw [hf.1]
    exact List.mem_singleton.mpr rfl
  obtain ⟨hm, hpid, hb⟩ := mem_rows.mp hmem
  rw [rows_update]
  by_cases hfalls : c.falls pid b
  · rw [if_pos hfalls, ← hfalls.1, ← hfalls.2, hf.1]
    simp [flush_self m (updated m c) rfl rfl rfl]
  · rw [if_neg hfalls]
    refine (List.map_congr_left fun r hr => ?_).trans (List.map_id _)
    obtain ⟨hrm, hrpid, hrb⟩ := mem_rows.mp hr
    refine if_neg fun hid => hfalls ?_
    rw [eq_of_id h hrm hm hid] at hrpid hrb
    exact ⟨hpid.symm.trans hrpid, hb.symm.trans hrb⟩

/-- **A fresh commit** keeps every bucket exact. -/
theorem exact_commit {metric : Option ProviderMetric} (h : Kept s)
    (hf : Fresh s (.selected c metric)) : Exact (s.commit c metric) := by
  intro pid b
  obtain ⟨hempty, hone⟩ := h.exact pid b
  by_cases hfalls : c.falls pid b
  · refine ⟨fun hnone => ?_, fun _ => ?_⟩
    · rw [calls_commit, if_pos hfalls] at hnone
      exact absurd hnone (List.append_ne_nil_of_right_ne_nil _ (List.cons_ne_nil c []))
    · rw [calls_commit, if_pos hfalls]
      cases metric with
      | some m =>
        have hrow : s.rows pid b = [m] := by
          rw [← hfalls.1, ← hfalls.2]
          exact hf.1
        have hcalls : s.calls pid b ≠ [] := fun hnone => by
          rw [hempty hnone] at hrow
          cases hrow
        obtain ⟨m', hm', htotals⟩ := hone hcalls
        rw [hrow] at hm'
        rw [← (List.cons.inj hm').1] at htotals
        refine ⟨updated m c, ?_, htotals.updated c⟩
        rw [rows_fresh_update h hf, if_pos hfalls]
      | none =>
        have hrow : s.rows pid b = [] := by
          rw [← hfalls.1, ← hfalls.2]
          exact hf.1
        have hcalls : s.calls pid b = [] := by
          by_contra hne
          obtain ⟨m', hm', -⟩ := hone hne
          rw [hrow] at hm'
          cases hm'
        refine ⟨inserted s.nextId c, ?_, ?_⟩
        · rw [rows_insert, if_pos hfalls, hrow]
          rfl
        · rw [hcalls]
          exact (totals_inserted_iff s.nextId c).mpr (hf.2 rfl)
  · have hcalls : (s.commit c metric).calls pid b = s.calls pid b := by
      rw [calls_commit, if_neg hfalls, List.append_nil]
    have hrows : (s.commit c metric).rows pid b = s.rows pid b := by
      cases metric with
      | some m => rw [rows_fresh_update h hf, if_neg hfalls]
      | none => rw [rows_insert, if_neg hfalls, List.append_nil]
    rw [hcalls, hrows]
    exact ⟨hempty, hone⟩

theorem kept_commit {metric : Option ProviderMetric} (h : Kept s)
    (hf : Fresh s (.selected c metric)) : Kept (s.commit c metric) := by
  refine ⟨exact_commit h hf, ?_, ?_⟩
  · cases metric with
    | some m =>
      show ((s.metrics.map _).map ProviderMetric.id).Nodup
      rw [List.map_map]
      refine (List.map_congr_left fun r _ => ?_) ▸ h.ids
      simp only [Function.comp]
      split <;> rfl
    | none =>
      show ((s.metrics ++ [inserted s.nextId c]).map ProviderMetric.id).Nodup
      rw [List.map_append, List.nodup_append]
      refine ⟨h.ids, List.nodup_singleton _, ?_⟩
      intro i hi j hj heq
      obtain ⟨r, hr, rfl⟩ := List.mem_map.mp hi
      have hlt := h.idsLt r hr
      rw [heq, List.mem_singleton.mp hj] at hlt
      exact Nat.lt_irrefl _ hlt
  · cases metric with
    | some m =>
      intro r hr
      obtain ⟨r', hr', rfl⟩ := List.mem_map.mp hr
      have hlt := h.idsLt r' hr'
      split <;> exact hlt
    | none =>
      intro r hr
      rcases List.mem_append.mp hr with hold | hnew
      · exact Nat.lt_succ_of_lt (h.idsLt r hold)
      · rw [List.mem_singleton.mp hnew]
        exact Nat.lt_succ_self _

/-- **A commit that is not fresh** loses a call, or leaves two rows or a mean over no calls. -/
theorem not_exact_commit {metric : Option ProviderMetric} (h : Kept s)
    (hl : Loaded s (.selected c metric)) (hf : ¬ Fresh s (.selected c metric)) :
    ¬ Exact (s.commit c metric) := by
  intro hexact
  have hmine : c.falls c.providerId (bucket c.now) := ⟨rfl, rfl⟩
  have hcalls : (s.commit c metric).calls c.providerId (bucket c.now) =
      s.calls c.providerId (bucket c.now) ++ [c] := by
    rw [calls_commit, if_pos hmine]
  obtain ⟨m', hrow, htotals⟩ := (hexact c.providerId (bucket c.now)).2 (by
    rw [hcalls]
    exact List.append_ne_nil_of_right_ne_nil _ (List.cons_ne_nil c []))
  obtain ⟨hempty, hone⟩ := h.exact c.providerId (bucket c.now)
  cases metric with
  | none =>
    rw [rows_insert, if_pos hmine] at hrow
    cases hcur : s.rows c.providerId (bucket c.now) with
    | nil =>
      -- the one call is what the row is wrong about
      have hnone : s.calls c.providerId (bucket c.now) = [] := by
        by_contra hne
        obtain ⟨m'', hm'', -⟩ := hone hne
        rw [hcur] at hm''
        cases hm''
      rw [hcur, List.nil_append] at hrow
      rw [hcalls, hnone, List.nil_append, ← (List.cons.inj hrow).1] at htotals
      exact hf ⟨hcur, fun _ => (totals_inserted_iff s.nextId c).mp htotals⟩
    | cons r rs =>
      rw [hcur] at hrow
      have hlen := congrArg List.length hrow
      simp at hlen
  | some m =>
    obtain ⟨cur, hcur, hid, hle, hsame⟩ := hl
    have hcallsne : s.calls c.providerId (bucket c.now) ≠ [] := fun hnone => by
      rw [hempty hnone] at hcur
      cases hcur
    obtain ⟨cur', hcur', hold⟩ := hone hcallsne
    rw [hcur] at hcur'
    rw [← (List.cons.inj hcur').1] at hold
    rw [rows_update, hcur, List.map_singleton, if_pos hid] at hrow
    have hnew := htotals.requests
    rw [← (List.cons.inj hrow).1, flush_requests, hcalls, List.length_append,
      List.length_singleton, ← hold.requests] at hnew
    refine hf ⟨?_, fun hnone => nomatch hnone⟩
    rw [hcur, hsame (Nat.succ_injective hnew)]
    rfl

theorem loaded_commit {metric : Option ProviderMetric} {u : Task} (h : Kept s)
    (hf : Fresh s (.selected c metric)) (hu : Loaded s u) : Loaded (s.commit c metric) u := by
  cases u with
  | selected c' metric' =>
    cases metric' with
    | none => trivial
    | some m' =>
      obtain ⟨cur, hcur, hid, hle, hsame⟩ := hu
      by_cases hfalls : c.falls c'.providerId (bucket c'.now)
      · have hsel : s.rows c.providerId (bucket c.now) = [cur] := by
          rw [hfalls.1, hfalls.2]
          exact hcur
        cases metric with
        | none =>
          have hnone := hf.1
          rw [hsel] at hnone
          cases hnone
        | some m =>
          have hm : cur = m := by
            have hread := hf.1
            rw [hsel] at hread
            exact (List.cons.inj hread).1
          refine ⟨updated m c, by rw [rows_fresh_update h hf, if_pos hfalls], ?_, ?_, ?_⟩
          · rw [← hid, hm]
            rfl
          · show m'.requests ≤ m.requests + 1
            rw [← hm]
            omega
          · intro heq
            have hlt : m'.requests = m.requests + 1 := heq
            rw [← hm] at hlt
            omega
      · refine ⟨cur, ?_, hid, hle, hsame⟩
        rw [← hcur]
        cases metric with
        | some m => rw [rows_fresh_update h hf, if_neg hfalls]
        | none => rw [rows_insert, if_neg hfalls, List.append_nil]
  | _ => trivial

/-! ## Every run -/

theorem metrics_outline : Outline start next Kept Loaded Fresh where
  start := fun _ _ _ => trivial
  shared := by
    intro s t hs _ hf
    cases t with
    | called c =>
      simp only [next]
      split
      · exact hs
      · split <;> exact hs
    | selected c metric => exact kept_commit hs hf
    | done => exact hs
    | raised => exact hs
  own := by
    intro s t _ _ _
    cases t with
    | called c =>
      simp only [next]
      split
      · trivial
      · split
        · trivial
        · next m hrows => exact ⟨m, hrows, rfl, Nat.le_refl _, fun _ => rfl⟩
        · trivial
    | selected c metric => trivial
    | done => trivial
    | raised => trivial
  other := by
    intro s t u hs _ hf hu
    cases t with
    | called c =>
      simp only [next]
      split
      · exact hu
      · split <;> exact hu
    | selected c metric => exact loaded_commit hs hf hu
    | done => exact hu
    | raised => exact hu

theorem kept_start (keys : List KeyTotals) : Kept { keys := keys } where
  exact := fun _ _ => ⟨fun _ => rfl, fun h => absurd rfl h⟩
  ids := List.nodup_nil
  idsLt := fun _ hm => by cases hm

/-- **Nothing is lost, exactly in fresh runs**: whatever calls run and however their selects and
commits interleave, after every stretch each bucket that has had a call has one row with the sums
and the exact means over its calls, exactly if every commit is fresh. -/
theorem metrics_exact_iff (keys : List KeyTotals) (as : List (Act Recording)) :
    (∀ pre post, as = pre ++ post →
        Exact (run (step start next) ⟨{ keys := keys }, fun _ => none⟩ pre).shared) ↔
      Along (step start next) (Guarded Fresh) ⟨{ keys := keys }, fun _ => none⟩ as := by
  refine run_exact metrics_outline (fun s hs => hs.exact) ?_
    ⟨kept_start keys, fun _ _ h => by cases h⟩
  intro s t hs hl hf
  cases t with
  | selected c metric => exact not_exact_commit hs hl hf
  | called c => exact absurd trivial hf
  | done => exact absurd trivial hf
  | raised => exact absurd trivial hf

/-! ## The columns of the key -/

def credited (keyId : String) (cs : List Recording) : List Recording :=
  cs.filter fun c => c.apiKeyId = some keyId && keyId ≠ "" && c.success

def KeyTotals.after (k : KeyTotals) (cs : List Recording) : KeyTotals :=
  { k with
    totalTokens := k.totalTokens +
      ((credited k.id cs).map fun c => c.inputTokens + c.outputTokens).sum
    totalCostUsd := k.totalCostUsd + ((credited k.id cs).map Recording.costUsd).sum }

theorem creditKeys_after (keys : List KeyTotals) (cs : List Recording) (c : Recording) :
    creditKeys c (keys.map (·.after cs)) = keys.map (·.after (cs ++ [c])) := by
  have hskip : ∀ k : KeyTotals, credited k.id [c] = [] → k.after (cs ++ [c]) = k.after cs := by
    intro k hnone
    have happ : credited k.id (cs ++ [c]) = credited k.id cs := by
      show (cs ++ [c]).filter _ = _
      rw [List.filter_append]
      exact (congrArg (credited k.id cs ++ ·) hnone).trans (List.append_nil _)
    simp [KeyTotals.after, happ]
  unfold creditKeys
  cases hkey : c.apiKeyId with
  | none =>
    refine List.map_congr_left fun k _ => (hskip k ?_).symm
    simp [credited, hkey]
  | some keyId =>
    dsimp only
    split
    · next hgo =>
      rw [List.map_map]
      refine List.map_congr_left fun k _ => ?_
      by_cases hid : k.id = keyId
      · subst hid
        have happ : credited k.id (cs ++ [c]) = credited k.id cs ++ [c] := by
          simp [credited, hkey, hgo.1, hgo.2]
        simp [KeyTotals.after, happ, add_assoc]
      · rw [hskip k (by simp [credited, hkey, Ne.symm hid])]
        exact if_neg hid
    · next hstop =>
      refine List.map_congr_left fun k _ => (hskip k ?_).symm
      by_cases hid : k.id = keyId
      · rw [hid]
        simp only [not_and_or, not_not, Bool.not_eq_true] at hstop
        rcases hstop with hempty | hfailed
        · simp [credited, hempty]
        · simp [credited, hfailed]
      · simp [credited, hkey, Ne.symm hid]

/-! ### Two calls -/

def served (latencyMs : Rat) : Recording :=
  { providerId := "p", success := true, inputTokens := 10, outputTokens := 5, latencyMs := latencyMs
    costUsd := 1 / 100, now := 0 }

/-- The requests of the rows the bucket of `p` has after a run from empty tables. -/
def requestsAfter (as : List (Act Recording)) : List Nat :=
  ((run (step start next) ⟨{}, fun _ => none⟩ as).shared.rows "p" 0).map (·.requests)

/-- Two first calls that both find no row leave two; behind a third, two calls that both read the
same row count as one. -/
theorem metrics_lose_calls :
    requestsAfter [.call 0 (served 100), .call 1 (served 300), .resume 0, .resume 1, .resume 0,
      .resume 1] = [1, 1] ∧
    requestsAfter [.call 0 (served 100), .resume 0, .resume 0, .call 1 (served 200),
      .call 2 (served 300), .resume 1, .resume 2, .resume 1, .resume 2] = [2] := by
  decide +kernel

end LlmProxy.Monitoring
