import LlmProxy.Compliance.AuditChain
import LlmProxy.Lib.Trace

/-! # The chain over the days

The daily worker (`app/monitoring/compliance_audit_worker.py`), the events it signs, the ones that
arrive from peers (`_apply_compliance_events` of `app/cluster/sync_handlers.py`) and the retention
purge, in any order and at any times. Beside the tables stands the list of the events a purge has
deleted, which no code reads.

Mirroring notes.
* An event's `created_at` is the time of its insert, here or on the peer it comes from; it becomes
  visible at the commit, which may be later. Its id is what the database gives it.
* A peer's payload has no ids. A row without an `audit_id` is left out of it.
* Of a sweep that fails in one of its two steps the other is still made: the two are also acts of
  their own.

> `chain_sound`: what holds of every run that misses no day and gets no event for a signed day.
-/

namespace LlmProxy.Compliance

open LlmProxy.Cluster (Stamp)
open SealedChain (Linked)
open Trace

/-- An insert under a free id and a free `audit_id`; another raises. -/
def insertEvent (events : EventTable) (r : ComplianceEvent) : EventTable :=
  if h : r.id ∉ events.rows.map ComplianceEvent.id ∧
      r.auditId ∉ events.rows.map ComplianceEvent.auditId then
    { rows := events.rows ++ [r]
      unique := by
        rw [List.map_append, List.map_singleton, List.nodup_append]
        refine ⟨events.unique, List.nodup_singleton _, fun x hx y hy heq => h.1 ?_⟩
        rw [List.mem_singleton] at hy
        rwa [← hy, ← heq] }
  else events

/-- `_apply_compliance_events`: the rows that are not there yet. -/
def applyComplianceEvents (rows : List ComplianceEvent) (events : EventTable) : EventTable :=
  rows.foldl (fun events r =>
    if r.auditId = "" ∨ events.rows.any (·.auditId = r.auditId) then events
    else insertEvent events r) events

def dayOf (t : Stamp) : Int := t / 86400000000

/-- The tables, the events that were deleted, and the clock. -/
structure Audit where
  events : EventTable := ⟨[], List.nodup_nil⟩
  chain : List ComplianceAuditChain := []
  purged : List ComplianceEvent := []
  clock : Stamp := 0

/-- The rows `purge_expired_events` deletes. -/
def expired (clock : Stamp) (retentionDays : Int) (r : ComplianceEvent) : Bool :=
  0 < retentionDays && r.createdAt < clock - retentionDays * 86400000000

/-- `purge_expired_events`. -/
def Audit.purge (s : Audit) (retentionDays : Int) : Audit :=
  { s with
    events :=
      { rows := s.events.rows.filter fun r => !expired s.clock retentionDays r
        unique := s.events.unique.sublist (List.filter_sublist.map _) }
    purged := s.purged ++ s.events.rows.filter (expired s.clock retentionDays) }

/-- The first step of `_run_one_sweep`: the prior day is signed. -/
def Audit.sign (sha256 : String → String) (s : Audit) : Audit :=
  { s with
    chain := (computeDailyIntegrityHash sha256 s.clock s.events s.chain (dayOf s.clock - 1)).2 }

/-- The retention of `_run_one_sweep`: the setting, or seven years. -/
def retentionOf (setting : Int) : Int := if setting < 1 then 2555 else setting

inductive AuditAct where
  | write (r : ComplianceEvent)
  | merge (rows : List ComplianceEvent)
  | sweep (retentionSetting : Int)
  | sign
  | purge (retentionDays : Int)
  | wait (microseconds : Nat)
  deriving DecidableEq

def Audit.step (sha256 : String → String) (s : Audit) : AuditAct → Audit
  | .write r => { s with events := insertEvent s.events r }
  | .merge rows => { s with events := applyComplianceEvents rows s.events }
  | .sweep retentionSetting => (s.sign sha256).purge (retentionOf retentionSetting)
  | .sign => s.sign sha256
  | .purge retentionDays => s.purge retentionDays
  | .wait microseconds => { s with clock := s.clock + microseconds }

/-! ## What is claimed of the chain -/

/-- No event of the day has been deleted. -/
def Audit.Retained (s : Audit) (day : Int) : Prop := ∀ r ∈ s.purged, onDay day r = false

/-- The hash of the day, computed again from the events that are there. -/
def recomputed (sha256 : String → String) (s : Audit) (row : ComplianceAuditChain) : String :=
  sha256 (row.priorDayChainHash.getD "" ++ dayContent s.events row.day)

/-- Each row holds the hash of the row before it, no day is missing, and the hash of a day whose
events are all there is found again. -/
structure ChainSound (sha256 : String → String) (s : Audit) : Prop where
  linked : ∀ row ∈ s.chain, ∀ prior ∈ s.chain, prior.day < row.day →
    (∀ other ∈ s.chain, other.day < row.day → other.day ≤ prior.day) →
    row.priorDayChainHash = some prior.chainHash
  first : ∀ row ∈ s.chain, (∀ other ∈ s.chain, row.day ≤ other.day) → row.priorDayChainHash = none
  gapless : ∀ a ∈ s.chain, ∀ b ∈ s.chain, ∀ day, a.day ≤ day → day ≤ b.day →
    ∃ row ∈ s.chain, row.day = day
  verifiable : ∀ row ∈ s.chain, s.Retained row.day → recomputed sha256 s row = row.chainHash

/-- No day is missed: there is no row yet, or one of the day before, or one of the day itself. -/
def Audit.Due (s : Audit) : Prop :=
  s.chain = [] ∨ (chainRow s.chain (dayOf s.clock - 1)).isSome ∨
    (chainRow s.chain (dayOf s.clock - 2)).isSome

/-- The event is of no day that is signed and of which all events are there. -/
def Audit.Open (s : Audit) (r : ComplianceEvent) : Prop :=
  ∀ row ∈ s.chain, onDay row.day r = true → ¬ s.Retained row.day

/-- The act misses no day, and brings no event of a signed day. -/
def OnTime (s : Audit) : AuditAct → Prop
  | .write r => s.Open r
  | .merge rows => ∀ r ∈ rows, s.Open r
  | .sweep _ => s.Due
  | .sign => s.Due
  | _ => True

/-! ## One act -/

variable {sha256 : String → String} {s : Audit}

/-- The invariant: the rows form a chain of days before today, and every hash is found again. -/
structure Kept (sha256 : String → String) (s : Audit) : Prop where
  linked : Linked ComplianceAuditChain.day ComplianceAuditChain.chainHash
    ComplianceAuditChain.priorDayChainHash s.chain
  past : ∀ row ∈ s.chain, row.day < dayOf s.clock
  hashed : ∀ row ∈ s.chain, row.chainHash ≠ ""
  verifiable : ∀ row ∈ s.chain, s.Retained row.day → recomputed sha256 s row = row.chainHash

theorem Kept.sound (h : Kept sha256 s) : ChainSound sha256 s :=
  ⟨fun _ hrow _ hprior hlt hlatest => h.linked.prior_eq hprior hrow hlt hlatest,
    fun _ hrow hfirst => h.linked.prior_first hrow hfirst,
    fun _ ha _ hb _ had hdb => h.linked.between ha hb had hdb, h.verifiable⟩

theorem chainRow_some {chain : List ComplianceAuditChain} {day : Int} {row : ComplianceAuditChain}
    (h : chainRow chain day = some row) : row ∈ chain ∧ row.day = day := by
  have hday := List.find?_some h
  exact ⟨List.mem_of_find?_eq_some h, eq_of_beq hday⟩

theorem chainRow_none {chain : List ComplianceAuditChain} {day : Int}
    (h : chainRow chain day = none) : ∀ row ∈ chain, row.day ≠ day := by
  intro row hrow hday
  have hne := List.find?_eq_none.mp h row hrow
  exact hne (beq_iff_eq.mpr hday)

theorem sign_chain (hnone : chainRow s.chain (dayOf s.clock - 1) = none) :
    ∃ row, (s.sign sha256).chain = s.chain ++ [row] ∧ row.day = dayOf s.clock - 1 ∧
      row.priorDayChainHash =
        (if priorHash s.chain (dayOf s.clock - 1) = "" then none
          else some (priorHash s.chain (dayOf s.clock - 1))) ∧
      row.chainHash = sha256 (priorHash s.chain (dayOf s.clock - 1) ++
        dayContent s.events (dayOf s.clock - 1)) := by
  unfold Audit.sign computeDailyIntegrityHash
  rw [hnone]
  exact ⟨_, rfl, rfl, rfl, rfl⟩

/-- **A sign that is due** keeps the chain. -/
theorem kept_sign (hlength : ∀ text, (sha256 text).length = 64) (h : Kept sha256 s)
    (hdue : s.Due) : Kept sha256 (s.sign sha256) := by
  cases hrow : chainRow s.chain (dayOf s.clock - 1) with
  | some existing =>
    have hsame : s.sign sha256 = s := by
      unfold Audit.sign computeDailyIntegrityHash
      rw [hrow]
    rw [hsame]
    exact h
  | none =>
    obtain ⟨row, hchain, hday, hprior, hhash⟩ := @sign_chain sha256 s hrow
    have hfilled : row.chainHash ≠ "" := by
      intro hempty
      have hlen := hlength (priorHash s.chain (dayOf s.clock - 1) ++
        dayContent s.events (dayOf s.clock - 1))
      rw [← hhash, hempty] at hlen
      cases hlen
    have hlinked : Linked ComplianceAuditChain.day ComplianceAuditChain.chainHash
        ComplianceAuditChain.priorDayChainHash (s.chain ++ [row]) ∧
        row.priorDayChainHash.getD "" = priorHash s.chain (dayOf s.clock - 1) := by
      obtain hempty | hsigned | hbefore := hdue
      · have hnone : priorHash s.chain (dayOf s.clock - 1) = "" := by
          rw [hempty]
          rfl
        rw [hnone, if_pos rfl] at hprior
        rw [hnone, hprior, hempty]
        exact ⟨SealedChain.linked_singleton hprior, rfl⟩
      · rw [hrow] at hsigned
        cases hsigned
      · obtain ⟨a, ha⟩ := Option.isSome_iff_exists.mp hbefore
        obtain ⟨hmem, hdaybefore⟩ := chainRow_some ha
        have hyesterday : dayOf s.clock - 1 - 1 = dayOf s.clock - 2 := by omega
        have hseal : priorHash s.chain (dayOf s.clock - 1) = a.chainHash := by
          unfold priorHash
          rw [hyesterday, ha]
          rfl
        rw [hseal, if_neg (h.hashed a hmem)] at hprior
        rw [hseal, hprior]
        refine ⟨h.linked.append hmem (by omega) hprior fun c hc => ?_, rfl⟩
        have hpast := h.past c hc
        have hne := chainRow_none hrow c hc
        omega
    refine ⟨?_, fun r hr => ?_, fun r hr => ?_, fun r hr => ?_⟩
    · rw [hchain]
      exact hlinked.1
    · rw [hchain] at hr
      rcases List.mem_append.mp hr with hr | hr
      · exact h.past r hr
      · rw [List.mem_singleton.mp hr, hday]
        show dayOf s.clock - 1 < dayOf s.clock
        omega
    · rw [hchain] at hr
      rcases List.mem_append.mp hr with hr | hr
      · exact h.hashed r hr
      · rwa [List.mem_singleton.mp hr]
    · rw [hchain] at hr
      rcases List.mem_append.mp hr with hr | hr
      · exact h.verifiable r hr
      · intro _
        rw [List.mem_singleton.mp hr, hhash]
        unfold recomputed
        rw [hlinked.2, hday]
        rfl

theorem dayContent_congr {events events' : EventTable} {day : Int}
    (h : events'.rows.filter (onDay day) = events.rows.filter (onDay day)) :
    dayContent events' day = dayContent events day := by
  unfold dayContent dayEvents
  rw [h]

theorem insertEvent_filter (events : EventTable) {r : ComplianceEvent} {day : Int}
    (h : onDay day r = false) :
    (insertEvent events r).rows.filter (onDay day) = events.rows.filter (onDay day) := by
  unfold insertEvent
  split
  · rw [List.filter_append, List.filter_cons_of_neg (by rw [h]; exact Bool.false_ne_true)]
    exact List.append_nil _
  · rfl

theorem applyComplianceEvents_filter (events : EventTable) {rows : List ComplianceEvent} {day : Int}
    (h : ∀ r ∈ rows, onDay day r = false) :
    (applyComplianceEvents rows events).rows.filter (onDay day) =
      events.rows.filter (onDay day) := by
  induction rows generalizing events with
  | nil => rfl
  | cons r rows ih =>
    obtain ⟨hr, hrows⟩ := List.forall_mem_cons.mp h
    unfold applyComplianceEvents at ih ⊢
    rw [List.foldl_cons, ih _ hrows]
    split
    · rfl
    · exact insertEvent_filter events hr

theorem Kept.events {s' : Audit} (h : Kept sha256 s) (hchain : s'.chain = s.chain)
    (hclock : dayOf s.clock ≤ dayOf s'.clock)
    (hretained : ∀ row ∈ s.chain, s'.Retained row.day → s.Retained row.day ∧
      s'.events.rows.filter (onDay row.day) = s.events.rows.filter (onDay row.day)) :
    Kept sha256 s' := by
  refine ⟨?_, fun r hr => ?_, fun r hr => ?_, fun r hr hall => ?_⟩
  · rw [hchain]
    exact h.linked
  · rw [hchain] at hr
    exact lt_of_lt_of_le (h.past r hr) hclock
  · rw [hchain] at hr
    exact h.hashed r hr
  · rw [hchain] at hr
    obtain ⟨hbefore, hevents⟩ := hretained r hr hall
    rw [← h.verifiable r hr hbefore]
    unfold recomputed
    rw [dayContent_congr hevents]

theorem Audit.Open.onDay_eq_false {r : ComplianceEvent} (h : s.Open r) {row : ComplianceAuditChain}
    (hrow : row ∈ s.chain) (hall : s.Retained row.day) : onDay row.day r = false := by
  rw [Bool.eq_false_iff]
  exact fun hday => h row hrow hday hall

/-- **A purge keeps the chain**: a day that loses an event is not all there any more. -/
theorem kept_purge (h : Kept sha256 s) (retentionDays : Int) :
    Kept sha256 (s.purge retentionDays) := by
  refine h.events rfl (le_refl _) fun row _ hall => ?_
  obtain ⟨hbefore, hdeleted⟩ := List.forall_mem_append.mp hall
  refine ⟨hbefore, ?_⟩
  show (s.events.rows.filter _).filter (onDay row.day) = _
  rw [List.filter_filter]
  refine List.filter_congr fun r hr => ?_
  cases hday : onDay row.day r with
  | false => rfl
  | true =>
    cases hexpired : expired s.clock retentionDays r with
    | false => rfl
    | true =>
      have hgone := hdeleted r (List.mem_filter.mpr ⟨hr, hexpired⟩)
      rw [hday] at hgone
      cases hgone

/-- **One act on time** keeps the chain. -/
theorem kept_step (hlength : ∀ text, (sha256 text).length = 64) (h : Kept sha256 s) (a : AuditAct)
    (ht : OnTime s a) : Kept sha256 (s.step sha256 a) := by
  cases a with
  | write r =>
    exact h.events rfl (le_refl _) fun row hrow hall =>
      ⟨hall, insertEvent_filter s.events (ht.onDay_eq_false hrow hall)⟩
  | merge rows =>
    exact h.events rfl (le_refl _) fun row hrow hall =>
      ⟨hall, applyComplianceEvents_filter s.events fun r hr => (ht r hr).onDay_eq_false hrow hall⟩
  | sweep retentionSetting => exact kept_purge (kept_sign hlength h ht) _
  | sign => exact kept_sign hlength h ht
  | purge retentionDays => exact kept_purge h retentionDays
  | wait microseconds =>
    refine h.events rfl ?_ fun row _ hall => ⟨hall, rfl⟩
    show s.clock / 86400000000 ≤ (s.clock + (microseconds : Int)) / 86400000000
    unfold Stamp
    omega

/-- **The chain over the days**: in a run from empty tables whose acts are on time the chain is sound
after every act. -/
theorem chain_sound (sha256 : String → String) (hlength : ∀ text, (sha256 text).length = 64)
    (clock : Stamp) (as : List AuditAct)
    (ht : Along (Audit.step sha256) OnTime { clock := clock } as) :
    Along (Audit.step sha256) (fun s a => ChainSound sha256 (s.step sha256 a)) { clock := clock }
      as := by
  have hstart : Kept sha256 { clock := clock } := by
    refine ⟨SealedChain.linked_nil, ?_, ?_, ?_⟩ <;>
    · intro row hrow
      cases hrow
  exact along_of_guard (I := Kept sha256) (fun _ a h ht => (kept_step hlength h a ht).sound)
    (fun _ a h ht => kept_step hlength h a ht) hstart ht

/-! ### Three days -/

def oneDay : AuditAct := .wait 86400000000

/-- The refusal is written, and the first two days are signed. -/
def signedDaily : List AuditAct :=
  [.write refusal, oneDay, .sweep 0, oneDay, .sweep 0]

theorem chain_sound_daily :
    Along (Audit.step digests) (fun s a => ChainSound digests (s.step digests a)) { clock := 5 }
      signedDaily := by
  refine chain_sound digests (fun text => ?_) 5 signedDaily ?_
  · unfold digests
    split_ifs <;> rfl
  · refine ⟨fun _ hrow => absurd hrow List.not_mem_nil, trivial, Or.inl rfl, trivial, ?_, trivial⟩
    exact Or.inr (Or.inr (by decide +kernel))

/-- A refusal of the first day that arrives from a peer. -/
def fromPeer : ComplianceEvent := { refusal with id := 2, auditId := "c2", createdAt := 6 }

/-- The event of a peer arrives after its day was signed. -/
def lateEvent : List AuditAct :=
  [.write refusal, oneDay, .sweep 0, .merge [fromPeer]]

/-- A day is missed. -/
def missedDay : List AuditAct :=
  [oneDay, .sweep 0, oneDay, oneDay, .sweep 0]

def moreDigests (text : String) : String :=
  if text = "1|c1|k1|path_not_allowed|4032|c2|k1|path_not_allowed|403" then
    "f48d8ad7ca33516b33cf1180faf5629db5810ec6c114810d9eeaaea91b1b1260"
  else if text = "" then "e3b0c44298fc1c149afbf4c8996fb92427ae41e4649b934ca495991b7852b855"
  else digests text

/-- **A late event and a missed day**: the hash of the first day is not found again, and the chain has
a gap. -/
theorem chain_broken :
    ¬ ChainSound moreDigests (run (Audit.step moreDigests) { clock := 5 } lateEvent) ∧
      ¬ ChainSound moreDigests (run (Audit.step moreDigests) { clock := 5 } missedDay) := by
  refine ⟨fun h => ?_, fun h => ?_⟩
  · have hrows : ∀ row ∈ (run (Audit.step moreDigests) { clock := 5 } lateEvent).chain,
        recomputed moreDigests (run (Audit.step moreDigests) { clock := 5 } lateEvent) row ≠
          row.chainHash := by decide +kernel
    have hsome : (run (Audit.step moreDigests) { clock := 5 } lateEvent).chain ≠ [] := by
      decide +kernel
    obtain ⟨row, hrow⟩ := List.exists_mem_of_ne_nil _ hsome
    refine hrows row hrow (h.verifiable row hrow fun r hr => ?_)
    have hpurged : (run (Audit.step moreDigests) { clock := 5 } lateEvent).purged = [] := by
      decide +kernel
    rw [hpurged] at hr
    cases hr
  · have hdays : (run (Audit.step moreDigests) { clock := 5 } missedDay).chain.map
        ComplianceAuditChain.day = [0, 2] := by decide +kernel
    have hrow : ∀ day ∈ [0, 2],
        ∃ row ∈ (run (Audit.step moreDigests) { clock := 5 } missedDay).chain, row.day = day := by
      intro day hday
      rw [← hdays] at hday
      exact List.mem_map.mp hday
    obtain ⟨a, ha, hfirst⟩ := hrow 0 (by decide)
    obtain ⟨b, hb, hlast⟩ := hrow 2 (by decide)
    obtain ⟨c, hc, hmissed⟩ := h.gapless a ha b hb 1 (by omega) (by omega)
    have hmem := List.mem_map_of_mem (f := ComplianceAuditChain.day) hc
    rw [hdays, hmissed] at hmem
    exact absurd hmem (by decide)

end LlmProxy.Compliance
