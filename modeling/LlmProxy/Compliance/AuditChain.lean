import Mathlib
import LlmProxy.Lib.PyList
import LlmProxy.Lib.SealedChain
import LlmProxy.Lib.Separated
import LlmProxy.Cluster.Stamp

/-! # The daily integrity chain

`compute_daily_integrity_hash` of `app/compliance/audit.py`: one row a day, with the SHA-256 of the
prior day's hash and the contents of the day's events in the order of their ids. Five columns of an
event are hashed, joined by `|`; between two events stands nothing.

> `tampering_changes_chain`: where the text columns hold no `|` and every status has three digits,
> a change of the hashed columns on any day so far changes the hash of the last one.

Mirroring notes.
* A day is its number, and instants are in microseconds.
* `sha256` is the hexadecimal digest of the text in UTF-8.
-/

namespace LlmProxy.Compliance

open LlmProxy.Cluster (Stamp)
open Separated SealedChain

/-- A `compliance_events` row. -/
structure ComplianceEvent where
  id : Int
  auditId : String
  apiKeyId : String
  eventType : String
  requestedAt : Stamp := 0
  requestedModel : Option String := none
  servedModel : Option String := none
  servedProviderId : Option String := none
  blockedCompany : Option String := none
  reasonCode : String := ""
  clientUserAgent : Option String := none
  httpStatus : Int
  matchedPattern : Option String := none
  clientIdentity : Option String := none
  policyActiveSince : Option Stamp := none
  createdAt : Stamp
  deriving DecidableEq, Repr

structure EventTable where
  rows : List ComplianceEvent
  unique : (rows.map ComplianceEvent.id).Nodup

/-- A `compliance_audit_chain` row. -/
structure ComplianceAuditChain where
  day : Int
  rowCount : Nat
  priorDayChainHash : Option String
  chainHash : String
  computedAt : Stamp
  deriving DecidableEq, Repr

def dayStart (day : Int) : Stamp := day * 86400000000

def onDay (day : Int) (r : ComplianceEvent) : Bool :=
  dayStart day ≤ r.createdAt && r.createdAt < dayStart (day + 1)

/-- The day's events, `order_by(ComplianceEvent.id)`. -/
def dayEvents (events : EventTable) (day : Int) : List ComplianceEvent :=
  PyList.sortBy (fun a b => a.id ≤ b.id) (events.rows.filter (onDay day))

def eventContent (r : ComplianceEvent) : String :=
  r.id.repr ++ "|" ++ r.auditId ++ "|" ++ r.apiKeyId ++ "|" ++ r.eventType ++ "|" ++ r.httpStatus.repr

def dayContent (events : EventTable) (day : Int) : String :=
  String.join ((dayEvents events day).map eventContent)

def chainRow (chain : List ComplianceAuditChain) (day : Int) : Option ComplianceAuditChain :=
  chain.find? fun r => r.day == day

def priorHash (chain : List ComplianceAuditChain) (day : Int) : String :=
  ((chainRow chain (day - 1)).map ComplianceAuditChain.chainHash).getD ""

variable (sha256 : String → String)

/-- `compute_daily_integrity_hash`, at the clock reading `now`. -/
def computeDailyIntegrityHash (now : Stamp) (events : EventTable)
    (chain : List ComplianceAuditChain) (day : Int) : String × List ComplianceAuditChain :=
  match chainRow chain day with
  | some existing => (existing.chainHash, chain)
  | none =>
    let prior := priorHash chain day
    let hash := sha256 (prior ++ dayContent events day)
    (hash, chain ++ [{ day, rowCount := (dayEvents events day).length
                       priorDayChainHash := if prior = "" then none else some prior
                       chainHash := hash, computedAt := now }])

/-- The chain after the `n` days from `start` on, computed day by day. -/
def chainAfter (clock : Nat → Stamp) (events : EventTable) (chain : List ComplianceAuditChain)
    (start : Int) : Nat → List ComplianceAuditChain
  | 0 => chain
  | n + 1 =>
    (computeDailyIntegrityHash sha256 (clock n) events (chainAfter clock events chain start n)
      (start + n)).2

/-- The hash of the day `start + n`. -/
def dayHash (clock : Nat → Stamp) (events : EventTable) (chain : List ComplianceAuditChain)
    (start : Int) (n : Nat) : String :=
  (computeDailyIntegrityHash sha256 (clock n) events (chainAfter sha256 clock events chain start n)
    (start + n)).1

/-! ## One day -/

def covered (r : ComplianceEvent) : Int × String × String × String × Int :=
  (r.id, r.auditId, r.apiKeyId, r.eventType, r.httpStatus)

def coveredOn (events : EventTable) (day : Int) : List (Int × String × String × String × Int) :=
  (events.rows.filter (onDay day)).map covered

/-- The text columns hold no `|`, and the status has three digits. -/
structure Plain (r : ComplianceEvent) : Prop where
  auditId : '|' ∉ r.auditId.toList
  apiKeyId : '|' ∉ r.apiKeyId.toList
  eventType : '|' ∉ r.eventType.toList
  httpStatus : 100 ≤ r.httpStatus ∧ r.httpStatus ≤ 999

theorem toDigits_plain (n : Nat) : '|' ∉ Nat.toDigits 10 n := by
  intro h
  exact absurd (Nat.isDigit_of_mem_toDigits (by decide) (by decide) h) (by decide)

theorem repr_plain (i : Int) : '|' ∉ i.repr.toList := by
  rw [Int.repr_eq_if]
  split <;> simp [toDigits_plain]

theorem length_repr_three {i : Int} (h : 100 ≤ i ∧ i ≤ 999) : i.repr.toList.length = 3 := by
  obtain ⟨n, rfl⟩ := Int.eq_ofNat_of_zero_le (show (0 : Int) ≤ i by omega)
  have hrepr : (n : Int).repr.toList = Nat.toDigits 10 n := by
    rw [Int.repr_eq_if, if_pos (Int.natCast_nonneg n)]
    simp
  rw [hrepr]
  have hle := (@Nat.length_toDigits_le_iff 10 n 3 (by decide) (by decide)).mpr (by omega)
  have hgt := mt (@Nat.length_toDigits_le_iff 10 n 2 (by decide) (by decide)).mp (by omega)
  omega

def textFields (r : ComplianceEvent) : List (List Char) :=
  [r.id.repr.toList, r.auditId.toList, r.apiKeyId.toList, r.eventType.toList]

theorem toList_eventContent (r : ComplianceEvent) :
    (eventContent r).toList = terminated '|' (textFields r) ++ r.httpStatus.repr.toList := by
  simp [eventContent, terminated, textFields]

theorem Plain.textFields {r : ComplianceEvent} (h : Plain r) : ∀ f ∈ textFields r, '|' ∉ f := by
  intro f hf
  simp only [Compliance.textFields, List.mem_cons, List.not_mem_nil, or_false] at hf
  rcases hf with rfl | rfl | rfl | rfl
  · exact repr_plain r.id
  · exact h.auditId
  · exact h.apiKeyId
  · exact h.eventType

/-- **An event** is read back from whatever follows it. -/
theorem eventContent_read {r r' : ComplianceEvent} (h : Plain r) (h' : Plain r') {x y : List Char}
    (heq : (eventContent r).toList ++ x = (eventContent r').toList ++ y) :
    covered r = covered r' ∧ x = y := by
  rw [toList_eventContent, toList_eventContent, List.append_assoc, List.append_assoc] at heq
  obtain ⟨hfields, hrest⟩ :=
    terminated_inj (show (textFields r).length = (textFields r').length from rfl) h.textFields
      h'.textFields heq
  have hlength : r.httpStatus.repr.toList.length = r'.httpStatus.repr.toList.length := by
    rw [length_repr_three h.httpStatus, length_repr_three h'.httpStatus]
  obtain ⟨hstatus, hxy⟩ := List.append_inj hrest hlength
  simp only [textFields, List.cons.injEq, String.toList_inj, Int.repr_inj, and_true] at hfields hstatus
  refine ⟨?_, hxy⟩
  unfold covered
  rw [hfields.1, hfields.2.1, hfields.2.2.1, hfields.2.2.2, hstatus]

theorem dayEvents_perm (events : EventTable) (day : Int) :
    (dayEvents events day).Perm (events.rows.filter (onDay day)) :=
  List.perm_insertionSort _ _

/-- **A day's content** determines the hashed columns of its events. -/
theorem dayContent_inj {t t' : EventTable} {day : Int} (h : ∀ r ∈ t.rows, onDay day r = true → Plain r)
    (h' : ∀ r ∈ t'.rows, onDay day r = true → Plain r) (heq : dayContent t day = dayContent t' day) :
    (coveredOn t day).Perm (coveredOn t' day) := by
  have hplain : ∀ {t : EventTable}, (∀ r ∈ t.rows, onDay day r = true → Plain r) →
      ∀ r ∈ dayEvents t day, Plain r := by
    intro t ht r hr
    obtain ⟨hmem, hday⟩ := List.mem_filter.mp ((dayEvents_perm t day).mem_iff.mp hr)
    exact ht r hmem hday
  have hchars := congrArg String.toList heq
  simp only [dayContent, String.toList_join, List.flatMap_map] at hchars
  have hsame : (dayEvents t day).map covered = (dayEvents t' day).map covered :=
    flatMap_inj (fun r _ => by simp [toList_eventContent, terminated, textFields])
      (fun r hr r' hr' x y => eventContent_read (hplain h r hr) (hplain h' r' hr')) hchars
  unfold coveredOn
  exact ((dayEvents_perm t day).map covered).symm.trans
    (hsame ▸ (dayEvents_perm t' day).map covered)

/-! ## The days of a chain -/

section
variable {sha256} {clock : Nat → Stamp} {events : EventTable} {chain : List ComplianceAuditChain}
  {start day : Int} {now : Stamp} {n : Nat}

theorem computeDailyIntegrityHash_fresh (h : chainRow chain day = none) :
    (computeDailyIntegrityHash sha256 now events chain day).1 =
        sha256 (priorHash chain day ++ dayContent events day) ∧
      ∃ row, (computeDailyIntegrityHash sha256 now events chain day).2 = chain ++ [row] ∧
        row.day = day ∧ row.chainHash = sha256 (priorHash chain day ++ dayContent events day) := by
  unfold computeDailyIntegrityHash
  rw [h]
  exact ⟨rfl, _, rfl, rfl, rfl⟩

theorem chainRow_append (row : ComplianceAuditChain) (day : Int) :
    chainRow (chain ++ [row]) day =
      (chainRow chain day).or (if row.day = day then some row else none) := by
  unfold chainRow
  rw [List.find?_append, List.find?_singleton]
  simp only [beq_iff_eq]

/-- The days that are still to come have no row. -/
def Fresh (chain : List ComplianceAuditChain) (start : Int) (n : Nat) : Prop :=
  ∀ k ≤ n, chainRow chain (start + k) = none

def sealContent (sha256 : String → String) (prior content : String) : String :=
  sha256 (prior ++ content)

def sealed (sha256 : String → String) (events : EventTable) (chain : List ComplianceAuditChain)
    (start : Int) (n : Nat) : String :=
  SealedChain.chain (sealContent sha256) (priorHash chain start)
    (fun k => dayContent events (start + k)) n

/-- What the chain looks like after `n` days. -/
structure Computed (sha256 : String → String) (events : EventTable)
    (before after : List ComplianceAuditChain) (start : Int) (n : Nat) : Prop where
  later : ∀ k : Nat, n ≤ k → chainRow after (start + k) = chainRow before (start + k)
  prior : priorHash after (start + n) = sealed sha256 events before start n

theorem Computed.step (h : Computed sha256 events chain (chainAfter sha256 clock events chain start n)
    start n) (hfresh : chainRow chain (start + n) = none) :
    Computed sha256 events chain (chainAfter sha256 clock events chain start (n + 1)) start
      (n + 1) := by
  obtain ⟨-, row, hrows, hday, hhash⟩ :=
    @computeDailyIntegrityHash_fresh sha256 events _ _ (clock n)
      ((h.later n (Nat.le_refl n)).trans hfresh)
  unfold chainAfter
  rw [hrows]
  refine ⟨fun k hk => ?_, ?_⟩
  · rw [chainRow_append, if_neg (by omega), Option.or_none]
    exact h.later k (by omega)
  · have hprior : start + ((n + 1 : Nat) : Int) - 1 = start + n := by omega
    unfold priorHash
    rw [hprior, chainRow_append, (h.later n (Nat.le_refl n)).trans hfresh, if_pos hday]
    show row.chainHash = _
    rw [hhash, h.prior]
    rfl

/-- **Day by day**, the hashes are the seals of the days' contents. -/
theorem computed_chainAfter (hfresh : Fresh chain start n) :
    Computed sha256 events chain (chainAfter sha256 clock events chain start n) start n := by
  induction n with
  | zero => exact ⟨fun _ _ => rfl, by unfold chainAfter sealed SealedChain.chain; simp⟩
  | succ n ih =>
    exact (ih fun k hk => hfresh k (Nat.le_succ_of_le hk)).step (hfresh n (Nat.le_succ n))

theorem dayHash_eq (hfresh : Fresh chain start n) :
    dayHash sha256 clock events chain start n = sealed sha256 events chain start (n + 1) := by
  have hcomputed := @computed_chainAfter sha256 clock events _ _ _ hfresh
  have hnone := (hcomputed.later n (Nat.le_refl n)).trans (hfresh n (Nat.le_refl n))
  unfold dayHash
  rw [(computeDailyIntegrityHash_fresh hnone).1, hcomputed.prior]
  rfl

/-! ## Main theorem -/

def hashedTexts (sha256 : String → String) (clock : Nat → Stamp) (events : EventTable)
    (chain : List ComplianceAuditChain) (start : Int) (n : Nat) : Set String :=
  {text | ∃ k ≤ n, text =
    priorHash (chainAfter sha256 clock events chain start k) (start + k) ++
      dayContent events (start + k)}

theorem mem_hashedTexts (hfresh : Fresh chain start n) {k : Nat} (hk : k ≤ n) :
    sealed sha256 events chain start k ++ dayContent events (start + k) ∈
      hashedTexts sha256 clock events chain start n := by
  refine ⟨k, hk, ?_⟩
  rw [(computed_chainAfter fun j hj => hfresh j (Nat.le_trans hj hk)).prior]

theorem length_sealed (hlength : ∀ text, (sha256 text).length = 64) (t t' : EventTable) (n : Nat) :
    (sealed sha256 t chain start n).length = (sealed sha256 t' chain start n).length := by
  cases n with
  | zero => rfl
  | succ n => exact (hlength _).trans (hlength _).symm

theorem append_string_inj {a b x y : String} (hlength : a.length = b.length)
    (h : a ++ x = b ++ y) : a = b ∧ x = y := by
  have hchars : a.toList ++ x.toList = b.toList ++ y.toList := by
    rw [← String.toList_append, ← String.toList_append, h]
  obtain ⟨hab, hxy⟩ := List.append_inj hchars hlength
  exact ⟨String.toList_inj.mp hab, String.toList_inj.mp hxy⟩

theorem dayHash_eq_iff {t t' : EventTable} {clock' : Nat → Stamp} (hfresh : Fresh chain start n)
    (hlength : ∀ text, (sha256 text).length = 64)
    (hinj : Set.InjOn sha256 (hashedTexts sha256 clock t chain start n ∪
      hashedTexts sha256 clock' t' chain start n)) :
    dayHash sha256 clock t chain start n = dayHash sha256 clock' t' chain start n ↔
      ∀ k < n + 1, dayContent t (start + k) = dayContent t' (start + k) := by
  rw [dayHash_eq hfresh, dayHash_eq hfresh]
  refine chain_eq_iff fun k hk heq => ?_
  have hle : k ≤ n := Nat.lt_succ_iff.mp hk
  exact append_string_inj (length_sealed hlength t t' k)
    (hinj (Or.inl (mem_hashedTexts hfresh hle)) (Or.inr (mem_hashedTexts hfresh hle)) heq)

end

/-- **Tampering changes the chain.** Two tables whose events of the days from `start` to
`start + n` are plain and differ on one of these days, in the multiset of their hashed columns, have
different hashes for the last day, if SHA-256 takes no two of the texts hashed to one digest. -/
theorem tampering_changes_chain (hlength : ∀ text, (sha256 text).length = 64)
    (clock clock' : Nat → Stamp) (chain : List ComplianceAuditChain) (start : Int) (n : Nat)
    (hfresh : Fresh chain start n) (t t' : EventTable)
    (hplain : ∀ k ≤ n, ∀ r ∈ t.rows, onDay (start + k) r = true → Plain r)
    (hplain' : ∀ k ≤ n, ∀ r ∈ t'.rows, onDay (start + k) r = true → Plain r)
    (hinj : Set.InjOn sha256 (hashedTexts sha256 clock t chain start n ∪
      hashedTexts sha256 clock' t' chain start n))
    (k : Nat) (hk : k ≤ n)
    (hdiffer : ¬ (coveredOn t (start + k)).Perm (coveredOn t' (start + k))) :
    dayHash sha256 clock t chain start n ≠ dayHash sha256 clock' t' chain start n := by
  intro heq
  have hcontents := (dayHash_eq_iff hfresh hlength hinj).mp heq
  exact hdiffer (dayContent_inj (hplain k hk) (hplain' k hk)
    (hcontents k (Nat.lt_succ_of_le hk)))

/-! ### Tables of a refusal -/

/-- A refusal on the first day. -/
def refusal : ComplianceEvent :=
  { id := 1, auditId := "c1", apiKeyId := "k1", eventType := "path_not_allowed",
    reasonCode := "path_not_allowed", httpStatus := 403, createdAt := 5 }

def oneEvent (r : ComplianceEvent) : EventTable := ⟨[r], by simp⟩

def digests (text : String) : String :=
  if text = "1|c1|k1|path_not_allowed|403" then
    "85a6a2f343b19ca8402d38c1864aeeca33aaf4928ddcb0c9e22a20961553c9dd"
  else if text = "1|c1|k1|path_not_allowed|451" then
    "0c12418ae38110f67a0c9955fca27e7eba2753cb859399ade499711763a700aa"
  else if text = "85a6a2f343b19ca8402d38c1864aeeca33aaf4928ddcb0c9e22a20961553c9dd" then
    "26bf0c7111a40505dcbfd1b0cd523d0aa3cb73da8b935cda8bc067faa595c8f4"
  else if text = "0c12418ae38110f67a0c9955fca27e7eba2753cb859399ade499711763a700aa" then
    "4e4d2e0d551bee7c60a10f133f94e26e13c7d65ceeb6a38f30a73f2ca9c89397"
  else "0000000000000000000000000000000000000000000000000000000000000000"

def refusalTexts : List String :=
  ["1|c1|k1|path_not_allowed|403", "1|c1|k1|path_not_allowed|451",
    "85a6a2f343b19ca8402d38c1864aeeca33aaf4928ddcb0c9e22a20961553c9dd",
    "0c12418ae38110f67a0c9955fca27e7eba2753cb859399ade499711763a700aa"]

theorem hashedTexts_oneEvent (r : ComplianceEvent)
    (h : r = refusal ∨ r = { refusal with httpStatus := 451 }) :
    hashedTexts digests (fun _ => 0) (oneEvent r) [] 0 1 ⊆ {text | text ∈ refusalTexts} := by
  rintro text ⟨k, hk, rfl⟩
  have hcases : k = 0 ∨ k = 1 := by omega
  rcases h with rfl | rfl <;> rcases hcases with rfl | rfl <;> decide

theorem refusal_plain {status : Int} (h : 100 ≤ status ∧ status ≤ 999) :
    ∀ r ∈ (oneEvent { refusal with httpStatus := status }).rows, Plain r := by
  intro r hr
  rw [List.mem_singleton.mp hr]
  have hbar : ∀ text ∈ ["c1", "k1", "path_not_allowed"], '|' ∉ text.toList := by decide
  exact ⟨hbar "c1" (by simp), hbar "k1" (by simp), hbar "path_not_allowed" (by simp), h⟩

/-- The status of an event of the day before the last is changed. -/
theorem tampering_changes_chain_status :
    dayHash digests (fun _ => 0) (oneEvent refusal) [] 0 1 ≠
      dayHash digests (fun _ => 0) (oneEvent { refusal with httpStatus := 451 }) [] 0 1 := by
  have hinj : Set.InjOn digests {text | text ∈ refusalTexts} := by
    have hall : ∀ x ∈ refusalTexts, ∀ y ∈ refusalTexts, digests x = digests y → x = y := by decide
    exact fun x hx y hy => hall x hx y hy
  refine tampering_changes_chain digests (fun text => ?_) (fun _ => 0) (fun _ => 0) [] 0 1
    (fun _ _ => rfl) _ _ (fun _ _ r hr _ => refusal_plain (by decide) r hr)
    (fun _ _ r hr _ => refusal_plain (by decide) r hr)
    (hinj.mono (Set.union_subset (hashedTexts_oneEvent _ (Or.inl rfl))
      (hashedTexts_oneEvent _ (Or.inr rfl)))) 0 (by decide) (by decide)
  unfold digests
  split_ifs <;> rfl

def otherReason : EventTable := oneEvent { refusal with reasonCode := "other" }

/-- The texts of two columns run together. -/
def keyWithBar : EventTable := oneEvent { refusal with apiKeyId := "k1|x" }

def auditWithBar : EventTable := oneEvent { refusal with auditId := "c1|k1", apiKeyId := "x" }

/-- The status of one event runs together with the id of the next. -/
def thirteen : EventTable :=
  ⟨[refusal, { refusal with id := 13, auditId := "c2" }], by simp [refusal]⟩

def three : EventTable :=
  ⟨[{ refusal with httpStatus := 4031 }, { refusal with id := 3, auditId := "c2" }],
    by simp [refusal]⟩

/-- **What the chain does not show**: a column that is not hashed, and texts that run together. -/
theorem tampering_unseen :
    (oneEvent refusal).rows ≠ otherReason.rows ∧
      ¬ (coveredOn keyWithBar 0).Perm (coveredOn auditWithBar 0) ∧
      ¬ (coveredOn thirteen 0).Perm (coveredOn three 0) ∧
      ∀ sha256 clock,
        dayHash sha256 clock (oneEvent refusal) [] 0 0 = dayHash sha256 clock otherReason [] 0 0 ∧
          dayHash sha256 clock keyWithBar [] 0 0 = dayHash sha256 clock auditWithBar [] 0 0 ∧
          dayHash sha256 clock thirteen [] 0 0 = dayHash sha256 clock three [] 0 0 := by
  refine ⟨by decide, by decide, by decide, fun sha256 clock => ?_⟩
  have hsame : ∀ {t t' : EventTable}, dayContent t 0 = dayContent t' 0 →
      dayHash sha256 clock t [] 0 0 = dayHash sha256 clock t' [] 0 0 := by
    intro t t' h
    rw [dayHash_eq fun _ _ => rfl, dayHash_eq fun _ _ => rfl]
    show sha256 ("" ++ dayContent t 0) = sha256 ("" ++ dayContent t' 0)
    rw [h]
  exact ⟨hsame (by decide), hsame (by decide), hsame (by decide)⟩

end LlmProxy.Compliance
