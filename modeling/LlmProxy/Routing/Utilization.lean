import Mathlib.Algebra.Order.Field.Rat
import Mathlib.Data.Rat.Floor
import LlmProxy.Lib.Pool
import LlmProxy.Routing.Router

/-! # Subscriptions by headroom

`reorder_subscription_by_utilization` (`app/routing/external_rotation.py`): the providers of one
subscription type are sorted by their utilisation, in steps, and by the operator's priority, and go
back to the places where the type stood.

> `reorder_lawful`: the type is sorted, stably, at its own places, and nothing else moves; reorders
> for two types commute.

Mirroring notes.
* A utilisation is the exact value of its float, and finite.
* Of two rows that are equal in every column either may stand for the other.
-/

namespace LlmProxy.Routing

open LlmProxy.Providers

/-- `_key`. -/
def headroomKey (utilMap : List (String × Rat)) (bucketSizePct : Rat) (p : Provider) : Int × Int :=
  (utilizationBucket (utilMap.lookup p.id) bucketSizePct, p.priority)

def headroomOrder (utilMap : List (String × Rat)) (bucketSizePct : Rat) (a b : Provider) : Bool :=
  let x := headroomKey utilMap bucketSizePct a
  let y := headroomKey utilMap bucketSizePct b
  x.1 < y.1 || (x.1 == y.1 && x.2 ≤ y.2)

def ofType (providerType : String) (p : Provider) : Bool := p.providerType == providerType

section

variable (utilMap : List (String × Rat)) (bucketSizePct : Rat)

theorem headroomOrder_iff {a b : Provider} : headroomOrder utilMap bucketSizePct a b = true ↔
    utilizationBucket (utilMap.lookup a.id) bucketSizePct <
        utilizationBucket (utilMap.lookup b.id) bucketSizePct ∨
      (utilizationBucket (utilMap.lookup a.id) bucketSizePct =
        utilizationBucket (utilMap.lookup b.id) bucketSizePct ∧ a.priority ≤ b.priority) := by
  unfold headroomOrder headroomKey
  rw [Bool.or_eq_true, Bool.and_eq_true, beq_iff_eq, decide_eq_true_eq, decide_eq_true_eq]

theorem headroomOrder_total (a b : Provider) : headroomOrder utilMap bucketSizePct a b = true ∨
    headroomOrder utilMap bucketSizePct b a = true := by
  rw [headroomOrder_iff, headroomOrder_iff]
  omega

theorem headroomOrder_trans (a b c : Provider) (hab : headroomOrder utilMap bucketSizePct a b = true)
    (hbc : headroomOrder utilMap bucketSizePct b c = true) :
    headroomOrder utilMap bucketSizePct a c = true := by
  rw [headroomOrder_iff] at hab hbc ⊢
  omega

theorem bucket_of_known {util : Rat} (h : util < 100) :
    utilizationBucket (some util) bucketSizePct < utilizationBucket none bucketSizePct := by
  have hsize : 1 ≤ max bucketSizePct 1 := le_max_right _ _
  show (if util < 0 then 0 else max 0 (util / max bucketSizePct 1).floor) < (999 : Int)
  split
  · decide
  · next hutil =>
    have hle : util / max bucketSizePct 1 ≤ util := div_le_self (not_lt.mp hutil) hsize
    have hfloor : ⌊util / max bucketSizePct 1⌋ < 100 := by
      rw [Int.floor_lt]
      exact_mod_cast hle.trans_lt h
    have hbound : max 0 (util / max bucketSizePct 1).floor < 100 := max_lt (by decide) hfloor
    exact hbound.trans (by decide)

variable (providerType : String) (providers : List Provider)

/-- The members of the type, sorted. -/
def sortedPool : List Provider :=
  PyList.sortBy (headroomOrder utilMap bucketSizePct) (providers.filter (ofType providerType))

theorem placeAt_refill (p : Provider → Bool) (l subset : List Provider) :
    placeAt p l subset = Pool.refill p l subset := by
  induction l generalizing subset with
  | nil => rfl
  | cons a l ih =>
    unfold placeAt
    cases subset with
    | nil =>
      rw [Pool.refill, ih]
      split <;> rfl
    | cons b subset =>
      rw [Pool.refill]
      dsimp only
      rw [ih, ih]

theorem reorder_eq :
    reorderSubscriptionByUtilization utilMap bucketSizePct providerType providers =
      Pool.refill (ofType providerType) providers
        (sortedPool utilMap bucketSizePct providerType providers) := by
  show (if (providers.filter (ofType providerType)).length < 2 then providers
    else placeAt (ofType providerType) providers
      (sortedPool utilMap bucketSizePct providerType providers)) = _
  rw [placeAt_refill]
  split
  · next hshort =>
    have hself : sortedPool utilMap bucketSizePct providerType providers =
        providers.filter (ofType providerType) := by
      unfold sortedPool
      match hpool : providers.filter (ofType providerType) with
      | [] => rfl
      | [p] => rfl
      | p :: p' :: rest =>
        rw [hpool, List.length_cons, List.length_cons] at hshort
        omega
    rw [hself, Pool.refill_self]
  · rfl

theorem sortedPool_perm : (sortedPool utilMap bucketSizePct providerType providers).Perm
    (providers.filter (ofType providerType)) := PyList.sortBy_perm

theorem ofType_sortedPool {p : Provider}
    (h : p ∈ sortedPool utilMap bucketSizePct providerType providers) :
    ofType providerType p = true :=
  (List.mem_filter.mp ((sortedPool_perm _ _ _ _).subset h)).2

theorem sortedPool_sorted : (sortedPool utilMap bucketSizePct providerType providers).Pairwise
    fun a b => headroomOrder utilMap bucketSizePct a b = true :=
  PyList.pairwise_sortBy (headroomOrder_total utilMap bucketSizePct)
    (headroomOrder_trans utilMap bucketSizePct) _

theorem pool_reorder :
    (reorderSubscriptionByUtilization utilMap bucketSizePct providerType providers).filter
        (ofType providerType) = sortedPool utilMap bucketSizePct providerType providers := by
  rw [reorder_eq]
  exact Pool.filter_refill (fun p hmem => ofType_sortedPool _ _ _ _ hmem)
    (sortedPool_perm _ _ _ _).length_eq

theorem ofType_disjoint {t t' : String} (h : t ≠ t') (p : Provider) (hp : ofType t p = true) :
    ofType t' p = false := by
  unfold ofType at hp ⊢
  rw [beq_iff_eq.mp hp]
  exact beq_eq_false_iff_ne.mpr h

theorem otherPool_reorder {t t' : String} (h : t ≠ t') :
    (reorderSubscriptionByUtilization utilMap bucketSizePct t providers).filter (ofType t') =
      providers.filter (ofType t') := by
  rw [reorder_eq]
  exact Pool.filter_refill_not
    (fun p hmem => ofType_disjoint h p (ofType_sortedPool _ _ _ _ hmem)) (ofType_disjoint h)

theorem reorder_again :
    reorderSubscriptionByUtilization utilMap bucketSizePct providerType
        (reorderSubscriptionByUtilization utilMap bucketSizePct providerType providers) =
      reorderSubscriptionByUtilization utilMap bucketSizePct providerType providers := by
  rw [reorder_eq _ _ _ (reorderSubscriptionByUtilization _ _ _ _)]
  have hsorted : sortedPool utilMap bucketSizePct providerType
      (reorderSubscriptionByUtilization utilMap bucketSizePct providerType providers) =
        (reorderSubscriptionByUtilization utilMap bucketSizePct providerType providers).filter
          (ofType providerType) := by
    refine PyList.sortBy_of_pairwise ?_
    rw [pool_reorder]
    exact sortedPool_sorted _ _ _ _
  rw [hsorted, Pool.refill_self]

theorem reorder_comm {t t' : String} (h : t ≠ t') :
    reorderSubscriptionByUtilization utilMap bucketSizePct t'
        (reorderSubscriptionByUtilization utilMap bucketSizePct t providers) =
      reorderSubscriptionByUtilization utilMap bucketSizePct t
        (reorderSubscriptionByUtilization utilMap bucketSizePct t' providers) := by
  have hpool : ∀ {a b : String}, a ≠ b → sortedPool utilMap bucketSizePct b
      (reorderSubscriptionByUtilization utilMap bucketSizePct a providers) =
        sortedPool utilMap bucketSizePct b providers := by
    intro a b hne
    unfold sortedPool
    rw [otherPool_reorder _ _ _ hne]
  rw [reorder_eq _ _ t' (reorderSubscriptionByUtilization _ _ _ _), hpool h,
    reorder_eq _ _ t (reorderSubscriptionByUtilization _ _ _ _), hpool h.symm,
    reorder_eq, reorder_eq]
  exact Pool.refill_comm (ofType_disjoint h) (fun p hmem => ofType_sortedPool _ _ _ _ hmem)
    fun p hmem => ofType_sortedPool _ _ _ _ hmem

end

/-! ## The law -/

structure ReorderLawful (utilMap : List (String × Rat)) (bucketSizePct : Rat) (providerType : String)
    (providers : List Provider) : Prop where
  permutes : (reorderSubscriptionByUtilization utilMap bucketSizePct providerType providers).Perm
    providers
  stays : ∀ (i : Nat) (p : Provider), providers[i]? = some p → p.providerType ≠ providerType →
    (reorderSubscriptionByUtilization utilMap bucketSizePct providerType providers)[i]? = some p
  sorts : ((reorderSubscriptionByUtilization utilMap bucketSizePct providerType providers).filter
      (ofType providerType)).Pairwise fun a b =>
    utilizationBucket (utilMap.lookup a.id) bucketSizePct <
        utilizationBucket (utilMap.lookup b.id) bucketSizePct ∨
      (utilizationBucket (utilMap.lookup a.id) bucketSizePct =
        utilizationBucket (utilMap.lookup b.id) bucketSizePct ∧ a.priority ≤ b.priority)
  stable : ∀ key : Int × Int,
    ((reorderSubscriptionByUtilization utilMap bucketSizePct providerType providers).filter
        (ofType providerType)).filter (fun p => headroomKey utilMap bucketSizePct p = key) =
      (providers.filter (ofType providerType)).filter
        fun p => headroomKey utilMap bucketSizePct p = key
  unknownLast :
    ((reorderSubscriptionByUtilization utilMap bucketSizePct providerType providers).filter
      (ofType providerType)).Pairwise fun a b =>
    utilMap.lookup a.id = none → ∀ util, utilMap.lookup b.id = some util → 100 ≤ util
  idempotent : reorderSubscriptionByUtilization utilMap bucketSizePct providerType
      (reorderSubscriptionByUtilization utilMap bucketSizePct providerType providers) =
    reorderSubscriptionByUtilization utilMap bucketSizePct providerType providers
  commutes : ∀ other, other ≠ providerType →
    reorderSubscriptionByUtilization utilMap bucketSizePct other
        (reorderSubscriptionByUtilization utilMap bucketSizePct providerType providers) =
      reorderSubscriptionByUtilization utilMap bucketSizePct providerType
        (reorderSubscriptionByUtilization utilMap bucketSizePct other providers)
  eitherOrder : reorderClaudeOauthByUtilization utilMap bucketSizePct providers =
    reorderSubscriptionByUtilization utilMap bucketSizePct "claude-oauth"
      (reorderSubscriptionByUtilization utilMap bucketSizePct "cursor-oauth" providers)

theorem filter_sortedPool (utilMap : List (String × Rat)) (bucketSizePct : Rat)
    (providerType : String) (providers : List Provider) (key : Int × Int) :
    (sortedPool utilMap bucketSizePct providerType providers).filter
        (fun p => headroomKey utilMap bucketSizePct p = key) =
      (providers.filter (ofType providerType)).filter
        fun p => headroomKey utilMap bucketSizePct p = key := by
  unfold sortedPool
  rw [PyList.filter_sortBy (headroomOrder_total utilMap bucketSizePct)
    (headroomOrder_trans utilMap bucketSizePct)]
  refine PyList.sortBy_of_pairwise (List.pairwise_of_forall_mem_list fun a ha b hb => ?_)
  have hkeys : headroomKey utilMap bucketSizePct a = headroomKey utilMap bucketSizePct b := by
    rw [of_decide_eq_true (List.mem_filter.mp ha).2, of_decide_eq_true (List.mem_filter.mp hb).2]
  rw [headroomOrder_iff]
  obtain ⟨hbucket, hpriority⟩ := Prod.mk.inj hkeys
  exact .inr ⟨hbucket, hpriority.le⟩

theorem reorder_lawful (utilMap : List (String × Rat)) (bucketSizePct : Rat) (providerType : String)
    (providers : List Provider) : ReorderLawful utilMap bucketSizePct providerType providers where
  permutes := by
    rw [reorder_eq]
    exact Pool.refill_perm (sortedPool_perm _ _ _ _)
  stays i p hget hne := by
    rw [reorder_eq]
    exact Pool.getElem?_refill _ hget (beq_eq_false_iff_ne.mpr hne)
  sorts := by
    rw [pool_reorder]
    exact (sortedPool_sorted _ _ _ _).imp (headroomOrder_iff utilMap bucketSizePct).mp
  stable key := by
    rw [pool_reorder]
    exact filter_sortedPool _ _ _ _ key
  unknownLast := by
    rw [pool_reorder]
    refine (sortedPool_sorted _ _ _ _).imp fun {a b} hab hnone util hutil => ?_
    by_contra hbelow
    have hlt := bucket_of_known bucketSizePct (not_le.mp hbelow)
    rw [headroomOrder_iff, hnone, hutil] at hab
    omega
  idempotent := reorder_again _ _ _ _
  commutes other hne := reorder_comm _ _ _ hne.symm
  eitherOrder := reorder_comm _ _ _ (by decide)

end LlmProxy.Routing
