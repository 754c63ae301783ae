import LlmProxy.Lib.LeastRecent
import LlmProxy.OAuth.Accounts
import Mathlib.Order.WithBot
import Mathlib.Algebra.Order.Ring.Rat

/-! # Accounts take turns

`resolve_access_token` and `apply_fanout_to_kwargs` (`app/providers/oauth_account_selector.py`)
under `round_robin`: each call uses the account that was used longest ago and stamps it.

> `rotation_fair`: every call that fans out uses a usable account, as many calls in a row as there
> are usable accounts use different ones, and from there on the same ones in the same order.

Mirroring notes.
* The update of `last_used_at` is committed; the code swallows its failure.
* The database may give level rows in any order: each call reads the table in an order of its own.
-/

namespace LlmProxy.OAuth

open LlmProxy.Providers
open LlmProxy.Routing

/-- `_touch_last_used`. -/
def touchLastUsed (accounts : List OAuthAccount) (accountId : String) (nowTs : Rat) :
    List OAuthAccount :=
  accounts.map fun a => if a.id = accountId then { a with lastUsedAt := some nowTs } else a

/-- `resolve_access_token`: the token, the account, and the table after it. -/
def resolveAccessToken (settings : FanoutSettings) (accounts : List OAuthAccount)
    (provider : Provider) (nowTs : Rat) : (String × Option String) × List OAuthAccount :=
  if !settings.oauthAccountFanoutEnabled then ((provider.apiKey.getD "", none), accounts)
  else
    match pickByStrategy accounts provider.id (resolveStrategy settings provider) with
    | none => ((provider.apiKey.getD "", none), accounts)
    | some account =>
      ((account.accessToken, some account.id), touchLastUsed accounts account.id nowTs)

inductive EntryPoint
  | resolveAccessToken
  | applyFanoutToKwargs (kwargs : LitellmKwargs)

/-- A call: its time, and the order in which the database reads the rows to it. -/
structure TokenCall where
  entry : EntryPoint
  nowTs : Rat
  reads : List OAuthAccount → List OAuthAccount := id

/-- One call: the account used, and the table after it. -/
def useAccount (settings : FanoutSettings) (provider : Provider) (accounts : List OAuthAccount)
    (call : TokenCall) : Option String × List OAuthAccount :=
  let rows := call.reads accounts
  match call.entry with
  | .resolveAccessToken =>
    let answer := resolveAccessToken settings rows provider call.nowTs
    (answer.1.2, answer.2)
  | .applyFanoutToKwargs kwargs =>
    match (applyFanoutToKwargs settings rows kwargs provider).2 with
    | none => (none, rows)
    | some accountId => (some accountId, touchLastUsed rows accountId call.nowTs)

/-- `apply_fanout_to_kwargs` leaves the providers of other types alone. -/
def fansOut (provider : Provider) (call : TokenCall) : Bool :=
  match call.entry with
  | .resolveAccessToken => true
  | .applyFanoutToKwargs _ => oauthProviderTypes.contains provider.providerType

/-- The accounts used by the successful calls, one after the other. -/
def usedAccounts (settings : FanoutSettings) (provider : Provider) :
    List OAuthAccount → List TokenCall → List String
  | _, [] => []
  | accounts, call :: calls =>
    (useAccount settings provider accounts call).1.toList ++
      usedAccounts settings provider (useAccount settings provider accounts call).2 calls

def usable (providerId : String) (a : OAuthAccount) : Bool :=
  a.providerId = providerId && a.enabled && a.deletedAt.isNone

def usableIds (providerId : String) (accounts : List OAuthAccount) : Finset String :=
  ((accounts.filter (usable providerId)).map OAuthAccount.id).toFinset

/-- A nullable stamp as it is ordered: `NULL` first. -/
def stampKey : Option Rat → WithBot Rat
  | none => ⊥
  | some t => (t : WithBot Rat)

def OAuthAccount.stamp (a : OAuthAccount) : WithBot Rat := stampKey a.lastUsedAt

def stampOf (accounts : List OAuthAccount) (id : String) : WithBot Rat :=
  match accounts.find? fun a => a.id = id with
  | some a => a.stamp
  | none => ⊥

section

variable {accounts rows : List OAuthAccount} {settings : FanoutSettings} {provider : Provider}
  {providerId : String}

theorem mem_usableIds {id : String} : id ∈ usableIds providerId accounts ↔
    ∃ a ∈ accounts, usable providerId a = true ∧ a.id = id := by
  unfold usableIds
  rw [List.mem_toFinset, List.mem_map]
  simp only [List.mem_filter, and_assoc]

theorem usableIds_perm (h : rows.Perm accounts) :
    usableIds providerId rows = usableIds providerId accounts :=
  List.toFinset_eq_of_perm _ _ ((h.filter _).map _)

theorem stampOf_mem (hids : (accounts.map OAuthAccount.id).Nodup) {a : OAuthAccount}
    (ha : a ∈ accounts) : stampOf accounts a.id = a.stamp := by
  unfold stampOf
  cases hfind : accounts.find? fun b => b.id = a.id with
  | none => exact absurd (decide_eq_true rfl) (List.find?_eq_none.mp hfind a ha)
  | some b =>
    have hfound := List.find?_some hfind
    have hid : b.id = a.id := of_decide_eq_true hfound
    rw [List.inj_on_of_nodup_map hids (List.mem_of_find?_eq_some hfind) ha hid]

theorem stampOf_perm (hids : (accounts.map OAuthAccount.id).Nodup) (h : rows.Perm accounts) :
    stampOf rows = stampOf accounts := by
  have hids' : (rows.map OAuthAccount.id).Nodup := (h.map OAuthAccount.id).nodup_iff.mpr hids
  funext id
  by_cases hid : ∃ a ∈ accounts, a.id = id
  · obtain ⟨a, ha, rfl⟩ := hid
    rw [stampOf_mem hids ha, stampOf_mem hids' (h.mem_iff.mpr ha)]
  · have hnone : ∀ a ∈ accounts, ¬ a.id = id := fun a ha heq => hid ⟨a, ha, heq⟩
    unfold stampOf
    rw [List.find?_eq_none.mpr fun a ha heq => hnone a ha (of_decide_eq_true heq),
      List.find?_eq_none.mpr fun a ha heq => hnone a (h.mem_iff.mp ha) (of_decide_eq_true heq)]

@[simp] theorem touchLastUsed_ids (id : String) (now : Rat) :
    (touchLastUsed accounts id now).map OAuthAccount.id = accounts.map OAuthAccount.id := by
  unfold touchLastUsed
  rw [List.map_map]
  refine List.map_congr_left fun a _ => ?_
  show (if a.id = id then { a with lastUsedAt := some now } else a).id = a.id
  split <;> rfl

theorem usableIds_touch (id : String) (now : Rat) :
    usableIds providerId (touchLastUsed accounts id now) = usableIds providerId accounts := by
  have hsame : ∀ a : OAuthAccount,
      usable providerId (if a.id = id then { a with lastUsedAt := some now } else a) =
        usable providerId a ∧
      (if a.id = id then { a with lastUsedAt := some now } else a).id = a.id := by
    intro a
    split <;> exact ⟨rfl, rfl⟩
  ext x
  rw [mem_usableIds, mem_usableIds]
  unfold touchLastUsed
  constructor
  · rintro ⟨b, hb, husable, hid⟩
    obtain ⟨a, ha, rfl⟩ := List.mem_map.mp hb
    rw [(hsame a).1] at husable
    rw [(hsame a).2] at hid
    exact ⟨a, ha, husable, hid⟩
  · rintro ⟨a, ha, husable, hid⟩
    refine ⟨_, List.mem_map_of_mem ha, ?_, ?_⟩
    · rw [(hsame a).1, husable]
    · rw [(hsame a).2, hid]

theorem stampOf_touch (hids : (accounts.map OAuthAccount.id).Nodup) {id : String} {now : Rat}
    {a : OAuthAccount} (ha : a ∈ accounts) :
    stampOf (touchLastUsed accounts id now) a.id =
      if a.id = id then (now : WithBot Rat) else a.stamp := by
  have hmem : (if a.id = id then { a with lastUsedAt := some now } else a) ∈
      touchLastUsed accounts id now := List.mem_map_of_mem ha
  have hids' : ((touchLastUsed accounts id now).map OAuthAccount.id).Nodup := by
    rw [touchLastUsed_ids]
    exact hids
  by_cases heq : a.id = id
  · rw [if_pos heq] at hmem ⊢
    exact stampOf_mem hids' hmem
  · rw [if_neg heq] at hmem ⊢
    exact stampOf_mem hids' hmem

/-- `ORDER BY` of a nullable column compares the stamps. -/
theorem nullsFirst_cases (x y : Option Rat) :
    (nullsFirst x y = .lt ∧ stampKey x < stampKey y) ∨
    (nullsFirst x y = .eq ∧ x = y) ∨
    (nullsFirst x y = .gt ∧ stampKey y < stampKey x) := by
  cases x with
  | none =>
    cases y with
    | none => exact .inr (.inl ⟨rfl, rfl⟩)
    | some y => exact .inl ⟨rfl, WithBot.bot_lt_coe y⟩
  | some x =>
    cases y with
    | none => exact .inr (.inr ⟨rfl, WithBot.bot_lt_coe x⟩)
    | some y =>
      have hcompare : nullsFirst (some x) (some y) = compareOfLessAndEq x y := rfl
      rw [hcompare]
      unfold compareOfLessAndEq
      rcases lt_trichotomy x y with hlt | heq | hgt
      · rw [if_pos hlt]
        exact .inl ⟨rfl, WithBot.coe_lt_coe.mpr hlt⟩
      · rw [if_neg (by rw [heq]; exact lt_irrefl y), if_pos heq]
        exact .inr (.inl ⟨rfl, congrArg some heq⟩)
      · rw [if_neg hgt.not_gt, if_neg hgt.ne']
        exact .inr (.inr ⟨rfl, WithBot.coe_lt_coe.mpr hgt⟩)

theorem longestIdle_iff {a b : OAuthAccount} : (longestIdle a b != .gt) = true ↔
    a.stamp < b.stamp ∨ a.stamp = b.stamp ∧ a.createdAt ≤ b.createdAt := by
  rw [bne_iff_ne]
  unfold longestIdle
  rcases nullsFirst_cases a.lastUsedAt b.lastUsedAt with ⟨h, hlt⟩ | ⟨h, heq⟩ | ⟨h, hgt⟩
  · rw [h]
    refine ⟨fun _ => .inl hlt, fun _ => ?_⟩
    show Ordering.lt ≠ .gt
    decide
  · rw [h]
    show compare a.createdAt b.createdAt ≠ .gt ↔ _
    rw [compare_le_iff_le]
    have hstamp : a.stamp = b.stamp := congrArg stampKey heq
    simp [hstamp]
  · rw [h]
    have hstamp : b.stamp < a.stamp := hgt
    refine ⟨fun hne => absurd rfl hne, fun hor => ?_⟩
    rcases hor with hlt | ⟨heq, -⟩
    · exact absurd hlt hstamp.not_gt
    · exact absurd heq hstamp.ne'

/-- **The account that is picked** was used longest ago. -/
theorem pickByStrategy_least {strategy : String} (hstrategy : strategy ≠ "least_utilized")
    {account : OAuthAccount} (h : pickByStrategy rows providerId strategy = some account) :
    account ∈ rows ∧ usable providerId account = true ∧
      ∀ b ∈ rows, usable providerId b = true → account.stamp ≤ b.stamp := by
  have htotal : ∀ a b : OAuthAccount,
      (longestIdle a b != .gt) = true ∨ (longestIdle b a != .gt) = true := by
    intro a b
    rw [longestIdle_iff, longestIdle_iff]
    rcases lt_trichotomy a.stamp b.stamp with hlt | heq | hgt
    · exact .inl (.inl hlt)
    · rcases le_total a.createdAt b.createdAt with hle | hle
      · exact .inl (.inr ⟨heq, hle⟩)
      · exact .inr (.inr ⟨heq.symm, hle⟩)
    · exact .inr (.inl hgt)
  have htrans : ∀ a b c : OAuthAccount, (longestIdle a b != .gt) = true →
      (longestIdle b c != .gt) = true → (longestIdle a c != .gt) = true := by
    intro a b c hab hbc
    rw [longestIdle_iff] at hab hbc ⊢
    rcases hab with hab | ⟨hab, hcreated⟩
    · rcases hbc with hbc | ⟨hbc, -⟩
      · exact .inl (hab.trans hbc)
      · exact .inl (hab.trans_eq hbc)
    · rcases hbc with hbc | ⟨hbc, hcreated'⟩
      · exact .inl (hab.trans_lt hbc)
      · exact .inr ⟨hab.trans hbc, hcreated.trans hcreated'⟩
  have hpick : (PyList.sortBy (fun a b => longestIdle a b != .gt)
      (rows.filter (usable providerId))).head? = some account := by
    unfold pickByStrategy at h
    rw [if_neg hstrategy] at h
    exact h
  have hmem := PyList.mem_sortBy.mp (List.mem_of_head? hpick)
  refine ⟨(List.mem_filter.mp hmem).1, (List.mem_filter.mp hmem).2, fun b hb husable => ?_⟩
  have hsorted := PyList.pairwise_sortBy htotal htrans (rows.filter (usable providerId))
  obtain ⟨rest, hrest⟩ := List.head?_eq_some_iff.mp hpick
  rw [hrest] at hsorted
  have hin : b ∈ account :: rest := by
    rw [← hrest, PyList.mem_sortBy]
    exact List.mem_filter.mpr ⟨hb, husable⟩
  rcases List.mem_cons.mp hin with rfl | hin
  · exact le_refl _
  · rcases longestIdle_iff.mp ((List.pairwise_cons.mp hsorted).1 b hin) with hlt | ⟨heq, -⟩
    · exact hlt.le
    · exact heq.le

/-! ## One call -/

theorem useAccount_cases (settings : FanoutSettings) (provider : Provider)
    (accounts : List OAuthAccount) (call : TokenCall) :
    useAccount settings provider accounts call = (none, call.reads accounts) ∨
      ∃ account, pickByStrategy (call.reads accounts) provider.id
          (resolveStrategy settings provider) = some account ∧
        useAccount settings provider accounts call =
          (some account.id, touchLastUsed (call.reads accounts) account.id call.nowTs) := by
  cases hpick : pickByStrategy (call.reads accounts) provider.id
      (resolveStrategy settings provider) with
  | none =>
    refine .inl ?_
    unfold useAccount resolveAccessToken applyFanoutToKwargs
    cases call.entry with
    | resolveAccessToken => simp [hpick]
    | applyFanoutToKwargs kwargs => simp [hpick]
  | some account =>
    unfold useAccount resolveAccessToken applyFanoutToKwargs
    cases settings.oauthAccountFanoutEnabled with
    | false =>
      refine .inl ?_
      cases call.entry with
      | resolveAccessToken => rfl
      | applyFanoutToKwargs kwargs => simp
    | true =>
      cases call.entry with
      | resolveAccessToken => exact .inr ⟨account, rfl, by simp [hpick]⟩
      | applyFanoutToKwargs kwargs =>
        cases htype : oauthProviderTypes.contains provider.providerType with
        | false => exact .inl (by simp)
        | true => exact .inr ⟨account, rfl, by simp [hpick]⟩

theorem pickByStrategy_some_of_usable (hpool : (usableIds providerId rows).Nonempty)
    (strategy : String) : ∃ account, pickByStrategy rows providerId strategy = some account := by
  obtain ⟨id, hid⟩ := hpool
  obtain ⟨a, ha, husable, -⟩ := mem_usableIds.mp hid
  have hmem : a ∈ PyList.sortBy
      (fun a b => (if strategy = "least_utilized" then leastUtilized else longestIdle) a b != .gt)
      (rows.filter (usable providerId)) :=
    PyList.mem_sortBy.mpr (List.mem_filter.mpr ⟨ha, husable⟩)
  exact Option.isSome_iff_exists.mp (List.isSome_head?.mpr (List.ne_nil_of_mem hmem))

/-- **A call that fans out** uses an account, as long as the provider has a usable one. -/
theorem useAccount_fansOut (henabled : settings.oauthAccountFanoutEnabled = true)
    (hpool : (usableIds provider.id accounts).Nonempty) {call : TokenCall}
    (hrows : (call.reads accounts).Perm accounts) :
    (useAccount settings provider accounts call).1.isSome = fansOut provider call := by
  rw [← usableIds_perm hrows] at hpool
  obtain ⟨account, hpick⟩ :=
    pickByStrategy_some_of_usable hpool (resolveStrategy settings provider)
  unfold useAccount fansOut resolveAccessToken applyFanoutToKwargs
  rw [henabled]
  cases call.entry with
  | resolveAccessToken => simp [hpick]
  | applyFanoutToKwargs kwargs =>
    cases htype : oauthProviderTypes.contains provider.providerType with
    | false => simp
    | true => simp [hpick]

theorem usableIds_useAccount {call : TokenCall} (hrows : (call.reads accounts).Perm accounts) :
    usableIds provider.id (useAccount settings provider accounts call).2 =
      usableIds provider.id accounts := by
  rcases useAccount_cases settings provider accounts call with huse | ⟨account, -, huse⟩
  · rw [huse]
    exact usableIds_perm hrows
  · rw [huse, usableIds_touch]
    exact usableIds_perm hrows

/-- **A successful call** is a turn of one of the usable accounts. -/
theorem turn_of_pick (hids : (accounts.map OAuthAccount.id).Nodup) (hrows : rows.Perm accounts)
    {strategy : String} (hstrategy : strategy ≠ "least_utilized") {now : Rat}
    (hlater : ∀ a ∈ accounts, a.stamp < now) {account : OAuthAccount}
    (h : pickByStrategy rows providerId strategy = some account) :
    LeastRecent.Turn (usableIds providerId accounts) (stampOf accounts)
      (stampOf (touchLastUsed rows account.id now)) account.id := by
  obtain ⟨hmem, husable, hleast⟩ := pickByStrategy_least hstrategy h
  have hids' : (rows.map OAuthAccount.id).Nodup :=
    (hrows.map OAuthAccount.id).nodup_iff.mpr hids
  have hstamp : ∀ {a : OAuthAccount}, a ∈ rows → stampOf accounts a.id = a.stamp := fun ha =>
    stampOf_mem hids (hrows.mem_iff.mp ha)
  refine ⟨mem_usableIds.mpr ⟨account, hrows.mem_iff.mp hmem, husable, rfl⟩, fun x hx => ?_,
    fun x hx => ?_, fun x hx hne => ?_⟩
  · obtain ⟨a, ha, husable', rfl⟩ := mem_usableIds.mp hx
    rw [hstamp hmem, hstamp (hrows.mem_iff.mpr ha)]
    exact hleast a (hrows.mem_iff.mpr ha) husable'
  · obtain ⟨a, ha, -, rfl⟩ := mem_usableIds.mp hx
    rw [stampOf_touch hids' hmem, if_pos rfl, hstamp (hrows.mem_iff.mpr ha)]
    exact hlater a ha
  · obtain ⟨a, ha, -, rfl⟩ := mem_usableIds.mp hx
    rw [stampOf_touch hids' (hrows.mem_iff.mpr ha), if_neg hne, hstamp (hrows.mem_iff.mpr ha)]

/-! ## Runs -/

/-- Calls at rising times, after all stamps, that read all rows. -/
structure Timely (accounts : List OAuthAccount) (calls : List TokenCall) : Prop where
  ids : (accounts.map OAuthAccount.id).Nodup
  reads : ∀ call ∈ calls, ∀ rows, (call.reads rows).Perm rows
  clock : calls.Pairwise fun call call' => call.nowTs < call'.nowTs
  later : ∀ a ∈ accounts, ∀ call ∈ calls, a.stamp < (call.nowTs : WithBot Rat)

theorem Timely.next {call : TokenCall} {calls : List TokenCall} {next : List OAuthAccount}
    (h : Timely accounts (call :: calls)) (hids : (next.map OAuthAccount.id).Nodup)
    (hnext : ∀ b ∈ next, b.stamp = call.nowTs ∨ ∃ a ∈ accounts, b.stamp = a.stamp) :
    Timely next calls where
  ids := hids
  reads c hc := h.reads c (List.mem_cons_of_mem _ hc)
  clock := (List.pairwise_cons.mp h.clock).2
  later b hb c hc := by
    rcases hnext b hb with heq | ⟨a, ha, heq⟩
    · rw [heq]
      exact WithBot.coe_lt_coe.mpr ((List.pairwise_cons.mp h.clock).1 c hc)
    · rw [heq]
      exact h.later a ha c (List.mem_cons_of_mem _ hc)

/-- **The successful calls are turns.** -/
theorem turns_of_calls (hstrategy : resolveStrategy settings provider ≠ "least_utilized")
    {calls : List TokenCall} (h : Timely accounts calls) :
    LeastRecent.Turns (usableIds provider.id accounts) (stampOf accounts)
      (usedAccounts settings provider accounts calls) := by
  induction calls generalizing accounts with
  | nil => exact .nil _
  | cons call calls ih =>
    have hrows := h.reads call List.mem_cons_self accounts
    have hids : ((call.reads accounts).map OAuthAccount.id).Nodup :=
      (hrows.map OAuthAccount.id).nodup_iff.mpr h.ids
    unfold usedAccounts
    rcases useAccount_cases settings provider accounts call with huse | ⟨account, hpick, huse⟩
    · rw [huse]
      have hnext := ih (h.next hids fun b hb => .inr ⟨b, hrows.mem_iff.mp hb, rfl⟩)
      rw [usableIds_perm hrows] at hnext
      rw [stampOf_perm h.ids hrows] at hnext
      exact hnext
    · rw [huse]
      have hlater : ∀ a ∈ accounts, a.stamp < (call.nowTs : WithBot Rat) := fun a ha =>
        h.later a ha call List.mem_cons_self
      refine .cons (turn_of_pick h.ids hrows hstrategy hlater hpick) ?_
      have hnext : Timely (touchLastUsed (call.reads accounts) account.id call.nowTs) calls := by
        refine h.next (by rw [touchLastUsed_ids]; exact hids) fun b hb => ?_
        obtain ⟨a, ha, rfl⟩ := List.mem_map.mp hb
        split
        · exact .inl rfl
        · exact .inr ⟨a, hrows.mem_iff.mp ha, rfl⟩
      have hturns := ih hnext
      rwa [usableIds_touch, usableIds_perm hrows] at hturns

/-- **Every call that fans out is a successful one.** -/
theorem length_usedAccounts (henabled : settings.oauthAccountFanoutEnabled = true)
    {calls : List TokenCall} (hpool : (usableIds provider.id accounts).Nonempty)
    (hreads : ∀ call ∈ calls, ∀ rows, (call.reads rows).Perm rows) :
    (usedAccounts settings provider accounts calls).length =
      calls.countP (fansOut provider) := by
  induction calls generalizing accounts with
  | nil => rfl
  | cons call calls ih =>
    obtain ⟨hcall, hcalls⟩ := List.forall_mem_cons.mp hreads
    have hpool' : (usableIds provider.id
        (useAccount settings provider accounts call).2).Nonempty := by
      rw [usableIds_useAccount (hcall accounts)]
      exact hpool
    have hnext := ih hpool' hcalls
    have huses := useAccount_fansOut henabled hpool (hcall accounts)
    unfold usedAccounts
    rw [List.length_append, hnext, List.countP_cons, ← huses, Nat.add_comm]
    cases (useAccount settings provider accounts call).1 <;> rfl

end

/-! ## Main theorem -/

/-- Each call is served by an account, each account has its turn, and the turns come round. -/
structure RotationFair (settings : FanoutSettings) (provider : Provider)
    (accounts : List OAuthAccount) (calls : List TokenCall) : Prop where
  served : settings.oauthAccountFanoutEnabled = true →
    accounts.filter (usable provider.id) ≠ [] →
    (usedAccounts settings provider accounts calls).length = calls.countP (fansOut provider)
  distinct : ∀ i, (((usedAccounts settings provider accounts calls).drop i).take
    (accounts.filter (usable provider.id)).length).Nodup
  period : ∀ i, i + (accounts.filter (usable provider.id)).length <
      (usedAccounts settings provider accounts calls).length →
    (usedAccounts settings provider accounts calls)[i +
        (accounts.filter (usable provider.id)).length]? =
      (usedAccounts settings provider accounts calls)[i]?
  usable : ∀ id ∈ usedAccounts settings provider accounts calls, ∃ a ∈ accounts, a.id = id ∧
    a.providerId = provider.id ∧ a.enabled = true ∧ a.deletedAt = none

/-! ### Three accounts -/

/-- Two accounts that were never used, one that was, and one that is disabled. -/
def threeAccounts : List OAuthAccount :=
  [{ id := "a1", providerId := "p1", accessToken := "t1" },
    { id := "a2", providerId := "p1", accessToken := "t2", lastUsedAt := some 50 },
    { id := "a3", providerId := "p1", accessToken := "t3" },
    { id := "a4", providerId := "p1", accessToken := "t4", enabled := false }]

def roundRobinProvider : Provider :=
  { id := "p1", name := "cursor", providerType := "cursor-oauth",
    oauthAccountStrategy := some "round_robin" }

def noKwargs : LitellmKwargs := ⟨none, none, some 30⟩

/-- Calls of both entry points, in turns. -/
def fiveCalls : List TokenCall :=
  [⟨.resolveAccessToken, 101, id⟩, ⟨.applyFanoutToKwargs noKwargs, 102, List.reverse⟩,
    ⟨.resolveAccessToken, 103, id⟩, ⟨.applyFanoutToKwargs noKwargs, 104, id⟩,
    ⟨.resolveAccessToken, 105, id⟩]

theorem fiveCalls_timely : Timely threeAccounts fiveCalls where
  ids := by decide
  reads call hcall rows := by
    simp only [fiveCalls, List.mem_cons, List.not_mem_nil, or_false] at hcall
    rcases hcall with rfl | rfl | rfl | rfl | rfl
    · exact List.Perm.refl _
    · exact List.reverse_perm _
    · exact List.Perm.refl _
    · exact List.Perm.refl _
    · exact List.Perm.refl _
  clock := by decide
  later := by decide

example : usedAccounts {} roundRobinProvider threeAccounts fiveCalls =
    ["a1", "a3", "a2", "a1", "a3"] := by decide

end LlmProxy.OAuth
