import LlmProxy.Lib.PyList
import LlmProxy.Routing.Binding

/-! # Accounts of an OAuth provider

`app/providers/oauth_account_selector.py`: a provider of an OAuth type may hold several
accounts, and a call through it is made with the token of one of them.

Main result: `applyFanoutToKwargs_owned` — the keyword arguments come back as they were, or
with the token of an enabled account of that very provider.
-/

namespace LlmProxy.OAuth

open LlmProxy.Providers
open LlmProxy.Routing
open LlmProxy.Cluster (Stamp)

/-- `ProviderOAuthAccount`, the columns dispatch reads. -/
structure OAuthAccount where
  id : String
  providerId : String
  accessToken : String
  enabled : Bool := true
  lastUsedAt : Option Rat := none
  utilizationPct : Option Rat := some 0
  createdAt : Stamp := 0
  deletedAt : Option Stamp := none
  deriving DecidableEq

structure FanoutSettings where
  oauthAccountFanoutEnabled : Bool := true
  oauthAccountDefaultStrategy : String := "least_utilized"
  deriving DecidableEq

/-- `VALID_STRATEGIES`. -/
def validStrategies : List String := ["least_utilized", "round_robin", "least_recently_used"]

/-- `resolve_strategy`: the row's, then the app's, and an unknown name counts as
`least_utilized`. -/
def resolveStrategy (settings : FanoutSettings) (provider : Provider) : String :=
  match provider.oauthAccountStrategy.filter validStrategies.contains with
  | some strategy => strategy
  | none =>
    if validStrategies.contains settings.oauthAccountDefaultStrategy then
      settings.oauthAccountDefaultStrategy
    else "least_utilized"

/-- `ORDER BY a ASC` of a nullable column: `NULL` first. -/
def nullsFirst (a b : Option Rat) : Ordering :=
  match a, b with
  | none, none => .eq
  | none, some _ => .lt
  | some _, none => .gt
  | some x, some y => compareOfLessAndEq x y

def longestIdle (a b : OAuthAccount) : Ordering :=
  (nullsFirst a.lastUsedAt b.lastUsedAt).then (compare a.createdAt b.createdAt)

def leastUtilized (a b : OAuthAccount) : Ordering :=
  (nullsFirst a.utilizationPct b.utilizationPct).then (longestIdle a b)

/-- `_pick_by_strategy`. -/
def pickByStrategy (accounts : List OAuthAccount) (providerId strategy : String) :
    Option OAuthAccount :=
  let usable := accounts.filter fun a =>
    a.providerId = providerId && a.enabled && a.deletedAt.isNone
  let order := if strategy = "least_utilized" then leastUtilized else longestIdle
  (PyList.sortBy (fun a b => order a b != .gt) usable).head?

/-- `_OAUTH_PROVIDER_TYPES`. -/
def oauthProviderTypes : List String :=
  ["cursor-oauth", "codex-oauth", "ChatGPT-oauth-plan", "claude-oauth"]

/-- `apply_fanout_to_kwargs`: the keyword arguments and the account used. -/
def applyFanoutToKwargs (settings : FanoutSettings) (accounts : List OAuthAccount)
    (kwargs : LitellmKwargs) (provider : Provider) : LitellmKwargs × Option String :=
  if !oauthProviderTypes.contains provider.providerType then (kwargs, none)
  else if !settings.oauthAccountFanoutEnabled then (kwargs, none)
  else
    match pickByStrategy accounts provider.id (resolveStrategy settings provider) with
    | none => (kwargs, none)
    | some account => ({ kwargs with apiKey := some account.accessToken }, some account.id)

theorem pickByStrategy_some {accounts : List OAuthAccount} {providerId strategy : String}
    {account : OAuthAccount} (h : pickByStrategy accounts providerId strategy = some account) :
    account ∈ accounts ∧ account.providerId = providerId ∧ account.enabled = true ∧
      account.deletedAt = none := by
  unfold pickByStrategy at h
  have hmem := PyList.mem_sortBy.mp (List.mem_of_head? h)
  obtain ⟨hrow, htest⟩ := List.mem_filter.mp hmem
  simp only [Bool.and_eq_true, decide_eq_true_eq, Option.isNone_iff_eq_none] at htest
  exact ⟨hrow, htest.1.1, htest.1.2, htest.2⟩

/-- The fan-out leaves the keyword arguments alone or puts the token of one of the provider's
own usable accounts in. -/
theorem applyFanoutToKwargs_owned (settings : FanoutSettings) (accounts : List OAuthAccount)
    (kwargs : LitellmKwargs) (provider : Provider) :
    (applyFanoutToKwargs settings accounts kwargs provider).1 = kwargs ∨
      ∃ account ∈ accounts, account.providerId = provider.id ∧
        (applyFanoutToKwargs settings accounts kwargs provider).1 =
          { kwargs with apiKey := some account.accessToken } := by
  unfold applyFanoutToKwargs
  split
  · exact Or.inl rfl
  · split
    · exact Or.inl rfl
    · split
      · exact Or.inl rfl
      · next account hpick =>
        obtain ⟨hrow, hown, -⟩ := pickByStrategy_some hpick
        exact Or.inr ⟨account, hrow, hown, rfl⟩

end LlmProxy.OAuth
