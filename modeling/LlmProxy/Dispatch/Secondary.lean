import LlmProxy.Dispatch.Handlers
import LlmProxy.Routing.Compliance

/-! # The policy on secondary routes

The policy filter of `select_provider` runs for a caller that passes the key. The selections of
the tool walk, the claude-oauth chain, the cheap-first cascade, the empty-stream guard and the
refusal cascade pass it; those of the fallback chain, the hedge backup, the grok-web failover and
the critique route do not, and offer every provider open to the key.

Main result: `policy_preserved_iff` — the content of a key goes to accepted providers only, in
every run of every request for a model, exactly when each provider the unfiltered selections can
offer is accepted for that model.
-/

namespace LlmProxy.Dispatch

open LlmProxy.Providers
open LlmProxy.Routing
open LlmProxy.Compliance
open LlmProxy.Cluster (ApiKey)
open Logged

section

variable (rows : List Provider) (keys : List ApiKey) (system : Policy) (key : ApiKeyRecord)

/-- A world a request of the key can meet: `prepare_request_context` has set the context
variable. -/
structure Visible (w : World) : Prop where
  rows : w.providers = rows
  keys : w.keys = keys
  system : w.systemPolicy = system
  context : w.currentApiKeyId = some key.id

structure HandlerEnv.Sees (env : HandlerEnv) : Prop where
  primary : Visible rows keys system key env.routing.approach.primaryWorld
  walk : ∀ n k, Visible rows keys system key (env.routing.approach.walkWorlds n k)
  oauth : ∀ n k, Visible rows keys system key (env.routing.approach.oauthWorlds n k)
  grok : Visible rows keys system key env.routing.grokWorld
  critique : Visible rows keys system key env.serving.critiqueWorld
  hedge : Visible rows keys system key env.serving.hedgeWorld
  guard : ∀ n, Visible rows keys system key (env.serving.guardWorlds n)
  cheap : Visible rows keys system key env.serving.dispatch.cheapWorld
  grader : Visible rows keys system key env.serving.dispatch.graderWorld
  fallback : ∀ n, Visible rows keys system key (env.serving.dispatch.fallbackWorlds n)
  refusal : ∀ n, Visible rows keys system key (env.serving.dispatch.refusalWorlds n)

/-- The policy accepts the provider for the requested model. -/
def cleared (model : Option String) (p : Provider) : Bool :=
  accepts (getEffectivePolicy keys system (some key.id)) p model

/-- In every run of every request of the key for the model, content is sent to accepted
providers only. -/
def PolicyPreserved (model : Option String) : Prop :=
  ∀ (req : ChatRequest) (env : HandlerEnv), req.key = key → req.primaryModel = model →
    env.Sees rows keys system key →
      ∀ sent ∈ (handle req env).log, cleared keys system key model sent.route.provider = true

/-- A selection can offer the provider, whatever the policy says. -/
def opens (p : Provider) : Bool := p.enabled && accessible (some key.id) p

/-- Without a model the default of the provider is asked for. -/
def takes (model : Option String) (p : Provider) : Bool := (truthy model).isSome || chatDefault p

theorem takes_of_falsy {model : Option String} (h : truthy model = none) (p : Provider) :
    takes model p = chatDefault p := by
  unfold takes
  rw [h]
  exact Bool.false_or _

def askable (model : Option String) : Bool :=
  model ≠ some "" && (model ≠ some "coordinator-local" ||
    rows.any fun p => p.enabled && !p.deleted && isSelfHostedProvider p)

def starts (model : Option String) (p : Provider) : Bool :=
  askable rows model && opens key p && takes model p && cleared keys system key model p

def bridged (model : Option String) : Bool :=
  rows.any fun g => starts rows keys system key model g && g.providerType = "grok-web"

/-- The failover behind the bridge can offer the provider. -/
def failsOverTo (p : Provider) : Bool :=
  opens key p && !ownDispatcherProviderTypes.contains p.providerType

/-- A request for the model can come to the litellm path on the provider. -/
def served (model : Option String) (p : Provider) : Bool :=
  (starts rows keys system key model p &&
      !(["claude-oauth", "grok-web"].contains p.providerType)) ||
    (bridged rows keys system key model && failsOverTo key p)

/-- A stream of a request for the model can be hedged or criticised: where the refusal cascade
is on, `/v1/messages` does not stream, and `/v1/chat/completions` has a dispatcher of its own
for a ChatGPT plan. -/
def backed (model : Option String) : Bool :=
  rows.any fun s => served rows keys system key model s &&
    (s.providerType ≠ "ChatGPT-oauth-plan" || !key.refusalRetryEnabled)

/-- A request for the model can fall back from its route. -/
def fallsBack (model : Option String) : Bool := rows.any (served rows keys system key model)

/-- One of the selections that are not told the key can offer the provider. -/
def exposed (model : Option String) (p : Provider) : Bool :=
  opens key p &&
    ((bridged rows keys system key model &&
        !ownDispatcherProviderTypes.contains p.providerType) ||
      (backed rows keys system key model && p.providerType ≠ "claude-oauth" && chatDefault p) ||
      (fallsBack rows keys system key model && !oauthTypes.contains p.providerType &&
        takes model p))

end

variable {rows : List Provider} {keys : List ApiKey} {system : Policy} {key : ApiKeyRecord}
  {model : Option String}

/-! ## What a selection offers -/

theorem selected_opens {w : World} {req : RouteRequest} {r : RouteResult}
    (hw : Visible rows keys system key w)
    (hkey : req.apiKeyId = none ∨ req.apiKeyId = some key.id)
    (h : selectRoute w req = .ok r) :
    r.provider ∈ rows ∧ opens key r.provider = true ∧
      takes req.modelOverride r.provider = true ∧
      r.provider.providerType ∉ req.excludedProviderTypes := by
  obtain ⟨hadm, -, -⟩ := selectRoute_route h
  have heffective : effectiveKey w req = some key.id := by
    rcases hkey with hnone | hsome
    · unfold effectiveKey
      rw [hnone]
      exact hw.context
    · exact effectiveKey_of_id key.nonempty hsome
  have haccess := hadm.accessible
  rw [heffective] at haccess
  refine ⟨hw.rows ▸ hadm.row, by simp [opens, hadm.enabled, haccess], ?_, hadm.type⟩
  unfold takes
  cases hm : truthy req.modelOverride with
  | some m => rfl
  | none => simp [hadm.chat hm]

theorem selected_cleared {w : World} {req : RouteRequest} {r : RouteResult}
    (hw : Visible rows keys system key w) (hkey : req.apiKeyId = some key.id)
    (hlist : req.blockedCompanies = none) (h : selectRoute w req = .ok r) :
    cleared keys system key req.modelOverride r.provider = true := by
  obtain ⟨hadm, -, -⟩ := selectRoute_route h
  have hfilter := hadm.compliant hlist key.id (by rw [hkey, truthy_some key.nonempty])
  rw [hw.keys, hw.system] at hfilter
  exact hfilter

theorem starts_of_selected {w : World} {req : RouteRequest} {r : RouteResult} {s : Provider}
    (hs : starts rows keys system key model s = true) (hw : Visible rows keys system key w)
    (hkey : req.apiKeyId = some key.id) (hlist : req.blockedCompanies = none)
    (hmodel : req.modelOverride = none) (h : selectRoute w req = .ok r) :
    r.provider ∈ rows ∧ starts rows keys system key model r.provider = true := by
  obtain ⟨hrow, hopen, htakes, -⟩ := selected_opens hw (Or.inr hkey) h
  have hpass := selected_cleared hw hkey hlist h
  rw [hmodel] at hpass
  rw [hmodel, takes_of_falsy rfl] at htakes
  simp only [starts, Bool.and_eq_true] at hs ⊢
  obtain ⟨⟨⟨hask, -⟩, -⟩, hclear⟩ := hs
  have hchat : takes model r.provider = true := by simp [takes, htakes]
  exact ⟨hrow, ⟨⟨hask, hopen⟩, hchat⟩, accepts_of_accepts_none hclear hpass⟩

theorem cleared_of_starts {s : Provider} (hs : starts rows keys system key model s = true) :
    cleared keys system key model s = true := (Bool.and_eq_true_iff.mp hs).2

/-! ## Sufficiency -/

section

variable {req : ChatRequest} {env : HandlerEnv}

/-- The entries of a log that went to accepted providers. -/
def SentCleared (keys : List ApiKey) (system : Policy) (key : ApiKeyRecord)
    (model : Option String) (sent : Sent) : Prop :=
  cleared keys system key model sent.route.provider = true

theorem send_ensures {stage : Stage} {r : RouteResult}
    (h : cleared keys system key model r.provider = true) :
    Ensures (SentCleared keys system key model) (fun _ => True) (send stage r) :=
  ensures_perform h fun _ _ => trivial

theorem primaryModel_cases (req : ChatRequest) :
    req.primaryModel = none ∨ req.primaryModel = req.requestedModel := by
  unfold ChatRequest.primaryModel
  split
  · exact Or.inl rfl
  · exact Or.inr rfl

theorem selectProviderWith503_starts {w : World} {r : RouteResult} (hkey : req.key = key)
    (hmodel : req.primaryModel = model) (hw : Visible rows keys system key w)
    (h : selectProviderWith503 w req = .ok r) :
    r.provider ∈ rows ∧ starts rows keys system key model r.provider = true := by
  unfold selectProviderWith503 at h
  split at h
  · cases h
  · next hlocal =>
    cases hselect : selectRoute w (primaryRequest req) with
    | error e =>
      rw [hselect] at h
      cases h
    | ok r' =>
      rw [hselect] at h
      have hr : r' = r := Except.ok.inj h
      rw [hr] at hselect
      have hid : (primaryRequest req).apiKeyId = some key.id := by
        rw [← hkey]
        rfl
      obtain ⟨hrow, hopen, htakes, -⟩ := selected_opens hw (Or.inr hid) hselect
      have hclear := selected_cleared hw hid rfl hselect
      rw [primaryRequest_modelOverride, hmodel] at htakes hclear
      have hask : askable rows model = true := by
        have hnonempty : model ≠ some "" := by
          rw [← hmodel]
          rcases primaryModel_cases req with hnone | hsame
          · rw [hnone]
            exact fun hcontra => nomatch hcontra
          · rw [hsame]
            unfold ChatRequest.requestedModel truthy
            simp
        unfold askable
        rw [← hw.rows]
        by_cases hcoord : model = some "coordinator-local"
        · rcases primaryModel_cases req with hnone | hsame
          · rw [hmodel, hcoord] at hnone
            cases hnone
          · rw [hmodel, hcoord] at hsame
            rw [← hsame] at hlocal
            simpa [hcoord, and_assoc] using hlocal
        · simp [hnonempty, hcoord]
      simp only [starts, Bool.and_eq_true]
      exact ⟨hrow, ⟨⟨hask, hopen⟩, htakes⟩, hclear⟩

theorem selectExcluding_starts {s : Provider} {worlds : Nat → World}
    {setOrder : List String → List String} {excluded : List String} {r : RouteResult}
    (hkey : req.key = key) (hs : starts rows keys system key model s = true)
    (hw : ∀ k, Visible rows keys system key (worlds k)) (left n : Nat)
    (h : selectExcluding worlds setOrder (walkRequest req) excluded left n = .ok r) :
    r.provider ∈ rows ∧ starts rows keys system key model r.provider = true := by
  induction left generalizing n with
  | zero => cases h
  | succ left ih =>
    unfold selectExcluding at h
    split at h
    · cases h
    · next r' hselect =>
      split at h
      · exact ih (n + 1) h
      · rw [Except.ok.inj h] at hselect
        refine starts_of_selected hs (hw n) ?_ rfl rfl hselect
        rw [← hkey]
        rfl

theorem toolWalk_starts {walk : ApproachEnv} (hkey : req.key = key)
    (hw : ∀ n k, Visible rows keys system key (walk.walkWorlds n k)) (fuel n : Nat)
    {route r : RouteResult} (hrow : route.provider ∈ rows)
    (hs : starts rows keys system key model route.provider = true)
    (h : toolWalk req walk fuel n route = .ok r) :
    r.provider ∈ rows ∧ starts rows keys system key model r.provider = true := by
  induction fuel generalizing n route with
  | zero => cases h
  | succ fuel ih =>
    unfold toolWalk at h
    split at h
    · split at h
      · cases h
      · next next hnext =>
        obtain ⟨hrow', hs'⟩ := selectExcluding_starts hkey hs (hw n) 20 0 hnext
        exact ih (n + 1) hrow' hs' h
    · rw [← Except.ok.inj h]
      exact ⟨hrow, hs⟩

theorem oauthChain_ensures {walk : ApproachEnv} (hkey : req.key = key)
    (hw : ∀ n k, Visible rows keys system key (walk.oauthWorlds n k)) (fuel n : Nat)
    (tried : List String) (route : RouteResult) (hrow : route.provider ∈ rows)
    (hs : starts rows keys system key model route.provider = true) :
    Ensures (SentCleared keys system key model)
      (fun out => ∀ r, out = some r → r.provider ∈ rows ∧
        starts rows keys system key model r.provider = true ∧
          r.provider.providerType ≠ "claude-oauth")
      (oauthChain req walk fuel n tried route) := by
  induction fuel generalizing n tried route with
  | zero => exact ensures_raise _
  | succ fuel ih =>
    unfold oauthChain
    split
    · next htype =>
      refine ensures_pure fun r hr => ?_
      rw [← Option.some.inj hr]
      exact ⟨hrow, hs, htype⟩
    · apply (send_ensures (cleared_of_starts hs)).bind
      intro _ _
      dsimp only
      split
      · split
        · exact ensures_raise _
        · next next hnext =>
          obtain ⟨hrow', hs'⟩ := selectExcluding_starts hkey hs (hw n) 20 0 hnext
          exact ih (n + 1) _ next hrow' hs'
      · split
        · exact ensures_raise _
        · exact ensures_raise _
        · exact ensures_pure fun r hr => nomatch hr

/-- Where a request stands before the bridge. -/
def Approached (rows : List Provider) (keys : List ApiKey) (system : Policy) (key : ApiKeyRecord)
    (model : Option String) (req : ChatRequest) (p : Provider) : Prop :=
  p ∈ rows ∧ starts rows keys system key model p = true ∧ p.providerType ≠ "claude-oauth" ∧
    (p.providerType = "ChatGPT-oauth-plan" → req.endpoint = .messages)

theorem approach_ensures (hkey : req.key = key) (hmodel : req.primaryModel = model)
    (henv : env.Sees rows keys system key) :
    Ensures (SentCleared keys system key model)
      (fun out => ∀ routed, out = some routed →
        Approached rows keys system key model req routed.route.provider)
      (approach req env.routing.approach) := by
  unfold approach
  split
  · next hendpoint =>
    unfold approachMessages
    have hprimary : Ensures (SentCleared keys system key model)
        (fun r : RouteResult => r.provider ∈ rows ∧
          starts rows keys system key model r.provider = true)
        (lift (selectProviderWith503 env.routing.approach.primaryWorld req)) :=
      ensures_lift fun r h => selectProviderWith503_starts hkey hmodel henv.primary h
    apply hprimary.bind
    intro primary hstart
    have hwalk : Ensures (SentCleared keys system key model)
        (fun r : RouteResult => r.provider ∈ rows ∧
          starts rows keys system key model r.provider = true)
        (lift (toolWalk req env.routing.approach env.routing.approach.fuel 0 primary)) :=
      ensures_lift fun r h => toolWalk_starts hkey henv.walk _ 0 hstart.1 hstart.2 h
    apply hwalk.bind
    intro first hfirst
    apply (ensures_lift (Q := fun _ => True) fun _ _ => trivial).bind
    intro body _
    split
    · apply (send_ensures (cleared_of_starts hfirst.2)).bind
      intro _ _
      exact ensures_pure fun routed hr => nomatch hr
    · apply (oauthChain_ensures hkey henv.oauth _ 0 [] first hfirst.1 hfirst.2).bind
      intro chained hchained
      refine ensures_pure fun routed hrouted => ?_
      obtain ⟨r, hr, hmk⟩ := Option.map_eq_some_iff.mp hrouted
      rw [← hmk]
      obtain ⟨hrow, hs, htype⟩ := hchained r hr
      exact ⟨hrow, hs, htype, fun _ => hendpoint⟩
  · unfold approachCompletions
    have hprimary : Ensures (SentCleared keys system key model)
        (fun r : RouteResult => r.provider ∈ rows ∧
          starts rows keys system key model r.provider = true)
        (lift (selectProviderWith503 env.routing.approach.primaryWorld req)) :=
      ensures_lift fun r h => selectProviderWith503_starts hkey hmodel henv.primary h
    apply hprimary.bind
    intro first hfirst
    apply (ensures_lift (Q := fun _ => True) fun _ _ => trivial).bind
    intro body _
    split
    · apply (send_ensures (cleared_of_starts hfirst.2)).bind
      intro _ _
      exact ensures_pure fun routed hr => nomatch hr
    · next htype =>
      refine ensures_pure fun routed hrouted => ?_
      rw [← Option.some.inj hrouted]
      have hnot : first.provider.providerType ∉ oauthTypes := by simpa using htype
      refine ⟨hfirst.1, hfirst.2, fun hclaude => hnot ?_, fun hchat => absurd ?_ hnot⟩
      · rw [hclaude]
        exact List.mem_cons_self
      · show first.provider.providerType ∈ oauthTypes
        have hsame : first.provider.providerType = "ChatGPT-oauth-plan" := hchat
        rw [hsame]
        decide

/-- Where a request stands on the litellm path. -/
structure Settled (rows : List Provider) (keys : List ApiKey) (system : Policy)
    (key : ApiKeyRecord) (model : Option String) (req : ChatRequest) (p : Provider) : Prop where
  row : p ∈ rows
  served : served rows keys system key model p = true
  clear : cleared keys system key model p = true
  chatgpt : p.providerType = "ChatGPT-oauth-plan" → req.endpoint = .messages

theorem settle_ensures (hkey : req.key = key) (hmodel : req.primaryModel = model)
    (henv : env.Sees rows keys system key)
    (hexposed : ∀ p ∈ rows, exposed rows keys system key model p = true →
      cleared keys system key model p = true) :
    Ensures (SentCleared keys system key model)
      (fun out => ∀ routed, out = some routed →
        Settled rows keys system key model req routed.route.provider)
      (settle req env.routing) := by
  unfold settle
  apply (approach_ensures hkey hmodel henv).bind
  intro out hout
  cases out with
  | none => exact ensures_pure fun routed hr => nomatch hr
  | some routed =>
    obtain ⟨hrow, hs, hclaude, hchat⟩ := hout routed rfl
    show Ensures _ _ (dispatchGrokWeb req env.routing routed)
    unfold dispatchGrokWeb
    split
    · next hgrok =>
      refine ensures_pure fun routed' hr => ?_
      rw [← Option.some.inj hr]
      have hserved : served rows keys system key model routed.route.provider = true := by
        simp [served, hs, hclaude, hgrok]
      exact ⟨hrow, hserved, cleared_of_starts hs, hchat⟩
    · next hgrok =>
      apply (send_ensures (cleared_of_starts hs)).bind
      intro _ _
      split
      · exact ensures_pure fun routed' hr => nomatch hr
      · split
        · exact ensures_raise _
        · next r hselect =>
          split
          · exact ensures_raise _
          · refine ensures_pure fun routed' hr => ?_
            rw [← Option.some.inj hr]
            have hsame : (failoverRoute routed.model r).provider = r.provider := by
              unfold failoverRoute
              split <;> rfl
            show Settled _ _ _ _ _ _ (failoverRoute routed.model r).provider
            rw [hsame]
            obtain ⟨hrow', hopen, -, htype⟩ := selected_opens henv.grok (Or.inl rfl) hselect
            have htype' : r.provider.providerType ∉ ownDispatcherProviderTypes := htype
            have hbridged : bridged rows keys system key model = true :=
              List.any_eq_true.mpr ⟨_, hrow, by simpa [hs] using hgrok⟩
            refine ⟨hrow', ?_, hexposed r.provider hrow' ?_, fun hcontra => ?_⟩
            · simp [served, hbridged, failsOverTo, hopen, htype']
            · simp [exposed, hopen, hbridged, htype']
            · rw [hcontra] at htype'
              exact absurd (by decide) htype'

/-! ### On the litellm path -/

theorem backed_of_settled {s : Provider} (hkey : req.key = key)
    (hs : Settled rows keys system key model req s) (hstreams : req.streams = true) :
    backed rows keys system key model = true := by
  refine List.any_eq_true.mpr ⟨s, hs.row, ?_⟩
  by_cases hchat : s.providerType = "ChatGPT-oauth-plan"
  · -- such a route is served on `/v1/messages`, which streams only without the refusal cascade
    have hendpoint := hs.chatgpt hchat
    have hoff : key.refusalRetryEnabled = false := by
      rw [← hkey]
      unfold ChatRequest.streams ChatRequest.buffered at hstreams
      cases hretry : req.key.refusalRetryEnabled with
      | false => rfl
      | true => cases hstream : req.stream <;> simp [hendpoint, hretry, hstream] at hstreams
    simp [hs.served, hoff]
  · simp [hs.served, hchat]

/-- The critique route and the hedge backup: selected without the key, from all types but
claude-oauth. -/
theorem unkeyed_cleared {w : World} {request : RouteRequest} {r : RouteResult}
    (hexposed : ∀ p ∈ rows, exposed rows keys system key model p = true →
      cleared keys system key model p = true)
    (hbacked : backed rows keys system key model = true) (hw : Visible rows keys system key w)
    (hkey : request.apiKeyId = none) (hmodel : request.modelOverride = none)
    (htypes : request.excludedProviderTypes = ["claude-oauth"])
    (h : selectRoute w request = .ok r) : cleared keys system key model r.provider = true := by
  obtain ⟨hrow, hopen, htakes, htype⟩ := selected_opens hw (Or.inl hkey) h
  rw [hmodel, takes_of_falsy rfl] at htakes
  rw [htypes, List.mem_singleton] at htype
  exact hexposed r.provider hrow (by simp [exposed, hopen, hbacked, htype, htakes])

theorem engageCot_ensures {route : RouteResult} (hkey : req.key = key)
    (henv : env.Sees rows keys system key)
    (hexposed : ∀ p ∈ rows, exposed rows keys system key model p = true →
      cleared keys system key model p = true)
    (hs : Settled rows keys system key model req route.provider) :
    Ensures (SentCleared keys system key model) (fun _ => True)
      (engageCot req env.serving route) := by
  unfold engageCot
  split
  · exact ensures_raise _
  · next hstreams =>
    have hbacked := backed_of_settled hkey hs (by simpa using hstreams)
    apply (send_ensures hs.clear).bind
    intro _ _
    split
    · split
      · exact ensures_pure trivial
      · next critique hselect =>
        split
        · exact send_ensures
            (unkeyed_cleared hexposed hbacked henv.critique rfl rfl rfl hselect)
        · exact ensures_pure trivial
    · exact ensures_pure trivial

theorem hedge_ensures {route : RouteResult} (henv : env.Sees rows keys system key)
    (hexposed : ∀ p ∈ rows, exposed rows keys system key model p = true →
      cleared keys system key model p = true)
    (hbacked : backed rows keys system key model = true)
    (hclear : cleared keys system key model route.provider = true) :
    Ensures (SentCleared keys system key model) (fun _ => True)
      (hedge req env.serving route) := by
  unfold hedge
  split
  · split
    · exact ensures_pure trivial
    · next backup hselect =>
      apply (send_ensures hclear).bind
      intro _ _
      have hstart : Ensures (SentCleared keys system key model) (fun _ => True)
          (startBackup env.serving backup) := by
        unfold startBackup
        split
        · exact send_ensures (unkeyed_cleared hexposed hbacked henv.hedge rfl rfl rfl hselect)
        · exact ensures_pure trivial
      apply hstart.bind
      intro _ _
      split
      · exact ensures_raise _
      · exact ensures_pure trivial
      · exact ensures_pure trivial
  · exact ensures_pure trivial

theorem guardRequest_cleared {w : World} {r : RouteResult} {s : Provider} {ids : List String}
    (hkey : req.key = key) (hmodel : req.primaryModel = model)
    (hclear : cleared keys system key model s = true) (hw : Visible rows keys system key w)
    (h : selectRoute w (guardRequest req ids) = .ok r) :
    cleared keys system key model r.provider = true := by
  have hid : (guardRequest req ids).apiKeyId = some key.id := by
    rw [← hkey]
    rfl
  have hpass := selected_cleared hw hid rfl h
  have hoverride : (guardRequest req ids).modelOverride =
      if req.isAuto || req.logical then none else req.requestedModel := rfl
  rw [hoverride] at hpass
  split at hpass
  · exact accepts_of_accepts_none hclear hpass
  · next hnone =>
    have hlogical : req.logical = false := by
      have hboth := Bool.or_eq_false_iff.mp (Bool.eq_false_iff.mpr hnone)
      exact hboth.2
    have hsame : req.requestedModel = model := by
      rw [← hmodel]
      unfold ChatRequest.primaryModel
      rw [hlogical, if_neg Bool.false_ne_true]
    rw [hsame] at hpass
    exact hpass

theorem streamWithEmptyGuard_ensures (hkey : req.key = key) (hmodel : req.primaryModel = model)
    (henv : env.Sees rows keys system key) (left n : Nat) (emptyFailed : List String)
    (route : RouteResult) (hclear : cleared keys system key model route.provider = true) :
    Ensures (SentCleared keys system key model) (fun _ => True)
      (streamWithEmptyGuard req env.serving left n emptyFailed route) := by
  induction left generalizing n emptyFailed route with
  | zero => exact ensures_raise _
  | succ left ih =>
    unfold streamWithEmptyGuard
    apply (send_ensures hclear).bind
    intro _ _
    split
    · exact ensures_raise _
    · exact ensures_pure trivial
    · dsimp only
      split
      · exact ensures_raise _
      · split
        · exact ensures_raise _
        · next next hselect =>
          have hnext := guardRequest_cleared hkey hmodel hclear (henv.guard n) hselect
          split
          · exact ensures_raise _
          · exact ih (n + 1) _ next hnext

/-! ### The answers of a completion -/

theorem truthy_aliasModel (req : ChatRequest) (h : req.primaryModel = none) :
    truthy (req.modelAlias.map (·.modelId)) = none := by
  cases halias : req.modelAlias with
  | none => rfl
  | some a =>
    unfold ChatRequest.primaryModel ChatRequest.logical ChatRequest.requestedModel at h
    simpa [halias] using h

theorem nextRoute_cleared {w : World} {routed : Routed} {ids : List String} {r : RouteResult}
    (hmodel : req.primaryModel = model)
    (hexposed : ∀ p ∈ rows, exposed rows keys system key model p = true →
      cleared keys system key model p = true)
    (hs : Settled rows keys system key model req routed.route.provider)
    (hw : Visible rows keys system key w)
    (h : nextRoute w (rankedArgs (dispatchCtx req routed)) ids = .ok r) :
    cleared keys system key model r.provider = true := by
  obtain ⟨hoauth, -, away, -, hselect⟩ := nextFrom_ok (nextRoute_ok h).2
  obtain ⟨hrow, hopen, htakes, -⟩ := selected_opens hw (Or.inl rfl) hselect
  have hfalls : fallsBack rows keys system key model = true :=
    List.any_eq_true.mpr ⟨_, hs.row, hs.served⟩
  have htype : r.provider.providerType ∉ oauthTypes := by
    unfold isOauthRoute at hoauth
    simpa using hoauth
  have hasks : takes model r.provider = true := by
    cases model with
    | some m =>
      have hnonempty : truthy (some m) = some m := by
        rcases primaryModel_cases req with hnone | hsame
        · rw [hmodel] at hnone
          cases hnone
        · rw [hmodel] at hsame
          unfold ChatRequest.requestedModel at hsame
          rw [hsame]
          simp [truthy]
      simp [takes, hnonempty]
    | none =>
      rw [RouteRequest.around_modelOverride, rankedArgs_modelOverride, dispatchCtx_modelAlias,
        takes_of_falsy (truthy_aliasModel req hmodel)] at htakes
      rw [takes_of_falsy rfl]
      exact htakes
  exact hexposed r.provider hrow (by simp [exposed, hopen, hfalls, htype, hasks])

theorem completeOpenai_ensures {routed : Routed} (hmodel : req.primaryModel = model)
    (henv : env.Sees rows keys system key)
    (hexposed : ∀ p ∈ rows, exposed rows keys system key model p = true →
      cleared keys system key model p = true)
    (hs : Settled rows keys system key model req routed.route.provider) :
    Ensures (SentCleared keys system key model) (fun _ => True)
      (completeOpenai req env.serving routed) := by
  unfold completeOpenai
  split
  · exact send_ensures hs.clear
  · split
    · have hcall : ∀ n (r : RouteResult), cleared keys system key model r.provider = true →
          Ensures (SentCleared keys system key model) (fun _ => True)
            (chainCall env.serving n r) :=
        fun n r hr => ensures_perform hr fun _ _ => trivial
      have hnext : ∀ n ids r, routed.route.provider.id ∈ ids →
          isOauthRoute routed.route = true ∨
            2 ≤ (rankedArgs (dispatchCtx req routed)).maxProviders →
          nextRoute (env.serving.dispatch.fallbackWorlds n)
              (rankedArgs (dispatchCtx req routed)) ids = .ok r →
            cleared keys system key model r.provider = true :=
        fun n ids r _ _ hroute =>
          nextRoute_cleared hmodel hexposed hs (henv.fallback n) hroute
      apply (tryRanked_ensures (fun r => cleared keys system key model r.provider = true) hcall
        (fun _ => hs.clear) hnext).bind
      intro _ _
      exact ensures_pure trivial
    · exact send_ensures hs.clear

/-- A provider offered by a filtered selection without a model, for a request that is on its
way. -/
theorem unasked_cleared {w : World} {request : RouteRequest} {s : Provider} {r : RouteResult}
    (hclear : cleared keys system key model s = true) (hw : Visible rows keys system key w)
    (hkey : request.apiKeyId = some key.id) (hlist : request.blockedCompanies = none)
    (hmodel : request.modelOverride = none) (h : selectRoute w request = .ok r) :
    cleared keys system key model r.provider = true := by
  have hpass := selected_cleared hw hkey hlist h
  rw [hmodel] at hpass
  exact accepts_of_accepts_none hclear hpass

theorem answerRoute_cleared {routed : Routed} {r : RouteResult} (hmodel : req.primaryModel = model)
    (henv : env.Sees rows keys system key)
    (hexposed : ∀ p ∈ rows, exposed rows keys system key model p = true →
      cleared keys system key model p = true)
    (hs : Settled rows keys system key model req routed.route.provider)
    (h : AnswerRoute (dispatchCtx req routed) env.serving.dispatch r) :
    cleared keys system key model r.provider = true := by
  cases h with
  | plain off => exact hs.clear
  | ranked on chain =>
    cases chain with
    | own through => exact hs.clear
    | next n ids tried room handed =>
      exact nextRoute_cleared hmodel hexposed hs (henv.fallback n) handed

theorem completeAnthropic_ensures {routed : Routed} (hkey : req.key = key)
    (hmodel : req.primaryModel = model) (henv : env.Sees rows keys system key)
    (hexposed : ∀ p ∈ rows, exposed rows keys system key model p = true →
      cleared keys system key model p = true)
    (hs : Settled rows keys system key model req routed.route.provider) :
    Ensures (SentCleared keys system key model) (fun _ => True)
      (completeAnthropic req env.serving routed) := by
  have hid : some req.key.id = some key.id := by rw [hkey]
  have hcalls := dispatchNonStreaming_calls (dispatchCtx req routed) env.serving.dispatch
  refine ((hcalls.mapLog (g := Call.toSent) fun call hcall => ?_).bind
    fun _ _ => ensures_pure trivial)
  show cleared keys system key model call.route.provider = true
  -- one case for each place of the arm that calls a provider
  cases hcall.2 with
  | cheap select own => exact unasked_cleared hs.clear henv.cheap hid rfl rfl select
  | grader cheap chosen own =>
    unfold graderRoute at chosen
    split at chosen
    · rw [← Option.some.inj chosen]
      exact hs.clear
    · cases hselect : selectRoute env.serving.dispatch.graderWorld
          { cheapRequest (dispatchCtx req routed) with
            excludeProviderId := some cheap.provider.id } with
      | error e =>
        rw [hselect] at chosen
        cases chosen
      | ok r =>
        rw [hselect] at chosen
        rw [← Option.some.inj chosen]
        exact unasked_cleared hs.clear henv.grader hid rfl rfl hselect
  | answer route own => exact answerRoute_cleared hmodel henv hexposed hs route
  | hop injected route extra => exact answerRoute_cleared hmodel henv hexposed hs route
  | refusal on s answered n ids tried select extra =>
    exact unasked_cleared hs.clear (henv.refusal n) hid rfl rfl select

theorem policyPreserved_of_exposed
    (hexposed : ∀ p ∈ rows, exposed rows keys system key model p = true →
      cleared keys system key model p = true) :
    PolicyPreserved rows keys system key model := by
  intro req env hkey hmodel henv
  suffices hall : Ensures (SentCleared keys system key model) (fun _ => True) (handle req env) from
    fun sent hmem => hall.1 sent hmem
  unfold handle
  split
  · exact ensures_raise _
  · apply (settle_ensures hkey hmodel henv hexposed).bind
    intro out hout
    cases out with
    | none => exact ensures_pure trivial
    | some routed =>
      have hs := hout routed rfl
      show Ensures _ _ (serve req env.serving routed)
      unfold serve
      split
      · exact ensures_pure trivial
      · split
        · exact send_ensures hs.clear
        · split
          · exact send_ensures hs.clear
          · split
            · exact engageCot_ensures hkey henv hexposed hs
            · split
              · next hstreams =>
                have hbacked := backed_of_settled hkey hs hstreams
                apply (hedge_ensures henv hexposed hbacked hs.clear).bind
                intro answered _
                split
                · exact ensures_pure trivial
                · exact streamWithEmptyGuard_ensures hkey hmodel henv 3 0 [] routed.route hs.clear
              · split
                · exact completeAnthropic_ensures hkey hmodel henv hexposed hs
                · exact completeOpenai_ensures hmodel henv hexposed hs

end

/-! ## Necessity: every exposed provider is sent content in some run -/

theorem soleWorld_visible (p : Provider) :
    Visible rows keys system key (soleWorld rows keys system key.id p) := ⟨rfl, rfl, rfl, rfl⟩

/-- A provider open to the key is admitted around the others, unless the request itself stands
against it. -/
theorem admitted_alone (keys : List ApiKey) (system : Policy) (capabilities : List ModelCapability)
    (request : RouteRequest) {p : Provider} (hrow : p ∈ rows) (hopen : opens key p = true)
    (htools : request.hasTools = false) (hpin : truthy request.pinnedProviderId = none)
    (hkey : request.apiKeyId = none ∨ (request.apiKeyId = some key.id ∧
      cleared keys system key request.modelOverride p = true))
    (hone : request.excludeProviderId ≠ some p.id)
    (htype : p.providerType ∉ request.excludedProviderTypes)
    (htakes : takes request.modelOverride p = true) :
    Admitted (quietWorld rows keys system capabilities (some key.id) p)
      (request.around (otherIds rows p)) p := by
  obtain ⟨hen, haccess⟩ := Bool.and_eq_true_iff.mp hopen
  have heffective : effectiveKey (quietWorld rows keys system capabilities (some key.id) p)
      (request.around (otherIds rows p)) = some key.id := by
    rcases hkey with hnone | ⟨hsome, -⟩
    · unfold effectiveKey
      show (truthy request.apiKeyId).orElse _ = _
      rw [hnone]
      rfl
    · exact effectiveKey_of_id key.nonempty hsome
  have hpass : ∀ id, truthy request.apiKeyId = some id →
      accepts (getEffectivePolicy keys system (some id)) p request.modelOverride = true := by
    intro id hid
    rcases hkey with hnone | ⟨hsome, hclear⟩
    · rw [hnone] at hid
      cases hid
    · rw [hsome, truthy_some key.nonempty] at hid
      rw [← Option.some.inj hid]
      exact hclear
  exact
    { row := hrow
      enabled := hen
      pinned := fun id hid => by
        have hnone : truthy request.pinnedProviderId = some id := hid
        rw [hpin] at hnone
        cases hnone
      compliant := fun _ => hpass
      notExcluded := fun hid => hone (eq_some_of_truthy hid)
      notExcludedIds := not_mem_otherIds rows p
      accessible := by
        rw [heffective]
        exact haccess
      available := rfl
      tools := fun hasks => by
        have hyes : request.hasTools = true := hasks
        rw [htools] at hyes
        cases hyes
      type := htype
      chat := fun hnone => by
        have hno : truthy request.modelOverride = none := hnone
        rw [takes_of_falsy hno] at htakes
        exact htakes }

/-- A selection offers an open provider that is alone, unless the request itself stands against
it. -/
theorem selectRoute_alone (keys : List ApiKey) (system : Policy) (request : RouteRequest)
    (hids : (rows.map (·.id)).Nodup) {p : Provider} (hrow : p ∈ rows)
    (hopen : opens key p = true) (hplain : Plain request)
    (hlist : request.blockedCompanies = none) (hpin : truthy request.pinnedProviderId = none)
    (hkey : request.apiKeyId = none ∨ (request.apiKeyId = some key.id ∧
      cleared keys system key request.modelOverride p = true))
    (hone : request.excludeProviderId ≠ some p.id)
    (hmany : ∀ id ∈ request.excludeProviderIds, id ∈ otherIds rows p)
    (htype : p.providerType ∉ request.excludedProviderTypes)
    (htakes : takes request.modelOverride p = true) :
    ∃ r, selectRoute (soleWorld rows keys system key.id p) request = .ok r ∧ r.provider = p ∧
      r.toolEmulationEngaged = false ∧ r.cotEngaged = false :=
  selectRoute_soleWorld hids
    (admitted_alone keys system [] request hrow hopen hplain.tools hpin hkey hone htype htakes)
    hplain hlist hmany

/-- A request of the key for the model, through an alias. -/
def probe (key : ApiKeyRecord) (model : Option String) (endpoint : Endpoint)
    (stream webhook : Bool) : ChatRequest where
  endpoint := endpoint
  key := key
  model := "alias"
  aliasRow := some ⟨none, model.getD ""⟩
  stream := stream
  webhook := webhook
  xHedge := some "on"

/-- A run in which every selection but three meets one world: the failover, the backup and the
chain have a world of their own. The bridge and the first provider of the chain fail, and the
race starts the backup. -/
def probeEnv (primary failover backup chain : World) : HandlerEnv where
  routing :=
    { approach :=
        { primaryWorld := primary
          walkWorlds := fun _ _ => primary
          oauthWorlds := fun _ _ => primary
          oauthOutcome := fun _ => .answered
          setOrder := id
          setOrder_perm := fun ids => List.Perm.refl ids
          fuel := 1 }
      grokAnswers := false
      grokWorld := failover }
  serving :=
    { cacheHit := false
      critiqueWorld := primary
      critiquePasses := false
      hedgeBudget := true
      hedgeAcquired := true
      hedgeWorld := backup
      backupStarts := true
      hedgeOutcome := .content
      guardWorlds := fun _ => primary
      guardOutcome := fun _ => .content
      answers := fun _ => false
      dispatch :=
        { up :=
            { answer := fun _ => .error ⟨"APIError", "unavailable"⟩
              accounts := fun _ => [] }
          cheapWorld := primary
          graderWorld := primary
          fallbackWorlds := fun _ => chain
          refusalWorlds := fun _ => primary
          registry := fun _ => []
          runTool := fun _ _ _ => ""
          tokenHex := fun _ _ => ""
          isalnum := fun _ => false } }

theorem probeEnv_sees {primary failover backup chain : World}
    (hprimary : Visible rows keys system key primary)
    (hfailover : Visible rows keys system key failover)
    (hbackup : Visible rows keys system key backup) (hchain : Visible rows keys system key chain) :
    (probeEnv primary failover backup chain).Sees rows keys system key :=
  ⟨hprimary, fun _ _ => hprimary, fun _ _ => hprimary, hfailover, hprimary, hbackup,
    fun _ => hprimary, hprimary, hprimary, fun _ => hchain, fun _ => hprimary⟩

section

variable {endpoint : Endpoint} {stream webhook : Bool}

theorem truthy_getD (h : model ≠ some "") : truthy (some (model.getD "")) = model := by
  cases model with
  | none => rfl
  | some m =>
    have hne : m ≠ "" := fun heq => h (by rw [heq])
    exact truthy_some hne

theorem probe_isAuto : (probe key model endpoint stream webhook).isAuto = false := by
  show ["auto", "llmp-auto"].contains (PyStr.lower "alias") = false
  decide

theorem probe_modelAlias : (probe key model endpoint stream webhook).modelAlias =
    some ⟨none, model.getD ""⟩ := by
  unfold ChatRequest.modelAlias
  rw [probe_isAuto]
  rfl

theorem probe_requestedModel (h : model ≠ some "") :
    (probe key model endpoint stream webhook).requestedModel = model := by
  unfold ChatRequest.requestedModel
  rw [probe_modelAlias]
  exact truthy_getD h

theorem probe_primaryModel (h : model ≠ some "") :
    (probe key model endpoint stream webhook).primaryModel = model := by
  unfold ChatRequest.primaryModel ChatRequest.logical
  rw [probe_modelAlias, probe_requestedModel h]
  rfl

theorem ne_of_askable (h : askable rows model = true) : model ≠ some "" := by
  unfold askable at h
  simp only [Bool.and_eq_true, decide_eq_true_eq] at h
  exact h.1

theorem takes_getD (h : model ≠ some "") (p : Provider) :
    takes (some (model.getD "")) p = takes model p := by
  unfold takes
  rw [truthy_getD h]
  cases model with
  | none => rfl
  | some m =>
    have hne : m ≠ "" := fun heq => h (by rw [heq])
    rw [truthy_some hne]

theorem selectProviderWith503_probe (endpoint : Endpoint) (stream webhook : Bool)
    (hids : (rows.map (·.id)).Nodup) {s : Provider} (hrow : s ∈ rows)
    (hs : starts rows keys system key model s = true) :
    ∃ r, selectProviderWith503 (soleWorld rows keys system key.id s)
        (probe key model endpoint stream webhook) = .ok r ∧ r.provider = s ∧
      r.toolEmulationEngaged = false ∧ r.cotEngaged = false := by
  simp only [starts, Bool.and_eq_true] at hs
  obtain ⟨⟨⟨hask, hopen⟩, htakes⟩, hclear⟩ := hs
  have hne := ne_of_askable hask
  have hoverride : (primaryRequest (probe key model endpoint stream webhook)).modelOverride =
      model := by
    rw [primaryRequest_modelOverride, probe_primaryModel hne]
  have hpin : (primaryRequest (probe key model endpoint stream webhook)).pinnedProviderId =
      none := by
    rw [primaryRequest_pinnedProviderId, probe_modelAlias]
    rfl
  obtain ⟨r, hselect, hr⟩ := selectRoute_alone keys system
    (primaryRequest (probe key model endpoint stream webhook)) hids hrow hopen
    ⟨rfl, rfl, rfl, rfl, rfl, rfl, rfl⟩ rfl (by rw [hpin]; rfl)
    (Or.inr ⟨rfl, by rw [hoverride]; exact hclear⟩) (fun hcontra => nomatch hcontra)
    (fun id hid => absurd hid List.not_mem_nil) List.not_mem_nil (by rw [hoverride]; exact htakes)
  refine ⟨r, ?_, hr⟩
  unfold selectProviderWith503
  rw [if_neg, hselect]
  · rfl
  · -- the self-hosted guard is part of `askable`
    rw [probe_requestedModel hne]
    simp only [askable, Bool.and_eq_true, Bool.or_eq_true, decide_eq_true_eq] at hask
    intro hcontra
    simp only [Bool.and_eq_true, decide_eq_true_eq, Bool.not_eq_true'] at hcontra
    rcases hask.2 with hother | hlocal
    · exact hother hcontra.1
    · have hnone : rows.any (fun p => p.enabled && !p.deleted && isSelfHostedProvider p) =
          false := hcontra.2
      rw [hlocal] at hnone
      cases hnone

theorem resolveBodyModel_probe (key : ApiKeyRecord) (model : Option String) (endpoint : Endpoint)
    (stream webhook : Bool) (r : RouteResult) :
    ∃ body, resolveBodyModel (probe key model endpoint stream webhook) r = .ok body ∧
      (truthy body).isSome = true := by
  have hplain : ((probe key model endpoint stream webhook).isAuto ||
      isLogicalAlias (some "alias")) = false := by
    rw [probe_isAuto]
    decide
  unfold resolveBodyModel
  show ∃ body, Except.map _ (if ((probe key model endpoint stream webhook).isAuto ||
    isLogicalAlias (some "alias")) = true then _ else .ok (some "alias")) = .ok body ∧ _
  rw [hplain]
  refine ⟨_, rfl, ?_⟩
  cases hnative : truthy r.servedModelNative with
  | none => rfl
  | some native =>
    have hne : truthy (some native) = some native := by
      rw [← eq_some_of_truthy hnative]
      exact hnative.trans (eq_some_of_truthy hnative).symm
    dsimp only
    split
    · rw [hne]
      rfl
    · rfl

theorem approach_probe {env : ApproachEnv} (hids : (rows.map (·.id)).Nodup) {s : Provider}
    (hrow : s ∈ rows) (hs : starts rows keys system key model s = true)
    (htype : s.providerType ≠ "claude-oauth")
    (hchat : s.providerType = "ChatGPT-oauth-plan" → endpoint = .messages)
    (hbuffered : (probe key model endpoint stream webhook).buffered = false)
    (hworld : env.primaryWorld = soleWorld rows keys system key.id s) (hfuel : env.fuel = 1) :
    ∃ routed, (approach (probe key model endpoint stream webhook) env).result =
        .ok (some routed) ∧
      routed.route.provider = s ∧ routed.route.toolEmulationEngaged = false ∧
      routed.route.cotEngaged = false ∧ (truthy routed.model).isSome = true := by
  obtain ⟨r, hselect, hprovider, htools, hcot⟩ :=
    selectProviderWith503_probe endpoint stream webhook hids hrow hs
  obtain ⟨body, hbody, htruthy⟩ := resolveBodyModel_probe key model endpoint stream webhook r
  rw [← hworld] at hselect
  refine ⟨⟨r, r, body⟩, ?_, hprovider, htools, hcot, htruthy⟩
  have htype' : r.provider.providerType ≠ "claude-oauth" := by
    rw [hprovider]
    exact htype
  cases endpoint with
  | messages =>
    have hquiet : (probe key model .messages stream webhook).heartbeat = false := by
      unfold ChatRequest.heartbeat
      rw [hbuffered]
      rfl
    have hwalk : toolWalk (probe key model .messages stream webhook) env env.fuel 0 r = .ok r := by
      rw [hfuel]
      rfl
    show (approachMessages _ _).result = _
    unfold approachMessages
    rw [lift_bind hselect, lift_bind hwalk, lift_bind hbody,
      if_neg (by rw [hquiet]; exact Bool.false_ne_true), hfuel]
    unfold oauthChain
    rw [if_pos htype']
    rfl
  | completions =>
    have hown : oauthTypes.contains r.provider.providerType = false := by
      rw [hprovider]
      have hplan : s.providerType ≠ "ChatGPT-oauth-plan" := fun heq => nomatch hchat heq
      simp [oauthTypes, htype, hplan]
    show (approachCompletions _ _).result = _
    unfold approachCompletions
    rw [lift_bind hselect, lift_bind hbody, if_neg (by rw [hown]; exact Bool.false_ne_true)]
    rfl

theorem failoverRoute_keeps (body : Option String) (r : RouteResult) :
    (failoverRoute body r).provider = r.provider ∧
      (failoverRoute body r).toolEmulationEngaged = r.toolEmulationEngaged ∧
      (failoverRoute body r).cotEngaged = r.cotEngaged := by
  unfold failoverRoute
  split
  · exact ⟨rfl, rfl, rfl⟩
  · exact ⟨rfl, rfl, rfl⟩

/-- A probe comes to the litellm path on every provider a request for the model can be served
on. -/
theorem settle_probe (hids : (rows.map (·.id)).Nodup) {s : Provider} (hrow : s ∈ rows)
    (hs : served rows keys system key model s = true)
    (hchat : s.providerType = "ChatGPT-oauth-plan" → endpoint = .messages)
    (hbuffered : (probe key model endpoint stream webhook).buffered = false) :
    ∃ primary failover, Visible rows keys system key primary ∧
      Visible rows keys system key failover ∧ ∀ backup chain, ∃ routed,
        (settle (probe key model endpoint stream webhook)
          (probeEnv primary failover backup chain).routing).result = .ok (some routed) ∧
        routed.route.provider = s ∧ routed.route.toolEmulationEngaged = false ∧
        routed.route.cotEngaged = false := by
  rcases Bool.or_eq_true_iff.mp hs with hdirect | hover
  · simp only [Bool.and_eq_true, Bool.not_eq_true', List.contains_eq_mem, List.mem_cons,
      List.not_mem_nil, or_false, decide_eq_false_iff_not, not_or] at hdirect
    obtain ⟨hstarts, hclaude, hgrok⟩ := hdirect
    refine ⟨soleWorld rows keys system key.id s, soleWorld rows keys system key.id s,
      soleWorld_visible s, soleWorld_visible s, fun backup chain => ?_⟩
    let env := probeEnv (soleWorld rows keys system key.id s) (soleWorld rows keys system key.id s)
      backup chain
    have hworld : env.routing.approach.primaryWorld = soleWorld rows keys system key.id s := rfl
    obtain ⟨routed, hresult, hprovider, htools, hcot, -⟩ :=
      approach_probe hids hrow hstarts hclaude hchat hbuffered hworld rfl
    refine ⟨routed, ?_, hprovider, htools, hcot⟩
    unfold settle
    rw [result_bind hresult]
    show (dispatchGrokWeb _ _ routed).result = _
    unfold dispatchGrokWeb
    rw [if_pos (by rw [hprovider]; exact hgrok)]
    rfl
  · obtain ⟨hbridged, hfails⟩ := Bool.and_eq_true_iff.mp hover
    obtain ⟨g, hgrow, hg⟩ := List.any_eq_true.mp hbridged
    simp only [Bool.and_eq_true, decide_eq_true_eq] at hg
    obtain ⟨hstarts, hgrok⟩ := hg
    unfold failsOverTo at hfails
    simp only [Bool.and_eq_true, Bool.not_eq_true', List.contains_eq_mem,
      decide_eq_false_iff_not] at hfails
    obtain ⟨hopen, htype⟩ := hfails
    have hnotgrok : s.providerType ≠ "grok-web" := fun heq => htype (by rw [heq]; decide)
    refine ⟨soleWorld rows keys system key.id g, soleWorld rows keys system key.id s,
      soleWorld_visible g, soleWorld_visible s, fun backup chain => ?_⟩
    let env := probeEnv (soleWorld rows keys system key.id g) (soleWorld rows keys system key.id s)
      backup chain
    have hworld : env.routing.approach.primaryWorld = soleWorld rows keys system key.id g := rfl
    obtain ⟨routed, hresult, hprovider, -, -, hbody⟩ :=
      approach_probe hids hgrow hstarts (by rw [hgrok]; decide)
        (fun heq => absurd (hgrok.symm.trans heq) (by decide)) hbuffered hworld rfl
    -- the bridge fails, and the failover is offered the other provider
    have hother : s.id ≠ g.id := by
      intro heq
      rw [List.inj_on_of_nodup_map hids hrow hgrow heq] at hnotgrok
      exact hnotgrok hgrok
    have htakes : takes routed.model s = true := by simp [takes, hbody]
    obtain ⟨r, hselect, hr, htools, hcot⟩ := selectRoute_alone keys system
      (grokRequest (probe key model endpoint stream webhook) routed) hids hrow hopen
      ⟨rfl, Bool.and_false _, rfl, rfl, rfl, rfl, rfl⟩ rfl rfl (Or.inl rfl)
      (fun heq => hother (by rw [← hprovider]; exact (Option.some.inj heq).symm))
      (fun id hid => absurd hid List.not_mem_nil) htype htakes
    obtain ⟨hp', htools', hcot'⟩ := failoverRoute_keeps routed.model r
    refine ⟨{ routed with route := failoverRoute routed.model r }, ?_, hp'.trans hr,
      htools'.trans htools, hcot'.trans hcot⟩
    unfold settle
    rw [result_bind hresult]
    exact dispatchGrokWeb_failover (by rw [hprovider, hgrok]) rfl hselect
      (by rw [hr]; exact hnotgrok)

theorem mem_log_handle {env : HandlerEnv} {routed : Routed} {sent : Sent}
    (hsettle : (settle (probe key model endpoint stream webhook) env.routing).result =
      .ok (some routed))
    (hmem : sent ∈ (serve (probe key model endpoint stream webhook) env.serving routed).log) :
    sent ∈ (handle (probe key model endpoint stream webhook) env).log := by
  unfold handle
  rw [if_neg (by show ¬ isEmbeddingModel "alias" = true; decide)]
  exact mem_log_bind hsettle hmem

end

theorem askable_of_starts {s : Provider} (hs : starts rows keys system key model s = true) :
    askable rows model = true := by
  simp only [starts, Bool.and_eq_true] at hs
  exact hs.1.1.1

theorem ne_of_served {s : Provider} (hs : served rows keys system key model s = true) :
    model ≠ some "" := by
  rcases Bool.or_eq_true_iff.mp hs with hdirect | hover
  · exact ne_of_askable (askable_of_starts (Bool.and_eq_true_iff.mp hdirect).1)
  · obtain ⟨g, -, hg⟩ := List.any_eq_true.mp (Bool.and_eq_true_iff.mp hover).1
    exact ne_of_askable (askable_of_starts (Bool.and_eq_true_iff.mp hg).1)

theorem failover_cleared (hids : (rows.map (·.id)).Nodup)
    (h : PolicyPreserved rows keys system key model)
    (hbridged : bridged rows keys system key model = true) {p : Provider} (hrow : p ∈ rows)
    (hfails : failsOverTo key p = true) : cleared keys system key model p = true := by
  have hserved : served rows keys system key model p = true :=
    Bool.or_eq_true_iff.mpr (Or.inr (Bool.and_eq_true_iff.mpr ⟨hbridged, hfails⟩))
  obtain ⟨primary, failover, hprimary, hfailover, hsettle⟩ :=
    settle_probe hids hrow hserved (fun _ => rfl)
      (show (probe key model .messages false true).buffered = false from rfl)
  obtain ⟨routed, hresult, hprovider, -, -⟩ := hsettle primary primary
  have hmem : ⟨.webhook, routed.route⟩ ∈ (handle (probe key model .messages false true)
      (probeEnv primary failover primary primary)).log :=
    mem_log_handle hresult (List.mem_singleton.mpr rfl)
  have hclear := h _ _ rfl (probe_primaryModel (ne_of_served hserved))
    (probeEnv_sees hprimary hfailover hprimary hprimary) _ hmem
  rw [← hprovider]
  exact hclear

theorem backup_cleared (hids : (rows.map (·.id)).Nodup)
    (h : PolicyPreserved rows keys system key model) {endpoint : Endpoint} {s p : Provider}
    (hsrow : s ∈ rows) (hs : served rows keys system key model s = true)
    (hchatgpt : s.providerType = "ChatGPT-oauth-plan" → endpoint = .messages)
    (hbuffered : (probe key model endpoint true false).buffered = false)
    (hrow : p ∈ rows) (hopen : opens key p = true) (htype : p.providerType ≠ "claude-oauth")
    (hchat : chatDefault p = true) (hother : p.id ≠ s.id) :
    cleared keys system key model p = true := by
  obtain ⟨primary, failover, hprimary, hfailover, hsettle⟩ :=
    settle_probe hids hsrow hs hchatgpt hbuffered
  obtain ⟨routed, hresult, hprovider, htools, hcot⟩ :=
    hsettle (soleWorld rows keys system key.id p) primary
  obtain ⟨backup, hselect, hbackup, -, -⟩ := selectRoute_alone keys system
    (backupRequest (probe key model endpoint true false) routed.route) hids hrow hopen
    ⟨rfl, rfl, rfl, rfl, rfl, rfl, rfl⟩ rfl rfl (Or.inl rfl)
    (fun heq => hother (by rw [← hprovider]; exact (Option.some.inj heq).symm))
    (fun id hid => absurd hid List.not_mem_nil)
    (fun hmem => htype (List.mem_singleton.mp hmem)) (by rw [takes_of_falsy rfl]; exact hchat)
  have hstreams : (probe key model endpoint true false).streams = true := by
    unfold ChatRequest.streams
    rw [hbuffered]
    rfl
  have hwants : (probe key model endpoint true false).wantsHedge = true := by
    show (true && shouldHedgeHeader (some "on") none) = true
    decide
  let env := probeEnv primary failover (soleWorld rows keys system key.id p) primary
  have hrace : ⟨.backup, backup⟩ ∈
      (hedge (probe key model endpoint true false) env.serving routed.route).log := by
    unfold hedge
    rw [hwants]
    rw [show selectRoute env.serving.hedgeWorld _ = .ok backup from hselect]
    exact mem_log_bind (a := ()) rfl (mem_log_bind_left (List.mem_singleton.mpr rfl))
  have hserve : ⟨.backup, backup⟩ ∈
      (serve (probe key model endpoint true false) env.serving routed).log := by
    rw [serve_streaming rfl rfl htools hcot hstreams]
    exact mem_log_bind_left hrace
  have hclear := h _ env rfl (probe_primaryModel (ne_of_served hs))
    (probeEnv_sees hprimary hfailover (soleWorld_visible p) hprimary) _
    (mem_log_handle hresult hserve)
  rw [← hbackup]
  exact hclear

/-- A chain behind `s` is handed the provider that is alone in its world. -/
theorem handsOver_probe (keys : List ApiKey) (system : Policy) (routed : Routed)
    (hids : (rows.map (·.id)).Nodup) (hne : model ≠ some "") {s p : Provider} (hsrow : s ∈ rows)
    (hrow : p ∈ rows) (hopen : opens key p = true) (htype : p.providerType ∉ oauthTypes)
    (htakes : takes model p = true) (hother : p.id ≠ s.id) :
    ∃ r, r.provider = p ∧
      HandsOver (rankedArgs (dispatchCtx (probe key model .messages false false) routed)) s.id
        (soleWorld rows keys system key.id p) r := by
  let args := rankedArgs (dispatchCtx (probe key model .messages false false) routed)
  have hoverride : args.request.modelOverride = some (model.getD "") := by
    rw [rankedArgs_modelOverride, dispatchCtx_modelAlias, probe_modelAlias]
    rfl
  have hpin : args.pinnedProviderId = none := by
    rw [rankedArgs_pinnedProviderId, dispatchCtx_modelAlias, probe_modelAlias]
    rfl
  have hsother : s.id ∈ otherIds rows p :=
    List.mem_filter.mpr ⟨List.mem_map_of_mem hsrow, decide_eq_true hother.symm⟩
  obtain ⟨r, hselect, hr, -, -⟩ := selectRoute_alone keys system (args.request.around [s.id]) hids
    hrow hopen ⟨rfl, rfl, rfl, rfl, rfl, rfl, rfl⟩ rfl rfl (Or.inl rfl)
    (fun hcontra => nomatch hcontra)
    (fun id hid => by rw [List.mem_singleton.mp hid]; exact hsother) List.not_mem_nil
    (by
      rw [RouteRequest.around_modelOverride, hoverride, takes_getD hne]
      exact htakes)
  refine ⟨r, hr, by rw [hpin]; rfl, ?_, hselect⟩
  unfold isOauthRoute
  rw [hr]
  simpa using htype

theorem fallback_cleared (hids : (rows.map (·.id)).Nodup)
    (h : PolicyPreserved rows keys system key model) {s p : Provider} (hsrow : s ∈ rows)
    (hs : served rows keys system key model s = true) (hrow : p ∈ rows)
    (hopen : opens key p = true) (htype : p.providerType ∉ oauthTypes)
    (htakes : takes model p = true) (hother : p.id ≠ s.id) :
    cleared keys system key model p = true := by
  have hne := ne_of_served hs
  obtain ⟨primary, failover, hprimary, hfailover, hsettle⟩ :=
    settle_probe hids hsrow hs (fun _ => rfl)
      (show (probe key model .messages false false).buffered = false from rfl)
  obtain ⟨routed, hresult, hprovider, htools, hcot⟩ :=
    hsettle primary (soleWorld rows keys system key.id p)
  let env := probeEnv primary failover primary (soleWorld rows keys system key.id p)
  let ctx := dispatchCtx (probe key model .messages false false) routed
  obtain ⟨r, hr, hhands⟩ := handsOver_probe keys system routed hids hne hsrow hrow hopen htype
    htakes hother
  have hover : ∀ n, HandsOver (rankedArgs ctx) ctx.route.provider.id
      (env.serving.dispatch.fallbackWorlds n) r := by
    intro n
    rw [show ctx.route.provider = s from hprovider]
    exact hhands
  -- the chain calls the provider it is handed
  obtain ⟨call, hlog, hroute⟩ : ∃ call ∈ (callWithRoute env.serving.dispatch.up
      ctx.settings.toFanoutSettings ctx.parts ctx.messages
      (.attempt (if isOauthRoute ctx.route then 0 else 1)) r).log, call.route = r :=
    ⟨_, List.mem_singleton.mpr rfl, rfl⟩
  have hcall : call ∈ (primaryAnswer ctx env.serving.dispatch).log := by
    unfold primaryAnswer
    rw [if_pos (show ctx.settings.fallbackEnabled = true from rfl)]
    exact mem_log_bind_left (mem_log_tryRanked_second ⟨"APIError", "unavailable"⟩ hover
      (show (2 : Int) ≤ 3 by decide) (fun _ => rfl) hlog)
  have hanswer : call ∈ (dispatchNonStreaming ctx env.serving.dispatch).log := by
    have hplain : ctx.doCascade = false := by
      show cascadeRequested none none = false
      decide
    unfold dispatchNonStreaming
    rw [hplain]
    exact mem_log_bind_left hcall
  have hserve : call.toSent ∈
      (serve (probe key model .messages false false) env.serving routed).log := by
    rw [serve_messages rfl rfl htools hcot rfl rfl]
    exact mem_log_bind_left (List.mem_map_of_mem hanswer)
  have hclear := h _ env rfl (probe_primaryModel hne)
    (probeEnv_sees hprimary hfailover hprimary (soleWorld_visible p)) _
    (mem_log_handle hresult hserve)
  rw [← hr, ← hroute]
  exact hclear

theorem exposed_of_policyPreserved (hids : (rows.map (·.id)).Nodup)
    (h : PolicyPreserved rows keys system key model) {p : Provider} (hrow : p ∈ rows)
    (hexposed : exposed rows keys system key model p = true) :
    cleared keys system key model p = true := by
  -- a provider requests are served on is accepted: it began the request or stands behind the
  -- bridge
  have hserved : ∀ s ∈ rows, served rows keys system key model s = true →
      cleared keys system key model s = true := by
    intro s hsrow hs
    rcases Bool.or_eq_true_iff.mp hs with hdirect | hover
    · exact cleared_of_starts (Bool.and_eq_true_iff.mp hdirect).1
    · obtain ⟨hbridged, hfails⟩ := Bool.and_eq_true_iff.mp hover
      exact failover_cleared hids h hbridged hsrow hfails
  simp only [exposed, Bool.and_eq_true, Bool.or_eq_true, Bool.not_eq_true', decide_eq_true_eq,
    List.contains_eq_mem, decide_eq_false_iff_not] at hexposed
  obtain ⟨hopen, (⟨hbridged, htype⟩ | ⟨⟨hbacked, htype⟩, hchat⟩) | ⟨⟨hfalls, htype⟩, htakes⟩⟩ :=
    hexposed
  · exact failover_cleared hids h hbridged hrow (by simp [failsOverTo, hopen, htype])
  · obtain ⟨s, hsrow, hs⟩ := List.any_eq_true.mp hbacked
    simp only [Bool.and_eq_true, Bool.or_eq_true, decide_eq_true_eq, Bool.not_eq_true'] at hs
    obtain ⟨hs, hstream⟩ := hs
    by_cases hsame : p.id = s.id
    · rw [List.inj_on_of_nodup_map hids hrow hsrow hsame]
      exact hserved s hsrow hs
    · -- with the refusal cascade on, the stream is one of `/v1/chat/completions`
      rcases hstream with hplan | hoff
      · have hbuffered : (probe key model .completions true false).buffered = false := rfl
        exact backup_cleared hids h hsrow hs (fun heq => absurd heq hplan) hbuffered hrow hopen
          htype hchat hsame
      · have hbuffered : (probe key model .messages true false).buffered = false := by
          unfold ChatRequest.buffered
          show (true && true && key.refusalRetryEnabled) = false
          rw [hoff]
          rfl
        exact backup_cleared hids h hsrow hs (fun _ => rfl) hbuffered hrow hopen htype hchat hsame
  · obtain ⟨s, hsrow, hs⟩ := List.any_eq_true.mp hfalls
    by_cases hsame : p.id = s.id
    · rw [List.inj_on_of_nodup_map hids hrow hsrow hsame]
      exact hserved s hsrow hs
    · exact fallback_cleared hids h hsrow hs hrow hopen htype htakes hsame

/-- **The policy on secondary routes**: in all runs of all requests of a key for a model content
is sent to accepted providers only, exactly when every provider the selections without the key
can offer is accepted. -/
theorem policy_preserved_iff (rows : List Provider) (keys : List ApiKey) (system : Policy)
    (key : ApiKeyRecord) (model : Option String) (hids : (rows.map (·.id)).Nodup) :
    PolicyPreserved rows keys system key model ↔
      ∀ p ∈ rows, exposed rows keys system key model p = true →
        cleared keys system key model p = true := by
  constructor
  · intro h p hrow hexposed
    exact exposed_of_policyPreserved hids h hrow hexposed
  · intro h
    exact policyPreserved_of_exposed h

/-! ## Fixed tables -/

theorem auditedKey_nonempty : "k1" ≠ "" := by decide

def auditedKey : ApiKeyRecord := { id := "k1", nonempty := auditedKey_nonempty }

/-- One vendor besides the blocked one: nothing else is enabled. -/
theorem policy_preserved_disabled_vendor :
    PolicyPreserved [openaiRow, { anthropicRow with enabled := false }] [noAnthropicKey] {}
      auditedKey (some "gpt-4o") :=
  (policy_preserved_iff [openaiRow, { anthropicRow with enabled := false }] [noAnthropicKey] {}
    auditedKey (some "gpt-4o") (by decide)).mpr (by decide)

/-- With the blocked vendor enabled, the fallback chain sends it the key's content. -/
theorem fallback_sends_to_blocked_company :
    ¬ PolicyPreserved [openaiRow, anthropicRow] [noAnthropicKey] {} auditedKey (some "gpt-4o") := by
  intro h
  have hclear := exposed_of_policyPreserved (p := anthropicRow) (by decide) h (by decide)
    (by decide)
  have hblocked : cleared [noAnthropicKey] {} auditedKey (some "gpt-4o") anthropicRow = false := by
    decide
  rw [hblocked] at hclear
  cases hclear

end LlmProxy.Dispatch
