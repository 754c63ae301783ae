import LlmProxy.Cache.Stores
import LlmProxy.Dispatch.Coherence
import LlmProxy.Dispatch.RetryRuns
import LlmProxy.Dispatch.Usage

/-! # Whose answers the semantic cache holds

A store is sound when the answer is that of the model the decision names, to the messages of the
request. The retry wrapper, the cheap-first cascade and the fallback chain put other models in.

> `cache_own_iff`: the runs store their own model's answers exactly when no long answer is given, by
>                  what the upstreams come to, by the replacement of a retired model, by an accepted
>                  cheap route or by a route the fallback chain is handed;
> `hit_of_tenant`: a hit in the namespace of a tenant and a model was stored by a run of that tenant
>                  for that model.
-/

namespace LlmProxy.Cache

open LlmProxy.Providers
open LlmProxy.Routing
open LlmProxy.Dispatch
open LlmProxy.Streaming (Completion toAnthropicResponse)
open Logged

/-! ## Answers of one's own -/

/-- The answer is `m`'s, to the messages. -/
structure OwnAnswer (m : String) (messages : List Json) (answer : Answered) : Prop where
  model : answer.model = m
  messages : messages <:+: answer.messages

/-- Whatever a run stores is `m`'s answer to the messages. -/
def StoresOwn {α : Type} (m : String) (messages : List Json) (x : Caching α) : Prop :=
  ∀ store ∈ x.log, OwnAnswer m messages store.answer

/-! ## What the upstreams come to -/

/-- The text is long enough to be stored. -/
def LongEnough (settings : CacheSettings) (text : String) : Prop :=
  text ≠ "" ∧ settings.semanticCacheMinResponseChars ≤ (text.length : Int)

/-- A call of `m` has no long answer of its replacement: `m` is not in the registry, or is not gone,
or what follows is short. -/
def Unreplaced {α : Type} (m : String) (outcome : Nat → LitellmOutcome α) (long : α → Prop) : Prop :=
  (replacementFor m).isSome → ∀ answer, AnswersReplaced outcome 0 4 answer → ¬ long answer

/-- A call of `model` has a long answer only of `m`: none of `model` if that is another one, and
none of its replacement if this is another one. -/
structure OnlyBy {α : Type} (m model : String) (outcome : Nat → LitellmOutcome α)
    (long : α → Prop) : Prop where
  asked : model ≠ m → ∀ answer, AnswersAsked outcome 0 4 answer → ¬ long answer
  replaced : ∀ other, replacementFor model = some other → other ≠ m →
    ∀ answer, AnswersReplaced outcome 0 4 answer → ¬ long answer

section

variable (env : CachingEnv) (m : String)

def LongAnswer (result : Completion) : Prop := LongEnough env.settings (firstContent result)

def LongStream (outcome : StreamEnd) : Prop :=
  ∃ text, outcome = .content text true ∧ LongEnough env.settings text

/-- The fallback chain comes to a route: the calls of those before it raise. -/
inductive Reached (ctx : DispatchCtx) : Nat → List String → RouteResult → Prop where
  | own (through : isOauthRoute ctx.route = false) : Reached ctx 0 [] ctx.route
  | passed {r : RouteResult} (skipped : isOauthRoute ctx.route = true)
      (handed : nextRoute (env.dispatch.fallbackWorlds 0) (rankedArgs ctx) [ctx.route.provider.id] =
        .ok r) : Reached ctx 0 [ctx.route.provider.id] r
  | next {n : Nat} {tried : List String} {r next : RouteResult} (before : Reached ctx n tried r)
      (raised : Raises r.litellmModel (env.completion (.attempt n)))
      (room : ((r.provider.id :: tried).length : Int) < (rankedArgs ctx).maxProviders)
      (handed : nextRoute (env.dispatch.fallbackWorlds (n + 1)) (rankedArgs ctx)
        (r.provider.id :: tried) = .ok next) : Reached ctx (n + 1) (r.provider.id :: tried) next

/-- No route of the fallback chain, and no replacement, has a long answer. -/
structure PrimaryOwn (ctx : DispatchCtx) : Prop where
  ranked : ctx.settings.fallbackEnabled = true → ∀ n tried r, Reached env ctx n tried r →
    OnlyBy m r.litellmModel (env.completion (.attempt n)) (LongAnswer env)
  plain : ctx.settings.fallbackEnabled = false →
    Unreplaced m (env.completion .plain) (LongAnswer env)

/-- The cheap answer passes: there is no grader, or it says so. -/
def Accepted (ctx : DispatchCtx) (cheap : RouteResult) (result : Completion) : Prop :=
  gradable ctx result = true ∧
    (graderRoute ctx env.dispatch cheap = none ∨ graderAccepts env.dispatch = true)

/-- The cheap route is there, and is to answer. -/
def CheapRoute (ctx : DispatchCtx) (cheap : RouteResult) : Prop :=
  ctx.doCascade = true ∧ selectRoute env.dispatch.cheapWorld (cheapRequest ctx) = .ok cheap

/-- The cheap route answers, and passes. -/
def CheapPasses (ctx : DispatchCtx) : Prop :=
  ∃ cheap result, CheapRoute env ctx cheap ∧
    Replies cheap.litellmModel (env.completion .cheap) result ∧ Accepted env ctx cheap result

/-- A call of the repair loop is answered, and not validly. -/
def Unrepaired (n : Nat) : Prop :=
  ∃ result err, Replies m (env.completion (.structured n)) result ∧
    result.choices.isEmpty = false ∧ env.validated (firstContent result) = .error err

/-- The text that ends the repair loop at its n-th call: the dump of a valid answer, or the answer
as it is if no call is left. -/
def RepairText (n : Nat) (result : Completion) (text : String) : Prop :=
  result.choices.isEmpty = false ∧ (env.validated (firstContent result) = .ok text ∨
    (∃ err, env.validated (firstContent result) = .error err) ∧ (n : Int) = env.maxRepairs ∧
      text = firstContent result)

def LongRepair (n : Nat) (result : Completion) : Prop :=
  ∃ text, RepairText env n result text ∧ LongEnough env.settings text

/-- A hedged race is run against this backup. -/
def Raced (req : ChatRequest) (route backup : RouteResult) : Prop :=
  (req.wantsHedge && env.hedgeBudget && env.hedgeAcquired) = true ∧
    selectRoute env.hedgeWorld (backupRequest req route) = .ok backup

/-- The stream that wins the race is empty. -/
def WonEmpty (route backup : RouteResult) : Prop :=
  if env.primaryWins then Replies route.litellmModel (env.stream .hedged) .empty
  else Replies backup.litellmModel (env.stream .backup) .empty

/-- No replacement has a long stream: in the race, if the primary stream wins it, or behind a race
that is not run or is won by an empty stream. -/
structure StreamingOwn (req : ChatRequest) (route : RouteResult) : Prop where
  hedged : ∀ backup, Raced env req route backup → env.primaryWins = true →
    Unreplaced m (env.stream .hedged) (LongStream env)
  guarded : (∀ backup, Raced env req route backup → WonEmpty env route backup) →
    Unreplaced m (env.stream (.guarded 0)) (LongStream env)

/-- The arm a request takes has no long answer of another model. -/
structure ArmOwn (req : ChatRequest) (routed : Routed) : Prop where
  streaming : req.streams = true → StreamingOwn env m req routed.route
  cascade : req.streams = false → req.endpoint = .messages → ∀ cheap,
    CheapRoute env (dispatchCtx req routed) cheap →
      OnlyBy m cheap.litellmModel (env.completion .cheap) fun result =>
        Accepted env (dispatchCtx req routed) cheap result ∧ LongAnswer env result
  messages : req.streams = false → req.endpoint = .messages →
    ¬ CheapPasses env (dispatchCtx req routed) → PrimaryOwn env m (dispatchCtx req routed)
  structured : req.streams = false → req.endpoint = .completions →
    (req.settings.structuredOutputEnabled && req.hasSchema) = true →
      ∀ n : Nat, (n : Int) ≤ env.maxRepairs → (∀ k < n, Unrepaired env m k) →
        Unreplaced m (env.completion (.structured n)) (LongRepair env n)
  completions : req.streams = false → req.endpoint = .completions →
    (req.settings.structuredOutputEnabled && req.hasSchema) = false →
      PrimaryOwn env m (dispatchCtx req routed)

end

/-- An eligible request that the cache does not answer meets no long answer of another model. -/
def KeepsOwn (env : CachingEnv) (req : ChatRequest) (parts : CacheParts) (routed : Routed) : Prop :=
  (decideCacheable env.keys env.settings (question req parts routed.route)).any (·.eligible) = true →
    env.cacheHit = false → ArmOwn env routed.route.litellmModel req routed

/-! ## One store -/

section

variable {env : CachingEnv} {decision : CacheDecision} {m : String} {messages : List Json}

/-- A text that can be stored is `m`'s. -/
def OwnText (env : CachingEnv) (m text model : String) : Prop :=
  LongEnough env.settings text → model = m

/-- So is the text of a stream that is read to its end. -/
def OwnStream (env : CachingEnv) (m : String) (served : StreamEnd × String) : Prop :=
  ∀ text, served.1 = .content text true → OwnText env m text served.2

theorem storable_iff {settings : CacheSettings} {text : String}
    (heligible : decision.eligible = true) :
    storable settings decision text = true ↔ LongEnough settings text := by
  unfold storable LongEnough
  rw [heligible]
  simp

theorem onlyBy_iff {α : Type} {model : String} {outcome : Nat → LitellmOutcome α}
    {long : α → Prop} : OnlyBy m model outcome long ↔ ∀ answer model',
      answeredWithRetry outcome model = .ok (some (answer, model')) → long answer → model' = m := by
  simp only [answeredWithRetry_some_iff]
  constructor
  · rintro h answer model' (⟨hasked, rfl⟩ | ⟨hother, hreplaced⟩) hlong
    · exact Classical.byContradiction fun hne => h.asked hne answer hasked hlong
    · exact Classical.byContradiction fun hne => h.replaced _ hother hne answer hreplaced hlong
  · intro h
    exact ⟨fun hne answer hasked hlong => hne (h answer _ (Or.inl ⟨hasked, rfl⟩) hlong),
      fun other hother hne answer hreplaced hlong =>
        hne (h answer other (Or.inr ⟨hother, hreplaced⟩) hlong)⟩

/-- Of a call of `m` itself only the replacement matters. -/
theorem onlyBy_self {α : Type} {outcome : Nat → LitellmOutcome α} {long : α → Prop} :
    OnlyBy m m outcome long ↔ Unreplaced m outcome long := by
  constructor
  · intro h hretired answer
    obtain ⟨other, hother⟩ := Option.isSome_iff_exists.mp hretired
    exact h.replaced other hother (replacementFor_ne hother) answer
  · intro h
    refine ⟨fun hne => absurd rfl hne, fun other hother _ => h ?_⟩
    rw [hother]
    rfl

theorem storesOwn_nil {α : Type} {x : Caching α} (h : x.log = []) : StoresOwn m messages x := by
  unfold StoresOwn
  rw [h]
  exact fun _ hmem => absurd hmem List.not_mem_nil

theorem storesOwn_congr {α β : Type} {x : Caching α} {y : Caching β} (h : x.log = y.log) :
    StoresOwn m messages x ↔ StoresOwn m messages y := by
  unfold StoresOwn
  rw [h]

theorem storesOwn_maybeStore (heligible : decision.eligible = true) (text model : String)
    {given : List Json} (h : messages <:+: given) :
    StoresOwn m messages (maybeStore env.settings decision ⟨text, model, given⟩) ↔
      OwnText env m text model := by
  unfold OwnText maybeStore
  rw [← storable_iff heligible]
  split
  · next hstorable =>
    constructor
    · intro hown _
      exact (hown _ (List.mem_singleton.mpr rfl)).model
    · intro hown store hmem
      rw [List.mem_singleton.mp hmem]
      exact ⟨hown hstorable, h⟩
  · next hnot =>
    exact iff_of_true (storesOwn_nil rfl) fun hstorable => absurd hstorable hnot

theorem maybeStore_result (answer : Answered) :
    (maybeStore env.settings decision answer).result = .ok () := by
  unfold maybeStore
  split
  · rfl
  · rfl

theorem storesOwn_thenTrue {x : Caching Unit} (h : x.result = .ok ()) :
    (x >>= fun _ => (pure true : Caching Bool)).result = .ok true ∧
      (StoresOwn m messages (x >>= fun _ => (pure true : Caching Bool)) ↔ StoresOwn m messages x) := by
  rw [bind_of_ok h]
  exact ⟨rfl, storesOwn_congr (List.append_nil x.log)⟩

theorem storesOwn_served {x : Caching Bool} {rest : Caching Unit} (h : x.result = .ok true) :
    StoresOwn m messages (x >>= fun served => if served = true then pure () else rest) ↔
      StoresOwn m messages x := by
  rw [bind_of_ok h]
  exact storesOwn_congr (List.append_nil x.log)

theorem storesOwn_unserved {rest : Caching Unit} :
    StoresOwn m messages ((pure false : Caching Bool) >>= fun served =>
      if served = true then pure () else rest) ↔ StoresOwn m messages rest :=
  storesOwn_congr rfl

theorem storesOwn_streamStores (heligible : decision.eligible = true)
    (served : StreamEnd × String) :
    StoresOwn m messages (streamStores env decision messages served) ↔
      OwnStream env m served := by
  unfold streamStores OwnStream
  split
  · next text hserved =>
    rw [storesOwn_maybeStore heligible text served.2 List.infix_rfl, hserved]
    constructor
    · intro hown text' htext
      obtain ⟨rfl, -⟩ := StreamEnd.content.inj htext
      exact hown
    · exact fun hown => hown text rfl
  · next hnot =>
    exact iff_of_true (storesOwn_nil rfl) fun text htext => absurd htext (hnot text)

/-! ## The primary answer -/

theorem tryFrom_reached {ctx : DispatchCtx} {n : Nat} {tried : List String} {chain : FallbackChain}
    {current : RouteResult} (hreached : Reached env ctx n tried current)
    {out : Option (Completion × String) × RouteResult × FallbackChain}
    (h : (tryFrom env.dispatch.fallbackWorlds (rankedArgs ctx) (chainCompletion env) n tried chain
      current).result = .ok out) :
    ∃ n tried, Reached env ctx n tried out.2.1 ∧ (chainCompletion env n out.2.1).result = .ok out.1 := by
  -- on the calls the cap leaves, as the loop itself
  induction hleft : (rankedArgs ctx).maxProviders.toNat - tried.length using
    Nat.strong_induction_on generalizing n tried chain current with
  | _ left ih =>
    rw [tryFrom, attempt_bind] at h
    cases hcall : (chainCompletion env n current).result with
    | ok result =>
      rw [hcall] at h
      obtain rfl := Except.ok.inj h
      exact ⟨n, tried, hreached, hcall⟩
    | error exc =>
      rw [hcall] at h
      dsimp only at h
      split at h
      · cases h
      · next hcap =>
        split at h
        · cases h
        · next next hnext =>
          have hroom : ((current.provider.id :: tried).length : Int) <
              (rankedArgs ctx).maxProviders := by omega
          refine ih _ ?_ (.next hreached (raises_iff.mpr ⟨exc, hcall⟩) hroom hnext) h rfl
          simp only [List.length_cons] at hroom ⊢
          omega

theorem tryRanked_reached {ctx : DispatchCtx}
    {out : Option (Completion × String) × RouteResult × FallbackChain}
    (h : (tryRankedNonStreaming env.dispatch.fallbackWorlds (rankedArgs ctx) (chainCompletion env)
      ctx.route).result = .ok out) :
    ∃ n tried, Reached env ctx n tried out.2.1 ∧ (chainCompletion env n out.2.1).result = .ok out.1 := by
  cases hoauth : isOauthRoute ctx.route with
  | false =>
    rw [tryRanked_start hoauth] at h
    exact tryFrom_reached (.own hoauth) h
  | true =>
    cases hnext : nextRoute (env.dispatch.fallbackWorlds 0) (rankedArgs ctx)
        [ctx.route.provider.id] with
    | error e =>
      rw [tryRanked_exhausted hoauth hnext] at h
      cases h
    | ok next =>
      rw [tryRanked_skip hoauth hnext] at h
      exact tryFrom_reached (.passed hoauth hnext) h

theorem tryRanked_of_reached {ctx : DispatchCtx} {n : Nat} {tried : List String} {r : RouteResult}
    (h : Reached env ctx n tried r) :
    ∃ chain, (tryRankedNonStreaming env.dispatch.fallbackWorlds (rankedArgs ctx)
      (chainCompletion env) ctx.route).result =
        (tryFrom env.dispatch.fallbackWorlds (rankedArgs ctx) (chainCompletion env) n tried chain
          r).result := by
  induction h with
  | own through => exact ⟨_, congrArg Logged.result (tryRanked_start through)⟩
  | passed skipped handed => exact ⟨_, congrArg Logged.result (tryRanked_skip skipped handed)⟩
  | next before raised room handed ih =>
    obtain ⟨chain, hchain⟩ := ih
    obtain ⟨exc, hraised⟩ := raises_iff.mp raised
    exact ⟨_, hchain.trans (tryFrom_failed hraised room handed)⟩

/-- **The answer of the chain** is that of the first route reached that answers. -/
theorem primaryCompletion_ranked {ctx : DispatchCtx} (hon : ctx.settings.fallbackEnabled = true)
    {out : Option (Completion × String)} :
    primaryCompletion env ctx = .ok out ↔ ∃ n tried r, Reached env ctx n tried r ∧
      answeredWithRetry (env.completion (.attempt n)) r.litellmModel = .ok out := by
  unfold primaryCompletion
  rw [if_pos hon]
  constructor
  · intro h
    obtain ⟨ranked, hranked, rfl⟩ := Result.map_ok h
    obtain ⟨n, tried, hreached, hcall⟩ := tryRanked_reached hranked
    exact ⟨n, tried, _, hreached, hcall⟩
  · rintro ⟨n, tried, r, hreached, hcall⟩
    obtain ⟨chain, hchain⟩ := tryRanked_of_reached hreached
    rw [hchain, tryFrom_ok (show (chainCompletion env n r).result = .ok out from hcall)]
    rfl

theorem primaryOwn_iff {ctx : DispatchCtx} (hm : ctx.route.litellmModel = m) :
    PrimaryOwn env m ctx ↔ ∀ result model,
      primaryCompletion env ctx = .ok (some (result, model)) →
        OwnText env m (firstContent result) model := by
  cases hfallback : ctx.settings.fallbackEnabled with
  | true =>
    constructor
    · intro hown result model hanswer
      obtain ⟨n, tried, r, hreached, hcall⟩ := (primaryCompletion_ranked hfallback).mp hanswer
      exact onlyBy_iff.mp (hown.ranked hfallback n tried r hreached) result model hcall
    · intro hown
      refine ⟨fun _ n tried r hreached => onlyBy_iff.mpr fun result model hcall => ?_, fun hoff => ?_⟩
      · exact hown result model
          ((primaryCompletion_ranked hfallback).mpr ⟨n, tried, r, hreached, hcall⟩)
      · rw [hfallback] at hoff
        cases hoff
  | false =>
    have hplain : primaryCompletion env ctx = answeredWithRetry (env.completion .plain) m := by
      unfold primaryCompletion
      rw [hfallback, if_neg Bool.false_ne_true, hm]
    rw [hplain]
    have hcall : Unreplaced m (env.completion .plain) (LongAnswer env) ↔ ∀ result model,
        answeredWithRetry (env.completion .plain) m = .ok (some (result, model)) →
          OwnText env m (firstContent result) model := onlyBy_self.symm.trans onlyBy_iff
    rw [← hcall]
    constructor
    · exact fun hown => hown.plain hfallback
    · intro hown
      refine ⟨fun hon => ?_, fun _ => hown⟩
      rw [hfallback] at hon
      cases hon

theorem ownText_empty (model : String) : OwnText env m "" model := fun h => absurd rfl h.1

theorem firstContent_of_not_encodable {req : ChatRequest} {result : Completion} {exc : Failure}
    (h : encodable env req result = .error exc) : firstContent result = "" := by
  unfold encodable at h
  split at h
  · unfold toAnthropicResponse at h
    cases hchoices : result.choices with
    | nil =>
      unfold firstContent
      rw [hchoices]
      rfl
    | cons choice rest =>
      rw [hchoices] at h
      cases h
  · cases h

theorem storesOwn_primaryStores (heligible : decision.eligible = true) (req : ChatRequest)
    {ctx : DispatchCtx} (hm : ctx.route.litellmModel = m) :
    StoresOwn m ctx.messages (primaryStores env decision req ctx) ↔ PrimaryOwn env m ctx := by
  rw [primaryOwn_iff hm]
  unfold primaryStores
  cases hanswer : primaryCompletion env ctx with
  | error exc => exact iff_of_true (storesOwn_nil rfl) fun _ _ h => nomatch h
  | ok answer =>
    cases answer with
    | none => exact iff_of_true (storesOwn_nil rfl) fun _ _ h => nomatch h
    | some answer =>
      obtain ⟨result, model⟩ := answer
      have hown : (∀ result' model', Except.ok (some (result, model)) =
          (.ok (some (result', model')) : Except Failure _) →
            OwnText env m (firstContent result') model') ↔
              OwnText env m (firstContent result) model := by
        refine ⟨fun h => h result model rfl, fun h result' model' heq => ?_⟩
        cases heq
        exact h
      rw [hown]
      cases hencode : encodable env req result with
      | error exc =>
        rw [firstContent_of_not_encodable hencode, lift_bind rfl]
        refine iff_of_true (storesOwn_nil ?_) (ownText_empty model)
        exact congrArg Logged.log (bind_of_error hencode)
      | ok encoded =>
        rw [lift_bind rfl]
        dsimp only
        rw [lift_bind hencode]
        exact storesOwn_maybeStore heligible (firstContent result) model List.infix_rfl

/-! ## Cheap first -/

theorem cheapAccepted_iff {ctx : DispatchCtx} {cheap : RouteResult} {result : Completion} :
    cheapAccepted env ctx cheap result = true ↔ Accepted env ctx cheap result := by
  unfold cheapAccepted Accepted gradable
  cases result.choices with
  | nil => simp
  | cons choice rest =>
    cases lastUserText ctx.messages with
    | none => simp
    | some userText =>
      show (cascadeVerdict _ _ _ _).result.toOption.getD false = true ↔ _
      rw [(cascadeVerdict_eq _ _ _).1]
      simp [Except.toOption]

theorem cheapAnswer_iff {ctx : DispatchCtx} (hcascade : ctx.doCascade = true) {result : Completion}
    {model : String} : cheapAnswer env ctx = some (result, model) ↔ ∃ cheap,
      CheapRoute env ctx cheap ∧
        answeredWithRetry (env.completion .cheap) cheap.litellmModel = .ok (some (result, model)) ∧
        Accepted env ctx cheap result := by
  simp only [← cheapAccepted_iff]
  unfold cheapAnswer CheapRoute
  cases selectRoute env.dispatch.cheapWorld (cheapRequest ctx) with
  | error e => simp
  | ok cheap =>
    simp only [hcascade, true_and, Except.ok.injEq, exists_eq_left']
    cases hcall : answeredWithRetry (env.completion .cheap) cheap.litellmModel with
    | error exc => simp
    | ok answer =>
      cases answer with
      | none => simp
      | some answer =>
        cases haccepted : cheapAccepted env ctx cheap answer.1 <;> simp [haccepted] <;> grind

theorem cheapPasses_iff {ctx : DispatchCtx} (hcascade : ctx.doCascade = true) :
    CheapPasses env ctx ↔ cheapAnswer env ctx ≠ none := by
  rw [← Option.isSome_iff_ne_none, Option.isSome_iff_exists]
  constructor
  · rintro ⟨cheap, result, hcheap, hreplies, haccepted⟩
    obtain ⟨model, hcall⟩ := replies_iff.mp hreplies
    exact ⟨(result, model), (cheapAnswer_iff hcascade).mpr ⟨cheap, hcheap, hcall, haccepted⟩⟩
  · rintro ⟨⟨result, model⟩, hsome⟩
    obtain ⟨cheap, hcheap, hcall, haccepted⟩ := (cheapAnswer_iff hcascade).mp hsome
    exact ⟨cheap, result, hcheap, replies_iff.mpr ⟨model, hcall⟩, haccepted⟩

theorem cascadeStores_some (heligible : decision.eligible = true) {ctx : DispatchCtx}
    {result : Completion} {model : String} (h : cheapAnswer env ctx = some (result, model)) :
    (cascadeStores env decision ctx).result = .ok true ∧
      (StoresOwn m ctx.messages (cascadeStores env decision ctx) ↔
        OwnText env m (firstContent result) model) := by
  unfold cascadeStores
  rw [h, ← storesOwn_maybeStore heligible (firstContent result) model (List.infix_refl ctx.messages)]
  exact storesOwn_thenTrue (maybeStore_result _)

theorem storesOwn_messagesStores (heligible : decision.eligible = true) (req : ChatRequest)
    {ctx : DispatchCtx} (hm : ctx.route.litellmModel = m) (htools : ctx.hasTools = false)
    (hcot : ctx.route.cotEngaged = false) :
    StoresOwn m ctx.messages (messagesStores env decision req ctx) ↔
      (∀ cheap, CheapRoute env ctx cheap → OnlyBy m cheap.litellmModel (env.completion .cheap)
        fun result => Accepted env ctx cheap result ∧ LongAnswer env result) ∧
      (¬ CheapPasses env ctx → PrimaryOwn env m ctx) := by
  unfold messagesStores
  rw [htools, hcot, ← storesOwn_primaryStores heligible req hm]
  cases hcascade : ctx.doCascade with
  | false =>
    have hoff : ∀ cheap, ¬ CheapRoute env ctx cheap := fun cheap h => by
      have hon := h.1
      rw [hcascade] at hon
      cases hon
    rw [if_neg (by decide)]
    exact ⟨fun h => ⟨fun cheap hcheap => absurd hcheap (hoff cheap), fun _ => h⟩,
      fun h => h.2 fun ⟨cheap, _, hcheap, _⟩ => hoff cheap hcheap⟩
  | true =>
    have honly : (∀ cheap, CheapRoute env ctx cheap →
        OnlyBy m cheap.litellmModel (env.completion .cheap) fun result =>
          Accepted env ctx cheap result ∧ LongAnswer env result) ↔
        ∀ result model, cheapAnswer env ctx = some (result, model) →
          OwnText env m (firstContent result) model := by
      simp only [onlyBy_iff, cheapAnswer_iff hcascade]
      constructor
      · rintro h result model ⟨cheap, hcheap, hcall, haccepted⟩ hlong
        exact h cheap hcheap result model hcall ⟨haccepted, hlong⟩
      · intro h cheap hcheap result model hcall ⟨haccepted, hlong⟩
        exact h result model ⟨cheap, hcheap, hcall, haccepted⟩ hlong
    rw [if_pos (by decide), honly, cheapPasses_iff hcascade]
    cases hcheap : cheapAnswer env ctx with
    | none =>
      have hnone : cascadeStores env decision ctx = pure false := by
        unfold cascadeStores
        rw [hcheap]
      rw [hnone, storesOwn_unserved]
      exact ⟨fun h => ⟨fun _ _ hsome => (nomatch hsome), fun _ => h⟩, fun h => h.2 fun hne => hne rfl⟩
    | some answer =>
      obtain ⟨hserved, hown⟩ := @cascadeStores_some env decision m heligible ctx answer.1 answer.2
        hcheap
      rw [storesOwn_served hserved, hown]
      constructor
      · intro h
        refine ⟨fun result model hsome => ?_, fun hnone => absurd (Option.some_ne_none _) hnone⟩
        cases hsome
        exact h
      · exact fun h => h.1 answer.1 answer.2 rfl

/-! ## Structured output -/

/-- From the n-th call on the repair loop ends with this text of this model. -/
def Repairs (env : CachingEnv) (asked : String) (n : Nat) (text model : String) : Prop :=
  ∃ k : Nat, n ≤ k ∧ (k : Int) ≤ env.maxRepairs ∧ (∀ j, n ≤ j → j < k → Unrepaired env asked j) ∧
    ∃ result, answeredWithRetry (env.completion (.structured k)) asked = .ok (some (result, model)) ∧
      RepairText env k result text

theorem repairs_step {asked text model : String} {n : Nat} (hn : (n : Int) ≤ env.maxRepairs) :
    Repairs env asked n text model ↔
      (∃ result, answeredWithRetry (env.completion (.structured n)) asked =
        .ok (some (result, model)) ∧ RepairText env n result text) ∨
      Unrepaired env asked n ∧ Repairs env asked (n + 1) text model := by
  constructor
  · rintro ⟨k, hle, hk, hbefore, hends⟩
    rcases hle.eq_or_lt with rfl | hlt
    · exact Or.inl hends
    · exact Or.inr ⟨hbefore n (le_refl n) hlt, k, hlt, hk,
        fun j hj => hbefore j (Nat.le_of_succ_le hj), hends⟩
  · rintro (hends | ⟨hfirst, k, hle, hk, hbefore, hends⟩)
    · exact ⟨n, le_refl n, hn, fun j hle hlt => absurd hlt (not_lt.mpr hle), hends⟩
    · refine ⟨k, Nat.le_of_succ_le hle, hk, fun j hj hjk => ?_, hends⟩
      rcases hj.eq_or_lt with rfl | hlt
      · exact hfirst
      · exact hbefore j hlt hjk

/-- **The repair loop**, by its calls; on those left. -/
theorem callWithSchema_iff {r : RouteResult} {left n : Nat} {working : List Json}
    {last : Option Answered} {text model : String} (hrepairs : (n : Int) + left = env.maxRepairs) :
    (∃ given, callWithSchema env r (left + 1) n working last = .ok (some ⟨text, model, given⟩)) ↔
      Repairs env r.litellmModel n text model := by
  induction left using Nat.strong_induction_on generalizing n working last with
  | _ left ih =>
    rw [repairs_step (by omega)]
    unfold callWithSchema Unrepaired RepairText
    simp only [replies_iff]
    cases answeredWithRetry (env.completion (.structured n)) r.litellmModel with
    | error exc => simp
    | ok answer =>
      cases answer with
      | none => simp
      | some answer =>
        obtain ⟨result, model'⟩ := answer
        have hsame : ∀ t : String, (∃ given,
            (.ok (some ⟨t, model', working⟩) : Except Failure (Option Answered)) =
              .ok (some ⟨text, model, given⟩)) ↔ t = text ∧ model' = model := by simp
        simp only [Except.ok.injEq, Option.some.injEq, Prod.mk.injEq]
        cases hchoices : result.choices.isEmpty with
        | true =>
          refine iff_of_false (fun ⟨_, h⟩ => nomatch h) ?_
          grind
        | false =>
          cases hcheck : env.validated (firstContent result) with
          | ok dumped =>
            simp only [Bool.false_eq_true, if_false, hsame]
            grind
          | error err =>
            simp only [Bool.false_eq_true, if_false]
            cases left with
            | zero =>
              have hend : ¬ Repairs env r.litellmModel (n + 1) text model := by
                rintro ⟨k, hle, hk, -⟩
                omega
              simp only [callWithSchema, hsame]
              grind
            | succ left =>
              rw [ih left (Nat.lt_succ_self left) (by omega)]
              have hmore : (n : Int) ≠ env.maxRepairs := by omega
              grind

theorem callWithSchema_messages {r : RouteResult} {left n : Nat} {working : List Json}
    {last : Option Answered} {answer : Answered}
    (h : callWithSchema env r (left + 1) n working last = .ok (some answer)) :
    working <:+: answer.messages := by
  induction left generalizing n working last with
  | zero =>
    unfold callWithSchema callWithSchema at h
    grind
  | succ left ih =>
    unfold callWithSchema at h
    have hturns : ∀ turns : List Json, working <:+: working ++ turns :=
      fun turns => (List.prefix_append working turns).isInfix
    split at h
    · cases h
    · cases h
    · split at h
      · cases h
      · split at h
        · cases h
          exact List.infix_rfl
        · exact (hturns _).trans (ih h)

theorem storesOwn_structuredStores (heligible : decision.eligible = true) {ctx : DispatchCtx}
    (hm : ctx.route.litellmModel = m) :
    StoresOwn m ctx.messages (structuredStores env decision ctx) ↔
      ∀ n : Nat, (n : Int) ≤ env.maxRepairs → (∀ k < n, Unrepaired env m k) →
        Unreplaced m (env.completion (.structured n)) (LongRepair env n) := by
  unfold structuredStores
  generalize hworking : message "system" (.str (buildSchemaSystemPrompt env.schemaText)) ::
    ctx.messages = working
  have hinfix : ctx.messages <:+: working := hworking ▸ (List.suffix_cons _ _).isInfix
  cases hcalls : (env.maxRepairs + 1).toNat with
  | zero => exact iff_of_true (storesOwn_nil rfl) fun n hn => by omega
  | succ left =>
    have hrepairs : ((0 : Nat) : Int) + left = env.maxRepairs := by omega
    have hloop : (∀ n : Nat, (n : Int) ≤ env.maxRepairs → (∀ k < n, Unrepaired env m k) →
        Unreplaced m (env.completion (.structured n)) (LongRepair env n)) ↔
          ∀ text model, Repairs env m 0 text model → OwnText env m text model := by
      simp only [← onlyBy_self, onlyBy_iff]
      constructor
      · rintro h text model ⟨k, -, hk, hbefore, result, hcall, hends⟩ hlong
        exact h k hk (fun j hj => hbefore j (Nat.zero_le j) hj) result model hcall
          ⟨text, hends, hlong⟩
      · rintro h n hn hbefore result model hcall ⟨text, hends, hlong⟩
        exact h text model
          ⟨n, Nat.zero_le n, hn, fun j _ hj => hbefore j hj, result, hcall, hends⟩ hlong
    have hcall : ∀ text model, Repairs env m 0 text model ↔ ∃ given,
        callWithSchema env ctx.route (left + 1) 0 working none = .ok (some ⟨text, model, given⟩) :=
      fun _ _ => by rw [callWithSchema_iff hrepairs, hm]
    simp only [hloop, hcall]
    cases hanswer : callWithSchema env ctx.route (left + 1) 0 working none with
    | error exc => exact iff_of_true (storesOwn_nil rfl) fun _ _ ⟨_, h⟩ => nomatch h
    | ok answer =>
      rw [lift_bind rfl]
      cases answer with
      | none => exact iff_of_true (storesOwn_nil rfl) fun _ _ ⟨_, h⟩ => nomatch h
      | some answer =>
        have hgiven := hinfix.trans (callWithSchema_messages hanswer)
        rw [storesOwn_maybeStore heligible answer.text answer.model hgiven]
        constructor
        · rintro hown text model ⟨given, h⟩
          cases h
          exact hown
        · exact fun hown => hown answer.text answer.model ⟨answer.messages, rfl⟩

/-! ## Streams -/

theorem ownStream_of_storeless {served : StreamEnd × String}
    (h : ∀ text, served.1 ≠ .content text true) : OwnStream env m served :=
  fun text htext => absurd htext (h text)

theorem guardStores_later (req : ChatRequest) (left : Nat) {n : Nat} (hn : n ≠ 0)
    (emptyFailed : List String) (route : RouteResult) :
    (guardStores env decision req left n emptyFailed route).log = [] := by
  induction left generalizing n emptyFailed route with
  | zero => rfl
  | succ left ih =>
    unfold guardStores
    dsimp only
    split
    · rfl
    · rw [if_neg hn]
      rfl
    · split
      · rfl
      split
      · rfl
      split
      · rfl
      · exact ih (Nat.succ_ne_zero n) _ _

theorem storesOwn_guardStores (heligible : decision.eligible = true) (req : ChatRequest) (left : Nat)
    (route : RouteResult) :
    StoresOwn m req.messages (guardStores env decision req (left + 1) 0 [] route) ↔
      OwnStream env m (opened env (.guarded 0) route) := by
  unfold guardStores
  dsimp only
  split
  · next hfailed =>
    refine iff_of_true (storesOwn_nil rfl) (ownStream_of_storeless fun text h => ?_)
    rw [hfailed] at h
    cases h
  · rw [if_pos rfl, storesOwn_streamStores heligible]
  · next hempty =>
    refine iff_of_true (storesOwn_nil ?_) (ownStream_of_storeless fun text h => ?_)
    · split
      · rfl
      split
      · rfl
      split
      · rfl
      · exact guardStores_later req left (Nat.succ_ne_zero 0) _ _
    · rw [hempty] at h
      cases h

theorem streamStores_result (served : StreamEnd × String) :
    (streamStores env decision messages served).result = .ok () := by
  unfold streamStores
  split
  · exact maybeStore_result _
  · rfl

theorem ownStream_opened {place : Place} {r : RouteResult} :
    OwnStream env m (opened env place r) ↔
      OnlyBy m r.litellmModel (env.stream place) (LongStream env) := by
  rw [onlyBy_iff]
  unfold OwnStream opened OwnText LongStream
  cases answeredWithRetry (env.stream place) r.litellmModel with
  | error exc => simp
  | ok answer =>
    cases answer with
    | none => simp
    | some answer =>
      constructor
      · rintro h outcome model hcall ⟨text, rfl, hlong⟩
        cases hcall
        exact h text rfl hlong
      · intro h text htext hlong
        exact h answer.1 answer.2 rfl ⟨text, htext, hlong⟩

theorem opened_empty_iff {place : Place} {r : RouteResult} :
    (opened env place r).1 = .empty ↔ Replies r.litellmModel (env.stream place) .empty := by
  rw [replies_iff]
  unfold opened
  cases answeredWithRetry (env.stream place) r.litellmModel with
  | error exc => simp
  | ok answer =>
    cases answer with
    | none => simp
    | some answer => simp [Prod.ext_iff]

theorem raceWinner_iff {req : ChatRequest} {route : RouteResult} {served : StreamEnd × String} :
    raceWinner env req route = some served ↔ ∃ backup, Raced env req route backup ∧
      served = if env.primaryWins then opened env .hedged route else opened env .backup backup := by
  unfold raceWinner Raced
  split
  · next hrun =>
    simp only [hrun, true_and]
    cases selectRoute env.hedgeWorld (backupRequest req route) with
    | error e => simp
    | ok backup =>
      simp only [Option.some.injEq, Except.ok.injEq, exists_eq_left']
      exact eq_comm
  · next hnot => simp [hnot]

theorem streamingOwn_iff {req : ChatRequest} {route : RouteResult} (hm : route.litellmModel = m) :
    StreamingOwn env m req route ↔
      (∀ served, raceWinner env req route = some served → env.primaryWins = true →
        OwnStream env m served) ∧
      ((∀ served, raceWinner env req route = some served → served.1 = .empty) →
        OwnStream env m (opened env (.guarded 0) route)) := by
  have hown : ∀ place, OwnStream env m (opened env place route) ↔
      Unreplaced m (env.stream place) (LongStream env) := fun place => by
    rw [ownStream_opened, hm, onlyBy_self]
  have hempty : ∀ backup, (if env.primaryWins then opened env .hedged route
      else opened env .backup backup).1 = .empty ↔ WonEmpty env route backup := by
    intro backup
    unfold WonEmpty
    split <;> exact opened_empty_iff
  simp only [raceWinner_iff, hown]
  constructor
  · intro h
    refine ⟨?_, fun hraces => h.guarded fun backup hraced => ?_⟩
    · rintro served ⟨backup, hraced, rfl⟩ hwins
      rw [if_pos hwins, hown]
      exact h.hedged backup hraced hwins
    · exact (hempty backup).mp (hraces _ ⟨backup, hraced, rfl⟩)
  · rintro ⟨hhedged, hguarded⟩
    refine ⟨fun backup hraced hwins => ?_, fun hraces => hguarded ?_⟩
    · have hserved := hhedged _ ⟨backup, hraced, rfl⟩ hwins
      rwa [if_pos hwins, hown] at hserved
    · rintro served ⟨backup, hraced, rfl⟩
      exact (hempty backup).mpr (hraces backup hraced)

theorem storesOwn_streamingStores (heligible : decision.eligible = true) (req : ChatRequest)
    {route : RouteResult} (hm : route.litellmModel = m) :
    StoresOwn m req.messages (streamingStores env decision req route) ↔
      StreamingOwn env m req route := by
  rw [streamingOwn_iff hm, ← storesOwn_guardStores heligible req 2 route]
  unfold streamingStores hedgeStores
  cases hrace : raceWinner env req route with
  | none =>
    dsimp only
    rw [storesOwn_unserved]
    exact ⟨fun h => ⟨fun _ hnone => (nomatch hnone), fun _ => h⟩,
      fun h => h.2 fun _ hnone => (nomatch hnone)⟩
  | some served =>
    obtain ⟨outcome, model⟩ := served
    cases outcome with
    | failed =>
      refine iff_of_true (storesOwn_nil rfl) ⟨fun served hsome _ => ?_, fun hempty => ?_⟩
      · cases hsome
        exact ownStream_of_storeless fun text h => nomatch h
      · exact nomatch hempty _ rfl
    | empty =>
      dsimp only
      rw [storesOwn_unserved]
      constructor
      · intro h
        refine ⟨fun served hsome _ => ?_, fun _ => h⟩
        cases hsome
        exact ownStream_of_storeless fun text h => nomatch h
      · refine fun h => h.2 fun served hsome => ?_
        cases hsome
        rfl
    | content text finished =>
      have hrest : (∀ served, some (StreamEnd.content text finished, model) = some served →
          served.1 = .empty) → StoresOwn m req.messages
            (guardStores env decision req (2 + 1) 0 [] route) :=
        fun hempty => nomatch hempty _ rfl
      dsimp only
      cases hwins : env.primaryWins with
      | false =>
        refine iff_of_true (storesOwn_nil rfl) ⟨fun _ _ h => (nomatch h), hrest⟩
      | true =>
        obtain ⟨hserved, hown⟩ := @storesOwn_thenTrue m req.messages
          (streamStores env decision req.messages (.content text finished, model))
          (streamStores_result _)
        rw [if_pos rfl, storesOwn_served hserved, hown, storesOwn_streamStores heligible]
        constructor
        · intro h
          refine ⟨fun served hsome _ => ?_, hrest⟩
          cases hsome
          exact h
        · exact fun h => h.1 _ rfl rfl

/-! ## A whole run -/

/-- Every store is under the decision, and passes its gate. -/
def UnderDecision (env : CachingEnv) (decision : CacheDecision) (store : Store) : Prop :=
  store.decision = decision ∧ storable env.settings decision store.answer.text = true

theorem maybeStore_under (answer : Answered) :
    Ensures (UnderDecision env decision) (fun _ => True)
      (maybeStore env.settings decision answer) := by
  unfold maybeStore
  split
  · next hstorable => exact ensures_perform ⟨rfl, hstorable⟩ fun _ _ => trivial
  · exact ensures_pure trivial

theorem streamStores_under (served : StreamEnd × String) :
    Ensures (UnderDecision env decision) (fun _ => True)
      (streamStores env decision messages served) := by
  unfold streamStores
  split
  · exact maybeStore_under _
  · exact ensures_pure trivial

theorem primaryStores_under (req : ChatRequest) (ctx : DispatchCtx) :
    Ensures (UnderDecision env decision) (fun _ => True) (primaryStores env decision req ctx) := by
  unfold primaryStores
  apply (ensures_lift (Q := fun _ => True) fun _ _ => trivial).bind
  intro answer _
  cases answer with
  | none => exact ensures_raise _
  | some answer =>
    apply (ensures_lift (Q := fun _ => True) fun _ _ => trivial).bind
    exact fun _ _ => maybeStore_under _

theorem messagesStores_under (req : ChatRequest) (ctx : DispatchCtx) :
    Ensures (UnderDecision env decision) (fun _ => True) (messagesStores env decision req ctx) := by
  unfold messagesStores
  split
  · have hcascade : Ensures (UnderDecision env decision) (fun _ => True)
        (cascadeStores env decision ctx) := by
      unfold cascadeStores
      split
      · exact ensures_pure trivial
      · exact (maybeStore_under _).bind fun _ _ => ensures_pure trivial
    apply hcascade.bind
    intro served _
    split
    · exact ensures_pure trivial
    · exact primaryStores_under req ctx
  · exact primaryStores_under req ctx

theorem completionsStores_under (req : ChatRequest) (ctx : DispatchCtx) :
    Ensures (UnderDecision env decision) (fun _ => True)
      (completionsStores env decision req ctx) := by
  unfold completionsStores structuredStores
  split
  · apply (ensures_lift (Q := fun _ => True) fun _ _ => trivial).bind
    intro answer _
    cases answer with
    | none => exact ensures_pure trivial
    | some answer => exact maybeStore_under answer
  · exact primaryStores_under req ctx

theorem streamingStores_under (req : ChatRequest) (route : RouteResult) :
    Ensures (UnderDecision env decision) (fun _ => True)
      (streamingStores env decision req route) := by
  have hhedge : Ensures (UnderDecision env decision) (fun _ => True)
      (hedgeStores env decision req route) := by
    unfold hedgeStores
    split
    · exact ensures_pure trivial
    split
    · exact ensures_raise _
    · exact ensures_pure trivial
    · split
      · exact (streamStores_under _).bind fun _ _ => ensures_pure trivial
      · exact ensures_pure trivial
  unfold streamingStores
  apply hhedge.bind
  intro served _
  split
  · exact ensures_pure trivial
  · unfold guardStores
    dsimp only
    split
    · exact ensures_raise _
    · exact streamStores_under _
    · split
      · exact ensures_raise _
      split
      · exact ensures_raise _
      split
      · exact ensures_raise _
      · have hlater := @guardStores_later env decision req 2 1 (by decide)
        exact ⟨fun store hmem => absurd (hlater _ _ ▸ hmem) List.not_mem_nil, fun _ _ => trivial⟩

theorem servedStores_under (req : ChatRequest) (routed : Routed) :
    Ensures (UnderDecision env decision) (fun _ => True) (servedStores env decision req routed) := by
  unfold servedStores
  split
  · exact ensures_pure trivial
  split
  · exact ensures_pure trivial
  split
  · exact ensures_pure trivial
  split
  · exact ensures_pure trivial
  split
  · exact streamingStores_under req routed.route
  split
  · exact messagesStores_under req _
  · exact completionsStores_under req _

theorem storesOwn_ineligible (h : decision.eligible = false) (req : ChatRequest) (routed : Routed) :
    StoresOwn m messages (servedStores env decision req routed) := by
  intro store hmem
  have hstorable := ((servedStores_under req routed).1 store hmem).2
  unfold storable at hstorable
  rw [h] at hstorable
  cases hstorable

theorem storesOwn_completionsStores (heligible : decision.eligible = true) {req : ChatRequest}
    {ctx : DispatchCtx} (hm : ctx.route.litellmModel = m) (htools : req.hasTools = false) :
    StoresOwn m ctx.messages (completionsStores env decision req ctx) ↔
      ((req.settings.structuredOutputEnabled && req.hasSchema) = true →
        ∀ n : Nat, (n : Int) ≤ env.maxRepairs → (∀ k < n, Unrepaired env m k) →
          Unreplaced m (env.completion (.structured n)) (LongRepair env n)) ∧
      ((req.settings.structuredOutputEnabled && req.hasSchema) = false →
        PrimaryOwn env m ctx) := by
  unfold completionsStores
  rw [htools, Bool.not_false, Bool.and_true]
  cases req.settings.structuredOutputEnabled && req.hasSchema with
  | true =>
    rw [if_pos rfl, storesOwn_structuredStores heligible hm]
    exact ⟨fun h => ⟨fun _ => h, fun hoff => (nomatch hoff)⟩, fun h => h.1 rfl⟩
  | false =>
    rw [if_neg Bool.false_ne_true, storesOwn_primaryStores heligible req hm]
    exact ⟨fun h => ⟨fun hon => (nomatch hon), fun _ => h⟩, fun h => h.2 rfl⟩

theorem storesOwn_servedStores {req : ChatRequest} {routed : Routed} (heligible : decision.eligible = true)
    (hhit : env.cacheHit = false) (hwebhook : req.webhook = false)
    (hemulation : routed.route.toolEmulationEngaged = false)
    (hcot : routed.route.cotEngaged = false) (htools : req.hasTools = false) :
    StoresOwn routed.route.litellmModel req.messages (servedStores env decision req routed) ↔
      ArmOwn env routed.route.litellmModel req routed := by
  have hm : (dispatchCtx req routed).route.litellmModel = routed.route.litellmModel := rfl
  unfold servedStores
  rw [heligible, hhit, hwebhook, hemulation, hcot]
  simp only [Bool.and_false, Bool.false_eq_true, if_false]
  cases hstreams : req.streams with
  | true =>
    rw [if_pos rfl, storesOwn_streamingStores heligible req rfl]
    constructor
    · intro h
      refine ⟨fun _ => h, fun hoff => ?_, fun hoff => ?_, fun hoff => ?_, fun hoff => ?_⟩ <;>
      · rw [hstreams] at hoff
        cases hoff
    · exact fun h => h.streaming hstreams
  | false =>
    rw [if_neg Bool.false_ne_true]
    cases hendpoint : req.endpoint with
    | messages =>
      have harm := @storesOwn_messagesStores env decision _ heligible req _ hm htools hcot
      dsimp only
      rw [show req.messages = (dispatchCtx req routed).messages from rfl, harm]
      constructor
      · intro h
        refine ⟨fun hon => ?_, fun _ _ => h.1, fun _ _ => h.2, fun _ hother => ?_,
          fun _ hother => ?_⟩
        · rw [hstreams] at hon
          cases hon
        all_goals
          rw [hendpoint] at hother
          cases hother
      · exact fun h => ⟨h.cascade hstreams hendpoint, h.messages hstreams hendpoint⟩
    | completions =>
      have harm := @storesOwn_completionsStores env decision _ heligible req _ hm htools
      dsimp only
      rw [show req.messages = (dispatchCtx req routed).messages from rfl, harm]
      constructor
      · intro h
        refine ⟨fun hon => ?_, fun _ hother => ?_, fun _ hother => ?_, fun _ _ => h.1,
          fun _ _ => h.2⟩
        · rw [hstreams] at hon
          cases hon
        all_goals
          rw [hendpoint] at hother
          cases hother
      · exact fun h => ⟨h.structured hstreams hendpoint, h.completions hstreams hendpoint⟩

/-- The stores of a run are its route's own answers exactly when it meets no long answer of another
model. -/
theorem storesOwn_stores (env : CachingEnv) (req : ChatRequest) (parts : CacheParts)
    (routed : Routed) :
    StoresOwn routed.route.litellmModel req.messages (stores env req parts routed) ↔
      KeepsOwn env req parts routed := by
  unfold stores KeepsOwn
  cases hdecide : decideCacheable env.keys env.settings (question req parts routed.route) with
  | none => exact iff_of_true (storesOwn_nil rfl) fun h => nomatch h
  | some decision =>
    dsimp only [Option.any_some]
    cases heligible : decision.eligible with
    | false => exact iff_of_true (storesOwn_ineligible heligible req routed) fun h => nomatch h
    | true =>
      obtain ⟨hcot, hemulation, htools, hwebhook, -⟩ := decideCacheable_eligible hdecide heligible
      cases hhit : env.cacheHit with
      | true =>
        refine iff_of_true (storesOwn_nil ?_) fun _ hno => nomatch hno
        unfold servedStores
        rw [heligible, hhit]
        rfl
      | false =>
        rw [storesOwn_servedStores heligible hhit hwebhook hemulation hcot htools]
        exact ⟨fun h _ _ => h, fun h => h rfl rfl⟩

end

/-! ## The cache -/

/-- A run of a handler, from the decision on. -/
structure CachedRun where
  env : CachingEnv
  req : ChatRequest
  parts : CacheParts
  routed : Routed

def CachedRun.stores (run : CachedRun) : Caching Unit :=
  Cache.stores run.env run.req run.parts run.routed

def CachedRun.model (run : CachedRun) : String := run.routed.route.litellmModel

def CachedRun.KeepsOwn (run : CachedRun) : Prop :=
  Cache.KeepsOwn run.env run.req run.parts run.routed

def storedBy (history : List CachedRun) : List Store := history.flatMap fun run => run.stores.log

theorem stored_namespace {run : CachedRun} {store : Store} (h : store ∈ run.stores.log) :
    ∃ system tools temperature prior, store.decision.cacheNamespace =
      buildNamespace run.env.keys run.req.key.id run.model system tools temperature prior := by
  unfold CachedRun.stores stores at h
  cases hdecide : decideCacheable run.env.keys run.env.settings
      (question run.req run.parts run.routed.route) with
  | none =>
    rw [hdecide] at h
    exact absurd h List.not_mem_nil
  | some decision =>
    rw [hdecide] at h
    obtain ⟨hdecision, hstorable⟩ := (servedStores_under run.req run.routed).1 store h
    have heligible : decision.eligible = true := by
      simp only [storable, Bool.and_eq_true] at hstorable
      exact hstorable.1.1
    obtain ⟨-, -, -, -, prior, hspace⟩ := decideCacheable_eligible hdecide heligible
    rw [hdecision]
    exact ⟨_, _, _, prior, hspace⟩

/-! ## A fixed run -/

def longAnswer : Completion where
  id := none
  model := none
  choices := [⟨some (String.ofList (List.replicate 200 'a')), [], some "stop"⟩]
  usage := none

/-- The first provider fails, the second one answers. -/
def failoverEnv : CachingEnv where
  keys := ⟨fun _ => "0123456789abcdef", Char.isAlphanum, Char.isDigit⟩
  dispatch := scriptedEnv gptWorld gptWorld .plain longAnswer []
  completion := fun place _ =>
    if place = .attempt 1 then .answered longAnswer else .raised ⟨"APIError", "overloaded"⟩
  stream := fun _ _ => .raised ⟨"APIError", "overloaded"⟩
  hedgeWorld := gptWorld
  guardWorlds := fun _ => gptWorld

theorem k1_ne_empty : "k1" ≠ "" := by decide

def questionRequest : ChatRequest where
  endpoint := .messages
  key := { id := "k1", nonempty := k1_ne_empty }
  messages := [message "user" (.str "Why?")]

def failoverRun : CachedRun where
  env := failoverEnv
  req := questionRequest
  parts := { xCache := some "on" }
  routed := ⟨claudeRoute, claudeRoute, none⟩

theorem gpt_handed :
    ∃ r, nextRoute gptWorld (rankedArgs (dispatchCtx questionRequest failoverRun.routed)) ["p1"] =
      .ok r ∧ r.litellmModel = "openai/gpt-4o" := by
  have hadmitted : Admitted gptWorld
      ((rankedArgs (dispatchCtx questionRequest failoverRun.routed)).request.around ["p1"]) gptRow :=
    { row := List.mem_cons_of_mem _ List.mem_cons_self
      enabled := rfl
      pinned := fun _ h => nomatch h
      compliant := fun _ _ h => nomatch h
      notExcluded := fun h => nomatch h
      notExcludedIds := by decide
      accessible := rfl
      available := rfl
      tools := fun h => nomatch h
      type := List.not_mem_nil
      chat := fun _ => by decide }
  have hids : (gptWorld.providers.map (·.id)).Nodup := by decide
  obtain ⟨huse, hnodup⟩ := quietWorld_usable [] {} [] none hadmitted.row hadmitted.enabled
    hids.of_map
  obtain ⟨r, hroute, hprovider, hmodel⟩ := selectProvider_sole hadmitted
    (leavesOnly_otherIds hids hadmitted.row rfl) ⟨rfl, rfl, rfl, rfl, rfl, rfl, rfl⟩ rfl rfl huse
    hnodup
  have hover : HandsOver (rankedArgs (dispatchCtx questionRequest failoverRun.routed)) "p1" gptWorld
      r := by
    refine ⟨rfl, ?_, selectRoute_of_selectProvider hroute⟩
    unfold isOauthRoute
    rw [hprovider]
    decide
  refine ⟨r, hover.nextRoute, ?_⟩
  rw [hmodel]
  split <;> decide

end LlmProxy.Cache
