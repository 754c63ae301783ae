import LlmProxy.Cluster.KeyEdits
import LlmProxy.Cluster.Sync

/-! # The fan-out of a policy change

`push_policy_change_with_quorum` (`app/cluster/manager.py`) and its call in `update_key`
(`app/api/apikeys.py`): the edit is committed, then pushed to the peers, and what they answer goes
into the audit row.

> `fanOut_listed`: the two lists name each active peer once;
> `waitLoop_acks`: the acknowledgements are those of some rounds waited for;
> `updateKey_policy`: the policy of the row an edit commits;
> `policy_acks_enforced_iff`: when an acknowledgement means that the peer holds the policy.

Mirroring notes.
* A round is one return of `asyncio.wait`: the pushes done by then, in the order they are taken
  out; an empty round is the deadline.
* The push of a policy carries none of the sections `apply_sync` reads.
-/

namespace LlmProxy.Cluster

open LlmProxy.Providers (HttpError FlushClock)

/-! ## The fan-out -/

structure PeerNode where
  id : String
  name : String
  status : String
  deriving DecidableEq

/-- `_active_peers`. -/
def activePeers (peers : List PeerNode) : List PeerNode := peers.filter (·.status ≠ "unreachable")

/-- What comes of a push: a 200 reply at some time, or an error. -/
inductive PushOutcome where
  | acked (time : String)
  | failed (reason : String)
  deriving DecidableEq

/-- An entry of one of the two lists: the peer, and the time or the reason. -/
structure PeerEntry where
  node : PeerNode
  text : String
  deriving DecidableEq

/-- The state of the loop: the tasks, and the two lists. -/
structure FanOut where
  running : List PeerNode
  acks : List PeerEntry
  pending : List PeerEntry
  deriving DecidableEq

/-- The pushes done when a wait returns, by the id of the peer. -/
abbrev Round := List (String × PushOutcome)

def settle (s : FanOut) (done : String × PushOutcome) : FanOut :=
  match s.running.find? (·.id == done.1) with
  | none => s
  | some p =>
    match done.2 with
    | .acked time => ⟨s.running.erase p, s.acks ++ [⟨p, time⟩], s.pending⟩
    | .failed reason => ⟨s.running.erase p, s.acks, s.pending ++ [⟨p, reason⟩]⟩

def settleAll (s : FanOut) (round : Round) : FanOut := round.foldl settle s

def abandon (reason : String) (s : FanOut) : FanOut :=
  ⟨[], s.acks, s.pending ++ s.running.map (⟨·, reason⟩)⟩

def waitLoop (requiredAcks : Nat) : FanOut → List Round → FanOut
  | s, [] => abandon "timeout" s
  | s, round :: rounds =>
    if s.running.isEmpty then s
    else if round.isEmpty then abandon "timeout" s
    else if requiredAcks ≤ (settleAll s round).acks.length then
      abandon "lagging" (settleAll s round)
    else waitLoop requiredAcks (settleAll s round) rounds

structure PushResult where
  appliedToPeers : List PeerEntry
  pendingPeers : List PeerEntry
  clusterSyncStatus : String
  deriving DecidableEq

def syncStatus (pending : Nat) : String :=
  if pending = 0 then "fully-acked" else "quorum-reached-" ++ toString pending ++ "-pending"

/-- `push_policy_change_with_quorum`; the error is `ClusterSyncQuorumNotReached` with its lists. -/
def pushPolicyChangeWithQuorum (peers : List PeerNode) (requiredAcks : Nat) (rounds : List Round) :
    Except (List PeerEntry × List PeerEntry) PushResult :=
  if (activePeers peers).isEmpty then
    if requiredAcks = 0 then .ok ⟨[], [], "fully-acked"⟩ else .error ([], [])
  else
    let s := waitLoop requiredAcks ⟨activePeers peers, [], []⟩ rounds
    if s.acks.length < requiredAcks then .error (s.acks, s.pending)
    else .ok ⟨s.acks, s.pending, syncStatus s.pending.length⟩

/-! ## The edit -/

structure CompliancePolicy where
  blockedCompanies : Option (List String)
  allowedPaths : Option (List String)
  allowedCompanies : Option (List String)
  blockedModels : Option (List String)
  allowedModels : Option (List String)
  deriving DecidableEq

def ApiKey.compliance (k : ApiKey) : CompliancePolicy :=
  ⟨k.blockedCompanies, k.allowedPaths, k.allowedCompanies, k.blockedModels, k.allowedModels⟩

def CompliancePolicy.shown (v : CompliancePolicy) : CompliancePolicy :=
  ⟨orNone v.blockedCompanies, orNone v.allowedPaths, orNone v.allowedCompanies,
    orNone v.blockedModels, orNone v.allowedModels⟩

structure PolicyPush where
  scope : String
  targetId : String
  after : CompliancePolicy

/-- What `apply_sync` finds in it. -/
def PolicyPush.sections (_ : PolicyPush) : SyncPayload := {}

/-- The row `emit_policy_change` writes. -/
structure PolicyChangeRow where
  scope : String
  targetId : String
  before : CompliancePolicy
  after : CompliancePolicy
  reason : Option String
  appliedToPeers : List (String × String)
  pendingPeers : List (String × String)
  clusterSyncStatus : String
  deriving DecidableEq

def PeerEntry.line (e : PeerEntry) : String × String := (e.node.name, e.text)

/-- The run of a push: the peers, their answers, and what each peer holds when it takes the push
in. -/
structure PushRun where
  peers : List PeerNode
  rounds : List Round
  nodes : String → SyncNode
  clk : FlushClock

def PushRun.start (w : PushRun) : FanOut := ⟨activePeers w.peers, [], []⟩

/-- An accepted edit: the row as it is committed, the fan-out and the audit row of a change of
policy. -/
structure EditedKey where
  row : KeyRow
  push : Option (Except (List PeerEntry × List PeerEntry) PushResult)
  audit : Option PolicyChangeRow

/-- `_emit_compliance_policy_change`, from the fan-out on: an error leaves one line. -/
def policyChangeRow (k row : KeyRow) (reason : Option String)
    (push : Except (List PeerEntry × List PeerEntry) PushResult) : PolicyChangeRow :=
  let applied := match push with
    | .ok result => result.appliedToPeers.map PeerEntry.line
    | .error _ => []
  let pending := match push with
    | .ok result => result.pendingPeers.map PeerEntry.line
    | .error _ => [("unknown", "quorum-push-failed")]
  { scope := "per_key"
    targetId := k.id
    before := k.compliance.shown
    after := row.compliance.shown
    reason := reason
    appliedToPeers := applied
    pendingPeers := pending
    clusterSyncStatus := syncStatus pending.length }

def PushRun.requiredAcks (w : PushRun) : Nat := w.peers.length - 1

/-- `update_key`. Nothing takes the commit back. -/
def patchKey (env : KeyEnv) (w : PushRun) (k : KeyRow) (body : KeyUpdate) :
    Except HttpError EditedKey := do
  let (row, changed) ← updateKey env k body
  if changed then
    let push := pushPolicyChangeWithQuorum w.peers w.requiredAcks w.rounds
    return ⟨row, some push, some (policyChangeRow k row body.reason push)⟩
  else return ⟨row, none, none⟩

/-! ## The two lists -/

def FanOut.peers (s : FanOut) : List PeerNode :=
  s.acks.map (·.node) ++ (s.pending.map (·.node) ++ s.running)

theorem settle_peers (s : FanOut) (done : String × PushOutcome) :
    (settle s done).peers.Perm s.peers := by
  unfold settle
  cases hfind : s.running.find? (·.id == done.1) with
  | none => exact List.Perm.refl _
  | some p =>
    have hp : p ∈ s.running := List.mem_of_find?_eq_some hfind
    have hrunning : s.running.Perm (p :: s.running.erase p) := List.perm_cons_erase hp
    cases done.2 with
    | acked time =>
      simp only [FanOut.peers, List.map_append, List.map_cons, List.map_nil, List.append_assoc]
      refine List.Perm.append_left _ ?_
      have hmiddle : (p :: (s.pending.map (·.node) ++ s.running.erase p)).Perm
          (s.pending.map (·.node) ++ p :: s.running.erase p) := List.perm_middle.symm
      exact hmiddle.trans (List.Perm.append_left _ hrunning.symm)
    | failed reason =>
      simp only [FanOut.peers, List.map_append, List.map_cons, List.map_nil, List.append_assoc]
      exact List.Perm.append_left _ (List.Perm.append_left _ hrunning.symm)

theorem settleAll_peers (s : FanOut) (round : Round) : (settleAll s round).peers.Perm s.peers := by
  unfold settleAll
  induction round generalizing s with
  | nil => exact List.Perm.refl _
  | cons done round ih => exact (ih (settle s done)).trans (settle_peers s done)

theorem abandon_peers (reason : String) (s : FanOut) : (abandon reason s).peers = s.peers := by
  simp [abandon, FanOut.peers, List.map_map, Function.comp_def]

theorem waitLoop_peers (requiredAcks : Nat) (s : FanOut) (rounds : List Round) :
    (waitLoop requiredAcks s rounds).peers.Perm s.peers := by
  induction rounds generalizing s with
  | nil => rw [waitLoop, abandon_peers]
  | cons round rounds ih =>
    unfold waitLoop
    split
    · exact List.Perm.refl _
    split
    · rw [abandon_peers]
    have hround := settleAll_peers s round
    split
    · rw [abandon_peers]
      exact hround
    · exact (ih _).trans hround

theorem waitLoop_running (requiredAcks : Nat) (s : FanOut) (rounds : List Round) :
    (waitLoop requiredAcks s rounds).running = [] := by
  induction rounds generalizing s with
  | nil => rfl
  | cons round rounds ih =>
    unfold waitLoop
    split
    · exact List.isEmpty_iff.mp ‹_›
    split
    · rfl
    split
    · rfl
    · exact ih _

def listsOf (push : Except (List PeerEntry × List PeerEntry) PushResult) :
    List PeerEntry × List PeerEntry :=
  match push with
  | .ok result => (result.appliedToPeers, result.pendingPeers)
  | .error lists => lists

theorem listsOf_push (peers : List PeerNode) (requiredAcks : Nat) (rounds : List Round) :
    listsOf (pushPolicyChangeWithQuorum peers requiredAcks rounds) =
      ((waitLoop requiredAcks ⟨activePeers peers, [], []⟩ rounds).acks,
        (waitLoop requiredAcks ⟨activePeers peers, [], []⟩ rounds).pending) := by
  unfold pushPolicyChangeWithQuorum
  split
  · have hnone : activePeers peers = [] := List.isEmpty_iff.mp ‹_›
    have hidle : waitLoop requiredAcks ⟨activePeers peers, [], []⟩ rounds = ⟨[], [], []⟩ := by
      rw [hnone]
      cases rounds with
      | nil => rfl
      | cons round rounds => rfl
    rw [hidle]
    split <;> rfl
  · simp only []
    split <;> rfl

/-- **The two lists name each active peer once**, whatever it answers and when. -/
theorem fanOut_listed (peers : List PeerNode) (requiredAcks : Nat) (rounds : List Round) :
    let lists := listsOf (pushPolicyChangeWithQuorum peers requiredAcks rounds)
    ((lists.1 ++ lists.2).map (·.node)).Perm (activePeers peers) := by
  intro lists
  have hpeers := waitLoop_peers requiredAcks ⟨activePeers peers, [], []⟩ rounds
  have hrunning := waitLoop_running requiredAcks ⟨activePeers peers, [], []⟩ rounds
  have hlists : lists = _ := listsOf_push peers requiredAcks rounds
  rw [hlists]
  unfold FanOut.peers at hpeers
  rw [hrunning] at hpeers
  simpa using hpeers

/-! ## What is waited for -/

/-- The loop takes the first `i` rounds in: none of them is the deadline, and the quorum is not
reached before the last. -/
def Waited (requiredAcks : Nat) : FanOut → List Round → Nat → Prop
  | _, _, 0 => True
  | _, [], _ + 1 => False
  | s, round :: rounds, i + 1 =>
    round ≠ [] ∧ (i = 0 ∨
      (settleAll s round).acks.length < requiredAcks ∧
        Waited requiredAcks (settleAll s round) rounds i)

/-- The acknowledgements of the first `i` rounds. -/
def acksBy (s : FanOut) (rounds : List Round) (i : Nat) : List PeerEntry :=
  ((rounds.take i).foldl settleAll s).acks

theorem settle_idle {s : FanOut} (h : s.running = []) (done : String × PushOutcome) :
    settle s done = s := by
  unfold settle
  rw [h]
  rfl

theorem settleAll_idle {s : FanOut} (h : s.running = []) (round : Round) : settleAll s round = s := by
  unfold settleAll
  induction round with
  | nil => rfl
  | cons done round ih => rw [List.foldl_cons, settle_idle h, ih]

theorem acksBy_idle {s : FanOut} (h : s.running = []) (rounds : List Round) (i : Nat) :
    acksBy s rounds i = s.acks := by
  unfold acksBy
  induction rounds.take i with
  | nil => rfl
  | cons round rounds ih => rw [List.foldl_cons, settleAll_idle h, ih]

/-- **The acknowledgements** are those of some rounds waited for. -/
theorem waitLoop_acks (requiredAcks : Nat) (s : FanOut) (rounds : List Round) :
    ∃ i, Waited requiredAcks s rounds i ∧
      (waitLoop requiredAcks s rounds).acks = acksBy s rounds i := by
  induction rounds generalizing s with
  | nil => exact ⟨0, trivial, rfl⟩
  | cons round rounds ih =>
    unfold waitLoop
    split
    · exact ⟨0, trivial, rfl⟩
    split
    · exact ⟨0, trivial, rfl⟩
    have hround : round ≠ [] := fun h => ‹¬ round.isEmpty = true› (List.isEmpty_iff.mpr h)
    split
    · exact ⟨1, ⟨hround, Or.inl rfl⟩, rfl⟩
    · obtain ⟨i, hwaited, hacks⟩ := ih (settleAll s round)
      exact ⟨i + 1, ⟨hround, Or.inr ⟨by omega, hwaited⟩⟩, hacks⟩

theorem settle_acks (s : FanOut) (done : String × PushOutcome) :
    s.acks <+: (settle s done).acks := by
  unfold settle
  split
  · exact List.prefix_rfl
  · split
    · exact List.prefix_append _ _
    · exact List.prefix_rfl

theorem settleAll_acks (s : FanOut) (round : Round) : s.acks <+: (settleAll s round).acks := by
  unfold settleAll
  induction round generalizing s with
  | nil => exact List.prefix_rfl
  | cons done round ih => exact (settle_acks s done).trans (ih _)

theorem waitLoop_keeps (requiredAcks : Nat) (s : FanOut) (rounds : List Round) :
    s.acks <+: (waitLoop requiredAcks s rounds).acks := by
  induction rounds generalizing s with
  | nil => exact List.prefix_rfl
  | cons round rounds ih =>
    unfold waitLoop
    split
    · exact List.prefix_rfl
    split
    · exact List.prefix_rfl
    split
    · exact settleAll_acks s round
    · exact (settleAll_acks s round).trans (ih _)

theorem acksBy_grows {requiredAcks : Nat} {s : FanOut} {rounds : List Round} {i : Nat}
    (h : Waited requiredAcks s rounds i) :
    acksBy s rounds i <+: (waitLoop requiredAcks s rounds).acks := by
  induction rounds generalizing s i with
  | nil =>
    cases i with
    | zero => exact List.prefix_rfl
    | succ i => exact h.elim
  | cons round rounds ih =>
    cases i with
    | zero => exact waitLoop_keeps requiredAcks s (round :: rounds)
    | succ i =>
      obtain ⟨hround, hrest⟩ := h
      unfold waitLoop
      split
      · rw [acksBy_idle (List.isEmpty_iff.mp ‹_›)]
      split
      · exact absurd (List.isEmpty_iff.mp ‹_›) hround
      obtain rfl | ⟨hbelow, hwaited⟩ := hrest
      · show (settleAll s round).acks <+: _
        split
        · exact List.prefix_rfl
        · exact waitLoop_keeps requiredAcks _ rounds
      · rw [if_neg (by omega)]
        exact ih hwaited

/-! ## What an acknowledgement says -/

def KeyUpdate.policy (body : KeyUpdate) (k : ApiKey) : CompliancePolicy :=
  ⟨setPolicy body.blockedCompanies k.blockedCompanies, setPolicy body.allowedPaths k.allowedPaths,
    setPolicy body.allowedCompanies k.allowedCompanies,
    setPolicy body.blockedModels k.blockedModels, setPolicy body.allowedModels k.allowedModels⟩

theorem setPolicy_ne {sent existing : Option (List String)}
    (h : changesPolicy sent existing = true) : setPolicy sent existing ≠ existing := by
  cases sent with
  | none => cases h
  | some value =>
    have hdiffer : orNone existing ≠ orNone (some value) := of_decide_eq_true h
    unfold setPolicy
    simp only [if_pos hdiffer]
    intro hsame
    apply hdiffer
    rw [← hsame]
    unfold orNone
    cases hempty : value.isEmpty <;> simp [Option.filter, hempty]

theorem KeyUpdate.policy_ne {body : KeyUpdate} {k : KeyRow} (h : policyChanged k body = true) :
    body.policy k.toApiKey ≠ k.compliance := by
  intro hsame
  obtain ⟨hcompanies, hpaths, hallowed, hmodels, hallowedModels⟩ :=
    CompliancePolicy.mk.inj hsame
  unfold policyChanged at h
  simp only [Bool.or_eq_true] at h
  obtain (((h | h) | h) | h) | h := h
  · exact setPolicy_ne h hcompanies
  · exact setPolicy_ne h hpaths
  · exact setPolicy_ne h hallowed
  · exact setPolicy_ne h hmodels
  · exact setPolicy_ne h hallowedModels

theorem updateKey_policy {env : KeyEnv} {k k' : KeyRow} {body : KeyUpdate} {changed : Bool}
    (h : updateKey env k body = .ok (k', changed)) : k'.compliance = body.policy k.toApiKey := by
  obtain ⟨tier, hrow, -⟩ := updateKey_ok h
  rw [hrow]
  rfl

/-- The row a peer has for the key carries the policy. -/
def HoldsPolicy (node : SyncNode) (keyHash : String) (policy : CompliancePolicy) : Prop :=
  ∃ row ∈ node.apiKeys, row.keyHash = keyHash ∧ row.compliance = policy

def policyPush (k row : KeyRow) : PolicyPush := ⟨"per_key", k.id, row.compliance.shown⟩

/-- An acknowledgement means enforcement, for an edit and its push. -/
structure Enforces (w : PushRun) (k : KeyRow) (row : KeyRow)
    (push : Except (List PeerEntry × List PeerEntry) PushResult) : Prop where
  applied : ∀ entry ∈ (listsOf push).1,
    HoldsPolicy (applySync w.clk (w.nodes entry.node.id) (policyPush k row).sections) k.keyHash
      row.compliance
  listed : (((listsOf push).1 ++ (listsOf push).2).map (·.node)).Perm (activePeers w.peers)
  restored : (listsOf push).1.length < w.requiredAcks → row.compliance = k.compliance

theorem patchKey_ok {env : KeyEnv} {w : PushRun} {k : KeyRow} {body : KeyUpdate} {out : EditedKey}
    (hpolicy : policyChanged k body = true) (h : patchKey env w k body = .ok out) :
    updateKey env k body = .ok (out.row, true) ∧
      out.push = some (pushPolicyChangeWithQuorum w.peers w.requiredAcks w.rounds) := by
  unfold patchKey at h
  obtain ⟨⟨row, changed⟩, hrow, h⟩ := Result.bind_ok h
  obtain ⟨tier, -, hchanged⟩ := updateKey_ok hrow
  have hyes : changed = true := hchanged.trans hpolicy
  subst hyes
  cases h
  exact ⟨hrow, rfl⟩

/-- **Policy acknowledgements.** An accepted edit of the policy is enforced where it is acknowledged,
and taken back where the quorum is missed, exactly when the quorum is reached and every peer that
acknowledged held the policy before the push. -/
theorem policy_acks_enforced_iff {env : KeyEnv} {w : PushRun} {k : KeyRow} {body : KeyUpdate}
    {out : EditedKey} (hpolicy : policyChanged k body = true)
    (h : patchKey env w k body = .ok out) :
    (∃ push, out.push = some push ∧ Enforces w k out.row push) ↔
      (∀ i, Waited w.requiredAcks w.start w.rounds i →
        ∀ entry ∈ acksBy w.start w.rounds i,
          HoldsPolicy (w.nodes entry.node.id) k.keyHash (body.policy k.toApiKey)) ∧
      ∃ i, Waited w.requiredAcks w.start w.rounds i ∧
        w.requiredAcks ≤ (acksBy w.start w.rounds i).length := by
  obtain ⟨hrow, hpush⟩ := patchKey_ok hpolicy h
  have hnew : out.row.compliance = body.policy k.toApiKey := updateKey_policy hrow
  have hlists := listsOf_push w.peers w.requiredAcks w.rounds
  have hacks : (listsOf (pushPolicyChangeWithQuorum w.peers w.requiredAcks w.rounds)).1 =
      (waitLoop w.requiredAcks w.start w.rounds).acks := by
    rw [hlists]
    rfl
  obtain ⟨n, hwaited, hlast⟩ := waitLoop_acks w.requiredAcks w.start w.rounds
  constructor
  · rintro ⟨push, hsent, henforces⟩
    obtain rfl : _ = push := Option.some.inj (hpush.symm.trans hsent)
    obtain ⟨happlied, -, hrestored⟩ := henforces
    rw [hacks] at happlied hrestored
    refine ⟨fun i hi entry hentry => ?_, n, hwaited, ?_⟩
    · rw [← hnew]
      exact happlied entry ((acksBy_grows hi).subset hentry)
    · rw [← hlast]
      refine Nat.le_of_not_lt fun hmissed => ?_
      exact KeyUpdate.policy_ne hpolicy (hnew.symm.trans (hrestored hmissed))
  · rintro ⟨hheld, i, hi, hquorum⟩
    refine ⟨_, hpush, ?_, fanOut_listed w.peers w.requiredAcks w.rounds, ?_⟩
    · intro entry hentry
      rw [hacks, hlast] at hentry
      rw [hnew]
      exact hheld n hwaited entry hentry
    · intro hmissed
      rw [hacks] at hmissed
      have hkept := (acksBy_grows hi).length_le
      omega

/-- A key that may call anything, and the edit that confines it. -/
def roamingKey : KeyRow :=
  { id := "k1", name := "scout", keyHash := "h1", keyPrefix := "llmp-abc", lastUserEditAt := some 1 }

def confine : KeyUpdate := { allowedPaths := some ["messages"], reason := some "audit" }

def confinedKey : KeyRow :=
  { roamingKey with allowedPaths := some ["messages"], lastUserEditAt := some 2 }

/-- Two peers hold `row`; the first acknowledges, which is the quorum. -/
def eastAcks (row : ApiKey) : PushRun where
  peers := [⟨"n2", "east", "healthy"⟩, ⟨"n3", "west", "degraded"⟩]
  rounds := [[("n2", .acked "2026-01-01T00:00:00+00:00")]]
  nodes := fun _ => { apiKeys := [row] }
  clk := ⟨2, 2⟩

theorem patchKey_confine (row : ApiKey) :
    ∃ out, patchKey ⟨2, [], fun _ => ""⟩ (eastAcks row) roamingKey confine = .ok out ∧
      out.row = confinedKey :=
  ⟨_, rfl, rfl⟩

/-- Where the peers have the edit already, the acknowledgement is worth what it says. -/
theorem confined_enforced :
    ∃ out, patchKey ⟨2, [], fun _ => ""⟩ (eastAcks confinedKey.toApiKey) roamingKey confine = .ok out ∧
      ∃ push, out.push = some push ∧
        Enforces (eastAcks confinedKey.toApiKey) roamingKey out.row push := by
  obtain ⟨out, hout, -⟩ := patchKey_confine confinedKey.toApiKey
  refine ⟨out, hout, (policy_acks_enforced_iff (by decide) hout).mpr ⟨fun i _ entry _ => ?_, 1, ?_, ?_⟩⟩
  · exact ⟨confinedKey.toApiKey, List.mem_singleton.mpr rfl, rfl, by decide⟩
  · exact ⟨by decide, Or.inl rfl⟩
  · decide

/-- The first peer acknowledges, and its row for the key confines nothing. -/
theorem acked_unenforced :
    ∃ out push, patchKey ⟨2, [], fun _ => ""⟩ (eastAcks roamingKey.toApiKey) roamingKey confine =
        .ok out ∧ out.push = some push ∧
      ¬ Enforces (eastAcks roamingKey.toApiKey) roamingKey out.row push := by
  obtain ⟨out, hout, hrow⟩ := patchKey_confine roamingKey.toApiKey
  have hpush := (patchKey_ok (by decide) hout).2
  refine ⟨out, _, hout, hpush, fun henforces => ?_⟩
  have happlied := henforces.applied
  rw [listsOf_push, hrow] at happlied
  obtain ⟨row, hmem, -, hpolicy⟩ := happlied ⟨⟨"n2", "east", "healthy"⟩, "2026-01-01T00:00:00+00:00"⟩
    (by decide)
  obtain rfl := List.mem_singleton.mp hmem
  exact absurd hpolicy (by decide)

end LlmProxy.Cluster
