import LlmProxy.Lib.Trace
import LlmProxy.OAuth.Refresh

/-! # The rotated token

The endpoint keeps one valid refresh token, so the cluster must never drop its only copy.
`refresh_and_persist` keeps it: from the exchange to the commit the token is in the hands of the
call, and the lock lets no other call of the node write the row meanwhile; afterwards it is in
that node's row. What can drop it is the sync. A row is merged as a whole by the stamp of its
last operator edit, which a rotation does not touch, so an older row that was edited later
replaces the rotated token too.

The invariant `Holds` names the node of the last exchange and follows it. `rotated_token_kept`
is the main result: the token survives every run in which no payload replaces it at a node that
holds it (`spares`), and a node that refreshes alone and receives nothing never sends a token
twice. `edit_elsewhere_drops_token` is a run that loses the token.
-/

namespace LlmProxy.OAuth

open LlmProxy.Providers LlmProxy.Cluster

variable {ι : Type} {E : TokenEndpoint}

/-! ## What is to be kept -/

def Cluster.valid (E : TokenEndpoint) (s : Cluster ι) : String := E.refresh s.generation

/-- The valid token is in some node's row, or in the hands of a call that has not committed. -/
def TokenKept (E : TokenEndpoint) (s : Cluster ι) : Prop :=
  ∃ n, (s.nodes n).row.oauthRefreshToken = some (s.valid E) ∨
    ∃ session result, (s.nodes n).active = some ⟨session, .holding result⟩ ∧
      result.refreshToken = s.valid E

def overrides (r : PeerProvider) (row : Provider) : Bool :=
  (providerKeys r).any (· row) && !(r.deletedAt.isSome && row.deletedAt.isNone) &&
    !deletionOutranks r row && acceptsEdit r row

/-- A delivery does not replace the valid token: a payload that overrides a row holding it
carries it. -/
def spares (E : TokenEndpoint) (s : Cluster ι) : Action ι → Bool
  | .deliver n position _ =>
    match s.sent[position]? with
    | none => true
    | some r =>
      !(decide ((s.nodes n).row.oauthRefreshToken = some (s.valid E)) &&
          overrides r (s.nodes n).row) ||
        decide (r.oauthRefreshToken = some (some (s.valid E)))
  | _ => true

/-- Only node `m` starts calls, and no payload arrives. -/
def refreshesAlone (m : ι) : Action ι → Prop
  | .begin n => n = m
  | .deliver _ _ _ => False
  | _ => True

/-- No exchange sends a token that has been exchanged before. -/
def SendsUnused (E : TokenEndpoint) (s : Cluster ι) : Action ι → Prop
  | .exchange n _ =>
    ∀ session, (s.nodes n).active = some ⟨session, .ready⟩ →
      ∀ k < s.generation, session.oauthRefreshToken ≠ some (E.refresh k)
  | _ => True

/-! ## The node that has the token -/

/-- The node has the valid token and is not about to lose it by a write of its own. -/
def Node.Holds (valid : String) (node : Node) : Prop :=
  match node.active with
  | none => node.row.oauthRefreshToken = some valid
  | some ⟨session, .ready⟩ =>
    node.row.oauthRefreshToken = some valid ∧ session.oauthRefreshToken = some valid
  | some ⟨session, .holding result⟩ =>
    result.refreshToken = valid ∧ session.oauthRefreshToken ≠ some valid
  | some ⟨_, .pulling _⟩ => False
  | some ⟨_, .adopted _⟩ => False

theorem Node.Holds.kept {s : Cluster ι} {e : ι} (h : (s.nodes e).Holds (s.valid E)) :
    TokenKept E s := by
  refine ⟨e, ?_⟩
  unfold Node.Holds at h
  split at h
  · exact .inl h
  · exact .inl h.1
  · next session result hactive => exact .inr ⟨session, result, hactive, h.1⟩
  · exact h.elim
  · exact h.elim

/-- Changing the row without touching its token changes nothing for `Holds`. -/
theorem Node.Holds.congr_row {valid : String} {node node' : Node} (h : node.Holds valid)
    (hactive : node'.active = node.active)
    (htoken : node.row.oauthRefreshToken = some valid →
      node'.row.oauthRefreshToken = some valid) : node'.Holds valid := by
  unfold Node.Holds at h ⊢
  rw [hactive]
  split at h <;> simp_all

theorem commitSession_token {clk : FlushClock} {before after row : Provider} {token : String}
    (hafter : after.oauthRefreshToken = some token)
    (hbefore : before.oauthRefreshToken ≠ some token) :
    (commitSession clk before after row).oauthRefreshToken = some token := by
  have hne : after.oauthRefreshToken ≠ before.oauthRefreshToken := by
    rw [hafter]
    exact hbefore.symm
  have hchanged : after ≠ before := by
    rintro rfl
    exact hne rfl
  rw [commitSession, if_neg hchanged]
  show written before.oauthRefreshToken after.oauthRefreshToken row.oauthRefreshToken = _
  rw [written, if_neg hne, hafter]

theorem Node.Holds.enter {valid : String} {node : Node} (h : node.Holds valid)
    (hvalid : valid ≠ "") (position : Nat) : (node.enter position).Holds valid := by
  unfold Node.enter
  split
  · next session hactive hwaiting =>
    have hrow : node.row.oauthRefreshToken = some valid := by
      unfold Node.Holds at h
      rwa [hactive] at h
    have hpresent : present (reread session node.row).oauthRefreshToken = true := by
      show present node.row.oauthRefreshToken = true
      rw [hrow]
      simpa [present] using hvalid
    simp only [hpresent, if_true]
    exact ⟨hrow, hrow⟩
  · exact h

theorem Node.Holds.commit {valid : String} {node : Node} (h : node.Holds valid)
    (hvalid : valid ≠ "") (clk : FlushClock) : (node.commit clk).Holds valid := by
  unfold Node.commit
  split
  · next session result hactive =>
    unfold Node.Holds at h
    rw [hactive] at h
    obtain ⟨hresult, hsession⟩ := h
    refine commitSession_token ?_ hsession
    show (if result.refreshToken = "" then session.oauthRefreshToken
      else some result.refreshToken) = some valid
    rw [hresult, if_neg hvalid]
  · exact h

theorem Node.Holds.not_recovering {valid : String} {node : Node} (h : node.Holds valid)
    {session : Provider} : (∀ candidates, node.active ≠ some ⟨session, .pulling candidates⟩) ∧
      ∀ state, node.active ≠ some ⟨session, .adopted state⟩ := by
  refine ⟨?_, ?_⟩
  · intro candidates hactive
    unfold Node.Holds at h
    rwa [hactive] at h
  · intro state hactive
    unfold Node.Holds at h
    rwa [hactive] at h

theorem Node.Holds.ask {valid : String} {node : Node} (h : node.Holds valid) (peer : Provider) :
    (node.ask peer).Holds valid := by
  unfold Node.ask
  split
  · next hactive => exact absurd hactive (h.not_recovering.1 _)
  · exact h

theorem Node.Holds.adopt {valid : String} {node : Node} (h : node.Holds valid) (now : Int)
    (clk : FlushClock) : (node.adopt now clk).Holds valid := by
  unfold Node.adopt
  split
  · next hactive => exact absurd hactive (h.not_recovering.1 _)
  · exact h

theorem Node.Holds.verify {valid : String} {node : Node} (h : node.Holds valid)
    (verified : Bool) (clk : FlushClock) : (node.verify verified clk).Holds valid := by
  unfold Node.verify
  split
  · next hactive => exact absurd hactive (h.not_recovering.2 _)
  · exact h

/-! ## Merges -/

theorem receivedRow_token (clk : FlushClock) (r : PeerProvider) (row : Provider) :
    (receivedRow clk r row).oauthRefreshToken =
      if overrides r row then fieldOr r.oauthRefreshToken row.oauthRefreshToken
      else row.oauthRefreshToken := by
  unfold receivedRow overrides
  by_cases hfound : (providerKeys r).any (· row) = true
  · rw [if_pos hfound, hfound, mergeProvider, flush_oauthRefreshToken, mergeProviderRow]
    cases r.deletedAt.isSome && row.deletedAt.isNone <;> cases deletionOutranks r row <;>
      cases acceptsEdit r row <;> rfl
  · rw [if_neg hfound]
    simp [hfound]

theorem editedRow_token (clk : FlushClock) (row edited : Provider) :
    (editedRow clk row edited).oauthRefreshToken = row.oauthRefreshToken := by
  simp [editedRow]

/-! ## One step -/

variable [DecidableEq ι]

@[simp] theorem setNode_nodes_self (s : Cluster ι) (n : ι) (node : Node) :
    (s.setNode n node).nodes n = node :=
  Function.update_self ..

theorem setNode_nodes_of_ne (s : Cluster ι) {n e : ι} (h : e ≠ n) (node : Node) :
    (s.setNode n node).nodes e = s.nodes e :=
  Function.update_of_ne h ..

/-- A step that changes one node keeps the holder if that node, when it is the holder, still
holds the token. -/
theorem holds_setNode {s : Cluster ι} {e : ι} (h : (s.nodes e).Holds (s.valid E)) {n : ι}
    {node : Node} (hnode : (s.nodes n).Holds (s.valid E) → node.Holds (s.valid E)) :
    ((s.setNode n node).nodes e).Holds ((s.setNode n node).valid E) := by
  show ((s.setNode n node).nodes e).Holds (s.valid E)
  by_cases hn : e = n
  · subst hn
    rw [setNode_nodes_self]
    exact hnode h
  · rwa [setNode_nodes_of_ne s hn]

theorem exchange_success {s : Cluster ι} {n : ι} {session : Provider} {expiresAt : Option Int}
    (hactive : (s.nodes n).active = some ⟨session, .ready⟩)
    (htoken : session.oauthRefreshToken = some (s.valid E)) :
    ((s.exchange E n expiresAt).nodes n).Holds ((s.exchange E n expiresAt).valid E) := by
  have hne : E.refresh s.generation ≠ E.refresh (s.generation + 1) := by
    intro heq
    have hgen := E.fresh heq
    omega
  have hold : session.oauthRefreshToken = some (E.refresh s.generation) := htoken
  unfold Cluster.exchange
  rw [hactive]
  simp only [hold, if_true]
  show (Cluster.nodes (s.setNode n _) n).Holds (E.refresh (s.generation + 1))
  rw [setNode_nodes_self]
  refine ⟨rfl, ?_⟩
  rw [hold]
  simpa using hne

theorem holds_exchange {s : Cluster ι} {e : ι} (h : (s.nodes e).Holds (s.valid E)) (n : ι)
    (expiresAt : Option Int) :
    ∃ e', (e' = e ∨ e' = n) ∧
      ((s.exchange E n expiresAt).nodes e').Holds ((s.exchange E n expiresAt).valid E) := by
  by_cases hready : ∃ session, (s.nodes n).active = some ⟨session, .ready⟩
  · obtain ⟨session, hactive⟩ := hready
    by_cases htoken : session.oauthRefreshToken = some (s.valid E)
    · exact ⟨n, .inr rfl, exchange_success hactive htoken⟩
    · -- `invalid_grant`: the holder's own call would have sent the valid token
      refine ⟨e, .inl rfl, ?_⟩
      have hfail : s.exchange E n expiresAt =
          s.setNode n { s.nodes n with active := some ⟨session, .pulling []⟩ } := by
        unfold Cluster.exchange
        rw [hactive]
        exact if_neg htoken
      rw [hfail]
      refine holds_setNode h ?_
      intro hn
      unfold Node.Holds at hn
      rw [hactive] at hn
      exact absurd hn.2 htoken
  · have hsame : s.exchange E n expiresAt = s := by
      unfold Cluster.exchange
      split
      · next session hactive => exact absurd ⟨session, hactive⟩ hready
      · rfl
    rw [hsame]
    exact ⟨e, .inl rfl, h⟩

/-- **Step lemma.** A step that spares the valid token leaves a node that holds it: the same
node, unless the step is an exchange. -/
theorem step_holds {s : Cluster ι} {e : ι} (h : (s.nodes e).Holds (s.valid E)) (a : Action ι)
    (hspares : spares E s a = true) :
    ∃ e', (e' = e ∨ ∃ expiresAt, a = .exchange e' expiresAt) ∧
      ((step E s a).nodes e').Holds ((step E s a).valid E) := by
  have hvalid : s.valid E ≠ "" := E.nonempty _
  cases a with
  | begin n =>
    refine ⟨e, .inl rfl, ?_⟩
    unfold step
    by_cases hpresent : present (s.nodes n).row.oauthRefreshToken = true
    · simp only [hpresent, if_true]
      exact holds_setNode h fun hn => hn.congr_row rfl id
    · simp only [hpresent]
      exact h
  | enter n position =>
    exact ⟨e, .inl rfl, holds_setNode h fun hn => hn.enter hvalid position⟩
  | exchange n expiresAt =>
    obtain ⟨e', he', hholds⟩ := holds_exchange h n expiresAt
    refine ⟨e', he'.imp_right ?_, hholds⟩
    rintro rfl
    exact ⟨expiresAt, rfl⟩
  | commit n clk => exact ⟨e, .inl rfl, holds_setNode h fun hn => hn.commit hvalid clk⟩
  | ask n peer => exact ⟨e, .inl rfl, holds_setNode h fun hn => hn.ask _⟩
  | adopt n now clk => exact ⟨e, .inl rfl, holds_setNode h fun hn => hn.adopt now clk⟩
  | verify n verified clk =>
    exact ⟨e, .inl rfl, holds_setNode h fun hn => hn.verify verified clk⟩
  | edit n clk row =>
    refine ⟨e, .inl rfl, holds_setNode h fun hn => hn.congr_row rfl ?_⟩
    intro htoken
    show (editedRow clk (s.nodes n).row row).oauthRefreshToken = _
    rw [editedRow_token, htoken]
  | push n => exact ⟨e, .inl rfl, h⟩
  | deliver n position clk =>
    refine ⟨e, .inl rfl, ?_⟩
    cases hsent : s.sent[position]? with
    | none =>
      simp only [step, hsent]
      exact h
    | some r =>
      simp only [step, hsent]
      refine holds_setNode h fun hn => hn.congr_row rfl ?_
      intro htoken
      show (receivedRow clk r (s.nodes n).row).oauthRefreshToken = _
      rw [receivedRow_token]
      split
      · next hoverrides =>
        have hcarries : r.oauthRefreshToken = some (some (s.valid E)) := by
          simpa [spares, hsent, htoken, hoverrides] using hspares
        rw [hcarries]
        rfl
      · exact htoken

/-! ## Runs -/

omit [DecidableEq ι] in
theorem initial_holds {rows : ι → Provider}
    (hrows : ∀ n, (rows n).oauthRefreshToken = some (E.refresh 0)) (e : ι) :
    ((initial rows).nodes e).Holds ((initial rows).valid E) := hrows e

/-- **Run lemma**: a run that spares the token throughout ends with the token kept. -/
theorem run_kept [Nonempty ι] {rows : ι → Provider}
    (hrows : ∀ n, (rows n).oauthRefreshToken = some (E.refresh 0)) {acts : List (Action ι)}
    (hspares : Trace.Along (step E) (fun s a => spares E s a = true) (initial rows) acts) :
    TokenKept E (Trace.run (step E) (initial rows) acts) := by
  obtain ⟨e⟩ := ‹Nonempty ι›
  have hholds : ∃ e', ((Trace.run (step E) (initial rows) acts).nodes e').Holds
      ((Trace.run (step E) (initial rows) acts).valid E) := by
    refine Trace.run_inv_of_along
      (I := fun s : Cluster ι => ∃ e', (s.nodes e').Holds (s.valid E)) ?_
      ⟨e, initial_holds hrows e⟩ hspares
    rintro s a ⟨e', he'⟩ ha
    obtain ⟨e'', -, he''⟩ := step_holds he' a ha
    exact ⟨e'', he''⟩
  obtain ⟨e', he'⟩ := hholds
  exact he'.kept

/-! ## One node refreshing alone -/

/-- A node on which no call runs and none waits. -/
def Node.Idle (node : Node) : Prop := node.active = none ∧ node.waiting = []

theorem Node.Idle.enter {node : Node} (h : node.Idle) (position : Nat) :
    node.enter position = node := by
  simp [Node.enter, h.1, h.2]

theorem Node.Idle.commit {node : Node} (h : node.Idle) (clk : FlushClock) :
    node.commit clk = node := by
  simp [Node.commit, h.1]

theorem Node.Idle.ask {node : Node} (h : node.Idle) (peer : Provider) : node.ask peer = node := by
  simp [Node.ask, h.1]

theorem Node.Idle.adopt {node : Node} (h : node.Idle) (now : Int) (clk : FlushClock) :
    node.adopt now clk = node := by
  simp [Node.adopt, h.1]

theorem Node.Idle.verify {node : Node} (h : node.Idle) (verified : Bool) (clk : FlushClock) :
    node.verify verified clk = node := by
  simp [Node.verify, h.1]

theorem Node.Idle.exchange {s : Cluster ι} {n : ι} (h : (s.nodes n).Idle)
    (expiresAt : Option Int) : s.exchange E n expiresAt = s := by
  simp [Cluster.exchange, h.1]

/-- No call runs on any node but `m`, and `m` holds the token. -/
structure Alone (E : TokenEndpoint) (m : ι) (s : Cluster ι) : Prop where
  idle : ∀ n, n ≠ m → (s.nodes n).Idle
  holds : (s.nodes m).Holds (s.valid E)

theorem idle_setNode {s : Cluster ι} {m : ι} (h : ∀ n, n ≠ m → (s.nodes n).Idle) {n : ι}
    {node : Node} (hnode : n ≠ m → (s.nodes n).Idle → node.Idle) :
    ∀ k, k ≠ m → ((s.setNode n node).nodes k).Idle := by
  intro k hk
  by_cases hn : k = n
  · subst hn
    rw [setNode_nodes_self]
    exact hnode hk (h k hk)
  · rw [setNode_nodes_of_ne s hn]
    exact h k hk

theorem exchange_nodes_of_ne (s : Cluster ι) {n k : ι} (h : k ≠ n) (expiresAt : Option Int) :
    (s.exchange E n expiresAt).nodes k = s.nodes k := by
  unfold Cluster.exchange
  split
  · split
    · exact setNode_nodes_of_ne s h _
    · exact setNode_nodes_of_ne s h _
  · rfl

/-- Calls start on `m` only, so the other nodes stay idle. -/
theorem step_idle {s : Cluster ι} {m : ι} (h : ∀ n, n ≠ m → (s.nodes n).Idle) {a : Action ι}
    (ha : refreshesAlone m a) : ∀ n, n ≠ m → ((step E s a).nodes n).Idle := by
  cases a with
  | begin n =>
    obtain rfl : n = m := ha
    by_cases hpresent : present (s.nodes n).row.oauthRefreshToken = true
    · simp only [step, hpresent, if_true]
      exact idle_setNode h fun hne => absurd rfl hne
    · simp only [step, hpresent]
      exact h
  | enter n position => exact idle_setNode h fun _ hn => by rwa [hn.enter]
  | exchange n expiresAt =>
    intro k hk
    by_cases hn : k = n
    · subst hn
      show ((s.exchange E k expiresAt).nodes k).Idle
      rw [(h k hk).exchange]
      exact h k hk
    · show ((s.exchange E n expiresAt).nodes k).Idle
      rw [exchange_nodes_of_ne s hn]
      exact h k hk
  | commit n clk => exact idle_setNode h fun _ hn => by rwa [hn.commit]
  | ask n peer => exact idle_setNode h fun _ hn => by rwa [hn.ask]
  | adopt n now clk => exact idle_setNode h fun _ hn => by rwa [hn.adopt]
  | verify n verified clk => exact idle_setNode h fun _ hn => by rwa [hn.verify]
  | edit n clk row => exact idle_setNode h fun _ hn => hn
  | push n => exact h
  | deliver n position clk => exact ha.elim

omit [DecidableEq ι] in
theorem spares_of_refreshesAlone {s : Cluster ι} {m : ι} {a : Action ι}
    (ha : refreshesAlone m a) : spares E s a = true := by
  cases a with
  | deliver n position clk => exact ha.elim
  | _ => rfl

theorem Alone.step {s : Cluster ι} {m : ι} (h : Alone E m s) {a : Action ι}
    (ha : refreshesAlone m a) : Alone E m (step E s a) := by
  refine ⟨step_idle h.idle ha, ?_⟩
  obtain ⟨e, he, hholds⟩ := step_holds h.holds a (spares_of_refreshesAlone ha)
  obtain rfl | ⟨expiresAt, rfl⟩ := he
  · exact hholds
  · by_cases hm : e = m
    · rwa [hm] at hholds ⊢
    · -- nothing is sent from a node without a call
      show ((s.exchange E e expiresAt).nodes m).Holds ((s.exchange E e expiresAt).valid E)
      rw [(h.idle e hm).exchange]
      exact h.holds

theorem Alone.sendsUnused {s : Cluster ι} {m : ι} (h : Alone E m s) (a : Action ι) :
    SendsUnused E s a := by
  cases a with
  | exchange n expiresAt =>
    intro session hactive k hk htoken
    obtain rfl : n = m := by
      by_contra hne
      rw [(h.idle n hne).1] at hactive
      exact nomatch hactive
    have hvalid : session.oauthRefreshToken = some (s.valid E) := by
      have hholds := h.holds
      unfold Node.Holds at hholds
      rw [hactive] at hholds
      exact hholds.2
    rw [hvalid] at htoken
    have hgen : s.generation = k := E.fresh (Option.some.inj htoken)
    omega
  | _ => trivial

theorem along_sendsUnused {rows : ι → Provider}
    (hrows : ∀ n, (rows n).oauthRefreshToken = some (E.refresh 0)) {acts : List (Action ι)}
    {m : ι} (halone : ∀ a ∈ acts, refreshesAlone m a) :
    Trace.Along (step E) (SendsUnused E) (initial rows) acts := by
  have hguard : Trace.Along (step E) (fun _ a => refreshesAlone m a) (initial rows) acts := by
    rw [Trace.along_iff_forall_prefix]
    intro pre a post heq
    exact halone a (by simp [heq])
  have hstart : Alone E m (initial rows) := ⟨fun _ _ => ⟨rfl, rfl⟩, initial_holds hrows m⟩
  exact Trace.along_of_guard (fun s a hs _ => hs.sendsUnused a) (fun s a hs ha => hs.step ha)
    hstart hguard

/-! ## The theorem -/

/-- **Rotation.** From replicas that hold the valid token: in a run whose deliveries spare it the
valid token is kept at every moment, and in a run where one node refreshes alone and no payload
arrives no exchange sends a token that was exchanged before. -/
theorem rotated_token_kept [Nonempty ι] (E : TokenEndpoint) (rows : ι → Provider)
    (hrows : ∀ n, (rows n).oauthRefreshToken = some (E.refresh 0)) (acts : List (Action ι)) :
    (Trace.Along (step E) (fun s a => spares E s a = true) (initial rows) acts →
      ∀ pre, pre <+: acts → TokenKept E (Trace.run (step E) (initial rows) pre)) ∧
    ∀ m, (∀ a ∈ acts, refreshesAlone m a) →
      Trace.Along (step E) (SendsUnused E) (initial rows) acts := by
  refine ⟨?_, fun m halone => along_sendsUnused hrows halone⟩
  rintro hspares pre ⟨post, rfl⟩
  exact run_kept hrows ((Trace.along_append _ pre post).mp hspares).1

/-! ## Two runs of two nodes -/

/-- An endpoint whose tokens are told apart by their length. -/
def letterEndpoint : TokenEndpoint :=
  { refresh := fun n => String.ofList (List.replicate (n + 1) 'r')
    access := fun n => String.ofList (List.replicate (n + 1) 'a')
    fresh := by
      intro m n h
      have hlen := congrArg (fun s : String => s.toList.length) h
      simpa using hlen
    nonempty := by
      intro n h
      have hlen := congrArg (fun s : String => s.toList.length) h
      simp at hlen }

def replicas (_ : Bool) : Provider :=
  { id := "p1", name := "Claude", providerType := "claude-oauth", apiKey := some "a"
    oauthRefreshToken := some "r", updatedAt := some 0, lastUserEditAt := some 10 }

def noon : FlushClock := ⟨5000000, 50⟩

/-- Node `false` refreshes. -/
def refreshRun : List (Action Bool) :=
  [.begin false, .enter false 0, .exchange false none, .commit false noon]

/-- An operator changes the priority on node `true`. -/
def priorityEdit : Action Bool := .edit true ⟨1000000, 20⟩ { replicas true with priority := 1 }

/-- The other node's unchanged row arrives after the refresh: the edit stamps tie and the
rotation's write is the later one. -/
theorem rotated_token_kept_unedited :
    (∀ n, (replicas n).oauthRefreshToken = some (letterEndpoint.refresh 0)) ∧
      ∀ pre, pre <+: .push true :: (refreshRun ++ [.deliver false 0 noon]) →
        TokenKept letterEndpoint (Trace.run (step letterEndpoint) (initial replicas) pre) := by
  have hrows : ∀ n, (replicas n).oauthRefreshToken = some (letterEndpoint.refresh 0) := by
    intro n
    rfl
  exact ⟨hrows, (rotated_token_kept letterEndpoint replicas hrows _).1 (by decide)⟩

/-- The other node's row, edited before the refresh and delivered after it, takes the rotated
token with it: no row and no call has the valid one any more. -/
theorem edit_elsewhere_drops_token :
    (∀ n, (replicas n).oauthRefreshToken = some (letterEndpoint.refresh 0)) ∧
      ¬ TokenKept letterEndpoint (Trace.run (step letterEndpoint) (initial replicas)
        (priorityEdit :: .push true :: (refreshRun ++ [.deliver false 0 noon]))) := by
  refine ⟨fun n => rfl, ?_⟩
  rintro ⟨n, hrow | ⟨session, result, hactive, -⟩⟩
  · cases n with
    | false => exact absurd hrow (by decide)
    | true => exact absurd hrow (by decide)
  · have hidle : ∀ n, ((Trace.run (step letterEndpoint) (initial replicas)
        (priorityEdit :: .push true :: (refreshRun ++ [.deliver false 0 noon]))).nodes n).active =
        none := by decide
    rw [hidle] at hactive
    exact nomatch hactive

end LlmProxy.OAuth
