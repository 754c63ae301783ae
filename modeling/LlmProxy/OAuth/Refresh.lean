import Mathlib.Logic.Function.Basic
import LlmProxy.Lib.Dict
import LlmProxy.Lib.PyList
import LlmProxy.Cluster.Providers

/-! # Refreshing an OAuth provider on a cluster

`refresh_and_persist` of `app/providers/claude_oauth_flow.py` with the peer recovery of
`app/cluster/oauth_recovery.py`, on nodes that hold one replica each of a provider's row and
exchange it through the sync payloads of `_build_sync_payload` and `_apply_providers`.

A node's lock is process-local and a call takes everything from the re-read of the row to its
last commit under it, so a node is its row, the calls waiting for the lock and the one call
that holds it. A step is one `await`-free stretch of a call, one edit, or one sync message; any
step of any node may come next.

The token endpoint is the one the code relies on: a grant has one valid refresh token, the
exchange of it answers with the next pair, and every other token is answered with
`invalid_grant`.
-/

namespace LlmProxy.OAuth

open LlmProxy.Providers LlmProxy.Cluster

/-! ## The token endpoint -/

/-- The pairs a grant goes through, in order. -/
structure TokenEndpoint where
  refresh : Nat → String
  access : Nat → String
  fresh : Function.Injective refresh
  nonempty : ∀ n, refresh n ≠ ""

/-- `ExchangeResult`, the part that is persisted. -/
structure ExchangeResult where
  accessToken : String
  refreshToken : String
  expiresAt : Option Int
  deriving DecidableEq

/-! ## The provider object of a session -/

/-- `bool(text)`. -/
def present (text : Option String) : Bool :=
  match text with
  | none => false
  | some s => s != ""

/-- `db.refresh(provider, attribute_names=[..])`. -/
def reread (session row : Provider) : Provider :=
  { session with
    oauthRefreshToken := row.oauthRefreshToken
    apiKey := row.apiKey
    oauthExpiresAt := row.oauthExpiresAt }

/-- A column as `UPDATE` leaves it: written when the session changed it. -/
def written {α : Type} [DecidableEq α] (before after stored : α) : α :=
  if after = before then stored else after

/-- `db.commit()` of a session whose provider object went from `before` to `after`: only the
changed columns are written, `onupdate` stamps the row, and the listener stamps the edit when
the change is not background machinery alone. -/
def commitSession (clk : FlushClock) (before after row : Provider) : Provider :=
  if after = before then row
  else
    { row with
      apiKey := written before.apiKey after.apiKey row.apiKey
      oauthRefreshToken :=
        written before.oauthRefreshToken after.oauthRefreshToken row.oauthRefreshToken
      oauthExpiresAt := written before.oauthExpiresAt after.oauthExpiresAt row.oauthExpiresAt
      extraConfig := written before.extraConfig after.extraConfig row.extraConfig
      updatedAt := some (serverNow clk.db)
      lastUserEditAt :=
        if after.userColumns = before.userColumns then row.lastUserEditAt else some clk.unix }

def persist (result : ExchangeResult) (session : Provider) : Provider :=
  { session with
    apiKey := some result.accessToken
    oauthRefreshToken :=
      if result.refreshToken = "" then session.oauthRefreshToken else some result.refreshToken
    oauthExpiresAt := result.expiresAt }

/-! ## Peer recovery -/

/-- `PeerOAuthState`, the part that is adopted. -/
structure PeerOAuthState where
  apiKey : String
  oauthRefreshToken : Option String
  oauthExpiresAt : Option Int
  extraConfig : List (String × String)
  deriving DecidableEq

/-- What `/cluster/oauth-pull` answers for a row; `none` is a 4xx. -/
def clusterOauthPull (row : Provider) : Option PeerOAuthState :=
  if row.providerType = "claude-oauth" ∨ row.providerType = "ChatGPT-oauth-plan" then
    match row.apiKey with
    | none => none
    | some key =>
      if key = "" then none
      else some
        { apiKey := key
          oauthRefreshToken := row.oauthRefreshToken.filter (· ≠ "")
          oauthExpiresAt := row.oauthExpiresAt
          extraConfig := row.extraConfig }
  else none

/-- The candidate is not expired at `now`. -/
def PeerOAuthState.live (now : Int) (state : PeerOAuthState) : Bool :=
  match state.oauthExpiresAt with
  | none => true
  | some expires => now < expires

/-- The choice of `pull_oauth_state_from_peers`: the latest expiry, the first peer asked
where two tie. -/
def freshest (now : Int) (candidates : List PeerOAuthState) : Option PeerOAuthState :=
  (PyList.sortBy
    (fun a b => decide (b.oauthExpiresAt.getD 0 ≤ a.oauthExpiresAt.getD 0))
    (candidates.filter (PeerOAuthState.live now))).head?

/-- The OAuth keys `adopt_peer_state` carries over from a peer's `extra_config`. -/
def adoptedKeys : List String := ["chatgpt_account_id", "chatgpt_plan_type"]

def adoptConfig (peer own : List (String × String)) : List (String × String) :=
  adoptedKeys.foldl (fun merged key =>
    match peer.find? (·.1 = key) with
    | some entry => if jsonTruthy entry.2 then Dict.setItems key entry.2 merged else merged
    | none => merged) own

/-- The assignments of `adopt_peer_state`. -/
def adoptPeerState (state : PeerOAuthState) (session : Provider) : Provider :=
  { session with
    apiKey := some state.apiKey
    oauthRefreshToken :=
      if present state.oauthRefreshToken then state.oauthRefreshToken
      else session.oauthRefreshToken
    oauthExpiresAt := state.oauthExpiresAt.orElse fun _ => session.oauthExpiresAt
    extraConfig := adoptConfig state.extraConfig session.extraConfig }

/-- The assignments behind a failed verification: the row asks for a new authorisation. -/
def clearToken (state : PeerOAuthState) (session : Provider) : Provider :=
  { session with oauthRefreshToken := none, apiKey := some state.apiKey }

/-! ## Nodes -/

inductive Phase where
  /-- The row is re-read, the exchange comes next. -/
  | ready
  /-- The endpoint has answered, the commit comes next. -/
  | holding (result : ExchangeResult)
  /-- `invalid_grant`: the peers are being asked. -/
  | pulling (candidates : List PeerOAuthState)
  /-- A peer's state is committed, its access token is being verified. -/
  | adopted (state : PeerOAuthState)
  deriving DecidableEq

/-- The call that holds the node's lock, with its session's provider object. -/
structure Call where
  session : Provider
  phase : Phase
  deriving DecidableEq

structure Node where
  row : Provider
  /-- The provider objects of the calls that wait for the lock. -/
  waiting : List Provider
  active : Option Call
  deriving DecidableEq

structure Cluster (ι : Type) where
  nodes : ι → Node
  /-- The sync payloads built so far; any of them may be delivered at any time, any number of
  times. -/
  sent : List PeerProvider
  generation : Nat

inductive Action (ι : Type) where
  /-- A call on node `n` gets its provider object and passes the first check. -/
  | begin (n : ι)
  /-- A waiting call takes the free lock and re-reads the row. -/
  | enter (n : ι) (position : Nat)
  | exchange (n : ι) (expiresAt : Option Int)
  | commit (n : ι) (clk : FlushClock)
  /-- The call on `n` is answered by one peer. -/
  | ask (n peer : ι)
  | adopt (n : ι) (now : Int) (clk : FlushClock)
  | verify (n : ι) (verified : Bool) (clk : FlushClock)
  /-- An operator edits columns of the row other than the token's. -/
  | edit (n : ι) (clk : FlushClock) (row : Provider)
  | push (n : ι)
  | deliver (n : ι) (position : Nat) (clk : FlushClock)

variable {ι : Type} [DecidableEq ι]

def Cluster.setNode (s : Cluster ι) (n : ι) (node : Node) : Cluster ι :=
  { s with nodes := Function.update s.nodes n node }

/-- The node after a waiting call took the lock: a call that finds no token raises. -/
def Node.enter (node : Node) (position : Nat) : Node :=
  match node.active, node.waiting[position]? with
  | none, some session =>
    let session := reread session node.row
    { node with
      waiting := node.waiting.eraseIdx position
      active := if present session.oauthRefreshToken then some ⟨session, .ready⟩ else none }
  | _, _ => node

def Node.commit (node : Node) (clk : FlushClock) : Node :=
  match node.active with
  | some ⟨session, .holding result⟩ =>
    { node with
      row := commitSession clk session (persist result session) node.row
      active := none }
  | _ => node

def Node.ask (node : Node) (peer : Provider) : Node :=
  match node.active with
  | some ⟨session, .pulling candidates⟩ =>
    { node with active := some ⟨session, .pulling (candidates ++ (clusterOauthPull peer).toList)⟩ }
  | _ => node

def Node.adopt (node : Node) (now : Int) (clk : FlushClock) : Node :=
  match node.active with
  | some ⟨session, .pulling candidates⟩ =>
    match freshest now candidates with
    | none => { node with active := none }
    | some state =>
      { node with
        row := commitSession clk session (adoptPeerState state session) node.row
        active := some ⟨adoptPeerState state session, .adopted state⟩ }
  | _ => node

def Node.verify (node : Node) (verified : Bool) (clk : FlushClock) : Node :=
  match node.active with
  | some ⟨session, .adopted state⟩ =>
    if verified then { node with active := none }
    else
      { node with
        row := commitSession clk session (clearToken state session) node.row
        active := none }
  | _ => node

/-- An edit keeps the identity and the token columns of the row. -/
def editedRow (clk : FlushClock) (row edited : Provider) : Provider :=
  flush clk row
    { edited with
      id := row.id
      apiKey := row.apiKey
      oauthRefreshToken := row.oauthRefreshToken
      oauthExpiresAt := row.oauthExpiresAt }

/-- `_apply_providers` for a payload row and the replica, which it is found by. -/
def receivedRow (clk : FlushClock) (r : PeerProvider) (row : Provider) : Provider :=
  if (providerKeys r).any (· row) then mergeProvider clk r row else row

def Cluster.exchange (E : TokenEndpoint) (s : Cluster ι) (n : ι) (expiresAt : Option Int) :
    Cluster ι :=
  match (s.nodes n).active with
  | some ⟨session, .ready⟩ =>
    if session.oauthRefreshToken = some (E.refresh s.generation) then
      { s.setNode n { s.nodes n with
          active := some ⟨session, .holding
            ⟨E.access (s.generation + 1), E.refresh (s.generation + 1), expiresAt⟩⟩ } with
        generation := s.generation + 1 }
    else s.setNode n { s.nodes n with active := some ⟨session, .pulling []⟩ }
  | _ => s

def step (E : TokenEndpoint) (s : Cluster ι) : Action ι → Cluster ι
  | .begin n =>
    if present (s.nodes n).row.oauthRefreshToken then
      s.setNode n { s.nodes n with waiting := (s.nodes n).waiting ++ [(s.nodes n).row] }
    else s
  | .enter n position => s.setNode n ((s.nodes n).enter position)
  | .exchange n expiresAt => s.exchange E n expiresAt
  | .commit n clk => s.setNode n ((s.nodes n).commit clk)
  | .ask n peer => s.setNode n ((s.nodes n).ask (s.nodes peer).row)
  | .adopt n now clk => s.setNode n ((s.nodes n).adopt now clk)
  | .verify n verified clk => s.setNode n ((s.nodes n).verify verified clk)
  | .edit n clk row =>
    s.setNode n { s.nodes n with row := editedRow clk (s.nodes n).row row }
  | .push n => { s with sent := s.sent ++ [buildPeerProvider (s.nodes n).row] }
  | .deliver n position clk =>
    match s.sent[position]? with
    | none => s
    | some r => s.setNode n { s.nodes n with row := receivedRow clk r (s.nodes n).row }

/-- The replicas as they start, with no call running and nothing sent. -/
def initial (rows : ι → Provider) : Cluster ι :=
  { nodes := fun n => { row := rows n, waiting := [], active := none }
    sent := []
    generation := 0 }

end LlmProxy.OAuth
