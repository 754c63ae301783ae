import Mathlib.Algebra.Order.Ring.Rat

/-! # Sessions

The login sessions of `app/auth/admin.py`: rows by token, which a login creates, a logout deletes,
`/me` touches, and whoever looks at one that was not seen for a week deletes.

> `require_admin_iff`: who is let in, by what was called before.

Mirroring notes.
* Each function is one transaction on the table. A token that is there already is no new row.
* A time is the exact value of its float, and not taken to rise.
-/

namespace LlmProxy.Auth

structure AdminUser where
  userId : String
  username : String
  role : String
  deriving DecidableEq

/-- A row of `sessions`. -/
structure Session extends AdminUser where
  createdAt : Rat
  lastSeenAt : Rat

/-- `SESSION_TTL_SEC`. -/
def sessionTtlSec : Rat := 86400 * 7

/-- A call of `create_session`, `destroy_session`, `_get_session`, `touch_session` or
`purge_expired_sessions`. -/
inductive SessionCall
  | create (token : String) (user : AdminUser) (now : Rat)
  | destroy (token : String)
  | get (token : String) (now : Rat)
  | touch (token : String) (now : Rat)
  | purge (now : Rat)

def sessionStep (table : String → Option Session) (c : SessionCall) (t : String) : Option Session :=
  match c with
  | .create token user now => if t = token then (table t).or (some ⟨user, now, now⟩) else table t
  | .destroy token => if t = token then none else table t
  | .get token now =>
    if t = token then (table t).filter fun s => !decide (sessionTtlSec < now - s.lastSeenAt)
    else table t
  | .touch token now => if t = token then (table t).map ({ · with lastSeenAt := now }) else table t
  | .purge now => (table t).filter fun s => !decide (s.lastSeenAt < now - sessionTtlSec)

def sessionsAfter (table : String → Option Session) (calls : List SessionCall) :
    String → Option Session := calls.foldl sessionStep table

/-- What `_get_session` returns. -/
def getSession (table : String → Option Session) (token : String) (now : Rat) : Option AdminUser :=
  (sessionStep table (.get token now) token).map (·.toAdminUser)

/-- `require_admin`, with the token of the request. -/
def requireAdmin (table : String → Option Session) (token : Option String) (now : Rat) :
    Except (Nat × String) AdminUser :=
  match token.filter (· ≠ "") with
  | none => .error (401, "Not authenticated")
  | some token =>
    match getSession table token now with
    | none => .error (401, "Session expired or invalid")
    | some user => if user.role ≠ "admin" then .error (403, "Admin role required") else .ok user

/-! ## The life of a session -/

/-- The call ends the session of the token that was last seen then. -/
def SessionCall.ends (token : String) (seen : Rat) : SessionCall → Bool
  | .destroy t => token = t
  | .get t now => token = t && sessionTtlSec < now - seen
  | .purge now => sessionTtlSec < now - seen
  | _ => false

def SessionCall.seenAfter (token : String) (seen : Rat) : SessionCall → Rat
  | .touch t now => if token = t then now else seen
  | _ => seen

/-- No call ends it: no logout, and nobody looks when it was not seen for a week. -/
def Lives (token : String) : Rat → List SessionCall → Bool
  | _, [] => true
  | seen, c :: calls => !c.ends token seen && Lives token (c.seenAfter token seen) calls

def SessionCall.issued : SessionCall → Option String
  | .create token _ _ => some token
  | _ => none

variable {table : String → Option Session} {token : String} {row : Session} {c : SessionCall}
  {calls : List SessionCall} {now : Rat} {user : AdminUser}

theorem sessionStep_some (h : table token = some row) : sessionStep table c token =
    if c.ends token row.lastSeenAt then none
    else some { row with lastSeenAt := c.seenAfter token row.lastSeenAt } := by
  cases c with
  | create t user now => simp [sessionStep, h, SessionCall.ends, SessionCall.seenAfter]
  | destroy t => simp [sessionStep, h, SessionCall.ends, SessionCall.seenAfter]
  | get t now =>
    by_cases ht : token = t
    · subst ht
      cases hidle : decide (sessionTtlSec < now - row.lastSeenAt) <;>
        simp only [sessionStep, h, SessionCall.ends, Option.filter_some, hidle] <;> rfl
    · simp [sessionStep, h, SessionCall.ends, SessionCall.seenAfter, ht]
  | touch t now =>
    by_cases ht : token = t
    · subst ht
      simp [sessionStep, h, SessionCall.ends, SessionCall.seenAfter]
    · simp [sessionStep, h, SessionCall.ends, SessionCall.seenAfter, ht]
  | purge now =>
    have hcutoff : decide (row.lastSeenAt < now - sessionTtlSec) =
        decide (sessionTtlSec < now - row.lastSeenAt) := decide_eq_decide.mpr lt_sub_comm
    cases hidle : decide (sessionTtlSec < now - row.lastSeenAt) <;>
      simp only [sessionStep, h, SessionCall.ends, Option.filter_some, hcutoff, hidle] <;> rfl

theorem sessionStep_none (h : table token = none) (hc : c.issued ≠ some token) :
    sessionStep table c token = none := by
  cases c with
  | create t user now =>
    have hne : token ≠ t := fun heq => hc (congrArg some heq.symm)
    simp [sessionStep, h, hne]
  | _ => simp [sessionStep, h]

theorem notMem_issued (hc : token ∉ (c :: calls).filterMap (·.issued)) :
    token ∉ calls.filterMap (·.issued) := fun hmem =>
  hc (((List.sublist_cons_self c calls).filterMap _).mem hmem)

theorem sessionsAfter_none (h : table token = none) (hc : token ∉ calls.filterMap (·.issued)) :
    sessionsAfter table calls token = none := by
  induction calls generalizing table with
  | nil => exact h
  | cons c calls ih =>
    have hone : c.issued ≠ some token := fun heq => hc (by simp [heq])
    exact ih (sessionStep_none h hone) (notMem_issued hc)

/-- **A session that is there** lets its user in as long as it lives. -/
theorem getSession_some (h : table token = some row) (hc : token ∉ calls.filterMap (·.issued)) :
    getSession (sessionsAfter table calls) token now = some user ↔
      row.toAdminUser = user ∧ Lives token row.lastSeenAt (calls ++ [.get token now]) := by
  induction calls generalizing table row with
  | nil =>
    unfold getSession
    rw [sessionsAfter, List.foldl_nil, sessionStep_some h]
    cases hends : (SessionCall.get token now).ends token row.lastSeenAt <;> simp [Lives, hends]
  | cons c calls ih =>
    have hrest : token ∉ calls.filterMap (·.issued) := notMem_issued hc
    have hstep := sessionStep_some (c := c) h
    rw [sessionsAfter, List.foldl_cons, ← sessionsAfter]
    cases hends : c.ends token row.lastSeenAt with
    | true =>
      rw [hends, if_pos rfl] at hstep
      have hnone := sessionsAfter_none hstep hrest
      simp [getSession, sessionStep, hnone, Lives, hends]
    | false =>
      rw [hends, if_neg Bool.false_ne_true] at hstep
      rw [ih hstep hrest]
      simp [Lives, hends]

theorem getSession_none (h : table token = none) (hissued : (calls.filterMap (·.issued)).Nodup) :
    getSession (sessionsAfter table calls) token now = some user ↔ ∃ earlier created later,
      calls = earlier ++ .create token user created :: later ∧
        Lives token created (later ++ [.get token now]) := by
  induction calls generalizing table with
  | nil => simp [getSession, sessionsAfter, sessionStep, h]
  | cons c calls ih =>
    rw [sessionsAfter, List.foldl_cons, ← sessionsAfter]
    by_cases hc : c.issued = some token
    · obtain ⟨user', created, rfl⟩ : ∃ user' created, c = .create token user' created := by
        cases c <;> simp_all [SessionCall.issued]
      have hrest : token ∉ calls.filterMap (·.issued) := (List.nodup_cons.mp hissued).1
      have hrow : sessionStep table (.create token user' created) token =
          some ⟨user', created, created⟩ := by simp [sessionStep, h]
      rw [getSession_some hrow hrest]
      constructor
      · rintro ⟨rfl, hlives⟩
        exact ⟨[], created, calls, rfl, hlives⟩
      · rintro ⟨earlier, created', later, heq, hlives⟩
        cases earlier with
        | nil =>
          cases heq
          exact ⟨rfl, hlives⟩
        | cons d earlier =>
          have hmem : SessionCall.create token user created' ∈ calls :=
            (List.cons.inj heq).2 ▸ List.mem_append_right earlier List.mem_cons_self
          exact (hrest (List.mem_filterMap.mpr ⟨_, hmem, rfl⟩)).elim
    · rw [ih (sessionStep_none h hc) (hissued.sublist ((List.sublist_cons_self c calls).filterMap _))]
      constructor
      · rintro ⟨earlier, created, later, rfl, hlives⟩
        exact ⟨c :: earlier, created, later, rfl, hlives⟩
      · rintro ⟨earlier, created, later, heq, hlives⟩
        cases earlier with
        | nil => exact absurd (congrArg SessionCall.issued (List.cons.inj heq).1) hc
        | cons d earlier => exact ⟨earlier, created, later, (List.cons.inj heq).2, hlives⟩

/-- **Who is let in**: the user a token was issued to, if as an admin, as long as the session has
lived since; what has become of the account is not asked. -/
theorem require_admin_iff (hissued : (calls.filterMap (·.issued)).Nodup) (htoken : token ≠ "") :
    requireAdmin (sessionsAfter (fun _ => none) calls) (some token) now = .ok user ↔
      user.role = "admin" ∧ ∃ earlier created later,
        calls = earlier ++ .create token user created :: later ∧
          Lives token created (later ++ [.get token now]) := by
  rw [← @getSession_none (fun _ => none) token calls now user rfl hissued]
  unfold requireAdmin
  rw [Option.filter_some, if_pos (decide_eq_true htoken)]
  dsimp only
  cases getSession (sessionsAfter (fun _ => none) calls) token now with
  | none => simp
  | some u => by_cases hrole : u.role = "admin" <;> grind

/-- Within a week of the last touch the session is still there. -/
theorem require_admin_touched : requireAdmin (sessionsAfter (fun _ => none)
    [.create "t" ⟨"u1", "root", "admin"⟩ 0, .touch "t" 600000, .purge 700000]) (some "t") 1200000 =
      .ok ⟨"u1", "root", "admin"⟩ :=
  (require_admin_iff (by decide) (by decide)).mpr
    ⟨rfl, [], 0, _, rfl, by decide +kernel⟩

end LlmProxy.Auth
