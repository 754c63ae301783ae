import LlmProxy.Cluster.Users
import LlmProxy.Lib.Interleaving
import LlmProxy.Lib.Session

/-! # User administration

`app/api/users.py`: the four requests that write users, each in a session of its own, cut where
they await. Every select and every commit is a stretch; what a request does between two of them is
part of the stretch that ends in the second.

Mirroring notes.
* A commit writes the columns the request has changed on the rows it loaded. The unique columns are
  checked when a row is inserted.
* `hash_password` is a parameter. Ids and times the request draws come with it.
* The row a request answers with is the one it committed; a password change also spends the reset
  tokens of the user.
-/

namespace LlmProxy.Users

open LlmProxy.Cluster (User Stamp EditStamp)

structure PasswordResetToken where
  id : String
  userId : String
  usedAt : Option EditStamp := none
  deriving DecidableEq, Repr

structure Db where
  users : List User := []
  tokens : List PasswordResetToken := []
  deriving DecidableEq, Repr

/-- `role == "admin"` and `deleted_at IS NULL`. -/
def liveAdmin (u : User) : Bool := u.role = some "admin" && u.live

/-- `select(func.count()).where(User.role == "admin", User.deleted_at.is_(None))`. -/
def countAdmins (users : List User) : Nat := users.countP liveAdmin

/-! ## The bodies -/

structure UserCreate where
  username : String
  password : String
  role : String := "user"
  email : Option String := none
  deriving DecidableEq, Repr

structure UserUpdate where
  password : Option String := none
  role : Option String := none
  email : Option String := none
  deriving DecidableEq, Repr

def UserCreate.valid (b : UserCreate) : Bool :=
  decide (1 ≤ b.username.length) && decide (8 ≤ b.password.length)

def validIds (ids : List String) : Bool := decide (1 ≤ ids.length) && decide (ids.length ≤ 500)

inductive Request where
  | create (newId : String) (body : UserCreate) (now : EditStamp)
  | update (userId : String) (body : UserUpdate) (now : EditStamp)
  | delete (userId : String) (now : Stamp) (nowTs : EditStamp)
  | bulkDelete (ids : List String) (admin : String) (now : Stamp) (nowTs : EditStamp)
  deriving DecidableEq, Repr

inductive Answer where
  | user (u : User)
  | ok
  | bulk (deleted : List String) (errors : List (String × String))
  | error (status : Nat) (detail : String)
  deriving DecidableEq, Repr

/-- A bulk delete under way: the ids it has not looked up, the admins it still counts, the rows it
has tombstoned in its session. -/
structure Bulk where
  rest : List String
  admin : String
  now : Stamp
  nowTs : EditStamp
  liveAdmins : Nat
  tombstoned : List User := []
  deleted : List String := []
  errors : List (String × String) := []
  deriving DecidableEq, Repr

/-- Where a request stands, or what it was answered. -/
inductive Task where
  | create (newId : String) (body : UserCreate) (now : EditStamp)
  | insert (newId : String) (body : UserCreate) (now : EditStamp)
  | restore (existing : User) (body : UserCreate) (now : EditStamp)
  | update (userId : String) (body : UserUpdate) (now : EditStamp)
  | spendTokens (user : User) (body : UserUpdate) (now : EditStamp)
  | commitUpdate (user : User) (body : UserUpdate) (tokens : List String) (now : EditStamp)
  | delete (userId : String) (now : Stamp) (nowTs : EditStamp)
  | countBeforeDelete (user : User) (now : Stamp) (nowTs : EditStamp)
  | commitDelete (user : User) (adminCount : Nat) (now : Stamp) (nowTs : EditStamp)
  | bulkDelete (ids : List String) (admin : String) (now : Stamp) (nowTs : EditStamp)
  | bulkRest (b : Bulk)
  | answered (a : Answer)
  deriving DecidableEq, Repr

def start (_ : Db) : Request → Task
  | .create newId body now =>
    if body.valid then .create newId body now else .answered (.error 422 "validation error")
  | .update userId body now => .update userId body now
  | .delete userId now nowTs => .delete userId now nowTs
  | .bulkDelete ids admin now nowTs =>
    if validIds ids then .bulkDelete ids admin now nowTs
    else .answered (.error 422 "validation error")

/-! ## What the sessions write -/

def flush (loaded new current : User) : User :=
  { current with
    passwordHash := Session.column loaded.passwordHash new.passwordHash current.passwordHash
    role := Session.column loaded.role new.role current.role
    email := Session.column loaded.email new.email current.email
    deletedAt := Session.column loaded.deletedAt new.deletedAt current.deletedAt
    lastUserEditAt :=
      Session.column loaded.lastUserEditAt new.lastUserEditAt current.lastUserEditAt }

/-- The changed objects of a session, as they were loaded and as they are now, written over a
row. -/
def written (changes : List (User × User)) (u : User) : User :=
  changes.foldl (fun u c => if u.id = c.1.id then flush c.1 c.2 u else u) u

def commit (s : Db) (changes : List (User × User)) : Db :=
  { s with users := s.users.map (written changes) }

/-- `_get_or_404`, and the look-up of a bulk delete. -/
def getLive (users : List User) (userId : String) : Option User :=
  users.find? fun u => u.id = userId && u.live

section

variable (hashPassword : String → String)

/-- The row `create_user` restores. -/
def restored (existing : User) (body : UserCreate) (now : EditStamp) : User :=
  { existing with
    deletedAt := none
    passwordHash := hashPassword body.password
    role := some body.role
    email := match body.email with
      | some e => some e
      | none => existing.email
    lastUserEditAt := some now }

def inserted (newId : String) (body : UserCreate) (now : EditStamp) : User :=
  { id := newId
    username := body.username
    passwordHash := hashPassword body.password
    role := some body.role
    email := body.email
    lastUserEditAt := some now }

/-- `if body.role`: an empty string is no role. -/
def truthy (s : Option String) : Option String := s.filter (· ≠ "")

/-- The row `update_user` leaves. -/
def edited (user : User) (body : UserUpdate) (now : EditStamp) : User :=
  { user with
    passwordHash := match truthy body.password with
      | some p => hashPassword p
      | none => user.passwordHash
    role := match truthy body.role with
      | some r => some r
      | none => user.role
    email := match body.email with
      | some e => truthy (some e)
      | none => user.email
    lastUserEditAt := some now }

end

def tombstone (now : Stamp) (nowTs : EditStamp) (u : User) : User :=
  { u with deletedAt := some now, lastUserEditAt := some nowTs }

def liveTokens (s : Db) (userId : String) : List String :=
  (s.tokens.filter fun t => t.userId = userId && t.usedAt.isNone).map (·.id)

def spend (s : Db) (tokens : List String) (now : EditStamp) : Db :=
  { s with
    tokens := s.tokens.map fun t => if t.id ∈ tokens then { t with usedAt := some now } else t }

def Bulk.step (b : Bulk) (uid : String) (found : Option User) : Bulk :=
  match found with
  | none => { b with errors := b.errors ++ [(uid, "not_found")] }
  | some u =>
    if u.username = b.admin then { b with errors := b.errors ++ [(uid, "cannot_delete_self")] }
    else if u.role = some "admin" ∧ b.liveAdmins ≤ 1 then
      { b with errors := b.errors ++ [(uid, "last_admin")] }
    else
      { b with
        tombstoned := b.tombstoned ++ [u]
        liveAdmins := if u.role = some "admin" then b.liveAdmins - 1 else b.liveAdmins
        deleted := b.deleted ++ [uid] }

def Bulk.changes (b : Bulk) : List (User × User) :=
  b.tombstoned.map fun u => (u, tombstone b.now b.nowTs u)

/-! ## One stretch -/

variable (hashPassword : String → String)

def next (s : Db) : Task → Db × Task
  | .create newId body now =>
    match s.users.find? (·.username = body.username) with
    | none => (s, .insert newId body now)
    | some existing =>
      if existing.live then (s, .answered (.error 409 "Username already exists"))
      else (s, .restore existing body now)
  | .insert newId body now =>
    -- the unique columns
    if s.users.any (fun u => u.id = newId || u.username = body.username) then
      (s, .answered (.error 500 "IntegrityError"))
    else
      ({ s with users := s.users ++ [inserted hashPassword newId body now] },
        .answered (.user (inserted hashPassword newId body now)))
  | .restore existing body now =>
    (commit s [(existing, restored hashPassword existing body now)],
      .answered (.user (restored hashPassword existing body now)))
  | .update userId body now =>
    match getLive s.users userId with
    | none => (s, .answered (.error 404 "User not found"))
    | some user =>
      if (truthy body.password).isSome then (s, .spendTokens user body now)
      else (s, .commitUpdate user body [] now)
  | .spendTokens user body now => (s, .commitUpdate user body (liveTokens s user.id) now)
  | .commitUpdate user body tokens now =>
    (spend (commit s [(user, edited hashPassword user body now)]) tokens now,
      .answered (.user (edited hashPassword user body now)))
  | .delete userId now nowTs =>
    match getLive s.users userId with
    | none => (s, .answered (.error 404 "User not found"))
    | some user => (s, .countBeforeDelete user now nowTs)
  | .countBeforeDelete user now nowTs =>
    if user.role = some "admin" ∧ countAdmins s.users ≤ 1 then
      (s, .answered (.error 400 "Cannot delete the last admin user"))
    else (s, .commitDelete user (countAdmins s.users) now nowTs)
  | .commitDelete user _ now nowTs =>
    (commit s [(user, tombstone now nowTs user)], .answered .ok)
  | .bulkDelete ids admin now nowTs =>
    (s, .bulkRest { rest := ids, admin, now, nowTs, liveAdmins := countAdmins s.users })
  | .bulkRest b =>
    match b.rest with
    | uid :: rest =>
      -- the select sees what the session has flushed
      (s, .bulkRest
        { b.step uid (getLive (s.users.map (written b.changes)) uid) with rest := rest })
    | [] => (commit s b.changes, .answered (.bulk b.deleted b.errors))
  | .answered a => (s, .answered a)

end LlmProxy.Users
