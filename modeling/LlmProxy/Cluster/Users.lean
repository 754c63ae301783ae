import LlmProxy.Lib.Table
import LlmProxy.Cluster.Stamp

/-! # The users section of `apply_sync`

`app/cluster/sync.py`: a peer's user row is looked up by id, then by username, and merged by
last-writer-wins on `last_user_edit_at`; a row without a local counterpart is inserted
unless it is a tombstone.
-/

namespace LlmProxy.Cluster

structure User where
  id : String
  username : String
  passwordHash : String
  role : Option String := some "user"
  email : Option String := none
  deletedAt : Option Stamp := none
  lastUserEditAt : Option EditStamp := none
  deriving DecidableEq, Repr

/-- A user row of a payload. `role` and `email` may be left out by older peers. -/
structure PeerUser where
  id : String
  username : String
  passwordHash : String
  role : Option (Option String) := none
  email : Option (Option String) := none
  deletedAt : Option Stamp := none
  lastUserEditAt : Option EditStamp := none
  deriving DecidableEq, Repr

def User.live (u : User) : Bool := u.deletedAt.isNone

/-- `u_data.get("last_user_edit_at") or 0.0`. -/
def PeerUser.edit (u : PeerUser) : EditStamp := u.lastUserEditAt.getD 0

def mergeUser (u : PeerUser) (existing : User) : User :=
  if existing.lastUserEditAt.getD 0 < u.edit then
    match u.deletedAt with
    | some d => { existing with deletedAt := some d, lastUserEditAt := some u.edit }
    | none =>
      { existing with
        deletedAt := none
        passwordHash := u.passwordHash
        role := fieldOr u.role existing.role
        email := fieldOr u.email existing.email
        lastUserEditAt := some u.edit }
  else existing

/-- The row inserted for a peer row nobody here knows: none for a tombstone. -/
def insertUser (u : PeerUser) : Option User :=
  match u.deletedAt with
  | some _ => none
  | none => some
    { id := u.id
      username := u.username
      passwordHash := u.passwordHash
      -- the column's default also stands for a null role
      role := some (u.role.join.getD "user")
      email := fieldGet u.email
      -- `incoming_edit or None`
      lastUserEditAt := if u.edit = 0 then none else some u.edit }

def userKeys (u : PeerUser) : List (User → Bool) :=
  [fun r => r.id == u.id, fun r => r.username == u.username]

def applyUser (table : List User) (u : PeerUser) : List User :=
  Table.upsert (userKeys u) (mergeUser u) (insertUser u) table

/-- The users section of `apply_sync`. -/
def applyUsers (table : List User) (rows : List PeerUser) : List User :=
  rows.foldl applyUser table

@[simp] theorem mergeUser_id (u : PeerUser) (e : User) : (mergeUser u e).id = e.id := by
  unfold mergeUser
  split
  · split <;> rfl
  · rfl

theorem insertUser_live {u : PeerUser} (h : u.deletedAt = none) :
    ∃ r, insertUser u = some r ∧ r.id = u.id ∧ r.live = true ∧
      r.lastUserEditAt.getD 0 = u.edit := by
  unfold insertUser
  rw [h]
  refine ⟨_, rfl, rfl, rfl, ?_⟩
  dsimp only
  split
  · next h0 => exact h0.symm
  · rfl

theorem insertUser_dead {u : PeerUser} (h : u.deletedAt.isSome = true) : insertUser u = none := by
  obtain ⟨d, hd⟩ := Option.isSome_iff_exists.mp h
  unfold insertUser
  rw [hd]

end LlmProxy.Cluster
