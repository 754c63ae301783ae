import LlmProxy.Lib.Stamped
import LlmProxy.Cluster.Users
import LlmProxy.Memory.Row
import LlmProxy.Runs.Merge
import LlmProxy.Settings.Agreement

/-! # Stamped merges converge

Four sections of `apply_sync` take a peer's row in if it is newer: users (by `last_user_edit_at`),
settings, caller memory and runs (by `updated_at`). Each is a `Stamped.Merge`.

What an accepted row writes is not always all of it. A user's tombstone writes the deletion and the
stamp, and keeps the password, role and address it finds; a column that a peer leaves out stays; a
setting whose text does not read as its type is rolled back, and one that is no key of `SCHEMA` is
passed over.

> `stamped_merges_converge`: deliveries in any order and number leave the row with what the newest
> version carries, and leave the same row where that version carries everything.
-/

namespace LlmProxy.Cluster

open LlmProxy.Memory LlmProxy.Runs LlmProxy.Settings
open Stamped

/-! ## Users -/

def User.edit (u : User) : EditStamp := u.lastUserEditAt.getD 0

def PeerUser.write (u : PeerUser) (existing : User) : User :=
  match u.deletedAt with
  | some d => { existing with deletedAt := some d, lastUserEditAt := some u.edit }
  | none =>
    { existing with
      deletedAt := none
      passwordHash := u.passwordHash
      role := fieldOr u.role existing.role
      email := fieldOr u.email existing.email
      lastUserEditAt := some u.edit }

def userMerge : Merge User PeerUser EditStamp where
  held := User.edit
  stamp := PeerUser.edit
  write := PeerUser.write
  stamped u e := by
    unfold PeerUser.write
    split <;> rfl

theorem mergeUser_eq (u : PeerUser) (e : User) : mergeUser u e = userMerge.take e u := by
  unfold mergeUser Merge.take
  by_cases h : e.lastUserEditAt.getD 0 < u.edit
  · rw [if_pos h, if_pos (show userMerge.held e < userMerge.stamp u from h)]
    rfl
  · rw [if_neg h, if_neg (show ¬ userMerge.held e < userMerge.stamp u from h)]

structure PeerUser.Whole (u : PeerUser) : Prop where
  live : u.deletedAt = none
  role : u.role.isSome = true
  email : u.email.isSome = true

theorem PeerUser.Whole.merge {u : PeerUser} (h : u.Whole) : userMerge.Whole u := by
  intro w e
  obtain ⟨r, hr⟩ := Option.isSome_iff_exists.mp h.role
  obtain ⟨m, hm⟩ := Option.isSome_iff_exists.mp h.email
  show u.write (w.write e) = u.write e
  have hwrite : ∀ a : User, u.write a =
      { a with deletedAt := none, passwordHash := u.passwordHash, role := r, email := m,
               lastUserEditAt := some u.edit } := by
    intro a
    unfold PeerUser.write
    rw [h.live, hr, hm]
    rfl
  rw [hwrite, hwrite]
  unfold PeerUser.write
  split <;> rfl

theorem PeerUser.write_write (u : PeerUser) (e : User) : u.write (u.write e) = u.write e := by
  unfold PeerUser.write
  cases u.deletedAt with
  | some d => rfl
  | none => cases u.role <;> cases u.email <;> rfl

def mergeUsers (e : User) (rows : List PeerUser) : User := rows.foldl (fun e u => mergeUser u e) e

/-! ## Caller memory -/

def memoryMerge : Merge CallerMemory PeerMemory EditStamp where
  held := CallerMemory.updatedAt
  stamp := PeerMemory.updatedAt
  write := PeerMemory.write
  stamped _ _ := rfl

def mergeMemories (e : CallerMemory) (rows : List PeerMemory) : CallerMemory :=
  rows.foldl (fun e r => mergeCallerMemory r e) e

/-! ## Runs -/

def runMerge : Merge ReplicatedRun PeerRun Runs.Time where
  held r := r.updatedAt
  stamp := PeerRun.updatedAt
  write := PeerRun.write
  stamped _ _ := rfl

theorem mergeRun_eq (r : PeerRun) (e : ReplicatedRun) : mergeRun r e = runMerge.take e r := by
  unfold mergeRun Merge.take
  by_cases h : r.updatedAt ≤ e.updatedAt
  · rw [if_pos h, if_neg (show ¬ runMerge.held e < runMerge.stamp r from Int.not_lt.mpr h)]
  · rw [if_neg h, if_pos (show runMerge.held e < runMerge.stamp r from Int.not_le.mp h)]
    rfl

theorem fieldOr_fieldOr {α : Type} (sent : Option α) (existing : α) :
    fieldOr sent (fieldOr sent existing) = fieldOr sent existing := by
  cases sent <;> rfl

theorem PeerRun.write_write (r : PeerRun) (e : ReplicatedRun) : r.write (r.write e) = r.write e := by
  unfold PeerRun.write
  simp only [fieldOr_fieldOr]

def mergeRuns (e : ReplicatedRun) (rows : List PeerRun) : ReplicatedRun :=
  rows.foldl (fun e r => mergeRun r e) e

/-! ## Settings -/

section
variable {φ : Type} (py : Numerals φ)

/-- The row after a payload with a row for it; an exception rolls the section back. -/
def mergeSetting (s : PeerSetting) (existing : SystemSetting) : SystemSetting :=
  if (schema s.key).isNone || s.updatedAt ≤ existing.updatedAt.getD 0 then existing
  else
    match coerce py s.value s.valueType with
    | some _ => s.write existing
    | none => existing

def settingMerge : Merge SystemSetting PeerSetting EditStamp where
  held r := r.updatedAt.getD 0
  stamp := PeerSetting.updatedAt
  write := PeerSetting.write
  stamped _ _ := rfl

/-- The row is taken in whenever it is newer: it is of a known key, and its text reads as its
type. -/
def Takeable (s : PeerSetting) : Prop :=
  (schema s.key).isSome = true ∧ (coerce py s.value s.valueType).isSome = true

def mergeSettings (e : SystemSetting) (rows : List PeerSetting) : SystemSetting :=
  rows.foldl (fun e s => mergeSetting py s e) e

variable {py}

theorem mergeSetting_takeable {s : PeerSetting} (h : Takeable py s) (e : SystemSetting) :
    mergeSetting py s e = settingMerge.take e s := by
  obtain ⟨hknown, hreads⟩ := h
  obtain ⟨entry, hentry⟩ := Option.isSome_iff_exists.mp hknown
  obtain ⟨w, hw⟩ := Option.isSome_iff_exists.mp hreads
  unfold mergeSetting Merge.take
  rw [hentry, hw, Option.isNone_some, Bool.false_or]
  by_cases h : s.updatedAt ≤ e.updatedAt.getD 0
  · rw [if_pos (decide_eq_true h),
      if_neg (show ¬ settingMerge.held e < settingMerge.stamp s from Int.not_lt.mpr h)]
  · rw [if_neg (by simpa using h),
      if_pos (show settingMerge.held e < settingMerge.stamp s from Int.not_le.mp h)]
    rfl

end

/-! ## Main theorem -/

theorem mergeSetting_again {φ : Type} (py : Numerals φ) (s : PeerSetting) (e : SystemSetting) :
    mergeSetting py s (mergeSetting py s e) = mergeSetting py s e := by
  by_cases htake : Takeable py s
  · rw [mergeSetting_takeable htake, mergeSetting_takeable htake, take_take]
  · -- a row that cannot be taken in leaves every row as it is
    have hkeeps : ∀ e, mergeSetting py s e = e := by
      intro e
      unfold mergeSetting
      split
      · rfl
      · next hnew =>
        simp only [Bool.or_eq_true, not_or, Bool.not_eq_true, Option.isNone_eq_false_iff] at hnew
        cases hw : coerce py s.value s.valueType with
        | none => rfl
        | some w => exact absurd ⟨hnew.1, by rw [hw]; rfl⟩ htake
    rw [hkeeps]

/-- **Stamped merges converge.** For the rows of a user, a setting, a memory entry and a run, and
peer rows for them with distinct stamps: every delivery of the peer rows, in any order and number,
leaves the row with the fields the newest version carries, and with the same fields throughout if
that version is whole; and a row that comes again changes nothing. -/
theorem stamped_merges_converge {φ : Type} (py : Numerals φ)
    (user : User) (users : List PeerUser) (huser : userMerge.Distinct user users)
    (setting : SystemSetting) (settings : List PeerSetting)
    (hsetting : settingMerge.Distinct setting settings)
    (htake : ∀ s ∈ settings, Takeable py s)
    (memory : CallerMemory) (memories : List PeerMemory)
    (hmemory : memoryMerge.Distinct memory memories)
    (run : ReplicatedRun) (runs : List PeerRun) (hrun : runMerge.Distinct run runs) :
    userMerge.Settles PeerUser.Whole mergeUsers user users ∧
      settingMerge.Settles (fun _ => True) (mergeSettings py) setting settings ∧
      memoryMerge.Settles (fun _ => True) mergeMemories memory memories ∧
      runMerge.Settles (fun v => ∃ r, v = serialiseRun r) mergeRuns run runs ∧
      (∀ u e, mergeUser u (mergeUser u e) = mergeUser u e) ∧
      (∀ s e, mergeSetting py s (mergeSetting py s e) = mergeSetting py s e) ∧
      (∀ r e, mergeCallerMemory r (mergeCallerMemory r e) = mergeCallerMemory r e) ∧
      ∀ r e, mergeRun r (mergeRun r e) = mergeRun r e := by
  refine ⟨?_, ?_, ?_, ?_, fun u e => ?_, fun s e => ?_, fun r e => ?_, fun r e => ?_⟩
  · exact Merge.settles huser (fun u _ e => mergeUser_eq u e) (fun _ h => h.merge)
      PeerUser.write_write
  · exact Merge.settles hsetting (fun s hs e => mergeSetting_takeable (htake s hs) e)
      (fun _ _ _ _ => rfl) fun _ _ => rfl
  · exact Merge.settles hmemory (fun _ _ _ => rfl) (fun _ _ _ _ => rfl) fun _ _ => rfl
  · refine Merge.settles hrun (fun r _ e => mergeRun_eq r e) (fun v h => ?_) PeerRun.write_write
    obtain ⟨r, rfl⟩ := h
    intro _ _
    rfl
  · rw [mergeUser_eq, mergeUser_eq, take_take]
  · exact mergeSetting_again py s e
  · exact take_take memoryMerge e r
  · rw [mergeRun_eq, mergeRun_eq, take_take]

/-! ### Rows of one user, setting, entry and run -/

def adaRow : User := { id := "u1", username := "ada", passwordHash := "h0" }

/-- A password change at 1 s. -/
def adaChanged : PeerUser :=
  { id := "u1", username := "ada", passwordHash := "h1", role := some (some "user"),
    email := some none, lastUserEditAt := some 1 }

/-- The deletion at 2 s. -/
def adaDeleted : PeerUser := { adaChanged with deletedAt := some 2, lastUserEditAt := some 2 }

def senderRow : SystemSetting := ⟨"smtp_from", "", "str", none⟩

def senderSet : PeerSetting := ⟨"smtp_from", "proxy@example.org", "str", 1⟩

def noteRow : CallerMemory := { key := ⟨"k1", none, "default"⟩, content := "old", updatedAt := 1 }

def idleRun : ReplicatedRun :=
  { apiKeyId := "k1", ownerNodeId := "n1", status := .queued, deadlineTs := 60, maxTurns := 3,
    createdAt := 0, updatedAt := 0, id := "r1" }

theorem stamped_merges_converge_rows :
    userMerge.Settles PeerUser.Whole mergeUsers adaRow [adaChanged, adaDeleted] ∧
      settingMerge.Settles (fun _ => True) (mergeSettings numerals) senderRow [senderSet] ∧
      memoryMerge.Settles (fun _ => True) mergeMemories noteRow
        [buildPeerMemory { noteRow with content := "new", updatedAt := 2 }] ∧
      runMerge.Settles (fun v => ∃ r, v = serialiseRun r) mergeRuns idleRun
        [serialiseRun { idleRun with status := .cancelled, updatedAt := 1 }] := by
  have h := stamped_merges_converge numerals adaRow [adaChanged, adaDeleted]
    ⟨by decide, by decide⟩ senderRow [senderSet] ⟨by decide, by decide⟩
    (fun s hs => by rw [List.mem_singleton.mp hs]; exact ⟨rfl, rfl⟩)
    noteRow [buildPeerMemory { noteRow with content := "new", updatedAt := 2 }]
    ⟨by decide, by decide⟩
    idleRun [serialiseRun { idleRun with status := .cancelled, updatedAt := 1 }]
    ⟨by decide, by decide⟩
  exact ⟨h.1, h.2.1, h.2.2.1, h.2.2.2.1⟩

/-- **A deleted user** keeps the password the row had, so it depends on the order. -/
theorem deleted_user_by_order :
    userMerge.Distinct adaRow [adaChanged, adaDeleted] ∧
      (mergeUsers adaRow [adaChanged, adaDeleted]).passwordHash = "h1" ∧
      (mergeUsers adaRow [adaDeleted, adaChanged]).passwordHash = "h0" :=
  ⟨⟨by decide, by decide⟩, rfl, rfl⟩

end LlmProxy.Cluster
