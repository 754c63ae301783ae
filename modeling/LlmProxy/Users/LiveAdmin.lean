import Mathlib.Data.List.Count
import Mathlib.Data.List.Nodup
import Mathlib.Data.List.Perm.Subperm
import LlmProxy.Users.Requests

/-! # There is always a live admin

`delete_user` and `bulk_delete_users` count the live admins and refuse to delete the last one. The
count is of an earlier moment than the commit, and `update_user`, which can take the role away, does
not count at all.

What decides is which rows a request has loaded to tombstone or to give another role: when it
commits, a live admin must be in the table that is not among them. Every request but a demotion meets
that as long as what it has read is what the table still holds (`guarded_of_current`).

> `live_admin_iff`; `live_admin_serial`, when requests do not interleave.
-/

namespace LlmProxy.Users

open LlmProxy.Cluster (User Stamp EditStamp)
open Interleaving Trace

variable {hashPassword : String → String} {s : Db} {t : Task} {changes : List (User × User)}
  {u v loaded new : User}

/-- Somebody can log in as an admin. -/
def HasLiveAdmin (users : List User) : Prop := ∃ u ∈ users, liveAdmin u = true

instance (users : List User) : Decidable (HasLiveAdmin users) :=
  inferInstanceAs (Decidable (∃ u ∈ users, liveAdmin u = true))

def commits (hashPassword : String → String) : Task → List (User × User)
  | .restore existing body now => [(existing, restored hashPassword existing body now)]
  | .commitUpdate user body _ now => [(user, edited hashPassword user body now)]
  | .commitDelete user _ now nowTs => [(user, tombstone now nowTs user)]
  | .bulkRest b => if b.rest = [] then b.changes else []
  | _ => []

/-- The rows a request takes in its next stretch: by a tombstone, or by a role that is not the admin's
and not the one it has read. -/
def takes : Task → List String
  | .restore existing body _ =>
    if body.role ≠ "admin" ∧ existing.role ≠ some body.role then [existing.id] else []
  | .commitUpdate user body _ _ =>
    match truthy body.role with
    | none => []
    | some role => if role ≠ "admin" ∧ user.role ≠ some role then [user.id] else []
  | .commitDelete user _ _ _ => [user.id]
  | .bulkRest b => if b.rest = [] then b.tombstoned.map User.id else []
  | _ => []

/-- **The guard**: a request that takes rows finds another live admin in the table. -/
def MeetsGuard (s : Db) (t : Task) : Prop :=
  takes t ≠ [] → ∃ u ∈ s.users, liveAdmin u = true ∧ u.id ∉ takes t

instance : Decidable (MeetsGuard s t) := by
  unfold MeetsGuard
  infer_instance

/-- What a request has found, and the count that has let it go on. -/
def Loaded : Task → Prop
  | .restore existing _ _ => existing.live = false
  | .countBeforeDelete user _ _ => user.live = true
  | .commitDelete user adminCount _ _ =>
    user.live = true ∧ [user].countP (·.role = some "admin") < adminCount
  | .bulkRest b => (∀ u ∈ b.tombstoned, u.live = true) ∧ 0 < b.liveAdmins
  | _ => True

theorem liveAdmin_iff : liveAdmin u = true ↔ u.role = some "admin" ∧ u.deletedAt = none := by
  simp [liveAdmin, User.live]

/-! ## What a commit does to the admins -/

@[simp] theorem flush_id (loaded new current : User) : (flush loaded new current).id = current.id :=
  rfl

@[simp] theorem written_nil (u : User) : written [] u = u := rfl

theorem written_cons (c : User × User) (u : User) : written (c :: changes) u =
    written changes (if u.id = c.1.id then flush c.1 c.2 u else u) := rfl

theorem written_single (u : User) : written [(loaded, new)] u =
    if u.id = loaded.id then flush loaded new u else u := rfl

theorem written_eq_self (h : ∀ c ∈ changes, u.id ≠ c.1.id) : written changes u = u := by
  induction changes with
  | nil => rfl
  | cons c changes ih =>
    rw [written_cons, if_neg (h c List.mem_cons_self)]
    exact ih fun c' hc' => h c' (List.mem_cons_of_mem c hc')

theorem written_dead (h : ∀ c ∈ changes, c.2.deletedAt ≠ none) (hu : u.deletedAt ≠ none) :
    (written changes u).deletedAt ≠ none := by
  induction changes generalizing u with
  | nil => exact hu
  | cons c changes ih =>
    rw [written_cons]
    refine ih (fun c' hc' => h c' (List.mem_cons_of_mem c hc')) ?_
    split
    · show Session.column c.1.deletedAt c.2.deletedAt u.deletedAt ≠ none
      rcases Session.column_cases c.1.deletedAt c.2.deletedAt u.deletedAt with ⟨heq, -⟩ | heq
      · rw [heq]
        exact h c List.mem_cons_self
      · rwa [heq]
    · exact hu

theorem written_taken (h : ∀ c ∈ changes, c.1.deletedAt = none ∧ c.2.deletedAt ≠ none)
    (hu : u.id ∈ changes.map fun c => c.1.id) : (written changes u).deletedAt ≠ none := by
  induction changes generalizing u with
  | nil => cases hu
  | cons c changes ih =>
    obtain ⟨hnone, hdead⟩ := h c List.mem_cons_self
    have hrest := fun c' hc' => h c' (List.mem_cons_of_mem c hc')
    rw [written_cons]
    split
    · refine written_dead (fun c' hc' => (hrest c' hc').2) ?_
      show Session.column c.1.deletedAt c.2.deletedAt u.deletedAt ≠ none
      rw [Session.column_of_ne (by rw [hnone]; exact hdead)]
      exact hdead
    · next hother =>
      exact ih hrest ((List.mem_cons.mp hu).resolve_left hother)

theorem liveAdmin_flush (hdeleted : new.deletedAt = none ∨ new.deletedAt = loaded.deletedAt)
    (hu : liveAdmin u = true) :
    liveAdmin (flush loaded new u) = true ↔ new.role = loaded.role ∨ new.role = some "admin" := by
  obtain ⟨hrole, hnone⟩ := liveAdmin_iff.mp hu
  have hstill : (flush loaded new u).deletedAt = none := by
    show Session.column loaded.deletedAt new.deletedAt u.deletedAt = none
    rcases Session.column_cases loaded.deletedAt new.deletedAt u.deletedAt with ⟨heq, hne⟩ | heq
    · rw [heq]
      exact hdeleted.resolve_right hne
    · rw [heq, hnone]
  have hadmin : (flush loaded new u).role = some "admin" ↔
      new.role = loaded.role ∨ new.role = some "admin" := by
    show Session.column loaded.role new.role u.role = some "admin" ↔ _
    by_cases hsame : new.role = loaded.role
    · rw [hsame, Session.column_same]
      exact iff_of_true hrole (Or.inl rfl)
    · rw [Session.column_of_ne hsame]
      exact ⟨Or.inr, fun h => h.resolve_left hsame⟩
  rw [liveAdmin_iff, hadmin]
  exact and_iff_left hstill

/-- A row that stays live can lose the admin role only to another role, and then every row the
change is written over has that one. -/
theorem single_one_way (hlive : new.deletedAt = none ∨ new.deletedAt = loaded.deletedAt)
    (hu : liveAdmin u = true) (hlost : liveAdmin (written [(loaded, new)] u) = false)
    (hv : liveAdmin v = false) : liveAdmin (written [(loaded, new)] v) = false := by
  rw [written_single] at hlost ⊢
  split at hlost
  · have hother := (liveAdmin_flush hlive hu).not.mp (Bool.eq_false_iff.mp hlost)
    push Not at hother
    split
    · refine Bool.eq_false_iff.mpr fun h => hother.2 ?_
      rw [← (liveAdmin_iff.mp h).1]
      exact (Session.column_of_ne hother.1).symm
    · exact hv
  · rw [hu] at hlost
    cases hlost

theorem liveAdmin_of_tombstones (h : ∀ c ∈ changes, c.2.role = c.1.role ∧ c.2.deletedAt ≠ none)
    (hafter : liveAdmin (written changes u) = true) : liveAdmin u = true := by
  induction changes generalizing u with
  | nil => exact hafter
  | cons c changes ih =>
    rw [written_cons] at hafter
    have hone := ih (fun c' hc' => h c' (List.mem_cons_of_mem c hc')) hafter
    obtain ⟨hrole, hdead⟩ := h c List.mem_cons_self
    split at hone
    · obtain ⟨hadmin, hnone⟩ := liveAdmin_iff.mp hone
      refine liveAdmin_iff.mpr ⟨?_, ?_⟩
      · rw [← hadmin]
        show u.role = Session.column c.1.role c.2.role u.role
        rw [hrole, Session.column_same]
      · rcases Session.column_cases c.1.deletedAt c.2.deletedAt u.deletedAt with ⟨heq, -⟩ | heq
        · exact absurd (heq.symm.trans hnone) hdead
        · exact heq.symm.trans hnone
    · exact hone

theorem tombstone_change (u : User) (now : Stamp) (nowTs : EditStamp) :
    (tombstone now nowTs u).role = u.role ∧ (tombstone now nowTs u).deletedAt ≠ none :=
  ⟨rfl, fun h => nomatch h⟩

theorem commits_one_way (hu : liveAdmin u = true)
    (hlost : liveAdmin (written (commits hashPassword t) u) = false) (hv : liveAdmin v = false) :
    liveAdmin (written (commits hashPassword t) v) = false := by
  have htombs : ∀ {changes}, (∀ c ∈ changes, c.2.role = c.1.role ∧ c.2.deletedAt ≠ none) →
      liveAdmin (written changes v) = false := fun h =>
    Bool.eq_false_iff.mpr fun hafter => by
      rw [liveAdmin_of_tombstones h hafter] at hv
      cases hv
  cases t with
  | restore existing body now => exact single_one_way (Or.inl rfl) hu hlost hv
  | commitUpdate user body tokens now => exact single_one_way (Or.inr rfl) hu hlost hv
  | commitDelete user adminCount now nowTs =>
    refine htombs fun c hc => ?_
    rw [List.mem_singleton.mp hc]
    exact tombstone_change user now nowTs
  | bulkRest b =>
    refine htombs fun c hc => ?_
    simp only [commits] at hc
    split at hc
    · obtain ⟨w, -, rfl⟩ := List.mem_map.mp hc
      exact tombstone_change w b.now b.nowTs
    · cases hc
  | _ => exact hv

/-! ## One stretch -/

theorem next_users (s : Db) (t : Task) :
    (next hashPassword s t).1.users = s.users.map (written (commits hashPassword t)) ∨
      commits hashPassword t = [] ∧ ∃ u, (next hashPassword s t).1.users = s.users ++ [u] := by
  have hsame : s.users = s.users.map (written []) := (List.map_id s.users).symm
  cases t with
  | create newId body now =>
    refine Or.inl ?_
    simp only [next]
    split
    · exact hsame
    · split <;> exact hsame
  | insert newId body now =>
    simp only [next]
    split
    · exact Or.inl hsame
    · exact Or.inr ⟨rfl, _, rfl⟩
  | update userId body now =>
    refine Or.inl ?_
    simp only [next]
    split
    · exact hsame
    · split <;> exact hsame
  | delete userId now nowTs =>
    refine Or.inl ?_
    simp only [next]
    split <;> exact hsame
  | countBeforeDelete user now nowTs =>
    refine Or.inl ?_
    simp only [next]
    split <;> exact hsame
  | bulkRest b =>
    refine Or.inl ?_
    simp only [next, commits]
    cases hrest : b.rest with
    | nil => rfl
    | cons uid rest => exact hsame
  | restore existing body now => exact Or.inl rfl
  | commitUpdate user body tokens now => exact Or.inl rfl
  | commitDelete user adminCount now nowTs => exact Or.inl rfl
  | spendTokens user body now => exact Or.inl hsame
  | bulkDelete ids admin now nowTs => exact Or.inl hsame
  | answered a => exact Or.inl hsame

theorem liveAdmin_of_not_taken (hu : liveAdmin u = true) (h : u.id ∉ takes t) :
    liveAdmin (written (commits hashPassword t) u) = true := by
  cases t with
  | restore existing body now =>
    simp only [commits, written_single]
    split
    · next hid =>
      refine (liveAdmin_flush (Or.inl rfl) hu).mpr ?_
      by_contra hother
      refine h ?_
      have htaken : body.role ≠ "admin" ∧ existing.role ≠ some body.role :=
        ⟨fun heq => hother (Or.inr (congrArg some heq)), fun heq => hother (Or.inl heq.symm)⟩
      simp only [takes, if_pos htaken]
      exact List.mem_singleton.mpr hid
    · exact hu
  | commitUpdate user body tokens now =>
    simp only [commits, written_single]
    split
    · next hid =>
      have hrole := @liveAdmin_flush u user (edited hashPassword user body now) (Or.inr rfl) hu
      refine hrole.mpr ?_
      simp only [takes, edited] at h ⊢
      cases hbody : truthy body.role with
      | none => exact Or.inl rfl
      | some role =>
        by_contra hother
        rw [hbody] at h
        have htaken : role ≠ "admin" ∧ user.role ≠ some role :=
          ⟨fun heq => hother (Or.inr (congrArg some heq)), fun heq => hother (Or.inl heq.symm)⟩
        simp only [if_pos htaken] at h
        exact h (List.mem_singleton.mpr hid)
    · exact hu
  | commitDelete user adminCount now nowTs =>
    have hid : u.id ≠ user.id := fun heq => h (List.mem_singleton.mpr heq)
    simp only [commits, written_single, if_neg hid]
    exact hu
  | bulkRest b =>
    simp only [commits, takes] at h ⊢
    split
    · next hrest =>
      rw [if_pos hrest] at h
      rw [written_eq_self fun c hc hid => h ?_]
      · exact hu
      · obtain ⟨w, hw, rfl⟩ := List.mem_map.mp hc
        exact hid ▸ List.mem_map_of_mem hw
    · exact hu
  | _ => exact hu

theorem not_liveAdmin_of_taken (hloaded : Loaded t) (hu : liveAdmin u = true) (h : u.id ∈ takes t) :
    liveAdmin (written (commits hashPassword t) u) = false := by
  have hdead : ∀ {changes : List (User × User)},
      (∀ c ∈ changes, c.1.deletedAt = none ∧ c.2.deletedAt ≠ none) →
      u.id ∈ changes.map (fun c => c.1.id) → liveAdmin (written changes u) = false := by
    intro changes hchanges hid
    refine Bool.eq_false_iff.mpr fun hadmin => ?_
    exact written_taken hchanges hid (liveAdmin_iff.mp hadmin).2
  cases t with
  | restore existing body now =>
    simp only [takes] at h
    split at h
    · next htaken =>
      simp only [commits, written_single, if_pos (List.mem_singleton.mp h)]
      refine Bool.eq_false_iff.mpr fun hadmin => ?_
      rcases (liveAdmin_flush (Or.inl rfl) hu).mp hadmin with hsame | hrole
      · exact htaken.2 hsame.symm
      · exact htaken.1 (Option.some.inj hrole)
    · cases h
  | commitUpdate user body tokens now =>
    simp only [takes] at h
    cases hbody : truthy body.role with
    | none =>
      rw [hbody] at h
      cases h
    | some role =>
      simp only [hbody] at h
      split at h
      · next htaken =>
        simp only [commits, written_single, if_pos (List.mem_singleton.mp h)]
        refine Bool.eq_false_iff.mpr fun hadmin => ?_
        have hrole :=
          (@liveAdmin_flush u user (edited hashPassword user body now) (Or.inr rfl) hu).mp hadmin
        simp only [edited, hbody] at hrole
        exact hrole.elim (fun hsame => htaken.2 hsame.symm) fun heq =>
          htaken.1 (Option.some.inj heq)
      · cases h
  | commitDelete user adminCount now nowTs =>
    refine hdead (fun c hc => ?_) h
    rw [List.mem_singleton.mp hc]
    exact ⟨Option.isNone_iff_eq_none.mp hloaded.1, (tombstone_change user now nowTs).2⟩
  | bulkRest b =>
    simp only [takes, commits] at h ⊢
    split at h
    · next hrest =>
      rw [if_pos hrest]
      refine hdead (fun c hc => ?_) ?_
      · obtain ⟨w, hw, rfl⟩ := List.mem_map.mp hc
        exact ⟨Option.isNone_iff_eq_none.mp (hloaded.1 w hw), (tombstone_change w b.now b.nowTs).2⟩
      · rw [Bulk.changes, List.map_map]
        exact h
    · cases h
  | _ => cases h

theorem next_hasLiveAdmin (hs : HasLiveAdmin s.users) (h : MeetsGuard s t) :
    HasLiveAdmin (next hashPassword s t).1.users := by
  have hspared : ∃ u ∈ s.users, liveAdmin u = true ∧ u.id ∉ takes t := by
    by_cases htakes : takes t = []
    · obtain ⟨u, hu, hadmin⟩ := hs
      exact ⟨u, hu, hadmin, by rw [htakes]; exact List.not_mem_nil⟩
    · exact h htakes
  obtain ⟨u, hu, hadmin, hspared⟩ := hspared
  rcases next_users s t with heq | ⟨-, new, heq⟩
  · rw [heq]
    exact ⟨_, List.mem_map_of_mem hu, liveAdmin_of_not_taken hadmin hspared⟩
  · rw [heq]
    exact ⟨u, List.mem_append_left _ hu, hadmin⟩

theorem next_lockedOut (hs : HasLiveAdmin s.users) (hloaded : Loaded t) (h : ¬ MeetsGuard s t) :
    ¬ HasLiveAdmin (next hashPassword s t).1.users := by
  have hlost : ∀ u ∈ s.users, liveAdmin u = true →
      liveAdmin (written (commits hashPassword t) u) = false := by
    intro u hu hadmin
    refine not_liveAdmin_of_taken hloaded hadmin ?_
    by_contra hspared
    exact h fun _ => ⟨u, hu, hadmin, hspared⟩
  obtain ⟨a, ha, hadmin⟩ := hs
  have hnone := hlost a ha hadmin
  rcases next_users s t with heq | ⟨hempty, -⟩
  · rw [heq]
    rintro ⟨w, hw, hlive⟩
    obtain ⟨v, hv, rfl⟩ := List.mem_map.mp hw
    cases hvadmin : liveAdmin v with
    | true =>
      rw [hlost v hv hvadmin] at hlive
      cases hlive
    | false =>
      rw [commits_one_way hadmin hnone hvadmin] at hlive
      cases hlive
  · rw [hempty, written_nil, hadmin] at hnone
    cases hnone

/-! ## Every run -/

theorem getLive_live {users : List User} {userId : String} (h : getLive users userId = some u) :
    u.live = true := by
  have hboth := List.find?_some h
  simp only [Bool.and_eq_true] at hboth
  exact hboth.2

theorem loaded_start (s : Db) (r : Request) : Loaded (start s r) := by
  cases r with
  | create newId body now => simp only [start]; split <;> trivial
  | update userId body now => trivial
  | delete userId now nowTs => trivial
  | bulkDelete ids admin now nowTs => simp only [start]; split <;> trivial

theorem loaded_next (hs : HasLiveAdmin s.users) (h : Loaded t) :
    Loaded (next hashPassword s t).2 := by
  have hpos : 0 < countAdmins s.users := List.countP_pos_iff.mpr hs
  cases t with
  | create newId body now =>
    simp only [next]
    split
    · trivial
    · split
      · trivial
      · next hdead => exact Bool.eq_false_iff.mpr hdead
  | insert newId body now => simp only [next]; split <;> trivial
  | update userId body now =>
    simp only [next]
    split
    · trivial
    · split <;> trivial
  | delete userId now nowTs =>
    simp only [next]
    split
    · trivial
    · next user hget => exact getLive_live hget
  | countBeforeDelete user now nowTs =>
    simp only [next]
    split
    · trivial
    · next hgo =>
      refine ⟨h, ?_⟩
      rw [List.countP_singleton]
      split
      · next hadmin => simp only [of_decide_eq_true hadmin, true_and] at hgo; omega
      · exact hpos
  | bulkDelete ids admin now nowTs => exact ⟨List.forall_mem_nil _, hpos⟩
  | bulkRest b =>
    simp only [next]
    split
    · next uid rest hrest =>
      cases hget : getLive (s.users.map (written b.changes)) uid with
      | none => exact h
      | some u =>
        simp only [Bulk.step]
        split
        · exact h
        · split
          · exact h
          · next hgo =>
            refine ⟨List.forall_mem_append.mpr
              ⟨h.1, fun v hv => List.mem_singleton.mp hv ▸ getLive_live hget⟩, ?_⟩
            dsimp only
            split
            · next hadmin => simp only [hadmin, true_and] at hgo; omega
            · exact h.2
    · trivial
  | _ => trivial

theorem users_outline : Outline start (next hashPassword) (fun s => HasLiveAdmin s.users)
    (fun _ => Loaded) MeetsGuard where
  start := fun s r _ => loaded_start s r
  shared := fun _ _ hs _ hg => next_hasLiveAdmin hs hg
  own := fun _ _ hs ht _ => loaded_next hs ht
  other := fun _ _ _ _ _ _ hu => hu

/-! ## Requests whose reads are still current -/

/-- The rows the request has loaded are in the table, the live admins it counts, with those it has
tombstoned itself, are the table's, and where it demotes a user another one is a live admin. -/
def Current (s : Db) : Task → Prop
  | .restore existing _ _ => existing ∈ s.users
  | .commitUpdate user body _ _ => ∀ role ∈ truthy body.role, role ≠ "admin" →
    user.role ≠ some role → ∃ u ∈ s.users, liveAdmin u = true ∧ u.id ≠ user.id
  | .commitDelete user adminCount _ _ => user ∈ s.users ∧ adminCount = countAdmins s.users
  | .bulkRest b => (∀ u ∈ b.tombstoned, u ∈ s.users) ∧
    b.liveAdmins + b.tombstoned.countP (·.role = some "admin") = countAdmins s.users
  | _ => True

instance : Decidable (Current s t) := by
  cases t <;> unfold Current <;> infer_instance

theorem exists_not_among {users rows : List User} (hids : (users.map User.id).Nodup)
    (hrows : ∀ u ∈ rows, u ∈ users)
    (hless : rows.countP (·.role = some "admin") < countAdmins users) :
    ∃ u ∈ users, liveAdmin u = true ∧ u.id ∉ rows.map User.id := by
  by_contra hnone
  push Not at hnone
  have hle : countAdmins users ≤ rows.countP (·.role = some "admin") := by
    unfold countAdmins
    rw [List.countP_eq_length_filter, List.countP_eq_length_filter]
    refine (List.subperm_of_subset ((List.Nodup.of_map User.id hids).filter _) ?_).length_le
    intro u hu
    obtain ⟨hmem, hadmin⟩ := List.mem_filter.mp hu
    obtain ⟨w, hw, hid⟩ := List.mem_map.mp (hnone u hmem hadmin)
    have hrow : u = w := List.inj_on_of_nodup_map hids hmem (hrows w hw) hid.symm
    exact List.mem_filter.mpr ⟨hrow ▸ hw, decide_eq_true (liveAdmin_iff.mp hadmin).1⟩
  omega

/-- **The guard of a request** is met as long as what it has read is current. -/
theorem guarded_of_current (hids : (s.users.map User.id).Nodup) (hs : HasLiveAdmin s.users)
    (hloaded : Loaded t) (h : Current s t) : MeetsGuard s t := by
  intro htakes
  cases t with
  | restore existing body now =>
    obtain ⟨u, hu, hadmin⟩ := hs
    refine ⟨u, hu, hadmin, fun htaken => ?_⟩
    simp only [takes] at htaken
    split at htaken
    · obtain rfl := List.inj_on_of_nodup_map hids hu h (List.mem_singleton.mp htaken)
      have hlive := (Bool.and_eq_true_iff.mp hadmin).2
      rw [hloaded] at hlive
      cases hlive
    · cases htaken
  | commitUpdate user body tokens now =>
    simp only [takes] at htakes ⊢
    split
    · next hbody => simp [hbody] at htakes
    · next role hbody =>
      split
      · next hother =>
        obtain ⟨u, hu, hadmin, hid⟩ := h role hbody hother.1 hother.2
        exact ⟨u, hu, hadmin, fun htaken => hid (List.mem_singleton.mp htaken)⟩
      · next hsame => simp [hbody, hsame] at htakes
  | commitDelete user adminCount now nowTs =>
    obtain ⟨hmem, hcount⟩ := h
    have hless := hloaded.2
    rw [hcount] at hless
    exact exists_not_among hids (fun u hu => List.mem_singleton.mp hu ▸ hmem) hless
  | bulkRest b =>
    obtain ⟨hmem, hcount⟩ := h
    have hpos := hloaded.2
    simp only [takes] at htakes ⊢
    split
    · exact exists_not_among hids hmem (by omega)
    · next hrest => exact absurd (if_neg hrest) htakes
  | _ => exact absurd rfl htakes

theorem map_written_id (changes : List (User × User)) (users : List User) :
    (users.map (written changes)).map User.id = users.map User.id := by
  have hone : ∀ u, (written changes u).id = u.id := by
    induction changes with
    | nil => exact fun _ => rfl
    | cons c changes ih =>
      intro u
      rw [written_cons, ih]
      split <;> rfl
  rw [List.map_map]
  exact List.map_congr_left fun u _ => hone u

theorem nodup_next (hids : (s.users.map User.id).Nodup) :
    ((next hashPassword s t).1.users.map User.id).Nodup := by
  have hcommit : ∀ changes, ((commit s changes).users.map User.id).Nodup := fun changes =>
    (map_written_id changes s.users).symm ▸ hids
  cases t with
  | insert newId body now =>
    simp only [next]
    split
    · exact hids
    · next hunique =>
      rw [List.map_append, List.map_singleton]
      refine List.nodup_append'.mpr ⟨hids, List.nodup_singleton _, ?_⟩
      rw [List.disjoint_singleton]
      intro hmem
      obtain ⟨u, hu, hid⟩ := List.mem_map.mp hmem
      exact hunique (List.any_eq_true.mpr ⟨u, hu, by simp [hid, inserted]⟩)
  | _ =>
    simp only [next]
    repeat' split
    all_goals first | exact hids | exact hcommit _

theorem current_outline : Outline start (next hashPassword)
    (fun s => (s.users.map User.id).Nodup ∧ HasLiveAdmin s.users) (fun _ => Loaded) Current where
  start := fun s r _ => loaded_start s r
  shared := fun _ _ hs ht hg =>
    ⟨nodup_next hs.1, next_hasLiveAdmin hs.2 (guarded_of_current hs.1 hs.2 ht hg)⟩
  own := fun _ _ hs ht _ => loaded_next hs.2 ht
  other := fun _ _ _ _ _ _ hu => hu

/-- **A live admin at every moment**: from a table with one, whatever requests run and however
their stretches interleave, there is a live admin after every stretch exactly if every request that
demotes or deletes finds another one when it commits; and there is if what each commits over is what
it has read and no update demotes the only one. -/
theorem live_admin_iff (hashPassword : String → String) (s : Db) (hs : HasLiveAdmin s.users)
    (as : List (Act Request)) :
    ((∀ pre post, as = pre ++ post →
        HasLiveAdmin (run (step start (next hashPassword)) ⟨s, fun _ => none⟩ pre).shared.users) ↔
      Along (step start (next hashPassword)) (Guarded MeetsGuard) ⟨s, fun _ => none⟩ as) ∧
    ((s.users.map User.id).Nodup →
      Along (step start (next hashPassword)) (Guarded Current) ⟨s, fun _ => none⟩ as →
      ∀ pre post, as = pre ++ post →
        HasLiveAdmin
          (run (step start (next hashPassword)) ⟨s, fun _ => none⟩ pre).shared.users) := by
  have hfree : ∀ (_ : Nat) t, (none : Option Task) = some t → Loaded t := fun _ _ h =>
    absurd h.symm (Option.some_ne_none _)
  refine ⟨run_exact (P := fun s : Db => HasLiveAdmin s.users) users_outline (fun _ h => h)
    (fun _ _ hs ht hg => next_lockedOut hs ht hg) ⟨hs, hfree⟩, ?_⟩
  intro hids hcurrent pre post heq
  rw [heq, along_append] at hcurrent
  exact (run_safe current_outline ⟨⟨hids, hs⟩, hfree⟩ hcurrent.1).shared.2

/-! ## One request at a time -/

/-- What a request that runs alone knows between two stretches. -/
def Ready (s : Db) : Task → Prop
  | .update _ body _ | .spendTokens _ body _ | .commitUpdate _ body _ _ =>
    ∀ role ∈ truthy body.role, role = "admin"
  | .countBeforeDelete user _ _ => user ∈ s.users
  | t => Current s t

/-- An update to a role that is not the admin's. -/
def Request.demotes : Request → Prop
  | .update _ body _ => ∃ role ∈ truthy body.role, role ≠ "admin"
  | _ => False

theorem current_of_ready (h : Ready s t) : Current s t := by
  cases t with
  | commitUpdate user body tokens now => exact fun role hrole hne => absurd (h role hrole) hne
  | update _ _ _ | spendTokens _ _ _ | countBeforeDelete _ _ _ => trivial
  | _ => exact h

theorem ready_start {r : Request} (h : ¬ r.demotes) : Ready s (start s r) := by
  cases r with
  | create newId body now => simp only [start]; split <;> trivial
  | update userId body now => exact fun role hrole => not_not.mp fun hne => h ⟨role, hrole, hne⟩
  | delete userId now nowTs => trivial
  | bulkDelete ids admin now nowTs => simp only [start]; split <;> trivial

theorem written_live (h : ∀ c ∈ changes, c.1.deletedAt = none ∧ c.2.deletedAt ≠ none)
    (hlive : (written changes u).deletedAt = none) : written changes u = u :=
  written_eq_self fun _ hc hid =>
    written_taken h (hid ▸ List.mem_map_of_mem (f := fun c => c.1.id) hc) hlive

theorem mem_of_getLive {b : Bulk} {uid : String} (hlive : ∀ u ∈ b.tombstoned, u.live = true)
    (h : getLive (s.users.map (written b.changes)) uid = some u) : u ∈ s.users := by
  have hfound : u.live = true := getLive_live h
  obtain ⟨w, hw, rfl⟩ := List.mem_map.mp (List.mem_of_find?_eq_some h)
  have hkept : written b.changes w = w := by
    refine written_live (fun c hc => ?_) (Option.isNone_iff_eq_none.mp hfound)
    obtain ⟨x, hx, rfl⟩ := List.mem_map.mp hc
    exact ⟨Option.isNone_iff_eq_none.mp (hlive x hx), fun hnone => nomatch hnone⟩
  rw [hkept]
  exact hw

theorem ready_lookUp {b : Bulk} {uid : String} {rest : List String} (hrest : b.rest = uid :: rest)
    (hloaded : Loaded (.bulkRest b)) (h : Ready s (.bulkRest b)) :
    Ready s (next hashPassword s (.bulkRest b)).2 := by
  simp only [next, hrest]
  obtain ⟨hmem, hcount⟩ := h
  cases hget : getLive (s.users.map (written b.changes)) uid with
  | none => exact ⟨hmem, hcount⟩
  | some u =>
    simp only [Bulk.step]
    split
    · exact ⟨hmem, hcount⟩
    · split
      · exact ⟨hmem, hcount⟩
      · next hgo =>
        refine ⟨List.forall_mem_append.mpr
          ⟨hmem, fun x hx => List.mem_singleton.mp hx ▸ mem_of_getLive hloaded.1 hget⟩, ?_⟩
        dsimp only
        rw [List.countP_append, List.countP_singleton]
        split
        · next hadmin =>
          simp only [hadmin, true_and] at hgo
          rw [if_pos (decide_eq_true hadmin)]
          omega
        · next hother =>
          rw [decide_eq_false hother, if_neg Bool.false_ne_true]
          omega

theorem ready_next (hloaded : Loaded t) (h : Ready s t) :
    Ready (next hashPassword s t).1 (next hashPassword s t).2 := by
  cases t with
  | create newId body now =>
    simp only [next]
    split
    · trivial
    · next existing hfind =>
      split
      · trivial
      · exact List.mem_of_find?_eq_some hfind
  | insert newId body now => simp only [next]; split <;> trivial
  | update userId body now =>
    simp only [next]
    split
    · trivial
    · split <;> exact h
  | spendTokens user body now => exact h
  | delete userId now nowTs =>
    simp only [next]
    split
    · trivial
    · next user hget => exact List.mem_of_find?_eq_some hget
  | countBeforeDelete user now nowTs =>
    simp only [next]
    split
    · trivial
    · exact ⟨h, rfl⟩
  | bulkDelete ids admin now nowTs => exact ⟨List.forall_mem_nil _, rfl⟩
  | bulkRest b =>
    cases hrest : b.rest with
    | nil => simp only [next, hrest]; trivial
    | cons uid rest =>
      have hlook : Ready s (next hashPassword s (.bulkRest b)).2 := ready_lookUp hrest hloaded h
      simp only [next, hrest] at hlook ⊢
      exact hlook
  | _ => trivial

def alone (hashPassword : String → String) : Nat → Db × Task → Db × Task
  | 0, p => p
  | n + 1, p => alone hashPassword n (next hashPassword p.1 p.2)

def serve (hashPassword : String → String) (s : Db) (r : Request × Nat) : Db :=
  (alone hashPassword r.2 (s, start s r.1)).1

theorem alone_keeps (n : Nat) {p : Db × Task}
    (hs : (p.1.users.map User.id).Nodup ∧ HasLiveAdmin p.1.users) (hloaded : Loaded p.2)
    (h : Ready p.1 p.2) : ((alone hashPassword n p).1.users.map User.id).Nodup ∧
      HasLiveAdmin (alone hashPassword n p).1.users := by
  induction n generalizing p with
  | zero => exact hs
  | succ n ih =>
    exact ih (current_outline.shared _ _ hs hloaded (current_of_ready h))
      (loaded_next hs.2 hloaded) (ready_next hloaded h)

/-- **Serial requests keep a live admin**: requests that run one after the other, each as far as it
comes, leave a live admin at every moment, unless one takes the role of an admin away by an
update. -/
theorem live_admin_serial (hashPassword : String → String) (s : Db)
    (hids : (s.users.map User.id).Nodup) (hs : HasLiveAdmin s.users)
    (requests : List (Request × Nat)) (h : ∀ r ∈ requests, ¬ r.1.demotes) :
    HasLiveAdmin (requests.foldl (serve hashPassword) s).users := by
  induction requests generalizing s with
  | nil => exact hs
  | cons r requests ih =>
    have hready : Ready s (start s r.1) := ready_start (h r List.mem_cons_self)
    obtain ⟨hids', hs'⟩ :=
      @alone_keeps hashPassword r.2 (s, start s r.1) ⟨hids, hs⟩ (loaded_start s r.1) hready
    exact ih _ hids' hs' fun r' hr' => h r' (List.mem_cons_of_mem r hr')

/-! ### Fixed tables -/

def root : User := { id := "u1", username := "root", passwordHash := "h", role := some "admin" }

def second : User := { id := "u2", username := "second", passwordHash := "h", role := some "admin" }

/-- Of two deletions of the two admins the second is refused when it counts behind the first; an
update of the second one's address amid a bulk delete of the first leaves the second. -/
theorem live_admin_two :
    HasLiveAdmin (run (step start (next id)) ⟨{ users := [root, second] }, fun _ => none⟩
      [.call 0 (.delete "u1" 1 1), .resume 0, .call 1 (.delete "u2" 2 2), .resume 0, .resume 0,
        .resume 1, .resume 1]).shared.users ∧
    HasLiveAdmin (run (step start (next id)) ⟨{ users := [root, second] }, fun _ => none⟩
      [.call 0 (.bulkDelete ["u1"] "ann" 1 1), .resume 0,
        .call 1 (.update "u2" { email := some "s@x" } 2), .resume 1, .resume 1, .resume 0,
        .resume 0]).shared.users := by
  constructor
  · exact (live_admin_iff id { users := [root, second] } (by decide) _).1.mpr (by decide +kernel) _
      [] (List.append_nil _).symm
  · exact (live_admin_iff id { users := [root, second] } (by decide) _).2 (by decide)
      (by decide +kernel) _ [] (List.append_nil _).symm

/-- Of two admins that are asked to be deleted, also at once, the last one stays. -/
theorem live_admin_serial_two :
    HasLiveAdmin ([(Request.delete "u1" 1 1, 3), (.bulkDelete ["u2", "u1"] "ann" 2 2, 4)].foldl
      (serve id) { users := [root, second] }).users :=
  live_admin_serial id { users := [root, second] } (by decide) (by decide) _ fun r hr => by
    simp only [List.mem_cons, List.not_mem_nil, or_false] at hr
    rcases hr with rfl | rfl <;> exact id

/-- The only admin is demoted, and two deletes that counted two admins both commit. -/
theorem last_admin_lost :
    HasLiveAdmin [root] ∧
      ¬ HasLiveAdmin (run (step start (next id)) ⟨{ users := [root] }, fun _ => none⟩
        [.call 0 (.update "u1" { role := some "user" } 1), .resume 0, .resume 0]).shared.users ∧
      HasLiveAdmin [root, second] ∧
      ¬ HasLiveAdmin (run (step start (next id)) ⟨{ users := [root, second] }, fun _ => none⟩
        [.call 0 (.delete "u1" 1 1), .call 1 (.delete "u2" 2 2), .resume 0, .resume 1, .resume 0,
          .resume 1, .resume 0, .resume 1]).shared.users := by
  decide +kernel

end LlmProxy.Users
