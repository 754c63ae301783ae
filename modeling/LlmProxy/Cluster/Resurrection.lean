import LlmProxy.Lib.Presence
import LlmProxy.Cluster.Sync

/-! # Deletions that arrive first

A deletion travels as a tombstone so that it outlives the row it deletes. All three account
tables merge a tombstone into a row they hold; none of them stores one for a row they do not
hold. A tombstone that overtakes the row it deletes is therefore dropped, and the live
version that arrives after it is inserted.

The three merges behave alike here, so each is shown to simulate the same abstract receiver
(`Presence.arrive`), and one theorem says for all three when a deletion survives:

> `deleted_row_stays_deleted_iff`: a node that holds neither version, and is delivered both
> in any order and any number of times, ends with the row not live exactly when some
> tombstone is delivered after a live version.
-/

namespace LlmProxy.Cluster

open LlmProxy.Providers Presence

/-- One delivery: which version, and the clock of the flush it causes. -/
structure Delivery where
  clk : FlushClock
  version : Version
  deriving DecidableEq, Repr

def pick {π : Type} (live tombstone : π) : Version → π
  | .live => live
  | .tombstone => tombstone

def heldBy {ρ : Type} (found alive : ρ → Bool) (table : List ρ) : Held :=
  match table.find? found with
  | none => .absent
  | some r => if alive r then .live else .dead

section
variable {ρ : Type} {found alive : ρ → Bool} {keys : List (ρ → Bool)} {f : ρ → ρ} {o : Option ρ}
  {table : List ρ} {v : Version}

/-- The row a delivery inserts: the live version's, none for a tombstone. -/
def Inserts (found alive : ρ → Bool) (o : Option ρ) : Version → Prop
  | .live => ∃ r, o = some r ∧ found r = true ∧ alive r = true
  | .tombstone => o = none

theorem heldBy_of_none (h : table.find? found = none) : heldBy found alive table = .absent := by
  unfold heldBy
  rw [h]

theorem heldBy_of_some {r : ρ} (h : table.find? found = some r) :
    heldBy found alive table = if alive r then .live else .dead := by
  unfold heldBy
  rw [h]

theorem find?_upsert_unknown (hno : ∀ p ∈ found :: keys, ∀ r ∈ table, p r = false) :
    (Table.upsert (found :: keys) f o table).find? found = o.filter found := by
  have hnone : table.find? found = none :=
    List.find?_eq_none.mpr fun r hr => by simp [hno found List.mem_cons_self r hr]
  rw [Table.upsert_of_no_match hno, List.find?_append, hnone, Option.none_or]
  cases o with
  | none => rfl
  | some r => cases hr : found r <;> simp [Option.filter, hr]

theorem heldBy_upsert_unknown (hno : ∀ p ∈ found :: keys, ∀ r ∈ table, p r = false)
    (hins : Inserts found alive o v) :
    heldBy found alive (Table.upsert (found :: keys) f o table) =
      arrive (heldBy found alive table) v := by
  have hnone : table.find? found = none :=
    List.find?_eq_none.mpr fun r hr => by simp [hno found List.mem_cons_self r hr]
  rw [heldBy_of_none hnone]
  have hfind := find?_upsert_unknown (f := f) (o := o) hno
  cases v with
  | live =>
    obtain ⟨r, rfl, hr, ha⟩ := hins
    rw [heldBy_of_some (r := r) (by rw [hfind]; simp [hr]), if_pos ha]
    rfl
  | tombstone =>
    rw [show o = none from hins] at hfind ⊢
    rw [heldBy_of_none hfind]
    rfl

theorem heldBy_upsert_found {r : ρ} (hfound : ∀ r, found (f r) = found r)
    (h : table.find? found = some r) (ha : alive (f r) = (alive r && v == .live)) :
    heldBy found alive (Table.upsert (found :: keys) f o table) =
      arrive (heldBy found alive table) v := by
  rw [heldBy_of_some h, heldBy_of_some (Table.find?_upsert_of_find? hfound h), ha]
  cases alive r <;> cases v <;> rfl

end

/-! ## Users -/

/-- A live version of a user and a tombstone with a later edit stamp. -/
structure UserVersions (l t : PeerUser) : Prop where
  sameId : t.id = l.id
  live : l.deletedAt = none
  dead : t.deletedAt.isSome = true
  later : l.edit < t.edit

def deliverUser (l t : PeerUser) (node : SyncNode) (d : Delivery) : SyncNode :=
  applySync d.clk node { users := [pick l t d.version] }

def heldUser (l : PeerUser) (node : SyncNode) : Held :=
  heldBy (fun r => r.id == l.id) User.live node.users

/-- Either no row answers to either version's names, or the row's edit stamp is that of the
version it reflects. -/
def UserInv (l t : PeerUser) (node : SyncNode) : Prop :=
  (∀ r ∈ node.users, r.id ≠ l.id ∧ r.username ≠ l.username ∧ r.username ≠ t.username) ∨
  ∃ r, node.users.find? (fun r => r.id == l.id) = some r ∧
    r.lastUserEditAt.getD 0 = if r.live then l.edit else t.edit

theorem mergeUser_versions {l t : PeerUser} (hv : UserVersions l t) {r : User}
    (hr : r.lastUserEditAt.getD 0 = if r.live then l.edit else t.edit) (v : Version) :
    (mergeUser (pick l t v) r).live = (r.live && v == .live) ∧
      (mergeUser (pick l t v) r).lastUserEditAt.getD 0 =
        if (mergeUser (pick l t v) r).live then l.edit else t.edit := by
  have hlater := hv.later
  cases hlive : r.live with
  | true =>
    rw [hlive, if_pos rfl] at hr
    cases v with
    | live =>
      have hm : mergeUser l r = r := by
        unfold mergeUser
        rw [hr, if_neg (Int.lt_irrefl _)]
      simp [pick, hm, hlive, hr]
    | tombstone =>
      obtain ⟨d, hd⟩ := Option.isSome_iff_exists.mp hv.dead
      have hm : mergeUser t r = { r with deletedAt := some d, lastUserEditAt := some t.edit } := by
        unfold mergeUser
        rw [hr, if_pos hlater, hd]
      simp [pick, hm, User.live]
  | false =>
    rw [hlive, if_neg Bool.false_ne_true] at hr
    have hm : mergeUser (pick l t v) r = r := by
      unfold mergeUser
      rw [hr, if_neg]
      cases v with
      | live => exact Int.not_lt.mpr (Int.le_of_lt hlater)
      | tombstone => exact Int.lt_irrefl _
    simp [hm, hlive, hr]

theorem deliverUser_step {l t : PeerUser} (hv : UserVersions l t) (node : SyncNode)
    (d : Delivery) (h : UserInv l t node) :
    UserInv l t (deliverUser l t node d) ∧
      heldUser l (deliverUser l t node d) = arrive (heldUser l node) d.version := by
  have hid : ∀ v, (pick l t v).id = l.id := fun v => by cases v <;> simp [pick, hv.sameId]
  have husers : (deliverUser l t node d).users =
      Table.upsert [fun r => r.id == l.id, fun r => r.username == (pick l t d.version).username]
        (mergeUser (pick l t d.version)) (insertUser (pick l t d.version)) node.users := by
    rw [← hid d.version]
    rfl
  have hins : Inserts (fun r => r.id == l.id) User.live (insertUser (pick l t d.version))
      d.version := by
    cases d.version with
    | live =>
      obtain ⟨r, hr, hrid, hrlive, -⟩ := insertUser_live hv.live
      exact ⟨r, hr, by simp [hrid], hrlive⟩
    | tombstone => exact insertUser_dead hv.dead
  unfold UserInv heldUser
  rw [husers]
  rcases h with hno | ⟨r, hfind, hedit⟩
  · -- nobody answers: a live version is inserted, a tombstone leaves no trace
    have hkeys : ∀ p ∈ [fun r : User => r.id == l.id,
        fun r => r.username == (pick l t d.version).username], ∀ r ∈ node.users, p r = false := by
      intro p hp r hr
      obtain ⟨h1, h2, h3⟩ := hno r hr
      rcases List.mem_cons.mp hp with rfl | hp
      · simp [h1]
      · rw [List.mem_singleton.mp hp]
        cases d.version <;> simp [pick, h2, h3]
    refine ⟨?_, heldBy_upsert_unknown hkeys hins⟩
    cases hver : d.version with
    | live =>
      obtain ⟨r, hr, hrid, hrlive, hredit⟩ := insertUser_live hv.live
      refine Or.inr ⟨r, ?_, by rw [hrlive]; exact hredit⟩
      rw [hver] at hkeys
      rw [find?_upsert_unknown hkeys, show insertUser (pick l t .live) = some r from hr]
      simp [hrid]
    | tombstone =>
      left
      rw [hver] at hins hkeys
      rw [show insertUser (pick l t .tombstone) = none from hins, Table.upsert_of_no_match hkeys]
      simpa using hno
  · -- the row is found by its id and merged
    obtain ⟨hlive, hedit'⟩ := mergeUser_versions hv hedit d.version
    refine ⟨Or.inr ⟨_, Table.find?_upsert_of_find? (by simp) hfind, hedit'⟩, ?_⟩
    exact heldBy_upsert_found (by simp) hfind hlive

/-! ## API keys -/

/-- A live version of a key and a tombstone of it. Their stamps do not matter: a local
tombstone outranks every live row. -/
structure KeyVersions (l t : PeerApiKey) : Prop where
  sameHash : t.keyHash = l.keyHash
  live : l.deletedAt = none
  dead : t.deletedAt.isSome = true

def deliverKey (l t : PeerApiKey) (node : SyncNode) (d : Delivery) : SyncNode :=
  applySync d.clk node { apiKeys := [pick l t d.version] }

def heldKey (l : PeerApiKey) (node : SyncNode) : Held :=
  heldBy (fun r => r.keyHash == l.keyHash) ApiKey.live node.apiKeys

theorem deliverKey_step {l t : PeerApiKey} (hv : KeyVersions l t) (node : SyncNode)
    (d : Delivery) : heldKey l (deliverKey l t node d) = arrive (heldKey l node) d.version := by
  have hhash : ∀ v, (pick l t v).keyHash = l.keyHash :=
    fun v => by cases v <;> simp [pick, hv.sameHash]
  have hdead : ∀ v, (pick l t v).deletedAt.isNone = (v == .live) := by
    intro v
    obtain ⟨x, hx⟩ := Option.isSome_iff_exists.mp hv.dead
    cases v <;> simp [pick, hv.live, hx]
  have hkeys : (deliverKey l t node d).apiKeys = Table.upsert [fun r => r.keyHash == l.keyHash]
      (fun e => (mergeApiKey (pick l t d.version) e).1) (insertApiKey (pick l t d.version))
      node.apiKeys := by
    rw [← hhash d.version]
    rfl
  unfold heldKey
  rw [hkeys]
  cases hfind : node.apiKeys.find? (fun r => r.keyHash == l.keyHash) with
  | none =>
    refine heldBy_upsert_unknown ?_ ?_
    · intro p hp r hr
      rw [List.mem_singleton.mp hp]
      simpa using List.find?_eq_none.mp hfind r hr
    · cases d.version with
      | live =>
        obtain ⟨r, hr, hrhash, hrlive⟩ := insertApiKey_live hv.live
        exact ⟨r, hr, by simp [hrhash], hrlive⟩
      | tombstone => exact insertApiKey_dead hv.dead
  | some r =>
    refine heldBy_upsert_found (by simp) hfind ?_
    cases hr : r.live with
    | true => rw [mergeApiKey_live hr, hdead]; rfl
    | false => rw [mergeApiKey_dead hr]; rfl

/-! ## Providers -/

/-- A live version of a provider and a tombstone of it. Here too the stamps do not matter:
no merge clears `deleted_at`. -/
structure ProviderVersions (l t : PeerProvider) : Prop where
  sameId : t.id = l.id
  live : l.deletedAt = none
  dead : t.deletedAt.isSome = true

def deliverProvider (l t : PeerProvider) (node : SyncNode) (d : Delivery) : SyncNode :=
  applySync d.clk node { providers := [pick l t d.version] }

def heldProvider (l : PeerProvider) (node : SyncNode) : Held :=
  heldBy (fun p => p.id == l.id) (fun p => p.deletedAt.isNone) node.providers

/-- Either no row answers to either version's names, or the row is found by its id. -/
def ProviderInv (l t : PeerProvider) (node : SyncNode) : Prop :=
  (∀ p ∈ node.providers, p.id ≠ l.id ∧ p.name ≠ l.name ∧ p.name ≠ t.name) ∨
  ∃ p, node.providers.find? (fun p => p.id == l.id) = some p

theorem mergeProvider_versions {l t : PeerProvider} (hv : ProviderVersions l t)
    (clk : FlushClock) (p : Provider) (v : Version) :
    (mergeProvider clk (pick l t v) p).deletedAt.isNone =
      (p.deletedAt.isNone && v == .live) := by
  cases hp : p.deletedAt with
  | some x =>
    rw [mergeProvider_deleted (by rw [Provider.deleted, hp]; rfl), hp]
    rfl
  | none =>
    rw [mergeProvider_not_deleted (by rw [Provider.deleted, hp]; rfl)]
    obtain ⟨x, hx⟩ := Option.isSome_iff_exists.mp hv.dead
    cases v <;> simp [pick, hv.live, hx]

theorem deliverProvider_step {l t : PeerProvider} (hv : ProviderVersions l t) (node : SyncNode)
    (d : Delivery) (h : ProviderInv l t node) :
    ProviderInv l t (deliverProvider l t node d) ∧
      heldProvider l (deliverProvider l t node d) = arrive (heldProvider l node) d.version := by
  have hid : ∀ v, (pick l t v).id = l.id := fun v => by cases v <;> simp [pick, hv.sameId]
  have hrows : (deliverProvider l t node d).providers =
      Table.upsert [fun p => p.id == l.id, fun p => p.name == (pick l t d.version).name]
        (mergeProvider d.clk (pick l t d.version)) (insertProvider d.clk (pick l t d.version))
        node.providers := by
    rw [← hid d.version]
    rfl
  unfold ProviderInv heldProvider
  rw [hrows]
  rcases h with hno | ⟨p, hfind⟩
  · have hkeys : ∀ q ∈ [fun p : Provider => p.id == l.id,
        fun p => p.name == (pick l t d.version).name], ∀ p ∈ node.providers, q p = false := by
      intro q hq p hp
      obtain ⟨h1, h2, h3⟩ := hno p hp
      rcases List.mem_cons.mp hq with rfl | hq
      · simp [h1]
      · rw [List.mem_singleton.mp hq]
        cases d.version <;> simp [pick, h2, h3]
    cases hver : d.version with
    | live =>
      rw [hver] at hkeys
      obtain ⟨p, hp, hpid, hpnot⟩ := insertProvider_live d.clk hv.live
      refine ⟨Or.inr ⟨p, ?_⟩,
        heldBy_upsert_unknown hkeys ⟨p, hp, by simp [hpid], by simp [hpnot]⟩⟩
      rw [find?_upsert_unknown hkeys, show insertProvider d.clk (pick l t .live) = some p from hp]
      simp [hpid]
    | tombstone =>
      rw [hver] at hkeys
      have hins : insertProvider d.clk (pick l t .tombstone) = none := insertProvider_dead d.clk hv.dead
      refine ⟨Or.inl ?_, heldBy_upsert_unknown hkeys hins⟩
      rw [hins, Table.upsert_of_no_match hkeys]
      simpa using hno
  · refine ⟨Or.inr ⟨_, Table.find?_upsert_of_find? (by simp) hfind⟩, ?_⟩
    exact heldBy_upsert_found (by simp) hfind (mergeProvider_versions hv d.clk p d.version)

/-! ## Main theorem -/

/-- The versions a list of deliveries brings, in order. -/
def versions (ds : List Delivery) : List Version := ds.map Delivery.version

/-- **No resurrection**, for users, keys and providers alike. A node on which nothing answers
to the row's names is delivered both versions, in any order and with any repetition: it ends
with the row not live exactly when some tombstone came after a live version. -/
theorem deleted_row_stays_deleted_iff (node : SyncNode) (ds : List Delivery)
    (hlive : .live ∈ versions ds) :
    (∀ l t : PeerUser, UserVersions l t →
      (∀ r ∈ node.users, r.id ≠ l.id ∧ r.username ≠ l.username ∧ r.username ≠ t.username) →
      (heldUser l (ds.foldl (deliverUser l t) node) ≠ .live ↔ TombstoneAfterLive (versions ds))) ∧
    (∀ l t : PeerApiKey, KeyVersions l t → (∀ r ∈ node.apiKeys, r.keyHash ≠ l.keyHash) →
      (heldKey l (ds.foldl (deliverKey l t) node) ≠ .live ↔ TombstoneAfterLive (versions ds))) ∧
    (∀ l t : PeerProvider, ProviderVersions l t →
      (∀ p ∈ node.providers, p.id ≠ l.id ∧ p.name ≠ l.name ∧ p.name ≠ t.name) →
      (heldProvider l (ds.foldl (deliverProvider l t) node) ≠ .live ↔
        TombstoneAfterLive (versions ds))) := by
  refine ⟨fun l t hv hno => ?_, fun l t hv hno => ?_, fun l t hv hno => ?_⟩
  · refine run_ne_live_iff (I := UserInv l t) (fun s d hi => deliverUser_step hv s d hi)
      (Or.inl hno) (heldBy_of_none ?_) hlive
    exact List.find?_eq_none.mpr fun r hr => by simp [(hno r hr).1]
  · refine run_ne_live_iff (I := fun _ => True) (fun s d _ => ⟨trivial, deliverKey_step hv s d⟩)
      trivial (heldBy_of_none ?_) hlive
    exact List.find?_eq_none.mpr fun r hr => by simp [hno r hr]
  · refine run_ne_live_iff (I := ProviderInv l t) (fun s d hi => deliverProvider_step hv s d hi)
      (Or.inl hno) (heldBy_of_none ?_) hlive
    exact List.find?_eq_none.mpr fun p hp => by simp [(hno p hp).1]

/-! ### A deletion that is lost -/

def bobLive : PeerUser :=
  { id := "u1", username := "bob", passwordHash := "x", lastUserEditAt := some 1 }

def bobDeleted : PeerUser :=
  { id := "u1", username := "bob", passwordHash := "x", deletedAt := some 2000000,
    lastUserEditAt := some 2 }

/-- Deliveries of the given versions, all flushed at the same instant. -/
def deliveries (vs : List Version) : List Delivery := vs.map fun v => ⟨⟨0, 0⟩, v⟩

theorem bobVersions : UserVersions bobLive bobDeleted := ⟨rfl, rfl, rfl, by decide⟩

/-- Delivered twice, the second tombstone finds the row and deletes it. -/
theorem deleted_row_stays_deleted_redelivered :
    heldUser bobLive ((deliveries [.tombstone, .live, .tombstone]).foldl
      (deliverUser bobLive bobDeleted) {}) ≠ .live :=
  ((deleted_row_stays_deleted_iff {} (deliveries [.tombstone, .live, .tombstone]) (by decide)).1
    bobLive bobDeleted bobVersions (by rintro r ⟨⟩)).mpr ⟨[.tombstone], [.tombstone], rfl, by decide⟩

/-- **The resurrected user.** The tombstone first, the older live row second: the user is
back. -/
theorem deleted_user_resurrected :
    heldUser bobLive ((deliveries [.live, .tombstone]).foldl
        (deliverUser bobLive bobDeleted) {}) = .dead ∧
      heldUser bobLive ((deliveries [.tombstone, .live]).foldl
        (deliverUser bobLive bobDeleted) {}) = .live := by
  decide

end LlmProxy.Cluster
