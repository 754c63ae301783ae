import LlmProxy.Lib.PyNum
import LlmProxy.Settings.Runtime

/-! # Settings that agree

A setting that has been saved is read back at three places: by `save` itself, which installs it in
the process, by `load` at the next start, and by a peer that takes the row in. They name the type
differently (declared, canonical, transported) but it is one type, so they differ only where the
text does not read as it: then all three raise, and `save` does so after the commit.

> `settings_agree_iff`: a call of `save` leaves the three in agreement exactly when every text it
> stores reads as the type of its key.
-/

namespace LlmProxy.Settings

open LlmProxy.Cluster (EditStamp)

variable {φ : Type} {py : Numerals φ} {now : EditStamp} {table : List SystemSetting}
  {live : Live φ} {key : String} {value : SavedValue} {entry : SettingMeta}

/-- The text of the value reads as the type of the key. -/
def Readable (py : Numerals φ) (key : String) (value : SavedValue) : Prop :=
  ∀ entry, schema key = some entry →
    (entry.type = "int" → (py.int? value.text).isSome = true) ∧
      (entry.type = "float" → (py.float? value.text).isSome = true)

/-- The three readings of a saved key. -/
def KeyAgrees (py : Numerals φ) (now : EditStamp) (stored : List SystemSetting) (saved : Live φ)
    (key : String) : Prop :=
  ∃ row, stored.find? (fun r => r.key == key) = some row ∧
    (∀ started, ∃ loaded, load py [row] started = some loaded ∧ loaded key = saved key) ∧
    ∀ peerTable peer, (∀ r, peerTable.find? (fun r => r.key == key) = some r →
        r.updatedAt.getD 0 < now) →
      ∃ taken after, applySettings py peerTable peer [buildPeerSetting row] = some (taken, after) ∧
        after key = saved key

/-- `save` does not raise, and every key it saves is read alike by the three. -/
def Agrees (py : Numerals φ) (now : EditStamp) (table : List SystemSetting) (live : Live φ)
    (updates : Dict String SavedValue) : Prop :=
  ∃ saved, (save py now table live updates).2 = some saved ∧
    ∀ key value, (key, value) ∈ updates.items → (schema key).isSome = true →
      KeyAgrees py now (save py now table live updates).1 saved key

/-! ## Reading a text -/

theorem coerce_isSome_iff {raw : String} :
    (coerce py raw entry.type).isSome = true ↔
      (entry.type = "int" → (py.int? raw).isSome = true) ∧
        (entry.type = "float" → (py.float? raw).isSome = true) := by
  unfold coerce
  by_cases hbool : entry.type = "bool"
  · simp [hbool]
  · by_cases hint : entry.type = "int"
    · simp [hint]
    · by_cases hfloat : entry.type = "float"
      · simp [hfloat]
      · rw [if_neg hbool, if_neg hint, if_neg hfloat]
        refine ⟨fun _ => ⟨fun h => absurd h hint, fun h => absurd h hfloat⟩, fun _ => ?_⟩
        split <;> rfl

theorem readable_iff (h : schema key = some entry) :
    Readable py key value ↔ ∃ w, coerce py value.text entry.type = some w := by
  rw [← Option.isSome_iff_exists, coerce_isSome_iff]
  constructor
  · intro hread
    exact hread entry h
  · intro hread entry' h'
    rw [h] at h'
    rw [← Option.some.inj h']
    exact hread

theorem mapM_id_eq_some {α : Type} {l : List (Option α)} {out : List α} :
    l.mapM id = some out ↔ l = out.map some := by
  induction l generalizing out with
  | nil => cases out <;> simp
  | cons a l ih =>
    cases a with
    | none => cases out <;> simp
    | some a =>
      cases out with
      | nil => simp [Option.bind_eq_some_iff]
      | cons b out => simpa [Option.bind_eq_some_iff, ih] using and_comm

theorem exists_map_some {α : Type} {l : List (Option α)} (h : ∀ o ∈ l, o.isSome = true) :
    ∃ out : List α, l = out.map some := by
  induction l with
  | nil => exact ⟨[], rfl⟩
  | cons o l ih =>
    obtain ⟨ho, hrest⟩ := List.forall_mem_cons.mp h
    obtain ⟨a, rfl⟩ := Option.isSome_iff_exists.mp ho
    obtain ⟨out, rfl⟩ := ih hrest
    exact ⟨a :: out, rfl⟩

/-! ## One key -/

theorem savedOverride_eq (h : schema key = some entry) {w : SettingValue φ}
    (hw : coerce py value.text entry.type = some w) :
    savedOverride py (key, value) = some (some (key, w)) := by
  unfold savedOverride
  rw [h, Option.map_some, hw]
  rfl

theorem keys_savedOverride {updates : List (String × SavedValue)}
    {coerced : List (String × SettingValue φ)}
    (h : updates.filterMap (savedOverride py) = coerced.map some) :
    (coerced.map Prod.fst).Sublist (updates.map Prod.fst) := by
  induction updates generalizing coerced with
  | nil =>
    rw [List.filterMap_nil, eq_comm, List.map_eq_nil_iff] at h
    rw [h]
    exact List.Sublist.refl _
  | cons update updates ih =>
    cases hone : savedOverride py update with
    | none =>
      rw [List.filterMap_cons_none hone] at h
      exact (ih h).cons _
    | some override =>
      rw [List.filterMap_cons_some hone] at h
      obtain ⟨o, rest, rfl, ho, hrest⟩ := List.map_eq_cons_iff.mp h.symm
      have hkey : o.1 = update.1 := by
        unfold savedOverride at hone
        obtain ⟨entry, -, hentry⟩ := Option.map_eq_some_iff.mp hone
        rw [← ho] at hentry
        obtain ⟨w, -, hw⟩ := Option.map_eq_some_iff.mp hentry
        rw [← hw]
      rw [List.map_cons, List.map_cons, hkey]
      exact (ih hrest.symm).cons_cons _

theorem load_singleton (h : schema key = some entry) {w : SettingValue φ}
    (hw : coerce py value.text entry.type = some w) (started : Live φ) :
    load py [(savedSetting now entry key value).row] started = some (apply [(key, w)] started) := by
  have hrow : loadRow py (savedSetting now entry key value).row = some (some (key, w)) := by
    unfold loadRow
    show (schema key).map _ = _
    rw [h, Option.map_some]
    show some ((coerce py value.text (canonicalType entry)).map _) = _
    rw [canonicalType_declared h, hw]
    rfl
  unfold load
  rw [List.filterMap_cons_some hrow]
  rfl

theorem applySettings_singleton (h : schema key = some entry) {w : SettingValue φ}
    (hw : coerce py value.text entry.type = some w) {peerTable : List SystemSetting}
    (hold : ∀ r, peerTable.find? (fun r => r.key == key) = some r → r.updatedAt.getD 0 < now)
    (peer : Live φ) :
    applySettings py peerTable peer [buildPeerSetting (savedSetting now entry key value).row] =
      some (storeSetting peerTable (savedSetting now entry key value), apply [(key, w)] peer) := by
  have hskip : skipsSetting peerTable (savedSetting now entry key value) = false := by
    unfold skipsSetting
    show ((schema key).isNone || _) = false
    rw [h, Option.isNone_some, Bool.false_or, Option.any_eq_false]
    intro r hr
    exact decide_eq_false (Int.not_le.mpr (hold r hr))
  have hone : applySetting py peerTable (savedSetting now entry key value) =
      some (storeSetting peerTable (savedSetting now entry key value), [(key, w)]) := by
    unfold applySetting
    rw [hskip, if_neg Bool.false_ne_true]
    show (coerce py value.text (canonicalType entry)).map _ = _
    rw [canonicalType_declared h, hw]
    rfl
  show (applySettingRows py peerTable [savedSetting now entry key value]).map _ = _
  unfold applySettingRows
  rw [hone]
  rfl

theorem apply_singleton (h : schema key = some entry) (w : SettingValue φ) (live : Live φ) :
    apply [(key, w)] live key = w :=
  apply_mem (by simp) List.mem_cons_self (hasField_of_schema h)

/-! ## Main theorem -/

theorem keyAgrees_of_readable {updates : Dict String SavedValue} {saved : Live φ}
    (hsaved : (save py now table live updates).2 = some saved) (hmem : (key, value) ∈ updates.items)
    (hentry : schema key = some entry) (hread : Readable py key value) :
    KeyAgrees py now (save py now table live updates).1 saved key := by
  obtain ⟨w, hw⟩ := (readable_iff hentry).mp hread
  obtain ⟨coerced, hall, hlive⟩ := Option.map_eq_some_iff.mp hsaved
  rw [mapM_id_eq_some] at hall
  -- the key is among what `save` installs, once
  have hcoerced : (key, w) ∈ coerced := by
    have hin : some (key, w) ∈ updates.items.filterMap (savedOverride py) :=
      List.mem_filterMap.mpr ⟨_, hmem, savedOverride_eq hentry hw⟩
    rw [hall] at hin
    obtain ⟨o, ho, heq⟩ := List.mem_map.mp hin
    rwa [← Option.some.inj heq]
  have hnodup := updates.nodup.sublist (keys_savedOverride hall)
  have hinstalled : saved key = w := by
    rw [← hlive]
    exact apply_mem hnodup hcoerced (hasField_of_schema hentry)
  refine ⟨_, find?_saveRows updates.nodup hmem hentry, fun started => ?_, fun peerTable peer hold => ?_⟩
  · refine ⟨_, load_singleton hentry hw started, ?_⟩
    rw [apply_singleton hentry w started, hinstalled]
  · refine ⟨_, _, applySettings_singleton hentry hw hold peer, ?_⟩
    rw [apply_singleton hentry w peer, hinstalled]

/-- **Settings agree** on the node, at its next start and on the peers, for all keys of a call,
exactly if every text reads as the type of its key. -/
theorem settings_agree_iff (py : Numerals φ) (now : EditStamp) (table : List SystemSetting)
    (live : Live φ) (updates : Dict String SavedValue) :
    Agrees py now table live updates ↔
      ∀ key value, (key, value) ∈ updates.items → Readable py key value := by
  constructor
  · rintro ⟨saved, hsaved, -⟩ key value hmem entry hentry
    obtain ⟨coerced, hall, -⟩ := Option.map_eq_some_iff.mp hsaved
    rw [mapM_id_eq_some] at hall
    have hin : (coerce py value.text entry.type).map (fun w => (key, w)) ∈
        updates.items.filterMap (savedOverride py) := by
      refine List.mem_filterMap.mpr ⟨_, hmem, ?_⟩
      unfold savedOverride
      rw [hentry]
      rfl
    rw [hall] at hin
    obtain ⟨o, -, ho⟩ := List.mem_map.mp hin
    obtain ⟨w, hw, -⟩ := Option.map_eq_some_iff.mp ho.symm
    exact coerce_isSome_iff.mp (Option.isSome_iff_exists.mpr ⟨w, hw⟩)
  · intro hread
    have hall : ∃ coerced : List (String × SettingValue φ),
        updates.items.filterMap (savedOverride py) = coerced.map some := by
      refine exists_map_some fun o ho => ?_
      obtain ⟨⟨key, value⟩, hmem, hone⟩ := List.mem_filterMap.mp ho
      obtain ⟨entry, hentry, hvalue⟩ := Option.map_eq_some_iff.mp hone
      obtain ⟨w, hw⟩ := (readable_iff hentry).mp (hread key value hmem)
      rw [← hvalue, hw]
      rfl
    obtain ⟨coerced, hall⟩ := hall
    have hsaved : (save py now table live updates).2 = some (apply coerced live) := by
      unfold save
      rw [mapM_id_eq_some.mpr hall]
      rfl
    refine ⟨_, hsaved, fun key value hmem hknown => ?_⟩
    obtain ⟨entry, hentry⟩ := Option.isSome_iff_exists.mp hknown
    exact keyAgrees_of_readable hsaved hmem hentry (hread key value hmem)

/-! ### A port that is cleared -/

def numerals : Numerals PyNum.Float := ⟨PyNum.int?, PyNum.float?⟩

/-- `PUT /api/settings` with `{"smtp_port": null}`. -/
def clearedPort : Dict String SavedValue := Dict.empty.set "smtp_port" .none

/-- **The row nobody can read.** The empty text is committed under the type `int`; then `save`
raises, and so do `load` at the next start and a peer's merge. -/
theorem cleared_port_unreadable :
    save numerals 1 [] (fun _ => .none) clearedPort =
        ([⟨"smtp_port", "", "int", some 1⟩], none) ∧
      load numerals [⟨"smtp_port", "", "int", some 1⟩] (fun _ => .none) = none ∧
      applySettings numerals [] (fun _ => .none)
        [buildPeerSetting ⟨"smtp_port", "", "int", some 1⟩] = none ∧
      ¬ Agrees numerals 1 [] (fun _ => .none) clearedPort := by
  have hraised : save numerals 1 [] (fun _ => .none) clearedPort =
      ([⟨"smtp_port", "", "int", some 1⟩], none) := by rfl
  refine ⟨hraised, rfl, rfl, ?_⟩
  rintro ⟨saved, hsaved, -⟩
  rw [hraised] at hsaved
  cases hsaved

end LlmProxy.Settings
