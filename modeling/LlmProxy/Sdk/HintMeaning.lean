import Mathlib.Data.List.Forall2
import LlmProxy.Sdk.Agreement

/-! # What the proxy makes of a synthesised hint

`parse_hint` and `score_candidate` on what `build_hint` writes.

> `hint_means_iff`: the hint is read part by part iff no value is surrounded by white space and each
> is a token or a number in its shortest form, or there is one that RFC 8941 does not read; and every
> type of the family meets it iff there is only one type, or the one that is written is `anthropic`.
-/

namespace LlmProxy.Sdk

open LlmProxy.Routing

variable {sfv : String → Option SfvDictionary} {item : String → Option MemberValue}
  {args : HintArgs} {snap : Option Snapshot}

/-! ## The most reliable provider -/

section
variable {P : ProviderEntry → Prop} {best : Best} {p : ProviderEntry}

/-- The best provider so far, if there is one, is one of those. -/
def Best.Among (P : ProviderEntry → Prop) (best : Best) : Prop := ∀ p, best.provider = some p → P p

theorem Best.Among.seeModel (h : best.Among P) (hp : P p) (m : ModelEntry) :
    (best.seeModel p m).Among P := by
  unfold Best.seeModel
  split
  · exact h
  · split
    · intro q hq
      exact Option.some.inj hq ▸ hp
    · exact h

theorem Best.Among.seeModels (h : best.Among P) (hp : P p) (models : List ModelEntry) :
    (models.foldl (Best.seeModel p) best).Among P := by
  induction models generalizing best with
  | nil => exact h
  | cons m models ih => exact ih (h.seeModel hp m)

theorem Best.Among.seeProvider {familyTypes : Option (List String)} (h : best.Among P)
    (hp : (∀ types, familyTypes = some types → PyStr.lower p.type ∈ types) → P p) :
    (best.seeProvider familyTypes p).Among P := by
  unfold Best.seeProvider
  split
  · exact h
  · split
    · exact h
    · next hin =>
      refine h.seeModels (hp fun types htypes => ?_) p.models
      rw [htypes] at hin
      simpa using hin

theorem Best.Among.seeProviders {familyTypes : Option (List String)} {ps : List ProviderEntry}
    (h : best.Among P)
    (hps : ∀ p ∈ ps, (∀ types, familyTypes = some types → PyStr.lower p.type ∈ types) → P p) :
    (ps.foldl (Best.seeProvider familyTypes) best).Among P := by
  induction ps generalizing best with
  | nil => exact h
  | cons p ps ih =>
    obtain ⟨hp, hps⟩ := List.forall_mem_cons.mp hps
    exact ih (h.seeProvider hp) hps

end

theorem mostReliableProvider_among {familyTypes : Option (List String)} {p : ProviderEntry}
    (h : mostReliableProvider snap familyTypes = some p) :
    p ∈ snap.getD [] ∧ ∀ types, familyTypes = some types → PyStr.lower p.type ∈ types := by
  have hnone : Best.Among (fun q => q ∈ snap.getD [] ∧
      ∀ types, familyTypes = some types → PyStr.lower q.type ∈ types) {} := nofun
  exact hnone.seeProviders (fun q hq hin => ⟨hq, hin⟩) p h

theorem given_eq_some {arg : Option String} {v : String} (h : given arg = some v) :
    arg = some v ∧ v ≠ "" := by
  obtain ⟨harg, hv⟩ := Option.filter_eq_some_iff.mp h
  exact ⟨harg, of_decide_eq_true hv⟩

theorem reliableType_eq_some {v : String} (h : reliableType args snap = some v) :
    (∃ p ∈ snap.getD [], p.type = v) ∧ v ≠ "" ∧
      ∀ types, args.familyTypes = some types → PyStr.lower v ∈ types := by
  unfold reliableType at h
  split at h
  · obtain ⟨htype, hne⟩ := given_eq_some h
    obtain ⟨p, hp, rfl⟩ := Option.map_eq_some_iff.mp htype
    obtain ⟨hmem, hfamily⟩ := mostReliableProvider_among hp
    exact ⟨⟨p, hmem, rfl⟩, hne, hfamily⟩
  · cases h

/-! ## Families -/

/-- The types the families have. -/
def families : List (List String) :=
  [["anthropic", "claude-oauth", "anthropic-oauth"], ["openai", "codex-oauth"], ["google", "vertex"],
    ["grok", "grok-web"], ["cohere"]]

theorem mem_families {family : String} {types : List String}
    (h : familyProviderTypes family = some types) : types ∈ families := by
  unfold familyProviderTypes at h
  split at h
  all_goals first
    | (obtain rfl := Option.some.inj h; decide)
    | cases h

theorem HintArgs.mem_families {types : List String} (h : args.familyTypes = some types) :
    types ∈ families := by
  obtain ⟨family, -, hfamily⟩ := Option.bind_eq_some_iff.mp h
  exact Sdk.mem_families hfamily

theorem providerHint_of_family {types : List String} (h : args.familyTypes = some types) :
    providerHint args snap = some ((reliableType args snap).getD (PyStr.join "|" types)) := by
  obtain ⟨family, hgiven, hfamily⟩ := Option.bind_eq_some_iff.mp h
  unfold providerHint
  cases reliableType args snap with
  | some v => rfl
  | none =>
    rw [hgiven]
    exact congrArg (Option.map (PyStr.join "|")) hfamily

/-! ## The parts of a safe hint -/

theorem safe_of_all {v : String} (h : v.toList.all (fun c => c ≠ ',' && c ≠ ';' && c ≠ '=') = true) :
    Safe v := by
  refine ⟨fun hmem => ?_, fun hmem => ?_, fun hmem => ?_⟩
  all_goals exact absurd (List.all_eq_true.mp h _ hmem) (by decide)

theorem families_safe : ∀ types ∈ families, Safe (PyStr.join "|" types) ∧
    PyStr.join "|" types ≠ "" := by
  have hall : families.all (fun types => (PyStr.join "|" types).toList.all
      (fun c => c ≠ ',' && c ≠ ';' && c ≠ '=') && PyStr.join "|" types ≠ "") = true := by
    decide +kernel
  intro types htypes
  have htypes := List.all_eq_true.mp hall types htypes
  rw [Bool.and_eq_true] at htypes
  exact ⟨safe_of_all htypes.1, of_decide_eq_true htypes.2⟩

theorem providerHint_safe (hsafe : args.Safe snap) {v : String}
    (h : providerHint args snap = some v) : Safe v ∧ v ≠ "" := by
  rcases Option.or_eq_some_iff.mp h with hreliable | ⟨-, hfamily⟩
  · obtain ⟨⟨p, hp, rfl⟩, hne, -⟩ := reliableType_eq_some hreliable
    cases snap with
    | none => cases hp
    | some ps => exact ⟨hsafe.types ps rfl p hp, hne⟩
  · obtain ⟨family, -, hfamily⟩ := Option.bind_eq_some_iff.mp hfamily
    obtain ⟨types, htypes, rfl⟩ := Option.map_eq_some_iff.mp hfamily
    exact families_safe types (mem_families htypes)

theorem hintParts_readable (hsafe : args.Safe snap) : ∀ p ∈ hintParts args snap, p.Readable := by
  have harg : ∀ {arg : Option String} {key : String} {required : Bool}, key ∈ hintKeys →
      (∀ v, arg = some v → Safe v) →
      ∀ p ∈ (given arg).toList.map fun v => ({ key, value := v, required } : Part), p.Readable := by
    intro arg key required hkey hvalue p hp
    obtain ⟨v, hv, rfl⟩ := List.mem_map.mp hp
    obtain ⟨hgiven, hne⟩ := given_eq_some (Option.mem_toList.mp hv)
    exact ⟨hkey, hvalue v hgiven, hne⟩
  have hfixed : ∀ {key value : String}, key ∈ hintKeys → value.toList.all
      (fun c => c ≠ ',' && c ≠ ';' && c ≠ '=') = true → value ≠ "" →
      ({ key, value } : Part).Readable := fun hkey hvalue hne => ⟨hkey, safe_of_all hvalue, hne⟩
  intro p hp
  simp only [hintParts, List.mem_append] at hp
  rcases hp with (((((hp | hp) | hp) | hp) | hp) | hp) | hp
  · exact harg (by decide) hsafe.task p hp
  · split at hp
    · rw [List.mem_singleton.mp hp]
      exact hfixed (by decide) (by decide) (by decide)
    · split at hp
      · rw [List.mem_singleton.mp hp]
        exact hfixed (by decide) (by decide) (by decide)
      · cases hp
  · obtain ⟨v, hv, rfl⟩ := List.mem_map.mp hp
    obtain ⟨hv, hne⟩ := providerHint_safe hsafe (Option.mem_toList.mp hv)
    have hkey : "provider-hint" ∈ hintKeys := by decide
    exact ⟨hkey, hv, hne⟩
  · exact harg (by decide) hsafe.region p hp
  · split at hp
    · rw [List.mem_singleton.mp hp]
      exact hfixed (by decide) (by decide) (by decide)
    · cases hp
  · split at hp
    · rw [List.mem_singleton.mp hp]
      exact hfixed (by decide) (by decide) (by decide)
    · cases hp
  · exact harg (by decide) hsafe.cache p hp

/-! ## What is read -/

/-- What `parse_hint` reads of the hint, part by part. -/
def HintParsed (sfv : String → Option SfvDictionary) (args : HintArgs) (snap : Option Snapshot) :
    Prop :=
  (parseHint sfv (some (buildHint args snap))).map
    (fun hint => (hint.map (·.dimensions)).getD []) = .ok ((hintParts args snap).map Part.dimension)

/-- The dictionary the strict parser takes the dimensions from. -/
def readDictionary (sfv : String → Option SfvDictionary) (header : String) : Option SfvDictionary :=
  if header = "" then none else (sfv header).filter fun d => d ≠ [] && !d.any (·.2.isBoolean)

/-- A member of the dictionary that says what the part says. -/
structure Part.ReadAs (p : Part) (m : String × SfvMember) : Prop where
  key : m.1 = p.key
  value : m.2.value.coerce = .ok p.value
  required : m.2.flag "require" = p.required
  sovereign : m.2.flag "sovereign" = false

/-- The strict parser reads the parts; or the legacy parser reads them, and strips nothing. -/
def ReadAlike (sfv : String → Option SfvDictionary) (args : HintArgs) (snap : Option Snapshot) :
    Prop :=
  match readDictionary sfv (buildHint args snap) with
  | some d => List.Forall₂ Part.ReadAs (hintParts args snap) d
  | none => ∀ p ∈ hintParts args snap, PyStr.strip p.value = p.value

theorem mapM_ok_iff {α β : Type} {f : α → Except String β} {xs : List α} {ys : List β} :
    xs.mapM f = .ok ys ↔ List.Forall₂ (fun y x => f x = .ok y) ys xs := by
  induction xs generalizing ys with
  | nil =>
    rw [List.mapM_nil, List.forall₂_nil_right_iff]
    exact ⟨fun h => (Except.ok.inj h).symm, fun h => congrArg Except.ok h.symm⟩
  | cons x xs ih =>
    rw [List.mapM_cons, List.forall₂_cons_right_iff]
    constructor
    · intro h
      cases hx : f x with
      | error e =>
        rw [hx] at h
        exact absurd h nofun
      | ok y =>
        cases hxs : xs.mapM f with
        | error e =>
          rw [hx, hxs] at h
          exact absurd h nofun
        | ok ys' =>
          rw [hx, hxs] at h
          exact ⟨y, ys', rfl, ih.mp hxs, (Except.ok.inj h).symm⟩
    · rintro ⟨y, ys', hx, hxs, rfl⟩
      rw [hx, ih.mpr hxs]
      rfl

theorem parseHint_dimensions (sfv : String → Option SfvDictionary) (header : String)
    (hempty : legacyDimensions "" = []) :
    (parseHint sfv (some header)).map (fun hint => (hint.map (·.dimensions)).getD []) =
      match readDictionary sfv header with
      | some d => d.mapM sfvDimension
      | none => .ok (legacyDimensions header) := by
  have hdims : ∀ dims, ((hintOf header dims).map (·.dimensions)).getD [] = dims := by
    intro dims
    unfold hintOf
    split
    · next hnil => exact hnil.symm
    · rfl
  unfold readDictionary parseHint
  by_cases hheader : header = ""
  · rw [if_pos hheader]
    simp only [hheader, hempty]
    rfl
  · simp only [if_neg hheader]
    unfold parseHintRfc8941
    cases hsfv : sfv header with
    | none => exact congrArg Except.ok (hdims _)
    | some d =>
      cases hbool : d.any (·.2.isBoolean) with
      | true =>
        simp only [Option.filter, hbool, Bool.not_true, Bool.and_false, if_true]
        exact congrArg Except.ok (hdims _)
      | false =>
        simp only [Option.filter, hbool, Bool.not_false, Bool.and_true, Bool.false_eq_true, if_false]
        cases d with
        | nil => exact congrArg Except.ok (hdims _)
        | cons m d =>
          rw [if_pos (decide_eq_true (List.cons_ne_nil m d))]
          cases hread : (m :: d).mapM sfvDimension with
          | error e => exact hread.symm
          | ok dims =>
            have hone : hintOf header dims = some { raw := header, dimensions := dims } := by
              refine if_neg fun hnil => ?_
              rw [hnil] at hread
              exact absurd (mapM_ok_iff.mp hread) nofun
            simp only [Except.map, hone]
            exact hread.symm

theorem sfvDimension_eq_iff {p : Part} {m : String × SfvMember} :
    sfvDimension m = .ok p.dimension ↔ p.ReadAs m := by
  unfold sfvDimension
  cases hvalue : m.2.value.coerce with
  | error e =>
    refine ⟨nofun, fun h => ?_⟩
    have herror := h.value
    rw [hvalue] at herror
    exact absurd herror nofun
  | ok value =>
    constructor
    · intro h
      have heq := Except.ok.inj h
      have hsovereign : m.2.flag "sovereign" = false := congrArg HintDimension.sovereign heq
      have hrequired : (m.2.flag "require" || m.2.flag "sovereign") = p.required :=
        congrArg HintDimension.required heq
      rw [hsovereign, Bool.or_false] at hrequired
      exact ⟨congrArg HintDimension.key heq,
        hvalue.trans (congrArg Except.ok (congrArg HintDimension.value heq)), hrequired, hsovereign⟩
    · rintro ⟨hkey, hread, hrequired, hsovereign⟩
      obtain rfl := Except.ok.inj (hvalue.symm.trans hread)
      refine congrArg Except.ok ?_
      simp only [hkey, hrequired, hsovereign, Bool.or_false]
      rfl

theorem hintParsed_iff (hsafe : args.Safe snap) :
    HintParsed sfv args snap ↔ ReadAlike sfv args snap := by
  have hreadable := hintParts_readable hsafe
  have hempty : legacyDimensions "" = [] := by decide
  unfold HintParsed ReadAlike
  rw [parseHint_dimensions sfv _ hempty]
  split
  · rw [mapM_ok_iff, List.forall₂_map_left_iff]
    simp only [sfvDimension_eq_iff]
  · unfold buildHint
    rw [legacyDimensions_formatHint hreadable, Except.ok.injEq, List.map_inj_left]
    refine forall₂_congr fun p _ => ?_
    exact ⟨congrArg HintDimension.value, fun h => by rw [Part.stripped, h]; rfl⟩

/-! ## The values -/

/-- The values the caller and the snapshot give. The others are fixed words, and families. -/
def HintArgs.values (args : HintArgs) (snap : Option Snapshot) : List String :=
  (given args.task).toList ++ (reliableType args snap).toList ++ (given args.region).toList ++
    (given args.cache).toList

theorem families_tokens : ∀ types ∈ families, isToken (PyStr.join "|" types) = true := by
  decide +kernel

theorem value_of_part {p : Part} (hp : p ∈ hintParts args snap) :
    isToken p.value = true ∨ p.value ∈ args.values snap := by
  have harg : ∀ {arg : Option String} {key : String} {required : Bool},
      p ∈ (given arg).toList.map (fun v => ({ key, value := v, required } : Part)) →
      p.value ∈ (given arg).toList := by
    intro arg key required hp
    obtain ⟨v, hv, rfl⟩ := List.mem_map.mp hp
    exact hv
  simp only [HintArgs.values, List.mem_append]
  simp only [hintParts, List.mem_append] at hp
  rcases hp with (((((hp | hp) | hp) | hp) | hp) | hp) | hp
  · exact Or.inr (Or.inl (Or.inl (Or.inl (harg hp))))
  · refine Or.inl ?_
    split at hp
    · rw [List.mem_singleton.mp hp]
      decide
    · split at hp
      · rw [List.mem_singleton.mp hp]
        decide
      · cases hp
  · obtain ⟨v, hv, rfl⟩ := List.mem_map.mp hp
    rcases Option.or_eq_some_iff.mp (Option.mem_toList.mp hv) with hreliable | ⟨-, hfamily⟩
    · exact Or.inr (Or.inl (Or.inl (Or.inr (Option.mem_toList.mpr hreliable))))
    · obtain ⟨family, -, hfamily⟩ := Option.bind_eq_some_iff.mp hfamily
      obtain ⟨types, htypes, rfl⟩ := Option.map_eq_some_iff.mp hfamily
      exact Or.inl (families_tokens types (mem_families htypes))
  · exact Or.inr (Or.inl (Or.inr (harg hp)))
  · refine Or.inl ?_
    split at hp
    · rw [List.mem_singleton.mp hp]
      decide
    · cases hp
  · refine Or.inl ?_
    split at hp
    · rw [List.mem_singleton.mp hp]
      decide
    · cases hp
  · exact Or.inr (Or.inr (harg hp))

theorem part_of_value {v : String} (hv : v ∈ args.values snap) :
    ∃ p ∈ hintParts args snap, p.value = v := by
  simp only [HintArgs.values, List.mem_append] at hv
  simp only [hintParts, List.mem_append]
  rcases hv with ((hv | hv) | hv) | hv
  · exact ⟨_, Or.inl (Or.inl (Or.inl (Or.inl (Or.inl (Or.inl (List.mem_map_of_mem hv)))))), rfl⟩
  · have hhint : providerHint args snap = some v :=
      Option.or_eq_some_iff.mpr (Or.inl (Option.mem_toList.mp hv))
    rw [hhint]
    exact ⟨_, Or.inl (Or.inl (Or.inl (Or.inl (Or.inr (List.mem_singleton_self _))))), rfl⟩
  · exact ⟨_, Or.inl (Or.inl (Or.inl (Or.inr (List.mem_map_of_mem hv)))), rfl⟩
  · exact ⟨_, Or.inr (List.mem_map_of_mem hv), rfl⟩

theorem hintParts_keys : ((hintParts args snap).map Part.key).Nodup := by
  have harg : ∀ {arg : Option String} {key : String} {required : Bool},
      ((arg.toList.map fun v => ({ key, value := v, required } : Part)).map Part.key).Sublist
        [key] := by
    intro arg key required
    cases arg with
    | none => exact List.nil_sublist _
    | some v => exact List.Sublist.refl _
  have hflag : ∀ {c : Bool} {p : Part},
      ((if c = true then [p] else []).map Part.key).Sublist [p.key] := by
    intro c p
    split
    · exact List.Sublist.refl _
    · exact List.nil_sublist _
  have hprefer : ((if args.prefer = some "cheapest" then
      [({ key := "cost", value := "economy" } : Part)]
      else if args.prefer = some "fastest" then [{ key := "latency", value := "interactive" }]
      else []).map Part.key).Sublist ["cost", "latency"] := by
    split
    · decide
    · split
      · decide
      · exact List.nil_sublist _
  have hsub : ((hintParts args snap).map Part.key).Sublist hintKeys := by
    unfold hintParts
    simp only [List.map_append]
    exact (((((harg.append hprefer).append harg).append harg).append hflag).append hflag).append harg
  exact hsub.nodup (by decide)

/-- No value has white space around it, and http_sfv reads every value as it is written, or there is
one that it does not read. -/
def ValuesSay (item : String → Option MemberValue) (args : HintArgs) (snap : Option Snapshot) :
    Prop :=
  (∀ v ∈ args.values snap, PyStr.strip v = v) ∧
    ((∀ v ∈ args.values snap, AsWritten item v) ∨ ∃ v ∈ args.values snap, Unread item v)

theorem readAs_iff (hitems : Rfc8941Items item) {p : Part} {m : String × SfvMember}
    (hp : p.Readable) (h : p.MemberOf item m) :
    p.ReadAs m ↔ PyStr.strip p.value = p.value ∧ AsWritten item p.value := by
  have hrequired : m.2.flag "require" = p.required := by
    unfold SfvMember.flag
    rw [h.params]
    cases p.required <;> rfl
  have hsovereign : m.2.flag "sovereign" = false := by
    unfold SfvMember.flag
    rw [h.params]
    cases p.required <;> rfl
  rw [← coerce_iff hitems hp.value h.value]
  exact ⟨fun hread => hread.value, fun hvalue => ⟨h.key, hvalue, hrequired, hsovereign⟩⟩

theorem forall₂_iff_of {α β : Type} {R S : α → β → Prop} {P : α → Prop} {xs : List α} {ys : List β}
    (h : List.Forall₂ R xs ys) (hone : ∀ x ∈ xs, ∀ y, R x y → (S x y ↔ P x)) :
    List.Forall₂ S xs ys ↔ ∀ x ∈ xs, P x := by
  induction h with
  | nil => exact iff_of_true .nil (List.forall_mem_nil _)
  | cons hhead _ ih =>
    obtain ⟨hx, hxs⟩ := List.forall_mem_cons.mp hone
    rw [List.forall₂_cons, List.forall_mem_cons, hx _ hhead, ih hxs]

theorem exists_of_forall₂ {α β : Type} {R : α → β → Prop} {xs : List α} {ys : List β}
    (h : List.Forall₂ R xs ys) : (∀ x ∈ xs, ∃ y ∈ ys, R x y) ∧ ∀ y ∈ ys, ∃ x ∈ xs, R x y := by
  induction h with
  | nil => exact ⟨List.forall_mem_nil _, List.forall_mem_nil _⟩
  | cons hhead _ ih =>
    refine ⟨List.forall_mem_cons.mpr ⟨⟨_, List.mem_cons_self, hhead⟩, fun x hx => ?_⟩,
      List.forall_mem_cons.mpr ⟨⟨_, List.mem_cons_self, hhead⟩, fun y hy => ?_⟩⟩
    · obtain ⟨y, hy, hxy⟩ := ih.1 x hx
      exact ⟨y, List.mem_cons_of_mem _ hy, hxy⟩
    · obtain ⟨x, hx, hxy⟩ := ih.2 y hy
      exact ⟨x, List.mem_cons_of_mem _ hx, hxy⟩

theorem unread_of_boolean (hitems : Rfc8941Items item) {p : Part} {m : String × SfvMember}
    (hp : p ∈ hintParts args snap) (hstrip : PyStr.strip p.value = p.value) (h : p.MemberOf item m)
    (hbool : m.2.isBoolean = true) : ∃ v ∈ args.values snap, Unread item v := by
  have hread := h.value
  rw [hstrip] at hread
  unfold SfvMember.isBoolean at hbool
  split at hbool
  · next b hvalue =>
    rw [hvalue] at hread
    rcases value_of_part hp with htoken | hmem
    · rw [hitems.token _ htoken] at hread
      cases hread
    · exact ⟨p.value, hmem, Or.inr ⟨b, hread⟩⟩
  · cases hbool

theorem formatHint_ne_empty {parts : List Part} (h : ∀ p ∈ parts, p.Readable) (hne : parts ≠ []) :
    formatHint parts ≠ "" := by
  intro hempty
  have hparts := legacyDimensions_formatHint h
  have hnone : legacyDimensions "" = [] := by decide
  rw [hempty, hnone] at hparts
  exact hne (List.map_eq_nil_iff.mp hparts.symm)

/-- **The hint is read alike** iff the values say so. -/
theorem readAlike_iff (hsfv : Rfc8941Parts sfv item) (hsafe : args.Safe snap) :
    ReadAlike sfv args snap ↔ ValuesSay item args snap := by
  have hreadable := hintParts_readable hsafe
  have hkeys : ((hintParts args snap).map Part.key).Nodup := hintParts_keys
  have hstable : (∀ p ∈ hintParts args snap, PyStr.strip p.value = p.value) ↔
      ∀ v ∈ args.values snap, PyStr.strip v = v := by
    constructor
    · intro h v hv
      obtain ⟨p, hp, rfl⟩ := part_of_value hv
      exact h p hp
    · intro h p hp
      exact (value_of_part hp).elim strip_token (h p.value)
  unfold ReadAlike
  cases hdict : readDictionary sfv (buildHint args snap) with
  | some d =>
    unfold readDictionary at hdict
    split at hdict
    · cases hdict
    obtain ⟨hd, htest⟩ := Option.filter_eq_some_iff.mp hdict
    have hmembers := hsfv.members hreadable hkeys hd
    have hone : ∀ p ∈ hintParts args snap, ∀ m, p.MemberOf item m →
        (p.ReadAs m ↔ PyStr.strip p.value = p.value ∧ AsWritten item p.value) :=
      fun p hp _ hm => readAs_iff hsfv.items (hreadable p hp) hm
    dsimp only
    rw [forall₂_iff_of hmembers hone]
    constructor
    · intro h
      refine ⟨hstable.mp fun p hp => (h p hp).1, Or.inl fun v hv => ?_⟩
      obtain ⟨p, hp, rfl⟩ := part_of_value hv
      exact (h p hp).2
    · rintro ⟨hstrip, hwritten | ⟨v, hv, hunread⟩⟩ p hp
      · refine ⟨hstable.mpr hstrip p hp, ?_⟩
        exact (value_of_part hp).elim Or.inl (hwritten p.value)
      · -- a value that is not read as a member is none of the dictionary's
        obtain ⟨q, hq, rfl⟩ := part_of_value hv
        obtain ⟨m, hm, hqm⟩ := (exists_of_forall₂ hmembers).1 q hq
        have hread := hqm.value
        rw [hstrip q.value hv] at hread
        rcases hunread with hnone | ⟨b, hb⟩
        · rw [hnone] at hread
          cases hread
        · have hvalue : m.2.value = .item (.boolean b) := (Option.some.inj (hb.symm.trans hread)).symm
          have hbool : m.2.isBoolean = true := by
            unfold SfvMember.isBoolean
            rw [hvalue]
          simp only [Bool.and_eq_true, Bool.not_eq_true', List.any_eq_false] at htest
          exact absurd hbool (htest.2 m hm)
  | none =>
    dsimp only
    rw [hstable]
    refine ⟨fun hstrip => ⟨hstrip, ?_⟩, And.left⟩
    by_contra hneither
    obtain ⟨hwritten, hunread⟩ := not_or.mp hneither
    push Not at hwritten
    obtain ⟨v, hv, -⟩ := hwritten
    obtain ⟨q, hq, -⟩ := part_of_value hv
    have hread : ∀ p ∈ hintParts args snap, (item p.value).isSome := by
      intro p hp
      rcases value_of_part hp with htoken | hmem
      · rw [hsfv.items.token _ htoken]
        rfl
      · exact Option.isSome_iff_ne_none.mpr fun hnone => hunread ⟨p.value, hmem, Or.inl hnone⟩
    obtain ⟨d, hd⟩ := Option.isSome_iff_exists.mp (hsfv.complete hreadable hkeys hread)
    have hmembers := hsfv.members hreadable hkeys hd
    obtain ⟨m, hm, -⟩ := (exists_of_forall₂ hmembers).1 q hq
    have hne : buildHint args snap ≠ "" :=
      formatHint_ne_empty hreadable (List.ne_nil_of_mem hq)
    unfold readDictionary at hdict
    rw [if_neg hne] at hdict
    have htest := Option.filter_eq_none_iff.mp hdict d hd
    simp only [Bool.and_eq_true, Bool.not_eq_true', List.any_eq_false, not_and] at htest
    refine htest (decide_eq_true (List.ne_nil_of_mem hm)) fun n hn hbool => hunread ?_
    obtain ⟨p, hp, hpn⟩ := (exists_of_forall₂ hmembers).2 n hn
    exact unread_of_boolean hsfv.items hp (hstable.mpr hstrip p hp) hpn hbool

/-! ## What is met -/

/-- Every provider of a known family meets the `provider-hint` that is written for it. -/
def FamilyMet (args : HintArgs) (snap : Option Snapshot) : Prop :=
  ∀ types, args.familyTypes = some types → ∃ v, providerHint args snap = some v ∧
    ∀ profile : CapabilityProfile, profile.providerType ∈ types →
      scoreDim profile { key := "provider-hint", value := v } = .met (weight "provider-hint")

/-- A family of one type; or the type that is written is the one that stands for the family. -/
def OneTypeSays (args : HintArgs) (snap : Option Snapshot) : Prop :=
  ∀ types, args.familyTypes = some types → types.length = 1 ∨
    (reliableType args snap).map PyStr.lower = some "anthropic"

/-- A token covers a type, whatever the provider's name. -/
def covers (token type : String) : Bool :=
  token = type || (providerFamilyTypes token).contains type

theorem met_iff_covers {v : String} {types : List String} (hlist : listValue v = [v])
    (hstrip : PyStr.strip v = v) (hne : PyStr.lower v ≠ "")
    (htypes : ∀ type ∈ types, PyStr.lower type = type) :
    (∀ profile : CapabilityProfile, profile.providerType ∈ types →
      scoreDim profile { key := "provider-hint", value := v } = .met (weight "provider-hint")) ↔
    ∀ type ∈ types, covers (PyStr.lower v) type = true := by
  have hscore : ∀ profile : CapabilityProfile,
      scoreDim profile { key := "provider-hint", value := v } = .met (weight "provider-hint") ↔
        providerHintMatch v profile.providerName profile.providerType = true := by
    intro profile
    have hdim : scoreDim profile { key := "provider-hint", value := v } =
        judge { key := "provider-hint", value := v }
          ((listValue v).any fun w =>
            providerHintMatch w profile.providerName profile.providerType)
          (weight "provider-hint") := rfl
    rw [hdim, hlist, List.any_cons, List.any_nil, Bool.or_false]
    unfold judge
    split
    · next hmatch => exact iff_of_true rfl hmatch
    · next hmatch => exact iff_of_false nofun hmatch
  simp only [hscore]
  constructor
  · intro h type htype
    have hmatch := h { providerId := "", providerType := type, modelId := "" } htype
    unfold providerHintMatch at hmatch
    have hname : PyStr.lower "" = "" := rfl
    simp only [hstrip, htypes type htype, hname, hne, decide_false, Bool.false_or,
      Bool.and_eq_true] at hmatch
    exact hmatch.2
  · intro h profile hprofile
    have hcovers := h _ hprofile
    unfold covers at hcovers
    unfold providerHintMatch
    simp only [hstrip, htypes _ hprofile, Bool.or_assoc, hcovers, Bool.or_true, Bool.and_true]
    exact decide_eq_true hne

theorem families_plain : ∀ types ∈ families, ∀ type ∈ types, PyStr.lower type = type ∧ type ≠ "" ∧
    ∀ c ∈ type.toList, PyStr.isSpace c = false ∧ c ≠ ',' := by
  have hall : families.all (fun types => types.all fun type => PyStr.lower type = type && type ≠ "" &&
      type.toList.all fun c => !PyStr.isSpace c && c ≠ ',') = true := by decide +kernel
  intro types htypes type htype
  have htype := List.all_eq_true.mp (List.all_eq_true.mp hall types htypes) type htype
  simp only [Bool.and_eq_true, decide_eq_true_eq] at htype
  refine ⟨htype.1.1, htype.1.2, fun c hc => ?_⟩
  simpa using List.all_eq_true.mp htype.2 c hc

theorem token_of_plain {v : String} (hne : v ≠ "")
    (h : ∀ c ∈ v.toList, PyStr.isSpace c = false ∧ c ≠ ',') :
    listValue v = [v] ∧ PyStr.strip v = v := by
  have hcomma : ',' ∉ v.toList := fun hmem => (h ',' hmem).2 rfl
  have hstrip := PyStr.strip_eq_of_all fun c hc => (h c hc).1
  refine ⟨?_, hstrip⟩
  unfold listValue PyStr.split
  rw [PyStr.splitChars_of_notMem hcomma, List.map_singleton, List.map_singleton,
    String.ofList_toList, hstrip]
  exact List.filter_eq_self.mpr fun w hw => decide_eq_true (List.mem_singleton.mp hw ▸ hne)

theorem token_of_lower {v : String} {types : List String} (htypes : types ∈ families)
    (h : PyStr.lower v ∈ types) : listValue v = [v] ∧ PyStr.strip v = v := by
  obtain ⟨-, hne, hchars⟩ := families_plain types htypes _ h
  refine token_of_plain (fun hempty => ?_) fun c hc => ⟨?_, ?_⟩
  · rw [hempty] at hne
    exact hne rfl
  · by_contra hspace
    have hspace := Bool.not_eq_false _ ▸ hspace
    have hmem := PyStr.mem_lower (PyStr.space_not_upper hspace) hc
    exact absurd hspace (by simp [(hchars c hmem).1])
  · rintro rfl
    exact (hchars ',' (PyStr.mem_lower (by decide) hc)).2 rfl

theorem families_covered : ∀ types ∈ families,
    ((∀ type ∈ types, covers (PyStr.join "|" types) type = true) ↔ types.length = 1) ∧
    ∀ token ∈ types, (∀ type ∈ types, covers token type = true) ↔
      types.length = 1 ∨ token = "anthropic" := by
  have hall : families.all (fun types =>
      (types.all (fun type => covers (PyStr.join "|" types) type)) == (types.length == 1) &&
      types.all (fun token => (types.all fun type => covers token type) ==
        (types.length == 1 || token == "anthropic"))) = true := by decide +kernel
  intro types htypes
  have htypes := List.all_eq_true.mp hall types htypes
  rw [Bool.and_eq_true] at htypes
  constructor
  · have hjoined := beq_iff_eq.mp htypes.1
    rw [← List.all_eq_true, hjoined, beq_iff_eq]
  · intro token htoken
    have hone := beq_iff_eq.mp (List.all_eq_true.mp htypes.2 token htoken)
    rw [← List.all_eq_true, hone, Bool.or_eq_true, beq_iff_eq, beq_iff_eq]

theorem families_joined : ∀ types ∈ families,
    listValue (PyStr.join "|" types) = [PyStr.join "|" types] ∧
    PyStr.strip (PyStr.join "|" types) = PyStr.join "|" types ∧
    PyStr.lower (PyStr.join "|" types) = PyStr.join "|" types := by
  have hall : families.all (fun types => listValue (PyStr.join "|" types) = [PyStr.join "|" types] &&
      PyStr.strip (PyStr.join "|" types) = PyStr.join "|" types &&
      PyStr.lower (PyStr.join "|" types) = PyStr.join "|" types) = true := by decide +kernel
  intro types htypes
  have htypes := List.all_eq_true.mp hall types htypes
  simpa [and_assoc] using htypes

theorem exists_eq_some_iff {w : String} {Q : String → Prop} :
    (∃ v, some w = some v ∧ Q v) ↔ Q w := by
  constructor
  · rintro ⟨v, hv, h⟩
    exact Option.some.inj hv ▸ h
  · exact fun h => ⟨w, rfl, h⟩

theorem familyMet_iff : FamilyMet args snap ↔ OneTypeSays args snap := by
  refine forall₂_congr fun types htypes => ?_
  have hmem := HintArgs.mem_families htypes
  have hplain := families_plain types hmem
  obtain ⟨hjoined, htokens⟩ := families_covered types hmem
  rw [providerHint_of_family htypes]
  cases hreliable : reliableType args snap with
  | none =>
    obtain ⟨hlist, hstrip, hlower⟩ := families_joined types hmem
    have hne : PyStr.lower (PyStr.join "|" types) ≠ "" := by
      rw [hlower]
      exact (families_safe types hmem).2
    have hcovered := met_iff_covers hlist hstrip hne fun type htype => (hplain type htype).1
    rw [hlower, hjoined] at hcovered
    rw [Option.getD_none, exists_eq_some_iff, hcovered]
    exact (or_iff_left nofun).symm
  | some v =>
    obtain ⟨-, -, hfamily⟩ := reliableType_eq_some hreliable
    have hin := hfamily types htypes
    obtain ⟨hlist, hstrip⟩ := token_of_lower hmem hin
    have hcovered := met_iff_covers hlist hstrip (hplain _ hin).2.1
      fun type htype => (hplain type htype).1
    rw [htokens _ hin] at hcovered
    rw [Option.getD_some, exists_eq_some_iff, hcovered, Option.map_some, Option.some.injEq]

/-! ### A hint of tokens -/

def tokenItem (v : String) : Option MemberValue := if isToken v then some (.item (.text v)) else none

/-- A member for each part, as the legacy parser cuts them. -/
def tokenMembers (header : String) : Option SfvDictionary :=
  (legacyDimensions header).mapM fun dim => (tokenItem dim.value).map fun value =>
    (dim.key, ⟨value, if dim.required then [("require", .boolean true)] else []⟩)

theorem tokenItem_rfc8941 : Rfc8941Items tokenItem where
  token v h := if_pos h
  form v m _ h := by
    unfold tokenItem at h
    split at h
    · next htoken =>
      obtain rfl := Option.some.inj h
      exact .token htoken
    · cases h

theorem tokenMembers_rfc8941 : Rfc8941Parts tokenMembers tokenItem where
  items := tokenItem_rfc8941
  members := by
    intro parts d hreadable _ h
    unfold tokenMembers at h
    rw [legacyDimensions_formatHint hreadable, mapM_some_iff, List.forall₂_map_left_iff] at h
    refine h.imp fun p m hm => ?_
    obtain ⟨value, hvalue, rfl⟩ := Option.map_eq_some_iff.mp hm
    exact ⟨rfl, hvalue, rfl⟩
  complete := by
    intro parts hreadable hkeys hread
    unfold tokenMembers
    rw [legacyDimensions_formatHint hreadable, Option.isSome_iff_exists]
    simp only [mapM_some_iff, List.forall₂_map_left_iff]
    clear hreadable hkeys
    induction parts with
    | nil => exact ⟨[], .nil⟩
    | cons p parts ih =>
      obtain ⟨hp, hparts⟩ := List.forall_mem_cons.mp hread
      obtain ⟨ms, hms⟩ := ih hparts
      obtain ⟨m, hm⟩ := Option.isSome_iff_exists.mp hp
      have htoken : isToken p.value = true := by
        unfold tokenItem at hm
        split at hm
        · next htoken => exact htoken
        · cases hm
      have hstripped : tokenItem p.stripped.value = some m := by
        show tokenItem (PyStr.strip p.value) = some m
        rw [strip_token htoken, hm]
      exact ⟨_ :: ms, .cons (Option.map_eq_some_iff.mpr ⟨m, hstripped, rfl⟩) hms⟩

/-- A hint for a region with a task and a family of one type. -/
def cohereArgs : HintArgs := { task := some "chat", modelFamily := some "Cohere", region := some "eu" }

end LlmProxy.Sdk
