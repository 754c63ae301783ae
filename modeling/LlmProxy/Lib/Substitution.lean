import LlmProxy.Lib.Regex

/-! # What a substitution leaves

The result of `pattern.sub(repl, text)` in pieces: characters that are kept, where no match
starts, and matches that are replaced.

> `subbed_sub`: the pieces of a substitution;
> `Subbed.starts_kept`: a text that is read where a character is kept, up to case, is read where it
> stood before.

A pattern without `\b` and `^` reads the same wherever it stands (`Local`).
-/

namespace Regex

variable {isalnum : Char → Bool} {pattern : Regex} {repl : List Char → List Char}

/-! ## Folding -/

theorem foldCase_of_not_letter {c d : Char} (h : foldCase c = d)
    (hd : ¬ (97 ≤ d.toNat ∧ d.toNat ≤ 122)) : c = d := by
  subst h
  unfold foldCase at hd ⊢
  split
  · next hi =>
    rw [if_pos hi] at hd
    exact absurd (by decide) hd
  · next hi =>
    rw [if_neg hi] at hd
    split
    · next hs =>
      rw [if_pos hs] at hd
      exact absurd (by decide) hd
    · next hs =>
      rw [if_neg hs] at hd
      split
      · next hk =>
        rw [if_pos hk] at hd
        exact absurd (by decide) hd
      · next hk =>
        rw [if_neg hk] at hd
        unfold Char.toLower at hd ⊢
        split
        · next hupper =>
          rw [dif_pos hupper] at hd
          have hlow : 65 ≤ c.val.toNat := UInt32.le_iff_toNat_le.mp hupper.1
          have hhigh : c.val.toNat ≤ 90 := UInt32.le_iff_toNat_le.mp hupper.2
          refine absurd ?_ hd
          have hsum : (c.val + ('a'.val - 'A'.val)).toNat = c.val.toNat + 32 := by
            rw [UInt32.toNat_add]
            have hdiff : ('a'.val - 'A'.val).toNat = 32 := by decide
            rw [hdiff]
            omega
          simp only [Char.toNat, hsum]
          omega
        · rfl

/-! ## The engine finds what can be read -/

/-- A pattern that does not look behind it. -/
def Local : Regex → Prop
  | .seq a b => Local a ∧ Local b
  | .alt a b => Local a ∧ Local b
  | .boundary => False
  | .lineStart => False
  | _ => True

theorem readText_complete {s t : List Char} (h : t.map foldCase = s.map foldCase)
    (behind rest : List Char) :
    readText s ⟨behind, t ++ rest⟩ = some ⟨t.reverse ++ behind, rest⟩ := by
  induction s generalizing t behind with
  | nil =>
    obtain rfl := List.map_eq_nil_iff.mp h
    rfl
  | cons c s ih =>
    cases t with
    | nil => exact absurd h (by simp)
    | cons d t =>
      obtain ⟨hd, ht⟩ := List.cons.inj h
      simp only [List.cons_append, readText, if_pos hd.symm, ih ht]
      simp

theorem run_complete {p : Char → Bool} {n : Nat} {t : List Char} (hlength : t.length ≤ n)
    (hall : ∀ c ∈ t, p c = true) (behind rest : List Char) :
    ⟨t.reverse ++ behind, rest⟩ ∈ run p n behind (t ++ rest) := by
  induction t generalizing n behind with
  | nil =>
    cases n with
    | zero => exact List.mem_singleton.mpr rfl
    | succ n =>
      cases rest with
      | nil => exact List.mem_singleton.mpr rfl
      | cons d rest =>
        simp only [List.reverse_nil, List.nil_append, run]
        split
        · exact List.mem_append_right _ (List.mem_singleton.mpr rfl)
        · exact List.mem_singleton.mpr rfl
  | cons c t ih =>
    obtain ⟨hc, ht⟩ := List.forall_mem_cons.mp hall
    cases n with
    | zero => exact absurd hlength (by simp)
    | succ n =>
      simp only [List.cons_append, run, hc, ↓reduceIte]
      have hmem := ih (Nat.le_of_succ_le_succ hlength) ht (c :: behind)
      rw [List.reverse_cons, List.append_assoc]
      exact List.mem_append_left _ hmem

/-- **What the pattern reads is among the ends.** -/
theorem ends_complete (hlocal : pattern.Local) {t : List Char} (h : pattern.Reads t)
    (behind rest : List Char) :
    ⟨t.reverse ++ behind, rest⟩ ∈ ends isalnum pattern ⟨behind, t ++ rest⟩ := by
  induction pattern generalizing t behind rest with
  | empty =>
    obtain rfl := h
    exact List.mem_singleton.mpr rfl
  | text s => exact Option.mem_toList.mpr (readText_complete h behind rest)
  | one p =>
    obtain ⟨c, rfl, hc⟩ := h
    simp only [List.cons_append, List.nil_append, ends, if_pos hc]
    exact List.mem_singleton.mpr rfl
  | many p => exact run_complete (by simp) h behind rest
  | upTo n p => exact run_complete h.1 h.2 behind rest
  | few p => exact List.mem_reverse.mpr (run_complete (by simp) h behind rest)
  | seq a b iha ihb =>
    obtain ⟨u, v, rfl, hu, hv⟩ := h
    have hfirst := iha hlocal.1 hu behind (v ++ rest)
    have hsecond := ihb hlocal.2 hv (u.reverse ++ behind) rest
    rw [List.append_assoc, List.reverse_append, List.append_assoc]
    exact List.mem_flatMap.mpr ⟨_, hfirst, hsecond⟩
  | alt a b iha ihb =>
    rcases h with h | h
    · exact List.mem_append_left _ (iha hlocal.1 h behind rest)
    · exact List.mem_append_right _ (ihb hlocal.2 h behind rest)
  | boundary => exact hlocal.elim
  | lineStart => exact hlocal.elim

/-! ## Searching -/

theorem search_reads {s : String} (h : (search isalnum pattern s).isSome = true) :
    ∃ m, m <:+: s.toList ∧ pattern.Reads m := by
  have hfrom : ∀ (behind ahead : List Char),
      (searchFrom isalnum pattern behind ahead).isSome = true →
      ∃ m, m <:+: ahead ∧ pattern.Reads m := by
    intro behind ahead
    induction ahead generalizing behind with
    | nil =>
      intro hsome
      rw [searchFrom, Option.isSome_map] at hsome
      obtain ⟨e, he⟩ := Option.isSome_iff_exists.mp hsome
      obtain ⟨t, hover, ht⟩ := ends_reads (List.mem_of_head? he)
      exact ⟨t, ⟨[], e.ahead, hover.1.symm⟩, ht⟩
    | cons d ahead ih =>
      intro hsome
      rw [searchFrom] at hsome
      split at hsome
      · next e he =>
        obtain ⟨t, hover, ht⟩ := ends_reads (List.mem_of_head? he)
        exact ⟨t, ⟨[], e.ahead, hover.1.symm⟩, ht⟩
      · obtain ⟨m, hm, hreads⟩ := ih (d :: behind) hsome
        exact ⟨m, hm.trans (List.suffix_cons d ahead).isInfix, hreads⟩
  exact hfrom [] s.toList h

theorem search_complete (hlocal : pattern.Local) {s : String} {m : List Char}
    (hm : m <:+: s.toList) (hreads : pattern.Reads m) :
    (search isalnum pattern s).isSome = true := by
  have hfrom : ∀ (ahead behind before rest : List Char), ahead = before ++ m ++ rest →
      (searchFrom isalnum pattern behind ahead).isSome = true := by
    intro ahead
    induction ahead with
    | nil =>
      intro behind before rest heq
      have hnil : m = [] := (List.append_eq_nil_iff.mp (List.append_eq_nil_iff.mp heq.symm).1).2
      have hend : ⟨m.reverse ++ behind, []⟩ ∈ ends isalnum pattern ⟨behind, m ++ []⟩ :=
        ends_complete hlocal hreads behind []
      rw [hnil] at hend
      rw [searchFrom, Option.isSome_map]
      cases hends : ends isalnum pattern ⟨behind, []⟩ with
      | nil =>
        rw [List.nil_append, hends] at hend
        cases hend
      | cons e ends => rfl
    | cons d ahead ih =>
      intro behind before rest heq
      rw [searchFrom]
      split
      · rfl
      · next hnone =>
        cases before with
        | nil =>
          have hend : ⟨m.reverse ++ behind, rest⟩ ∈ ends isalnum pattern ⟨behind, m ++ rest⟩ :=
            ends_complete hlocal hreads behind rest
          rw [← List.nil_append m, ← heq, List.head?_eq_none_iff.mp hnone] at hend
          cases hend
        | cons e before => exact ih (d :: behind) before rest (List.cons.inj heq).2
  obtain ⟨before, rest, hsplit⟩ := hm
  exact hfrom s.toList [] before rest hsplit.symm

/-! ## Greedy ends -/

/-- The first end of a pattern leaves no character of a class ahead. -/
def Greedy (isalnum : Char → Bool) (p : Char → Bool) (pattern : Regex) : Prop :=
  ∀ at_ e, (ends isalnum pattern at_).head? = some e → ∀ c, e.ahead.head? = some c → p c = false

theorem run_head {p : Char → Bool} {n : Nat} {behind ahead : List Char} {e : Cursor}
    (hlength : ahead.length ≤ n) (h : (run p n behind ahead).head? = some e) :
    ∀ c, e.ahead.head? = some c → p c = false := by
  induction n generalizing behind ahead with
  | zero =>
    obtain rfl := List.length_eq_zero_iff.mp (Nat.le_zero.mp hlength)
    obtain rfl := Option.some.inj h
    exact fun c hc => absurd hc.symm (Option.some_ne_none c)
  | succ n ih =>
    cases ahead with
    | nil =>
      obtain rfl := Option.some.inj h
      exact fun c hc => absurd hc.symm (Option.some_ne_none c)
    | cons d ahead =>
      simp only [run] at h
      split at h
      · have hlength' : ahead.length ≤ n := Nat.le_of_succ_le_succ hlength
        cases hrun : run p n (d :: behind) ahead with
        | nil =>
          have hmem : (⟨d :: behind, ahead⟩ : Cursor) ∈ run p n (d :: behind) ahead :=
            run_complete (t := []) (Nat.zero_le n) (fun _ hc => absurd hc List.not_mem_nil)
              (d :: behind) ahead
          rw [hrun] at hmem
          exact absurd hmem List.not_mem_nil
        | cons e' rest =>
          rw [hrun] at h
          obtain rfl := Option.some.inj h
          exact ih hlength' (by rw [hrun]; rfl)
      · next hd =>
        obtain rfl := Option.some.inj h
        intro c hc
        obtain rfl := Option.some.inj hc
        simpa using hd

theorem greedy_many (p : Char → Bool) : Greedy isalnum p (.many p) :=
  fun _ _ h => run_head (Nat.le_refl _) h

theorem greedy_seq {p : Char → Bool} {a b : Regex} (hb : Greedy isalnum p b) :
    Greedy isalnum p (.seq a b) := by
  intro at_ e h
  have hfirst : ∀ starts : List Cursor,
      (starts.flatMap (ends isalnum b)).head? = some e → ∃ m, (ends isalnum b m).head? = some e := by
    intro starts hstarts
    induction starts with
    | nil => exact absurd hstarts nofun
    | cons m starts ih =>
      rw [List.flatMap_cons] at hstarts
      cases hends : ends isalnum b m with
      | nil =>
        rw [hends] at hstarts
        exact ih hstarts
      | cons e' rest =>
        rw [hends] at hstarts
        exact ⟨m, by rw [hends]; exact hstarts⟩
  obtain ⟨m, hm⟩ := hfirst _ h
  exact hb m e hm

/-! ## Kept and replaced pieces -/

/-- A text and what the substitution makes of it. -/
inductive Subbed (isalnum : Char → Bool) (pattern : Regex) (repl : List Char → List Char) :
    List Char → List Char → Prop
  | nil : Subbed isalnum pattern repl [] []
  /-- no match starts here -/
  | keep {c : Char} {text out : List Char}
      (hnone : ∀ t rest, pattern.Reads t → t ≠ [] → c :: text ≠ t ++ rest)
      (htail : Subbed isalnum pattern repl text out) :
      Subbed isalnum pattern repl (c :: text) (c :: out)
  /-- a match; of those that start here, the first that the engine finds -/
  | cut {m text out : List Char} (hne : m ≠ []) (hreads : pattern.Reads m)
      (hfirst : ∃ behind, (ends isalnum pattern ⟨behind, m ++ text⟩).find?
        (fun e => behind.length < e.behind.length) = some ⟨m.reverse ++ behind, text⟩)
      (htail : Subbed isalnum pattern repl text out) :
      Subbed isalnum pattern repl (m ++ text) (repl m ++ out)

theorem subbed_subFuel (hlocal : pattern.Local) (fuel : Nat) (behind ahead : List Char)
    (hfuel : ahead.length ≤ fuel) :
    Subbed isalnum pattern repl ahead (subFuel isalnum pattern repl fuel behind ahead) := by
  induction fuel generalizing behind ahead with
  | zero =>
    obtain rfl := List.length_eq_zero_iff.mp (Nat.le_zero.mp hfuel)
    exact .nil
  | succ fuel ih =>
    cases ahead with
    | nil => exact .nil
    | cons d ahead =>
      simp only [subFuel]
      split
      · next e he =>
        obtain ⟨t, hover, ht⟩ := ends_reads (List.mem_of_find?_eq_some he)
        have hadvance := List.find?_some he
        obtain ⟨ebehind, eahead⟩ := e
        obtain ⟨hahead, rfl⟩ : d :: ahead = t ++ eahead ∧ ebehind = t.reverse ++ behind := hover
        have hne : t ≠ [] := by
          rintro rfl
          simp at hadvance
        have htake : (d :: ahead).take ((t.reverse ++ behind).length - behind.length) = t := by
          rw [hahead]
          simp
        rw [htake, hahead]
        refine .cut hne ht ⟨behind, by rw [← hahead]; exact he⟩ (ih _ _ ?_)
        have hlength := congrArg List.length hahead
        have hpos : 0 < t.length := List.length_pos_iff.mpr hne
        simp only [List.length_cons, List.length_append] at hlength hfuel
        omega
      · next hnone =>
        refine .keep ?_ (ih _ _ (Nat.le_of_succ_le_succ hfuel))
        intro t rest ht hne heq
        have hmem : ⟨t.reverse ++ behind, rest⟩ ∈ ends isalnum pattern ⟨behind, t ++ rest⟩ :=
          ends_complete hlocal ht behind rest
        rw [← heq] at hmem
        have hpos : 0 < t.length := List.length_pos_iff.mpr hne
        have hadvance := List.find?_eq_none.mp hnone _ hmem
        simp only [List.length_append, List.length_reverse, decide_eq_true_eq] at hadvance
        omega

/-- **The pieces of a substitution.** -/
theorem subbed_sub (hlocal : pattern.Local) (s : String) :
    Subbed isalnum pattern repl s.toList (sub isalnum pattern repl s).toList := by
  rw [sub, String.toList_ofList]
  exact subbed_subFuel hlocal s.length [] s.toList (Nat.le_of_eq String.length_toList)

/-! ## Case and length of what is read -/

/-- The classes of the pattern do not tell letters apart that `IGNORECASE` counts as equal. -/
def Caseless : Regex → Prop
  | .one p => ∀ c d, foldCase c = foldCase d → p c = p d
  | .many p => ∀ c d, foldCase c = foldCase d → p c = p d
  | .upTo _ p => ∀ c d, foldCase c = foldCase d → p c = p d
  | .few p => ∀ c d, foldCase c = foldCase d → p c = p d
  | .seq a b => Caseless a ∧ Caseless b
  | .alt a b => Caseless a ∧ Caseless b
  | _ => True

theorem all_fold {p : Char → Bool} (hp : ∀ c d, foldCase c = foldCase d → p c = p d)
    {t t' : List Char} (hfold : t'.map foldCase = t.map foldCase) (h : ∀ c ∈ t, p c = true) :
    ∀ c ∈ t', p c = true := by
  intro c hc
  have hmem : foldCase c ∈ t.map foldCase := hfold ▸ List.mem_map_of_mem hc
  obtain ⟨d, hd, hcd⟩ := List.mem_map.mp hmem
  rw [hp c d hcd.symm]
  exact h d hd

theorem Reads.fold (hcaseless : pattern.Caseless) {t t' : List Char} (h : pattern.Reads t)
    (hfold : t'.map foldCase = t.map foldCase) : pattern.Reads t' := by
  induction pattern generalizing t t' with
  | empty =>
    obtain rfl := h
    exact List.map_eq_nil_iff.mp hfold
  | text s => exact hfold.trans h
  | one p =>
    obtain ⟨c, rfl, hc⟩ := h
    cases t' with
    | nil => exact absurd hfold nofun
    | cons d t' =>
      obtain ⟨hd, hnil⟩ := List.cons.inj hfold
      obtain rfl := List.map_eq_nil_iff.mp hnil
      exact ⟨d, rfl, (hcaseless d c hd).trans hc⟩
  | many p => exact all_fold hcaseless hfold h
  | upTo n p =>
    have hlength := congrArg List.length hfold
    rw [List.length_map, List.length_map] at hlength
    exact ⟨hlength ▸ h.1, all_fold hcaseless hfold h.2⟩
  | few p => exact all_fold hcaseless hfold h
  | seq a b iha ihb =>
    obtain ⟨u, v, rfl, hu, hv⟩ := h
    rw [List.map_append] at hfold
    obtain ⟨u', v', rfl, hu', hv'⟩ := List.map_eq_append_iff.mp hfold
    exact ⟨u', v', rfl, iha hcaseless.1 hu hu', ihb hcaseless.2 hv hv'⟩
  | alt a b iha ihb =>
    rcases h with h | h
    · exact Or.inl (iha hcaseless.1 h hfold)
    · exact Or.inr (ihb hcaseless.2 h hfold)
  | boundary =>
    obtain rfl := h
    exact List.map_eq_nil_iff.mp hfold
  | lineStart =>
    obtain rfl := h
    exact List.map_eq_nil_iff.mp hfold

def minLength : Regex → Nat
  | .text s => s.toList.length
  | .one _ => 1
  | .seq a b => minLength a + minLength b
  | .alt a b => min (minLength a) (minLength b)
  | _ => 0

theorem minLength_le {t : List Char} (h : pattern.Reads t) : pattern.minLength ≤ t.length := by
  induction pattern generalizing t with
  | text s =>
    have hlength := congrArg List.length h
    rw [List.length_map, List.length_map] at hlength
    exact Nat.le_of_eq hlength.symm
  | one p =>
    obtain ⟨c, rfl, -⟩ := h
    exact Nat.le_refl 1
  | seq a b iha ihb =>
    obtain ⟨u, v, rfl, hu, hv⟩ := h
    rw [List.length_append]
    exact Nat.add_le_add (iha hu) (ihb hv)
  | alt a b iha ihb =>
    rcases h with h | h
    · exact Nat.le_trans (Nat.min_le_left _ _) (iha h)
    · exact Nat.le_trans (Nat.min_le_right _ _) (ihb h)
  | _ => exact Nat.zero_le _

/-- The pattern reads characters of a class only. -/
def Within (inC : Char → Bool) : Regex → Prop
  | .text s => ∀ c ∈ s.toList, inC c = true
  | .one p => ∀ c, p c = true → inC c = true
  | .many p => ∀ c, p c = true → inC c = true
  | .upTo _ p => ∀ c, p c = true → inC c = true
  | .few p => ∀ c, p c = true → inC c = true
  | .seq a b => Within inC a ∧ Within inC b
  | .alt a b => Within inC a ∧ Within inC b
  | _ => True

theorem Within.all {inC : Char → Bool} (hC : ∀ c d, foldCase c = foldCase d → inC c = inC d)
    (hwithin : pattern.Within inC) {t : List Char} (h : pattern.Reads t) :
    ∀ c ∈ t, inC c = true := by
  induction pattern generalizing t with
  | text s => exact all_fold hC h hwithin
  | one p =>
    obtain ⟨c, rfl, hc⟩ := h
    intro d hd
    rw [List.mem_singleton.mp hd]
    exact hwithin c hc
  | many p => exact fun c hc => hwithin c (h c hc)
  | upTo n p => exact fun c hc => hwithin c (h.2 c hc)
  | few p => exact fun c hc => hwithin c (h c hc)
  | seq a b iha ihb =>
    obtain ⟨u, v, rfl, hu, hv⟩ := h
    intro c hc
    rcases List.mem_append.mp hc with hc | hc
    · exact iha hwithin.1 hu c hc
    · exact ihb hwithin.2 hv c hc
  | alt a b iha ihb =>
    rcases h with h | h
    · exact iha hwithin.1 h
    · exact ihb hwithin.2 h
  | empty =>
    obtain rfl := h
    exact nofun
  | boundary =>
    obtain rfl := h
    exact nofun
  | lineStart =>
    obtain rfl := h
    exact nofun

/-! ## Repetitions -/

theorem local_times (n : Nat) (p : Char → Bool) : (times n p).Local := by
  induction n with
  | zero => trivial
  | succ n ih => exact ⟨trivial, ih⟩

theorem caseless_times {p : Char → Bool} (hp : ∀ c d, foldCase c = foldCase d → p c = p d)
    (n : Nat) : (times n p).Caseless := by
  induction n with
  | zero => trivial
  | succ n ih => exact ⟨hp, ih⟩

theorem within_times {inC p : Char → Bool} (hp : ∀ c, p c = true → inC c = true) (n : Nat) :
    (times n p).Within inC := by
  induction n with
  | zero => trivial
  | succ n ih => exact ⟨hp, ih⟩

theorem minLength_times (n : Nat) (p : Char → Bool) : (times n p).minLength = n := by
  induction n with
  | zero => rfl
  | succ n ih =>
    show 1 + (times n p).minLength = n + 1
    rw [ih, Nat.add_comm]

/-! ## Texts of a class in a result -/

/-- What a replacement begins with, of the characters of a class, is how its match begins. -/
structure Fits (inC : Char → Bool) (pattern : Regex) (repl : List Char → List Char) : Prop where
  head : ∀ m, pattern.Reads m → ((repl m).takeWhile inC).map foldCase <+: m.map foldCase
  last : ∀ m, pattern.Reads m → ∃ init c, repl m = init ++ [c] ∧ inC c = false

theorem Subbed.begins {inC : Char → Bool} (hfits : Fits inC pattern repl) {text out : List Char}
    (h : Subbed isalnum pattern repl text out) {w rest : List Char} (hout : out = w ++ rest)
    (hw : ∀ c ∈ w, inC c = true) :
    ∃ w' rest', text = w' ++ rest' ∧ w'.map foldCase = w.map foldCase := by
  induction h generalizing w with
  | nil => exact ⟨[], [], rfl, by rw [(List.append_eq_nil_iff.mp hout.symm).1]⟩
  | @keep c text out _ _ ih =>
    cases w with
    | nil => exact ⟨[], c :: text, rfl, rfl⟩
    | cons d w =>
      obtain ⟨rfl, hrest⟩ := List.cons.inj hout
      obtain ⟨w', rest', rfl, hfold⟩ := ih hrest (List.forall_mem_cons.mp hw).2
      exact ⟨c :: w', rest', rfl, congrArg (foldCase c :: ·) hfold⟩
  | @cut m text out _ hreads _ _ _ =>
    obtain ⟨init, c, hrepl, hc⟩ := hfits.last m hreads
    have hstarts : w <+: (repl m).takeWhile inC := by
      rcases List.append_eq_append_iff.mp hout with ⟨a, hwrepl, -⟩ | ⟨a, hrest, -⟩
      · have hmem : c ∈ w := by
          rw [hwrepl, hrepl]
          simp
        rw [hw c hmem] at hc
        exact absurd hc (by decide)
      · rw [hrest, List.takeWhile_append_of_pos hw]
        exact List.prefix_append w _
    have hfold : w.map foldCase <+: m.map foldCase :=
      (hstarts.map foldCase).trans (hfits.head m hreads)
    refine ⟨m.take w.length, m.drop w.length ++ text, ?_, ?_⟩
    · rw [← List.append_assoc, List.take_append_drop]
    · have hlength : (w.map foldCase).length = w.length := List.length_map _
      rw [List.map_take, ← hlength]
      exact (List.prefix_iff_eq_take.mp hfold).symm

/-- **A text of the class in a result** that is not part of a replacement begins where a character
is kept: it stood there, up to case, and no match starts with it. -/
theorem Subbed.starts_kept {inC : Char → Bool} (hfits : Fits inC pattern repl)
    {text out : List Char} (h : Subbed isalnum pattern repl text out) {before w rest : List Char}
    (hout : out = before ++ w ++ rest) (hne : w ≠ []) (hw : ∀ c ∈ w, inC c = true)
    (hnot : ∀ m, pattern.Reads m → ¬ w <:+: repl m) :
    ∃ before' w' rest', text = before' ++ w' ++ rest' ∧ w'.map foldCase = w.map foldCase ∧
      ∀ t behind, pattern.Reads t → t ≠ [] → w' ++ rest' ≠ t ++ behind := by
  induction h generalizing before with
  | nil =>
    have hnil := (List.append_eq_nil_iff.mp hout.symm).1
    exact absurd (List.append_eq_nil_iff.mp hnil).2 hne
  | @keep c text out hnone htail ih =>
    cases before with
    | nil =>
      obtain ⟨w', rest', htext, hfold⟩ := (Subbed.keep hnone htail).begins hfits hout hw
      refine ⟨[], w', rest', htext, hfold, ?_⟩
      intro t behind ht hne'
      rw [← htext]
      exact hnone t behind ht hne'
    | cons d before =>
      obtain ⟨rfl, hrest⟩ := List.cons.inj hout
      obtain ⟨before', w', rest', rfl, hfold, hstart⟩ := ih hrest
      exact ⟨c :: before', w', rest', rfl, hfold, hstart⟩
  | @cut m text out _ hreads _ _ ih =>
    have hbehind : ∀ between, out = between ++ w ++ rest → ∃ before' w' rest',
        m ++ text = before' ++ w' ++ rest' ∧ w'.map foldCase = w.map foldCase ∧
          ∀ t behind, pattern.Reads t → t ≠ [] → w' ++ rest' ≠ t ++ behind := by
      intro between hbetween
      obtain ⟨before', w', rest', rfl, hfold, hstart⟩ := ih hbetween
      exact ⟨m ++ before', w', rest', by simp, hfold, hstart⟩
    rw [List.append_assoc] at hout
    rcases List.append_eq_append_iff.mp hout with ⟨a, -, hrest⟩ | ⟨a, hrepl, hrest⟩
    · exact hbehind a (by rw [hrest, List.append_assoc])
    · rcases List.append_eq_append_iff.mp hrest with ⟨b, ha, -⟩ | ⟨b, hwa, hout'⟩
      · exact absurd ⟨before, b, by rw [hrepl, ha, List.append_assoc]⟩ (hnot m hreads)
      · rcases List.eq_nil_or_concat a with rfl | ⟨a', c, rfl⟩
        · exact hbehind [] (by rw [hout', hwa]; rfl)
        · -- the replacement would end inside the text, with a character outside the class
          obtain ⟨init, d, hlast, hd⟩ := hfits.last m hreads
          have hcd : c = d := by
            have hends : before ++ a' ++ [c] = init ++ [d] := by
              rw [← hlast, hrepl, List.append_assoc]
              simp
            exact List.singleton_inj.mp (List.append_inj' hends rfl).2
          rw [← hcd, hw c (by rw [hwa]; simp)] at hd
          exact absurd hd (by decide)

theorem Subbed.avoids {inC : Char → Bool} (hfits : Fits inC pattern repl) {text out : List Char}
    (h : Subbed isalnum pattern repl text out) {language : Regex} (hcaseless : language.Caseless)
    (hwithin : ∀ w, language.Reads w → w ≠ [] ∧ ∀ c ∈ w, inC c = true)
    (hnot : ∀ m w, pattern.Reads m → language.Reads w → ¬ w <:+: repl m)
    (havoids : ∀ w, language.Reads w → ¬ w <:+: text) :
    ∀ w, language.Reads w → ¬ w <:+: out := by
  rintro w hw ⟨before, rest, hout⟩
  obtain ⟨hne, hall⟩ := hwithin w hw
  obtain ⟨before', w', rest', htext, hfold, -⟩ :=
    h.starts_kept hfits hout.symm hne hall fun m hm => hnot m w hm hw
  exact havoids w' (hw.fold hcaseless hfold) ⟨before', rest', htext.symm⟩

/-- **Nothing the pattern reads is left.** -/
theorem Subbed.clean {inC : Char → Bool} (hfits : Fits inC pattern repl) {text out : List Char}
    (h : Subbed isalnum pattern repl text out) (hcaseless : pattern.Caseless)
    (hwithin : ∀ w, pattern.Reads w → w ≠ [] ∧ ∀ c ∈ w, inC c = true)
    (hnot : ∀ m w, pattern.Reads m → pattern.Reads w → ¬ w <:+: repl m) :
    ∀ w, pattern.Reads w → ¬ w <:+: out := by
  rintro w hw ⟨before, rest, hout⟩
  obtain ⟨hne, hall⟩ := hwithin w hw
  obtain ⟨before', w', rest', -, hfold, hstart⟩ :=
    h.starts_kept hfits hout.symm hne hall fun m hm => hnot m w hm hw
  have hw' : w' ≠ [] := by
    rintro rfl
    exact hne (List.map_eq_nil_iff.mp hfold.symm)
  exact hstart w' rest' (hw.fold hcaseless hfold) hw' rfl

/-! ## Where a place of a result comes from -/

/-- A place of a result is one of a kept character, where no match starts, or stands in a
replacement. -/
theorem Subbed.place {text out : List Char} (h : Subbed isalnum pattern repl text out)
    {before tail : List Char} {c : Char} (hout : out = before ++ c :: tail) :
    (∃ text', Subbed isalnum pattern repl (c :: text') (c :: tail) ∧
      ∀ t rest, pattern.Reads t → t ≠ [] → c :: text' ≠ t ++ rest) ∨
    ∃ m text' out' a b, pattern.Reads m ∧
      (∃ behind, (ends isalnum pattern ⟨behind, m ++ text'⟩).find?
        (fun e => behind.length < e.behind.length) = some ⟨m.reverse ++ behind, text'⟩) ∧
      Subbed isalnum pattern repl text' out' ∧ repl m = a ++ c :: b ∧ tail = b ++ out' ∧
      a <:+ before := by
  induction h generalizing before with
  | nil => exact absurd hout (by simp)
  | @keep d text out hnone htail ih =>
    cases before with
    | nil =>
      obtain ⟨rfl, rfl⟩ := List.cons.inj hout
      exact Or.inl ⟨text, .keep hnone htail, hnone⟩
    | cons e before =>
      obtain ⟨rfl, hrest⟩ := List.cons.inj hout
      rcases ih hrest with hkept | ⟨m, text', out', a, b, hm, hfirst, hsub, hrepl, hb, ha⟩
      · exact Or.inl hkept
      · exact Or.inr ⟨m, text', out', a, b, hm, hfirst, hsub, hrepl, hb, ha.trans
          (List.suffix_cons d before)⟩
  | @cut m text out hne hreads hfirst htail ih =>
    rcases List.append_eq_append_iff.mp hout with ⟨a, hbefore, hrest⟩ | ⟨a, hrepl, hrest⟩
    · rcases ih hrest with hkept | ⟨m', text', out', a', b, hm, hfirst', hsub, hrepl, hb, ha⟩
      · exact Or.inl hkept
      · exact Or.inr ⟨m', text', out', a', b, hm, hfirst', hsub, hrepl, hb, ha.trans
          ⟨repl m, hbefore.symm⟩⟩
    · cases a with
      | nil =>
        have hout' : out = [] ++ c :: tail := hrest.symm
        rcases ih hout' with
          hkept | ⟨m', text', out', a', b, hm, hfirst', hsub, hrepl', hb, ha⟩
        · exact Or.inl hkept
        · exact Or.inr ⟨m', text', out', a', b, hm, hfirst', hsub, hrepl', hb,
            ha.trans (List.nil_suffix)⟩
      | cons d a =>
        obtain ⟨rfl, htail'⟩ := List.cons.inj hrest
        exact Or.inr ⟨m, text, out, before, a, hreads, hfirst, htail, hrepl, htail',
          List.suffix_refl before⟩

theorem Subbed.up_to_cut {text out : List Char} (h : Subbed isalnum pattern repl text out)
    {w rest : List Char} (hout : out = w ++ rest) :
    (∃ rest', text = w ++ rest') ∨
    ∃ u v m text' out', w = u ++ v ∧ v ≠ [] ∧ text = u ++ (m ++ text') ∧ pattern.Reads m ∧
      m ≠ [] ∧ v ++ rest = repl m ++ out' := by
  induction h generalizing w with
  | nil => exact Or.inl ⟨[], by rw [(List.append_eq_nil_iff.mp hout.symm).1]; rfl⟩
  | @keep c text out _ _ ih =>
    cases w with
    | nil => exact Or.inl ⟨c :: text, rfl⟩
    | cons d w =>
      obtain ⟨rfl, hrest⟩ := List.cons.inj hout
      rcases ih hrest with ⟨rest', rfl⟩ | ⟨u, v, m, text', out', rfl, hv, rfl, hm, hne, heq⟩
      · exact Or.inl ⟨rest', rfl⟩
      · exact Or.inr ⟨c :: u, v, m, text', out', rfl, hv, rfl, hm, hne, heq⟩
  | @cut m text out hne hreads _ _ _ =>
    cases w with
    | nil => exact Or.inl ⟨m ++ text, rfl⟩
    | cons d w =>
      exact Or.inr ⟨[], d :: w, m, text, out, rfl, List.cons_ne_nil d w, rfl, hreads, hne,
        hout.symm⟩

theorem Greedy.behind_cut {p : Char → Bool} (hgreedy : Greedy isalnum p pattern)
    (hmin : 0 < pattern.minLength) {m text : List Char}
    (hfirst : ∃ behind, (ends isalnum pattern ⟨behind, m ++ text⟩).find?
      (fun e => behind.length < e.behind.length) = some ⟨m.reverse ++ behind, text⟩) :
    ∀ c, text.head? = some c → p c = false := by
  obtain ⟨behind, hfind⟩ := hfirst
  refine hgreedy ⟨behind, m ++ text⟩ ⟨m.reverse ++ behind, text⟩ ?_
  cases hends : ends isalnum pattern ⟨behind, m ++ text⟩ with
  | nil =>
    rw [hends] at hfind
    exact absurd hfind nofun
  | cons e rest =>
    -- every end reads on, so the first that does is the first
    have hmem : e ∈ ends isalnum pattern ⟨behind, m ++ text⟩ := by
      rw [hends]
      exact List.mem_cons_self
    obtain ⟨t, hover, ht⟩ := ends_reads hmem
    have hpos : 0 < t.length := Nat.lt_of_lt_of_le hmin (minLength_le ht)
    have hadvance : behind.length < e.behind.length := by
      have hbehind : e.behind = t.reverse ++ behind := hover.2
      rw [hbehind, List.length_append, List.length_reverse]
      omega
    rw [hends, List.find?_cons_of_pos (by simpa using hadvance)] at hfind
    rw [List.head?_cons, Option.some.inj hfind]

/-! ## Pieces, wherever they start -/

/-- A text and what the substitution may make of it: kept characters and replaced matches. -/
inductive Pieces (pattern : Regex) (repl : List Char → List Char) : List Char → List Char → Prop
  | nil : Pieces pattern repl [] []
  | keep (c : Char) {text out : List Char} (htail : Pieces pattern repl text out) :
      Pieces pattern repl (c :: text) (c :: out)
  | cut {m text out : List Char} (hne : m ≠ []) (hreads : pattern.Reads m)
      (htail : Pieces pattern repl text out) : Pieces pattern repl (m ++ text) (repl m ++ out)

theorem Subbed.pieces {text out : List Char} (h : Subbed isalnum pattern repl text out) :
    Pieces pattern repl text out := by
  induction h with
  | nil => exact .nil
  | keep _ _ ih => exact .keep _ ih
  | cut hne hreads _ _ ih => exact .cut hne hreads ih

theorem Pieces.back {d : Char} (hd : ∀ m, pattern.Reads m → d ∉ repl m) {text out : List Char}
    (h : Pieces pattern repl text out) {a' b' : List Char} (hout : out = a' ++ d :: b') :
    ∃ a b, text = a ++ d :: b ∧ Pieces pattern repl a a' ∧ Pieces pattern repl b b' := by
  induction h generalizing a' with
  | nil => exact absurd hout (by simp)
  | @keep c text out htail ih =>
    cases a' with
    | nil =>
      obtain ⟨rfl, rfl⟩ := List.cons.inj hout
      exact ⟨[], text, rfl, .nil, htail⟩
    | cons e a' =>
      obtain ⟨rfl, hrest⟩ := List.cons.inj hout
      obtain ⟨a, b, rfl, ha, hb⟩ := ih hrest
      exact ⟨c :: a, b, rfl, .keep c ha, hb⟩
  | @cut m text out hne hreads htail ih =>
    rcases List.append_eq_append_iff.mp hout with ⟨x, rfl, hrest⟩ | ⟨x, hrepl, hrest⟩
    · obtain ⟨a, b, rfl, ha, hb⟩ := ih hrest
      exact ⟨m ++ a, b, by simp, .cut hne hreads ha, hb⟩
    · cases x with
      | nil =>
        have hout' : out = [] ++ d :: b' := hrest.symm
        obtain ⟨a, b, rfl, ha, hb⟩ := ih hout'
        refine ⟨m ++ a, b, by simp, ?_, hb⟩
        rw [List.append_nil] at hrepl
        rw [← hrepl, ← List.append_nil (repl m)]
        exact .cut hne hreads ha
      | cons e x =>
        obtain ⟨rfl, -⟩ := List.cons.inj hrest
        exact absurd (by rw [hrepl]; simp) (hd m hreads)

theorem Pieces.forth {d : Char} (hd : ∀ m, pattern.Reads m → d ∉ m) {text out : List Char}
    (h : Pieces pattern repl text out) {a b : List Char} (htext : text = a ++ d :: b) :
    ∃ a' b', out = a' ++ d :: b' ∧ Pieces pattern repl a a' ∧ Pieces pattern repl b b' := by
  induction h generalizing a with
  | nil => exact absurd htext (by simp)
  | @keep c text out htail ih =>
    cases a with
    | nil =>
      obtain ⟨rfl, rfl⟩ := List.cons.inj htext
      exact ⟨[], out, rfl, .nil, htail⟩
    | cons e a =>
      obtain ⟨rfl, hrest⟩ := List.cons.inj htext
      obtain ⟨a', b', rfl, ha, hb⟩ := ih hrest
      exact ⟨c :: a', b', rfl, .keep c ha, hb⟩
  | @cut m text out hne hreads htail ih =>
    rcases List.append_eq_append_iff.mp htext with ⟨x, rfl, hrest⟩ | ⟨x, hm, hrest⟩
    · obtain ⟨a', b', rfl, ha, hb⟩ := ih hrest
      exact ⟨repl m ++ a', b', by simp, .cut hne hreads ha, hb⟩
    · cases x with
      | nil =>
        obtain ⟨a', b', rfl, ha, hb⟩ := ih (a := []) hrest.symm
        refine ⟨repl m ++ a', b', by simp, ?_, hb⟩
        rw [List.append_nil] at hm
        rw [← hm]
        simpa using Pieces.cut hne hreads ha
      | cons e x =>
        obtain ⟨rfl, -⟩ := List.cons.inj hrest
        exact absurd (by rw [hm]; simp) (hd m hreads)

theorem Pieces.eq_of_notMem {d : Char} (hd : ∀ m, pattern.Reads m → d ∈ repl m)
    {text out : List Char} (h : Pieces pattern repl text out) (hout : d ∉ out) : text = out := by
  induction h with
  | nil => rfl
  | keep c _ ih => rw [ih fun hmem => hout (List.mem_cons_of_mem c hmem)]
  | cut _ hreads _ _ => exact absurd (List.mem_append_left _ (hd _ hreads)) hout

theorem Pieces.eq_of_noMatch {text out : List Char} (h : Pieces pattern repl text out)
    (hnone : ∀ m, pattern.Reads m → ¬ m <:+: text) : out = text := by
  induction h with
  | nil => rfl
  | keep c _ ih =>
    rw [ih fun m hm hinside => hnone m hm (hinside.trans (List.suffix_cons c _).isInfix)]
  | cut _ hreads _ _ => exact absurd (List.prefix_append _ _).isInfix (hnone _ hreads)

theorem Pieces.ne_nil {text out : List Char} (h : Pieces pattern repl text out) (hout : out ≠ []) :
    text ≠ [] := by
  cases h with
  | nil => exact hout
  | keep c _ => exact List.cons_ne_nil c _
  | cut hne _ _ =>
    intro hnil
    exact hne (List.append_eq_nil_iff.mp hnil).1

/-! ## Runs of a class -/

def longestRun (p : Char → Bool) : List Char → Nat
  | [] => 0
  | c :: cs => max ((c :: cs).takeWhile p).length (longestRun p cs)

theorem length_le_longestRun {p : Char → Bool} {w l : List Char} (hw : ∀ c ∈ w, p c = true)
    (h : w <:+: l) : w.length ≤ longestRun p l := by
  induction l with
  | nil =>
    rw [List.infix_nil.mp h]
    exact Nat.zero_le _
  | cons c l ih =>
    rcases List.infix_cons_iff.mp h with hstarts | hinside
    · obtain ⟨rest, hrest⟩ := hstarts
      refine Nat.le_trans ?_ (Nat.le_max_left _ _)
      rw [← hrest, List.takeWhile_append_of_pos hw, List.length_append]
      exact Nat.le_add_right _ _
    · exact Nat.le_trans (ih hinside) (Nat.le_max_right _ _)

end Regex
