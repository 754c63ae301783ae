import LlmProxy.Lib.Json

/-! # JSON texts with spaces

`dumps` is `json.dumps` with its own separators: a space follows each comma and colon. The main
result is `parse_dumps`: every value reads back from its text.
-/

namespace Json

mutual

/-- `json.dumps(value)`. -/
def dumps : Json → List Char
  | .null => "null".toList
  | .bool true => "true".toList
  | .bool false => "false".toList
  | .num n => n.text
  | .constant c => c.text
  | .str s => quote s
  | .arr [] => ['[', ']']
  | .arr (x :: xs) => '[' :: (dumps x ++ dumpsItems xs)
  | .obj [] => ['{', '}']
  | .obj ((k, v) :: ms) => '{' :: (quote k ++ ':' :: ' ' :: (dumps v ++ dumpsMembers ms))

def dumpsItems : List Json → List Char
  | [] => [']']
  | x :: xs => ',' :: ' ' :: (dumps x ++ dumpsItems xs)

def dumpsMembers : List (String × Json) → List Char
  | [] => ['}']
  | (k, v) :: ms => ',' :: ' ' :: (quote k ++ ':' :: ' ' :: (dumps v ++ dumpsMembers ms))

end

/-! ## Spaces before a value -/

theorem skipSpace_space (cs : List Char) : skipSpace (' ' :: cs) = skipSpace cs := rfl

theorem readValue_space (fuel : Nat) (cs : List Char) :
    readValue fuel (' ' :: cs) = readValue fuel cs := by
  cases fuel with
  | zero => simp only [readValue]
  | succ fuel => simp only [readValue, skipSpace_space]

theorem readMember_space (fuel : Nat) (cs : List Char) :
    readMember fuel (' ' :: cs) = readMember fuel cs := by
  cases fuel with
  | zero => simp only [readMember]
  | succ fuel => simp only [readMember, skipSpace_space]

/-! ## Every value reads back -/

theorem dumps_head (j : Json) :
    ∃ c cs, dumps j = c :: cs ∧ isSpace c = false ∧ c ≠ ']' ∧ c ≠ '}' := by
  match j with
  | .null => exact ⟨_, _, by rw [dumps]; rfl, by decide, by decide, by decide⟩
  | .bool true => exact ⟨_, _, by rw [dumps]; rfl, by decide, by decide, by decide⟩
  | .bool false => exact ⟨_, _, by rw [dumps]; rfl, by decide, by decide, by decide⟩
  | .num n =>
    obtain ⟨c, cs, htext, hc⟩ := render_head (.num n)
    rw [render] at htext
    exact ⟨c, cs, by rw [dumps, htext], hc⟩
  | .constant c =>
    obtain ⟨d, cs, htext, hd⟩ := render_head (.constant c)
    rw [render] at htext
    exact ⟨d, cs, by rw [dumps, htext], hd⟩
  | .str s => exact ⟨_, _, by rw [dumps]; rfl, by decide, by decide, by decide⟩
  | .arr [] => exact ⟨_, _, by rw [dumps], by decide, by decide, by decide⟩
  | .arr (x :: xs) => exact ⟨_, _, by rw [dumps], by decide, by decide, by decide⟩
  | .obj [] => exact ⟨_, _, by rw [dumps], by decide, by decide, by decide⟩
  | .obj ((k, v) :: ms) => exact ⟨_, _, by rw [dumps], by decide, by decide, by decide⟩

theorem ends_dumpsItems (xs : List Json) (rest : List Char) : Ends (dumpsItems xs ++ rest) := by
  cases xs with
  | nil => exact ends_cons (by decide) _
  | cons x xs => exact ends_cons (by decide) _

theorem ends_dumpsMembers (ms : List (String × Json)) (rest : List Char) :
    Ends (dumpsMembers ms ++ rest) := by
  cases ms with
  | nil => exact ends_cons (by decide) _
  | cons m ms => exact ends_cons (by decide) _

theorem readValue_atomText {j : Json} (hsame : dumps j = render j) (fuel : Nat)
    {rest : List Char} (hfuel : (dumps j).length ≤ fuel) (hends : Ends rest) :
    readValue fuel (dumps j ++ rest) = some (j, rest) := by
  rw [hsame] at hfuel ⊢
  exact readValue_render j fuel rest hfuel hends

mutual

-- As for `render`: every nested read has at least one character less.
theorem readValue_dumps : ∀ (j : Json) (fuel : Nat) (rest : List Char),
    (dumps j).length ≤ fuel → Ends rest → readValue fuel (dumps j ++ rest) = some (j, rest)
  | .null, fuel, _, h, hends => readValue_atomText (by rw [dumps, render]) fuel h hends
  | .bool true, fuel, _, h, hends => readValue_atomText (by rw [dumps, render]) fuel h hends
  | .bool false, fuel, _, h, hends => readValue_atomText (by rw [dumps, render]) fuel h hends
  | .num _, fuel, _, h, hends => readValue_atomText (by rw [dumps, render]) fuel h hends
  | .constant _, fuel, _, h, hends => readValue_atomText (by rw [dumps, render]) fuel h hends
  | .str _, fuel, _, h, hends => readValue_atomText (by rw [dumps, render]) fuel h hends
  | .arr [], fuel, _, h, hends => readValue_atomText (by rw [dumps, render]) fuel h hends
  | .obj [], fuel, _, h, hends => readValue_atomText (by rw [dumps, render]) fuel h hends
  | .arr (x :: xs), 0, _, h, _ => by simp [dumps] at h
  | .obj ((k, v) :: ms), 0, _, h, _ => by simp [dumps] at h
  | .arr (x :: xs), fuel + 1, rest, h, _ => by
    rw [dumps] at h ⊢
    simp only [List.length_cons, List.length_append] at h
    have hx := readValue_dumps x fuel (dumpsItems xs ++ rest) (by omega) (ends_dumpsItems xs rest)
    have hxs := readItems_dumps xs fuel rest (by omega)
    obtain ⟨c, cs, htext, hspace, hclose, -⟩ := dumps_head x
    rw [List.cons_append, List.append_assoc, htext, List.cons_append,
      readValue_arr hspace hclose, ← List.cons_append, ← htext, hx]
    simp only [hxs, Option.map_some]
  | .obj ((k, v) :: ms), fuel + 1, rest, h, _ => by
    rw [dumps] at h ⊢
    simp only [List.length_cons, List.length_append] at h
    have hm := readMember_dumps k v fuel (dumpsMembers ms ++ rest) (by omega)
      (ends_dumpsMembers ms rest)
    have hms := readMembers_dumps ms fuel rest (by omega)
    rw [List.cons_append, List.append_assoc, List.cons_append, List.cons_append, List.append_assoc]
    rw [quote, List.cons_append] at hm ⊢
    rw [readValue_obj (by decide) (by decide), hm]
    simp only [hms, Option.map_some]

theorem readItems_dumps : ∀ (xs : List Json) (fuel : Nat) (rest : List Char),
    (dumpsItems xs).length ≤ fuel → readItems fuel (dumpsItems xs ++ rest) = some (xs, rest)
  | [], 0, _, h => by simp [dumpsItems] at h
  | _ :: _, 0, _, h => by simp [dumpsItems] at h
  | [], fuel + 1, rest, _ => by
    rw [dumpsItems, List.cons_append, readItems, skipSpace_cons (by decide)]
    rfl
  | x :: xs, fuel + 1, rest, h => by
    rw [dumpsItems] at h ⊢
    simp only [List.length_cons, List.length_append] at h
    have hx := readValue_dumps x fuel (dumpsItems xs ++ rest) (by omega) (ends_dumpsItems xs rest)
    have hxs := readItems_dumps xs fuel rest (by omega)
    rw [List.cons_append, List.cons_append, List.append_assoc, readItems_cons, readValue_space, hx]
    simp only [hxs, Option.map_some]

theorem readMember_dumps : ∀ (k : String) (v : Json) (fuel : Nat) (rest : List Char),
    (quote k).length + ((dumps v).length + 1 + 1) ≤ fuel → Ends rest →
    readMember fuel (quote k ++ ':' :: ' ' :: (dumps v ++ rest)) = some ((k, v), rest)
  | _, _, 0, _, h, _ => by simp at h
  | k, v, fuel + 1, rest, h, hends => by
    have hv := readValue_dumps v fuel rest (by simp [quote] at h; omega) hends
    rw [readMember_cons, readValue_space, hv]
    rfl

theorem readMembers_dumps : ∀ (ms : List (String × Json)) (fuel : Nat) (rest : List Char),
    (dumpsMembers ms).length ≤ fuel →
    readMembers fuel (dumpsMembers ms ++ rest) = some (ms, rest)
  | [], 0, _, h => by simp [dumpsMembers] at h
  | (_, _) :: _, 0, _, h => by simp [dumpsMembers] at h
  | [], fuel + 1, rest, _ => by
    rw [dumpsMembers, List.cons_append]
    exact readMembers_close fuel rest
  | (k, v) :: ms, fuel + 1, rest, h => by
    rw [dumpsMembers] at h ⊢
    simp only [List.length_cons, List.length_append] at h
    have hm := readMember_dumps k v fuel (dumpsMembers ms ++ rest) (by omega)
      (ends_dumpsMembers ms rest)
    have hms := readMembers_dumps ms fuel rest (by omega)
    rw [List.cons_append, List.cons_append, List.append_assoc, List.cons_append,
      List.cons_append, List.append_assoc, readMembers_cons, readMember_space, hm]
    simp only [hms, Option.map_some]

end

theorem dumpsMembers_end (ms : List (String × Json)) :
    ∃ front, dumpsMembers ms = front ++ ['}'] := by
  induction ms with
  | nil => exact ⟨[], by rw [dumpsMembers]; rfl⟩
  | cons m ms ih =>
    obtain ⟨k, v⟩ := m
    obtain ⟨front, hfront⟩ := ih
    refine ⟨',' :: ' ' :: (quote k ++ ':' :: ' ' :: (dumps v ++ front)), ?_⟩
    rw [dumpsMembers, hfront]
    simp

theorem parse_dumps (j : Json) : parse (dumps j) = some j := by
  have hread := readValue_dumps j ((dumps j).length + 1) [] (by omega) ends_nil
  rw [List.append_nil] at hread
  unfold parse
  rw [hread]
  rfl

end Json
