import LlmProxy.Breaker.Errors
import LlmProxy.Dispatch.Calls

/-! # The retry wrapper

`acompletion_with_retry` (`app/routing/retry.py`) and the registry of retired models it looks a
replacement up in (`app/providers/deprecations.py`).

Mirroring notes.
* The emergency stop is one of the exceptions a call can meet.
* The update of `default_model` that goes with a replacement is left out.
* After the fourth attempt the loop ends without a result, and the wrapper returns `None`: so it
  does when a retired model is replaced there.
-/

namespace LlmProxy.Dispatch

/-- `MODEL_DEPRECATIONS`. -/
def modelDeprecations : List (String × String) :=
  [ ("gemini-2.0-flash", "gemini-2.5-flash"),
    ("gemini-2.0-flash-exp", "gemini-2.5-flash"),
    ("gemini-2.0-pro", "gemini-2.5-pro"),
    ("gemini-2.0-pro-exp", "gemini-2.5-pro"),
    ("gemini-1.5-flash", "gemini-2.5-flash"),
    ("gemini-1.5-flash-8b", "gemini-2.5-flash"),
    ("gemini-1.5-pro", "gemini-2.5-pro"),
    ("models/gemini-2.0-flash", "gemini-2.5-flash"),
    ("models/gemini-1.5-flash", "gemini-2.5-flash"),
    ("models/gemini-1.5-pro", "gemini-2.5-pro"),
    ("gemini/gemini-2.0-flash", "gemini/gemini-2.5-flash"),
    ("gemini/gemini-1.5-flash", "gemini/gemini-2.5-flash"),
    ("gemini/gemini-1.5-pro", "gemini/gemini-2.5-pro"),
    ("claude-3-5-sonnet-20241022", "claude-sonnet-4-6"),
    ("claude-3-5-sonnet-20240620", "claude-sonnet-4-6"),
    ("claude-3-opus-20240229", "claude-opus-4-7"),
    ("claude-3-haiku-20240307", "claude-haiku-4-5"),
    ("anthropic/claude-3-5-sonnet-20241022", "anthropic/claude-sonnet-4-6"),
    ("anthropic/claude-3-opus-20240229", "anthropic/claude-opus-4-7"),
    ("anthropic/claude-3-haiku-20240307", "anthropic/claude-haiku-4-5"),
    ("gpt-4-turbo", "gpt-4o"),
    ("gpt-4-turbo-preview", "gpt-4o"),
    ("gpt-4-0125-preview", "gpt-4o"),
    ("gpt-3.5-turbo-16k", "gpt-4o-mini"),
    ("openai/gpt-4-turbo", "openai/gpt-4o"),
    ("openai/gpt-3.5-turbo-16k", "openai/gpt-4o-mini") ]

/-- `model.split("/", 1)`, of a model with a slash. -/
def splitSlash (model : String) : String × String :=
  (String.ofList (model.toList.takeWhile (· ≠ '/')),
    String.ofList ((model.toList.dropWhile (· ≠ '/')).drop 1))

def hasSlash (model : String) : Bool := PyStr.containsChar model '/'

/-- `_strip_prefix`. -/
def stripPrefix (model : String) : String := if hasSlash model then (splitSlash model).2 else model

/-- `_replacement_for`. -/
def replacementFor (model : String) : Option String :=
  match modelDeprecations.lookup model with
  | some direct => some direct
  | none =>
    (modelDeprecations.lookup (stripPrefix model)).map fun bareRepl =>
      if hasSlash model && !hasSlash bareRepl then (splitSlash model).1 ++ "/" ++ bareRepl
      else bareRepl

theorem splitSlash_append {model : String} (h : hasSlash model = true) :
    (splitSlash model).1 ++ "/" ++ (splitSlash model).2 = model := by
  have hmem : '/' ∈ model.toList := by simpa [hasSlash, PyStr.containsChar] using h
  cases hdrop : model.toList.dropWhile (· ≠ '/') with
  | nil => exact absurd (List.dropWhile_eq_nil_iff.mp hdrop _ hmem) (by decide)
  | cons c rest =>
    have hc : c = '/' := by
      have hhead := List.head?_dropWhile_not (· ≠ '/') model.toList
      rw [hdrop] at hhead
      simpa using hhead
    have hsplit := List.takeWhile_append_dropWhile (p := (· ≠ '/')) (l := model.toList)
    rw [hdrop, hc] at hsplit
    refine String.toList_inj.mp ?_
    simp only [splitSlash, String.toList_append, String.toList_ofList, hdrop]
    simpa using hsplit

theorem replacementFor_ne {model replacement : String} (h : replacementFor model = some replacement) :
    replacement ≠ model := by
  have hentries : ∀ entry ∈ modelDeprecations, entry.2 ≠ entry.1 ∧
      (hasSlash entry.2 = true → stripPrefix entry.2 ≠ entry.1) := by decide +kernel
  have hentry : ∀ {key value : String}, List.lookup key modelDeprecations = some value →
      (key, value) ∈ modelDeprecations := by
    intro key value hlookup
    obtain ⟨before, after, heq, -⟩ := List.lookup_eq_some_iff.mp hlookup
    rw [heq]
    exact List.mem_append_right _ List.mem_cons_self
  unfold replacementFor at h
  cases hdirect : List.lookup model modelDeprecations with
  | some direct =>
    rw [hdirect] at h
    obtain rfl := Option.some.inj h
    exact (hentries _ (hentry hdirect)).1
  | none =>
    rw [hdirect] at h
    obtain ⟨bareRepl, hbare, hrepl⟩ := Option.map_eq_some_iff.mp h
    obtain ⟨hne, hprefixed⟩ := hentries _ (hentry hbare)
    rintro rfl
    split at hrepl
    · next hslash =>
      simp only [Bool.and_eq_true] at hslash
      have hstrip : stripPrefix replacement = (splitSlash replacement).2 := if_pos hslash.1
      refine hne ?_
      have hsame := hrepl.trans (splitSlash_append hslash.1).symm
      rw [hstrip]
      exact String.append_right_inj _ |>.mp hsame
    · next hslash =>
      rw [hrepl] at hprefixed hne
      by_cases h : hasSlash replacement = true
      · exact hprefixed h rfl
      · have hstrip : stripPrefix replacement = replacement := if_neg h
        exact hne hstrip.symm

/-- What `litellm.acompletion` comes to. -/
inductive LitellmOutcome (α : Type) where
  | answered (answer : α)
  | notFound (exc : Failure)
  | rateLimited (exc : Failure)
  | raised (exc : Failure)

/-- The loop: `left` attempts to go, the n-th next; `bumped` once a replacement is in place. -/
def retryFrom {α : Type} (outcome : Nat → LitellmOutcome α) :
    Nat → Nat → Bool → String → Except Failure (Option (α × String))
  | 0, _, _, _ => .ok none
  | left + 1, n, bumped, model =>
    match outcome n with
    | .answered answer => .ok (some (answer, model))
    | .notFound exc =>
      if bumped then .error exc
      else
        match replacementFor model with
        | none => .error exc
        | some replacement => retryFrom outcome left (n + 1) true replacement
    | .rateLimited exc =>
      if Breaker.isBillingError exc.message || left = 0 then .error exc
      else retryFrom outcome left (n + 1) bumped model
    | .raised exc => .error exc

/-- `acompletion_with_retry`: the answer, and the model that gave it. -/
def answeredWithRetry {α : Type} (outcome : Nat → LitellmOutcome α) (model : String) :
    Except Failure (Option (α × String)) :=
  retryFrom outcome 4 0 false model

end LlmProxy.Dispatch
