/-! # Computations with a log

A computation that appends entries to a log and then returns or raises. What was logged stays
logged when it raises, and `attempt` is a `try`: it hands the outcome on as a value.

`Ensures P Q x` is the partial-correctness triple of such a computation: every entry `x` logs
satisfies `P`, and a value it returns satisfies `Q`. One rule for each way to build a
computation carries it through a program, loops by induction.
-/

structure Logged (ω ε α : Type) where
  log : List ω
  result : Except ε α

namespace Logged

variable {ω ε α β : Type}

protected def bind (x : Logged ω ε α) (f : α → Logged ω ε β) : Logged ω ε β :=
  match x.result with
  | .ok a => ⟨x.log ++ (f a).log, (f a).result⟩
  | .error e => ⟨x.log, .error e⟩

instance : Monad (Logged ω ε) where
  pure a := ⟨[], .ok a⟩
  bind := Logged.bind

def lift (result : Except ε α) : Logged ω ε α := ⟨[], result⟩

def raise (e : ε) : Logged ω ε α := lift (.error e)

def perform (entry : ω) (result : Except ε α) : Logged ω ε α := ⟨[entry], result⟩

/-- The computation with every entry of its log rewritten. -/
def mapLog {ω' : Type} (f : ω → ω') (x : Logged ω ε α) : Logged ω' ε α := ⟨x.log.map f, x.result⟩

/-- `try x`: the outcome as a value. -/
def attempt (x : Logged ω ε α) : Logged ω ε (Except ε α) := ⟨x.log, .ok x.result⟩

/-! ## Triples -/

def Ensures (P : ω → Prop) (Q : α → Prop) (x : Logged ω ε α) : Prop :=
  (∀ entry ∈ x.log, P entry) ∧ ∀ a, x.result = .ok a → Q a

variable {P : ω → Prop} {Q : α → Prop} {R : β → Prop} {x : Logged ω ε α} {f : α → Logged ω ε β}

theorem ensures_lift {result : Except ε α} (h : ∀ a, result = .ok a → Q a) :
    Ensures P Q (lift result : Logged ω ε α) :=
  ⟨fun _ hmem => absurd hmem List.not_mem_nil, h⟩

theorem ensures_pure {a : α} (h : Q a) : Ensures P Q (pure a : Logged ω ε α) :=
  ensures_lift fun _ hb => Except.ok.inj hb ▸ h

theorem ensures_raise (e : ε) : Ensures P Q (raise e : Logged ω ε α) :=
  ensures_lift fun _ h => nomatch h

theorem ensures_perform {entry : ω} {result : Except ε α} (hentry : P entry)
    (h : ∀ a, result = .ok a → Q a) : Ensures P Q (perform entry result) :=
  ⟨fun _ hmem => (List.mem_singleton.mp hmem) ▸ hentry, h⟩

theorem Ensures.bind (hx : Ensures P Q x) (hf : ∀ a, Q a → Ensures P R (f a)) :
    Ensures P R (x >>= f) := by
  show Ensures P R (Logged.bind x f)
  unfold Logged.bind
  split
  · next a ha =>
    have hrest := hf a (hx.2 a ha)
    refine ⟨fun entry hmem => ?_, hrest.2⟩
    rcases List.mem_append.mp hmem with hleft | hright
    · exact hx.1 entry hleft
    · exact hrest.1 entry hright
  · exact ⟨hx.1, fun _ h => nomatch h⟩

theorem Ensures.attempt (hx : Ensures P Q x) :
    Ensures P (fun outcome => ∀ a, outcome = .ok a → Q a) (attempt x) :=
  ⟨hx.1, fun _ h => Except.ok.inj h ▸ hx.2⟩

theorem Ensures.weaken {Q' : α → Prop} (hx : Ensures P Q x) (h : ∀ a, Q a → Q' a) :
    Ensures P Q' x :=
  ⟨hx.1, fun a ha => h a (hx.2 a ha)⟩

theorem Ensures.mapLog {ω' : Type} {g : ω → ω'} {P' : ω' → Prop} (hx : Ensures P Q x)
    (h : ∀ entry, P entry → P' (g entry)) : Ensures P' Q (mapLog g x) := by
  refine ⟨fun entry hmem => ?_, hx.2⟩
  obtain ⟨e, he, heq⟩ := List.mem_map.mp hmem
  rw [← heq]
  exact h e (hx.1 e he)

/-! ## Following one run -/

theorem bind_of_ok {a : α} (h : x.result = .ok a) :
    x >>= f = ⟨x.log ++ (f a).log, (f a).result⟩ := by
  show Logged.bind x f = _
  unfold Logged.bind
  rw [h]

theorem bind_of_error {e : ε} (h : x.result = .error e) : x >>= f = ⟨x.log, .error e⟩ := by
  show Logged.bind x f = _
  unfold Logged.bind
  rw [h]

theorem bind_raise {a : α} (h : x.result = .ok a) (e : ε) :
    (x >>= fun _ => (raise e : Logged ω ε β)) = ⟨x.log, .error e⟩ := by
  rw [bind_of_ok h]
  show (⟨x.log ++ [], .error e⟩ : Logged ω ε β) = _
  rw [List.append_nil]

theorem bind_lift {g : α → Except ε β} :
    (x >>= fun a => (lift (g a) : Logged ω ε β)) = ⟨x.log, x.result >>= g⟩ := by
  cases h : x.result with
  | error e => exact bind_of_error h
  | ok a =>
    rw [bind_of_ok h]
    show (⟨x.log ++ [], g a⟩ : Logged ω ε β) = _
    rw [List.append_nil]
    rfl

theorem bind_pure_map {g : α → β} :
    (x >>= fun a => (pure (g a) : Logged ω ε β)) = ⟨x.log, x.result.map g⟩ := by
  have hlift := bind_lift (x := x) (g := fun a => .ok (g a))
  cases h : x.result with
  | error e => exact bind_of_error h
  | ok a =>
    rw [h] at hlift
    exact hlift

/-- Behind a `try` the outcome is a value. -/
theorem attempt_bind {g : Except ε α → Logged ω ε β} :
    attempt x >>= g = ⟨x.log ++ (g x.result).log, (g x.result).result⟩ := rfl

theorem lift_bind {result : Except ε α} {a : α} (h : result = .ok a) :
    lift result >>= f = f a := by
  rw [bind_of_ok (show (lift result : Logged ω ε α).result = .ok a from h)]
  rfl

theorem mem_log_bind {entry : ω} {a : α} (h : x.result = .ok a) (hmem : entry ∈ (f a).log) :
    entry ∈ (x >>= f).log := by
  rw [bind_of_ok h]
  exact List.mem_append_right _ hmem

theorem mem_log_bind_left {entry : ω} (hmem : entry ∈ x.log) : entry ∈ (x >>= f).log := by
  show entry ∈ (Logged.bind x f).log
  unfold Logged.bind
  split
  · exact List.mem_append_left _ hmem
  · exact hmem

theorem result_bind {a : α} (h : x.result = .ok a) : (x >>= f).result = (f a).result := by
  rw [bind_of_ok h]

end Logged
