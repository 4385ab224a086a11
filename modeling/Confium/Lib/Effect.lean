import Mathlib.Logic.Basic

/-!
# Computations That Leave a Log

A computation that does things on the way to its answer. `Eff` pairs the answer,
a value or an exception, with the list of events that happened before it, in
order. An exception keeps the events that preceded it and cuts off the ones that
would have followed, which is what makes the log worth having: it says how far a
computation got.

## Main definitions

* `Eff`: A log, and a value or an exception.
* `Eff.emit`, `Eff.perform`: An event, alone or with what came back.
* `Eff.raise`, `Eff.ofExcept`: Answers that leave no trace.
* `Eff.void`: A computation without what it returns.

## Theorems

* `Eff.log_bind_ok`, `Eff.log_bind_error`: Whose events a sequence has.
* `Eff.result_bind_ok`, `Eff.result_bind_error`: And whose answer.
* `Eff.result_bind_congr`: Sequences that go on alike end alike.
* `Eff.result_bind_eq_ok_iff`: A sequence returns when both its parts do.
-/

namespace Ruby

/-- A computation: the events it caused, in order, and how it ended. -/
@[ext] structure Eff (ω ε α : Type) where
  log : List ω
  result : Except ε α

namespace Eff

variable {ω ε α β : Type}

/-- One computation after another. An exception cuts the second off. -/
def andThen (x : Eff ω ε α) (f : α → Eff ω ε β) : Eff ω ε β :=
  match x.result with
  -- Nothing of `f` happens, not even its events.
  | .error e => ⟨x.log, .error e⟩
  | .ok a => ⟨x.log ++ (f a).log, (f a).result⟩

instance : Monad (Eff ω ε) where
  pure a := ⟨[], .ok a⟩
  bind := andThen

/-- An event. -/
def emit (w : ω) : Eff ω ε Unit := ⟨[w], .ok ()⟩

/-- An event, and what came back from it. -/
def perform (w : ω) (x : Except ε α) : Eff ω ε α := ⟨[w], x⟩

/-- An exception. -/
def raise (e : ε) : Eff ω ε α := ⟨[], .error e⟩

/-- A computation that causes no events. -/
def ofExcept (x : Except ε α) : Eff ω ε α := ⟨[], x⟩

/-- A computation without what it returns. -/
def void (x : Eff ω ε α) : Eff ω ε Unit := ⟨x.log, x.result.map (fun _ => ())⟩

@[simp] theorem log_pure (a : α) : (pure a : Eff ω ε α).log = [] := rfl

@[simp] theorem result_pure (a : α) : (pure a : Eff ω ε α).result = .ok a := rfl

@[simp] theorem log_ofExcept (x : Except ε α) : (ofExcept x : Eff ω ε α).log = [] := rfl

@[simp] theorem result_ofExcept (x : Except ε α) : (ofExcept x : Eff ω ε α).result = x := rfl

theorem bind_def (x : Eff ω ε α) (f : α → Eff ω ε β) : x >>= f = x.andThen f := rfl

theorem log_bind_ok (x : Eff ω ε α) (f : α → Eff ω ε β) (a : α) (h : x.result = .ok a) :
    (x >>= f).log = x.log ++ (f a).log := by
  rw [bind_def, andThen, h]

theorem result_bind_ok (x : Eff ω ε α) (f : α → Eff ω ε β) (a : α) (h : x.result = .ok a) :
    (x >>= f).result = (f a).result := by
  rw [bind_def, andThen, h]

theorem log_bind_error (x : Eff ω ε α) (f : α → Eff ω ε β) (e : ε) (h : x.result = .error e) :
    (x >>= f).log = x.log := by
  rw [bind_def, andThen, h]

theorem result_bind_error (x : Eff ω ε α) (f : α → Eff ω ε β) (e : ε)
    (h : x.result = .error e) : (x >>= f).result = .error e := by
  rw [bind_def, andThen, h]

/-- What returns at once adds nothing. -/
theorem ofExcept_ok_bind (a : α) (f : α → Eff ω ε β) : (ofExcept (.ok a) >>= f) = f a := rfl

/-- A sequence ends as another one does that goes on alike. -/
theorem result_bind_congr (x : Eff ω ε α) (f g : α → Eff ω ε β)
    (h : ∀ a, x.result = .ok a → (f a).result = (g a).result) :
    (x >>= f).result = (x >>= g).result := by
  cases hx : x.result with
  | error e => rw [result_bind_error x f e hx, result_bind_error x g e hx]
  | ok a => rw [result_bind_ok x f a hx, result_bind_ok x g a hx, h a hx]

/-- The events of the first part come first. -/
theorem log_bind_eq_append (x : Eff ω ε α) (f : α → Eff ω ε β) :
    ∃ rest, (x >>= f).log = x.log ++ rest := by
  cases hx : x.result with
  | error e => exact ⟨[], by rw [log_bind_error x f e hx, List.append_nil]⟩
  | ok a => exact ⟨(f a).log, log_bind_ok x f a hx⟩

/-- A sequence returns when both its parts do. -/
theorem result_bind_eq_ok_iff (x : Eff ω ε α) (f : α → Eff ω ε β) (b : β) :
    (x >>= f).result = .ok b ↔ ∃ a, x.result = .ok a ∧ (f a).result = .ok b := by
  rw [bind_def, andThen]
  cases x.result with
  | error e => simp only [reduceCtorEq, false_and, exists_false]
  | ok a => simp only [Except.ok.injEq, exists_eq_left']

end Eff

end Ruby
