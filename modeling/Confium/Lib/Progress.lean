import Mathlib.Data.List.Count
import Confium.Lib.Run

/-!
# Progress Along Runs

A bound on how long something can be put off. A rank says how far a state is from
what is wanted. No operation raises it, and the useful ones lower it as long as it
is not zero. Then a run reaches rank zero once it has as many useful operations as
the rank it started from, whatever else is in it and in whatever order. No fairness
is assumed: the count says how much of it is needed.

The rank may make sense only in part of the states and for some operations, which
is what the invariant and `allowed` are for.

## Main definitions

* `Ranked`: A rank, and what operations do to it.

## Theorems

* `Ranked.run`: The rank after a run.
* `Ranked.run_eq_zero`: Enough useful operations.
-/

namespace Machine

variable {σ α β : Type}

/-- A rank that allowed operations do not raise and useful ones lower, as long as
    an invariant holds. -/
structure Ranked (step : Step σ α β) where
  inv : σ → Prop
  allowed : α → Prop
  useful : α → Bool
  rank : σ → Nat
  keeps : ∀ s a, inv s → allowed a → inv (step s a).2
  le : ∀ s a, inv s → allowed a → rank (step s a).2 ≤ rank s
  lt : ∀ s a, inv s → allowed a → useful a = true → 0 < rank s → rank (step s a).2 < rank s

namespace Ranked

variable {step : Step σ α β}

/-- Each useful operation of a run takes one off the rank. -/
theorem run (r : Ranked step) (s : σ) (as : List α) (hs : r.inv s)
    (has : ∀ a ∈ as, r.allowed a) :
    r.inv (Machine.run step s as) ∧
      r.rank (Machine.run step s as) ≤ r.rank s - as.countP r.useful := by
  induction as generalizing s with
  | nil => exact ⟨hs, Nat.le_refl _⟩
  | cons a rest ih =>
      have ha := has a List.mem_cons_self
      have hrest := ih (step s a).2 (r.keeps s a hs ha)
        (fun b hb => has b (List.mem_cons_of_mem a hb))
      refine ⟨hrest.1, Nat.le_trans hrest.2 ?_⟩
      have hle := r.le s a hs ha
      rw [List.countP_cons]
      by_cases hu : r.useful a = true
      · rw [if_pos hu]
        by_cases hpos : 0 < r.rank s
        · have hlt := r.lt s a hs ha hu hpos
          omega
        · omega
      · rw [if_neg hu]
        omega

/-- With enough useful operations a run gets there. -/
theorem run_eq_zero (r : Ranked step) (s : σ) (as : List α) (hs : r.inv s)
    (has : ∀ a ∈ as, r.allowed a) (hcount : r.rank s ≤ as.countP r.useful) :
    r.rank (Machine.run step s as) = 0 := by
  have hrun := (r.run s as hs has).2
  omega

end Ranked

end Machine
