import Mathlib.Data.List.Forall2
import Confium.Lib.Run

/-!
# Simulations Between Machines

Two machines driven side by side. A simulation relates their states, the
operations they are given and the answers they return, and asks one thing: from
related states, related operations get related answers and lead to related
states. It then relates whole runs, which is the only rule there is.

The two machines may be an implementation and what it is for, or one machine and
a second copy of it started somewhere else. In the second reading a simulation
says what an observer who sees only the answers cannot find out.

## Main definitions

* `answers`: The answers a list of operations gets.
* `Simulation`: Related steps.

## Theorems

* `exists_step_of_answers`: Recorded answers are answers of steps.
* `Simulation.run`: Related runs.
* `Simulation.answers_eq`: The answers, when related means equal.
-/

namespace Machine

variable {σ τ α β γ δ : Type}

/-- The answers a list of operations gets, in order. -/
def answers (step : Step σ α β) (s : σ) (as : List α) : List β :=
  (trace step s as).map Transition.out

theorem answers_cons (step : Step σ α β) (s : σ) (a : α) (as : List α) :
    answers step s (a :: as) = (step s a).1 :: answers step (step s a).2 as := rfl

theorem answers_append (step : Step σ α β) (s : σ) (as bs : List α) :
    answers step s (as ++ bs) = answers step s as ++ answers step (run step s as) bs := by
  rw [answers, trace_append, List.map_append]
  rfl

/-- What is recorded of each operation is the answer of a step. -/
theorem exists_step_of_answers {ε : Type} (step : Step σ α β) (out : ε → β) (op : ε → α) (s : σ)
    (xs : List ε) (h : xs.map out = answers step s (xs.map op)) :
    ∀ x ∈ xs, ∃ s', out x = (step s' (op x)).1 := by
  induction xs generalizing s with
  | nil => exact fun _ hx => absurd hx List.not_mem_nil
  | cons x xs ih =>
      rw [List.map_cons, List.map_cons, answers_cons, List.cons.injEq] at h
      rw [List.forall_mem_cons]
      exact ⟨⟨s, h.1⟩, ih _ h.2⟩

/-- Related operations keep related states related, and get related answers. -/
structure Simulation (step : Step σ α β) (step' : Step τ γ δ) where
  state : σ → τ → Prop
  op : α → γ → Prop
  answer : β → δ → Prop
  keeps : ∀ s t a c, state s t → op a c →
    answer (step s a).1 (step' t c).1 ∧ state (step s a).2 (step' t c).2

namespace Simulation

variable {step : Step σ α β} {step' : Step τ γ δ}

/-- Related lists of operations get related answers and lead to related
    states. -/
theorem run (sim : Simulation step step') (s : σ) (t : τ) (as : List α) (cs : List γ)
    (hst : sim.state s t) (hops : List.Forall₂ sim.op as cs) :
    List.Forall₂ sim.answer (answers step s as) (answers step' t cs) ∧
      sim.state (Machine.run step s as) (Machine.run step' t cs) := by
  induction hops generalizing s t with
  | nil => exact ⟨List.Forall₂.nil, hst⟩
  | cons hop hrest ih =>
      have hstep := sim.keeps s t _ _ hst hop
      have hih := ih _ _ hstep.2
      rw [answers_cons, answers_cons]
      exact ⟨List.Forall₂.cons hstep.1 hih.1, hih.2⟩

/-- The same operations get the same answers. -/
theorem answers_eq {step' : Step τ α β} (sim : Simulation step step')
    (hanswer : ∀ b d, sim.answer b d → b = d) (s : σ) (t : τ) (as : List α)
    (hst : sim.state s t) (hops : ∀ a ∈ as, sim.op a a) :
    answers step s as = answers step' t as ∧
      sim.state (Machine.run step s as) (Machine.run step' t as) := by
  have hrun := sim.run s t as as hst (List.forall₂_same.mpr hops)
  refine ⟨?_, hrun.2⟩
  rw [← List.forall₂_eq_eq_eq]
  exact hrun.1.imp hanswer

end Simulation

end Machine
