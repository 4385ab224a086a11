import Mathlib.Order.Basic
import Mathlib.Data.List.Induction

/-!
# Runs of a Responding Machine

A machine that answers every operation it is given and moves on: one step
takes a state and an operation to an answer and a next state. Nothing is said
about whether the answer is a success. An operation that fails still has a
next state, which need not be the state it started from, so a run never gets
stuck and a rejected operation is an ordinary step of it.

`run` is where a list of operations ends up and `trace` is everything that
happened on the way, each step recorded with the states on both sides of it.
The properties of interest come in three shapes, and each has its rule here.

`run_induct` is the plain invariant: true at the start, kept by every step.
`history_induct` lets the invariant mention the trace so far, which is what
relates a store to the operations that filled it. `forall_trace_iff` reduces
a statement about every step of a run to one about a step taken from any state
the run passes through.

`pairwise_states_iff` is the rule for quantities that only grow. Comparing
every earlier state of a run with every later one is the same as comparing the
two ends of each step, the order being transitive.

## Main definitions

* `Step`: One step's answer and next state.
* `Transition`: A step that was taken, with the states around it.
* `run`: The state a list of operations leads to.
* `trace`: The transitions a list of operations makes.
* `states`: The states a list of operations passes through.

## Theorems

* `run_append`, `trace_append`: Splitting a list of operations.
* `run_congr`: The answers have no part in where a run ends up.
* `length_trace`: One transition for each operation.
* `eq_transition_of_mem_zip`: Each operation beside the step it makes.
* `mem_trace_iff`: A transition of a run is a step from some prefix's state.
* `run_induct`, `run_induct_of_mem`: Invariants hold along runs.
* `run_filter`: Operations that change nothing can be left out.
* `history_induct`: Invariants may mention the trace so far.
* `forall_trace_iff`: Every transition, by way of every prefix.
* `forall_states_iff`, `forall_states_of_trace`: Every state of a run, by way of
  its transitions.
* `pairwise_states_iff`: A run is monotone exactly when its steps are.
-/

namespace Machine

/-- One step: the answer given and the state moved to. -/
abbrev Step (σ α β : Type) := σ → α → β × σ

/-- A step that was taken. -/
structure Transition (σ α β : Type) where
  before : σ
  op : α
  out : β
  after : σ

variable {σ α β : Type}

/-- The transition a machine makes from a state on an operation. -/
def Step.transition (step : Step σ α β) (s : σ) (a : α) : Transition σ α β :=
  ⟨s, a, (step s a).1, (step s a).2⟩

def run (step : Step σ α β) : σ → List α → σ
  | s, [] => s
  | s, a :: rest => run step (step s a).2 rest

def trace (step : Step σ α β) : σ → List α → List (Transition σ α β)
  | _, [] => []
  | s, a :: rest => step.transition s a :: trace step (step s a).2 rest

/-- Every state a run passes through, the first and the last included. -/
def states (step : Step σ α β) : σ → List α → List σ
  | s, [] => [s]
  | s, a :: rest => s :: states step (step s a).2 rest

theorem run_append (step : Step σ α β) (s : σ) (as bs : List α) :
    run step s (as ++ bs) = run step (run step s as) bs := by
  induction as generalizing s with
  | nil => rfl
  | cons a rest ih =>
      rw [List.cons_append, run, run]
      exact ih _

theorem trace_append (step : Step σ α β) (s : σ) (as bs : List α) :
    trace step s (as ++ bs) = trace step s as ++ trace step (run step s as) bs := by
  induction as generalizing s with
  | nil => rfl
  | cons a rest ih =>
      rw [List.cons_append, trace, trace, run, List.cons_append]
      rw [ih]

/-- The answers have no part in where a run ends up. -/
theorem run_congr {γ : Type} (step : Step σ α β) (step' : Step σ α γ)
    (h : ∀ s a, (step' s a).2 = (step s a).2) (s : σ) (as : List α) :
    run step' s as = run step s as := by
  induction as generalizing s with
  | nil => rfl
  | cons a rest ih => rw [run, run, h, ih]

theorem trace_snoc (step : Step σ α β) (s : σ) (as : List α) (a : α) :
    trace step s (as ++ [a]) = trace step s as ++ [step.transition (run step s as) a] := by
  rw [trace_append, trace, trace]

theorem run_snoc (step : Step σ α β) (s : σ) (as : List α) (a : α) :
    run step s (as ++ [a]) = (step (run step s as) a).2 := by
  rw [run_append, run, run]

theorem length_trace (step : Step σ α β) (s : σ) (as : List α) :
    (trace step s as).length = as.length := by
  induction as generalizing s with
  | nil => rfl
  | cons a rest ih => rw [trace, List.length_cons, ih, List.length_cons]

/-- Operations that stand for something else, paired with the transitions they
    make: each pair is one step. -/
theorem eq_transition_of_mem_zip {δ : Type} (step : Step σ α β) (f : δ → α) (s : σ) (ds : List δ)
    (p : δ × Transition σ α β) (h : p ∈ ds.zip (trace step s (ds.map f))) :
    p.2 = step.transition p.2.before (f p.1) := by
  induction ds generalizing s with
  | nil => exact absurd h List.not_mem_nil
  | cons d rest ih =>
      rw [List.map_cons, trace, List.zip_cons_cons, List.mem_cons] at h
      rcases h with rfl | h
      · rfl
      · exact ih _ h

/-- A transition belongs to a run exactly when some prefix of the operations
    leads to the state it starts from and its operation comes next. -/
theorem mem_trace_iff (step : Step σ α β) (s : σ) (as : List α) (t : Transition σ α β) :
    t ∈ trace step s as ↔
      ∃ pre a post, as = pre ++ a :: post ∧ t = step.transition (run step s pre) a := by
  constructor
  · intro h
    induction as generalizing s with
    | nil => exact absurd h List.not_mem_nil
    | cons a rest ih =>
        rw [trace, List.mem_cons] at h
        rcases h with ht | ht
        · exact ⟨[], a, rest, rfl, ht⟩
        · rcases ih _ ht with ⟨pre, b, post, has, hb⟩
          exact ⟨a :: pre, b, post, by rw [has, List.cons_append], hb⟩
  · rintro ⟨pre, a, post, has, ht⟩
    rw [has, trace_append, List.mem_append, trace, List.mem_cons]
    exact Or.inr (Or.inl ht)

/-- An invariant true at the start and kept by every step holds wherever a
    run ends up. -/
theorem run_induct (step : Step σ α β) (P : σ → Prop) (s : σ) (as : List α) (h0 : P s)
    (hstep : ∀ s a, P s → P (step s a).2) : P (run step s as) := by
  induction as generalizing s with
  | nil => exact h0
  | cons a rest ih => exact ih _ (hstep s a h0)

/-- The same, when only the operations of the run are known to keep it. -/
theorem run_induct_of_mem (step : Step σ α β) (P : σ → Prop) (s : σ) (as : List α) (h0 : P s)
    (hstep : ∀ s a, a ∈ as → P s → P (step s a).2) : P (run step s as) := by
  induction as generalizing s with
  | nil => exact h0
  | cons a rest ih =>
      exact ih _ (hstep s a List.mem_cons_self h0)
        (fun s' b hb => hstep s' b (List.mem_cons_of_mem a hb))

/-- Operations that never move the machine can be left out of a run. -/
theorem run_filter (step : Step σ α β) (keep : α → Bool)
    (h : ∀ s a, keep a = false → (step s a).2 = s) (s : σ) (as : List α) :
    run step s (as.filter keep) = run step s as := by
  induction as generalizing s with
  | nil => rfl
  | cons a rest ih =>
      by_cases hkeep : keep a = true
      · rw [List.filter_cons_of_pos hkeep, run, run, ih]
      · rw [List.filter_cons_of_neg hkeep, run, ih]
        rw [h s a ((Bool.not_eq_true _).mp hkeep)]

/-- The same, for an invariant that relates the state to what has happened so
    far. The induction is from the end, each operation extending the trace by
    the transition it makes. -/
theorem history_induct (step : Step σ α β) (P : List (Transition σ α β) → σ → Prop) (s : σ)
    (as : List α) (h0 : P [] s)
    (hstep : ∀ tr s a, P tr s → P (tr ++ [step.transition s a]) (step s a).2) :
    P (trace step s as) (run step s as) := by
  induction as using List.reverseRecOn with
  | nil => exact h0
  | append_singleton rest a ih =>
      rw [trace_snoc, run_snoc]
      exact hstep _ _ _ ih

theorem forall_trace_iff (step : Step σ α β) (s : σ) (as : List α)
    (P : Transition σ α β → Prop) :
    (∀ t ∈ trace step s as, P t) ↔
      ∀ pre a post, as = pre ++ a :: post → P (step.transition (run step s pre) a) := by
  constructor
  · intro h pre a post has
    exact h _ ((mem_trace_iff step s as _).mpr ⟨pre, a, post, has, rfl⟩)
  · intro h t ht
    rcases (mem_trace_iff step s as t).mp ht with ⟨pre, a, post, has, htt⟩
    rw [htt]
    exact h pre a post has

/-- Every state of a run is the first one or the one some step moved to. -/
theorem forall_states_iff (step : Step σ α β) (P : σ → Prop) (s : σ) (as : List α) :
    (∀ s' ∈ states step s as, P s') ↔ P s ∧ ∀ t ∈ trace step s as, P t.after := by
  induction as generalizing s with
  | nil =>
      simp only [states, trace, List.forall_mem_singleton, List.not_mem_nil, false_implies,
        implies_true, and_true]
  | cons a rest ih =>
      rw [states, trace, List.forall_mem_cons, List.forall_mem_cons, ih]
      rfl

/-- A property of states that the transitions of a run carry over holds of
    every state the run passes through. -/
theorem forall_states_of_trace (step : Step σ α β) (P : σ → Prop) (s : σ) (as : List α)
    (h0 : P s) (hstep : ∀ t ∈ trace step s as, P t.before → P t.after) :
    ∀ s' ∈ states step s as, P s' := by
  induction as generalizing s with
  | nil =>
      intro s' hs'
      rw [states, List.mem_singleton] at hs'
      rw [hs']
      exact h0
  | cons a rest ih =>
      rw [trace, List.forall_mem_cons] at hstep
      rw [states, List.forall_mem_cons]
      exact ⟨h0, ih _ (hstep.1 h0) hstep.2⟩

/-- A run is monotone exactly when each of its steps is. -/
theorem pairwise_states_iff {γ : Type} [Preorder γ] (step : Step σ α β) (f : σ → γ) (s : σ)
    (as : List α) :
    ((states step s as).map f).Pairwise (· ≤ ·) ↔
      ∀ t ∈ trace step s as, f t.before ≤ f t.after := by
  induction as generalizing s with
  | nil =>
      simp only [states, trace, List.map_cons, List.map_nil, List.pairwise_singleton,
        List.not_mem_nil, false_implies, implies_true]
  | cons a rest ih =>
      have hhead : ∀ u as, f u ∈ (states step u as).map f := by
        intro u as
        cases as <;> exact List.mem_cons_self
      rw [states, trace, List.map_cons, List.pairwise_cons, List.forall_mem_cons, ih]
      constructor
      · rintro ⟨hle, hrest⟩
        exact ⟨hle _ (hhead _ rest), hrest⟩
      · rintro ⟨hle, hrest⟩
        refine ⟨?_, hrest⟩
        -- The tail is monotone, so its first state bounds all of it from below.
        have hpair := (ih (step s a).2).mpr hrest
        intro y hy
        cases rest with
        | nil =>
            simp only [states, List.map_cons, List.map_nil, List.mem_singleton] at hy
            rw [hy]
            exact hle
        | cons b more =>
            rw [states, List.map_cons, List.pairwise_cons] at hpair
            rw [states, List.map_cons, List.mem_cons] at hy
            rcases hy with hy | hy
            · rw [hy]
              exact hle
            · exact le_trans hle (hpair.1 y hy)

end Machine
