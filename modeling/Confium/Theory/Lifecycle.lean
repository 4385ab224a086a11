import Confium.Core.SigningSession

/-!
# The Session Lifecycle

Whether a session's state only moves forward. Two operations write the state
and neither looks at what it is: an accepted commitment that brings the count
to the threshold writes `commitments_collected`, and a successful aggregation
writes `completed`. The second is the top of the order, so it can only move the
session forward. The first is not, and it is the whole of the question.

`step_state_le_iff` settles one step. The state goes backwards exactly when a
new signer's commitment crosses the threshold on a session already completed,
which is what `LateCommitment` says. The run is then the steps of the run:
`states_monotone_iff` reads the state sequence of any list of operations as
monotone exactly when no operation in it is late.

Neither side of that is vacuous. A session that collects its commitments before
it aggregates never meets a late one, and `completed_session_reopens` is a
session that aggregates first.

## Main definitions

* `LateCommitment`: A commitment that would reopen a completed session.

## Theorems

* `lateCommitment_addCommitment_iff`: Which commitments are late.
* `step_state_le_iff`: One operation moves the state forward unless it is late.
* `states_monotone_iff`: The state sequence is monotone exactly when no
  operation is late.
* `completed_session_reopens`: A session that reports `completed` and then
  `commitments_collected`.
-/

namespace Confium

open Ruby

namespace SigningSession

variable {V ρ : Type} [DecidableEq V] [Object V]

/-- A new signer's commitment that brings a completed session's commitment
    count to the threshold `t`. -/
def LateCommitment (t : Int) (s : SigningSession V) (op : SessionOp V ρ) : Prop :=
  s.state = .completed ∧ ∃ signerId bytes, op = .addCommitment signerId bytes ∧
    s.commitments.get? (Object.key signerId) = none ∧ t ≤ (s.commitments.length : Int) + 1

/-- A commitment is late when it is new, its session is completed and it brings
    the count to the threshold. -/
theorem lateCommitment_addCommitment_iff (t : Int) (s : SigningSession V) (signerId : V)
    (bytes : Bytes) :
    LateCommitment t s (.addCommitment signerId bytes : SessionOp V ρ) ↔
      s.state = .completed ∧ s.commitments.get? (Object.key signerId) = none ∧
        t ≤ (s.commitments.length : Int) + 1 := by
  constructor
  · rintro ⟨hstate, i, c, hop, hget, hle⟩
    injection hop with hi _
    rw [hi]
    exact ⟨hstate, hget, hle⟩
  · rintro ⟨hstate, hget, hle⟩
    exact ⟨hstate, signerId, bytes, rfl, hget, hle⟩

/-- One operation moves the state forward unless it is a late commitment. -/
theorem step_state_le_iff (native : Natives V ρ) (s : SigningSession V) (op : SessionOp V ρ)
    (t : Int) (ht : s.threshold = Object.int t) :
    s.state ≤ (step native s op).2.state ↔ ¬ LateCommitment t s op := by
  -- With an integer threshold the comparison never raises.
  have hge : Object.ge (s.commitments.length + 1) s.threshold
      = some (decide (t ≤ (s.commitments.length : Int) + 1)) := by
    rw [ht, Object.ge_int, Nat.cast_add, Nat.cast_one]
  have hdoes := step_does native s op
  generalize step native s op = after at hdoes ⊢
  cases hdoes with
  | commitmentDuplicate signerId bytes b hget =>
      -- A duplicate is refused before anything is written.
      refine iff_of_true (le_refl _) ?_
      rw [lateCommitment_addCommitment_iff, hget]
      exact fun h => absurd h.2.1 (by simp only [reduceCtorEq, not_false_eq_true])
  | commitmentIncomparable signerId bytes hget hnone =>
      rw [hge] at hnone
      exact absurd hnone (by simp only [reduceCtorEq, not_false_eq_true])
  | commitmentCounted signerId bytes hget hfalse =>
      rw [hge, Option.some.injEq, decide_eq_false_iff_not] at hfalse
      refine iff_of_true (le_refl _) ?_
      rw [lateCommitment_addCommitment_iff]
      exact fun h => hfalse h.2.2
  | commitmentsReached signerId bytes hget htrue =>
      -- The state is overwritten, which goes back exactly from `completed`.
      rw [hge, Option.some.injEq, decide_eq_true_eq] at htrue
      rw [lateCommitment_addCommitment_iff]
      simp only [hget, htrue, and_true]
      cases s.state <;> decide
  | combineReturned r signature hmet hcombine =>
      refine iff_of_true (SessionState.le_completed _) ?_
      rintro ⟨_, i, c, hop, _⟩
      exact absurd hop (by simp only [reduceCtorEq, not_false_eq_true])
  | _ =>
      refine iff_of_true (le_refl _) ?_
      rintro ⟨_, i, c, hop, _⟩
      exact absurd hop (by simp only [reduceCtorEq, not_false_eq_true])

/-- The threshold a run started with is the threshold it has throughout. -/
theorem run_threshold (native : Natives V ρ) (s : SigningSession V) (ops : List (SessionOp V ρ)) :
    (Machine.run (step native) s ops).threshold = s.threshold :=
  Machine.run_induct (step native) (fun s' => s'.threshold = s.threshold) s ops rfl
    (fun s' op h => (step_fixed native s' op).2.1.trans h)

/-- The state sequence of a session is monotone exactly when no operation of
    the run is a late commitment. -/
theorem states_monotone_iff (native : Natives V ρ) (message : Bytes) (t : Int) (unlockWindow : V)
    (scheme : Scheme) (ops : List (SessionOp V ρ)) :
    ((Machine.states (step native)
        (fresh message (Object.int t) unlockWindow scheme) ops).map state).Pairwise (· ≤ ·) ↔
      ∀ tr ∈ Machine.trace (step native) (fresh message (Object.int t) unlockWindow scheme) ops,
        ¬ LateCommitment t tr.before tr.op := by
  rw [Machine.pairwise_states_iff, Machine.forall_trace_iff, Machine.forall_trace_iff]
  refine forall_congr' fun pre => forall_congr' fun op => forall_congr' fun post =>
    imp_congr_right fun _ => ?_
  exact step_state_le_iff native _ op t
    (run_threshold native (fresh message (Object.int t) unlockWindow scheme) pre)

end SigningSession

/-- Combines that sign whatever they are given. -/
def signAnything : Natives Json Unit :=
  { cmp20Sign := fun _ _ _ _ => .ok (List.replicate 64 0),
    gg18Sign := fun _ _ _ _ => .ok (List.replicate 64 0) }

/-- A two-of-three session that aggregates before its commitments arrive:
    completed after the third operation, reopened by the fifth. -/
theorem completed_session_reopens :
    ¬ ((Machine.states (SigningSession.step signAnything)
        (SigningSession.fresh [1] (Json.int 2) (Json.int 14400) .cmp20)
        [.addShare (.str "a") [10], .addShare (.str "b") [11], .aggregate (),
          .addCommitment (.str "a") [20], .addCommitment (.str "b") [21]]).map
      SigningSession.state).Pairwise (· ≤ ·) := by
  decide

end Confium
