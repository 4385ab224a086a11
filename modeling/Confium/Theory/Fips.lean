import Confium.Core.Policy

/-!
# FIPS Mode over Configuration Histories

What the two policy settings say after any sequence of assignments. Two
questions are asked of them: whether FIPS mode, when it is on, has a profile
behind it to take key sizes from, and whether the mode is what was last
assigned to it.

FIPS mode gets a profile when it is turned on, because the setter picks one if
none is active. Nothing takes it away again except the other setter: assigning
`nil` to the jurisdiction while the mode is on leaves a mode that knows which
algorithms it approves of and accepts an RSA key of any size. That one
transition, `Unbacks`, is the whole of the exception. `fips_backed_iff` reads
a history as keeping a profile behind the mode exactly when it is never made.

The mode itself is written as "not `nil`", so the history decides it through
the last value assigned since the last reset. `lastAssigned` reads that value
off the history, and `run_fipsMode` says the mode is on exactly when there is
one and it is not `nil`. That is what assigning a truth value means except at
`false`, which is not `nil` either.

## Main definitions

* `Backed`, `RefusesShortRsa`: What FIPS mode promises of a state.
* `Unbacks`: The assignment that takes the profile away.
* `lastAssigned`: The last value assigned to FIPS mode since the last reset.
* `MeansWhatItSays`: What a history's settings should be.

## Theorems

* `refusesShortRsa_iff`: Short RSA keys are refused exactly when there is a
  profile.
* `step_backed_iff`: One assignment keeps the profile unless it unbacks it.
* `fips_backed_iff`: A history keeps a profile behind FIPS mode exactly when no
  assignment of it clears the jurisdiction in FIPS mode.
* `run_fipsMode`: FIPS mode is what was last assigned, read as "not `nil`".
* `meansWhatItSays_iff`: The settings mean what they say exactly when the last
  value assigned is not `false`.
* `cleared_profile_accepts_short_key`, `fips_mode_stays_on`: The histories that
  reach the two exceptions.
-/

namespace Confium

namespace Policy

/-- FIPS mode has a profile behind it. -/
def Backed (p : Policy) : Prop := p.fipsMode = true → p.jurisdiction ≠ none

/-- FIPS mode refuses every RSA key below 2048 bits as a policy violation. -/
def RefusesShortRsa (p : Policy) : Prop :=
  p.fipsMode = true → ∀ keyBits : Int, keyBits < 2048 →
    ∃ e, p.check "rsa" keyBits = .error e ∧ e.className = "Confium::PolicyViolationError"

/-- The assignment that takes the profile from under FIPS mode. -/
def Unbacks (p : Policy) (op : PolicyOp) : Prop :=
  p.fipsMode = true ∧ op = .setJurisdiction .nil

/-- Refusing short keys is having a profile to refuse them under. -/
theorem refusesShortRsa_iff (p : Policy) : p.RefusesShortRsa ↔ p.Backed := by
  constructor
  · intro h hfips hnone
    rcases h hfips 0 (by omega) with ⟨e, he, _⟩
    rw [check_rsa_of_none p 0 hnone] at he
    exact absurd he (by simp only [reduceCtorEq, not_false_eq_true])
  · intro h hfips keyBits hlt
    cases hjur : p.jurisdiction with
    | none => exact absurd hjur (h hfips)
    | some j => exact ⟨_, check_rsa_of_some p j keyBits hjur hlt, rfl⟩

/-- An assignment leaves a backed mode backed unless it is the one that
    unbacks it. -/
theorem step_backed_iff (p : Policy) (op : PolicyOp) (h : p.Backed) :
    (step p op).2.Backed ↔ ¬ p.Unbacks op := by
  have hdoes := step_does p op
  generalize step p op = after at hdoes ⊢
  cases hdoes with
  -- The one step that can take the jurisdiction away and leave the mode.
  | jurisdictionCleared =>
      unfold Backed Unbacks
      simp only [ne_eq, not_true_eq_false, imp_false, and_true]
  | jurisdictionSet value j hnil hknown =>
      refine iff_of_true ?_ (fun hc => hnil (PolicyOp.setJurisdiction.inj hc.2))
      intro _ hnone
      exact absurd hnone (by simp only [reduceCtorEq, not_false_eq_true])
  | jurisdictionRejected value e hnil hunknown =>
      exact iff_of_true h (fun hc => hnil (PolicyOp.setJurisdiction.inj hc.2))
  | fipsCleared =>
      refine iff_of_true (fun hfips => ?_) (fun hc => ?_)
      · exact absurd hfips Bool.false_ne_true
      · exact absurd hc.2 (by simp only [reduceCtorEq, not_false_eq_true])
  | fipsImpliedUs value hnil hnone =>
      refine iff_of_true (fun _ hc => ?_) (fun hc => ?_)
      · exact absurd hc (by simp only [reduceCtorEq, not_false_eq_true])
      · exact absurd hc.2 (by simp only [reduceCtorEq, not_false_eq_true])
  | fipsSet value j hnil hsome =>
      refine iff_of_true (fun _ hc => ?_) (fun hc => ?_)
      · rw [hsome] at hc
        exact absurd hc (by simp only [reduceCtorEq, not_false_eq_true])
      · exact absurd hc.2 (by simp only [reduceCtorEq, not_false_eq_true])
  | cleared =>
      refine iff_of_true (fun hfips => ?_) (fun hc => ?_)
      · exact absurd hfips Bool.false_ne_true
      · exact absurd hc.2 (by simp only [reduceCtorEq, not_false_eq_true])

theorem backed_initial : initial.Backed := fun h => absurd h Bool.false_ne_true

/-- The states of a history are all backed exactly when no assignment of it
    clears the jurisdiction in FIPS mode. -/
theorem states_backed_iff (ops : List PolicyOp) :
    (∀ p ∈ Machine.states step initial ops, p.Backed) ↔
      ∀ t ∈ Machine.trace step initial ops, ¬ t.before.Unbacks t.op := by
  constructor
  · intro h t ht
    rcases (Machine.mem_trace_iff step initial ops t).mp ht with ⟨pre, op, post, hops, htr⟩
    -- The state an unbacking assignment leaves is one of the history's states.
    have hafter := ((Machine.forall_states_iff step Backed initial ops).mp h).2 t ht
    rw [htr] at hafter ⊢
    intro hun
    have hop : op = .setJurisdiction .nil := hun.2
    rw [hop] at hafter
    exact hafter hun.1 rfl
  · intro h
    refine Machine.forall_states_of_trace step Backed initial ops backed_initial ?_
    intro t ht hbefore
    rcases (Machine.mem_trace_iff step initial ops t).mp ht with ⟨pre, op, post, hops, htr⟩
    have hnot := h t ht
    rw [htr] at hnot hbefore ⊢
    exact (step_backed_iff _ op hbefore).mpr hnot

/-- A history keeps a profile behind FIPS mode, and short RSA keys refused
    under it, exactly when it never clears the jurisdiction in FIPS mode. -/
theorem fips_backed_iff (ops : List PolicyOp) :
    (∀ p ∈ Machine.states step initial ops, p.Backed ∧ p.RefusesShortRsa) ↔
      ∀ t ∈ Machine.trace step initial ops,
        ¬ (t.before.fipsMode = true ∧ t.op = .setJurisdiction .nil) := by
  have hboth : ∀ p : Policy, p.Backed ∧ p.RefusesShortRsa ↔ p.Backed := by
    intro p
    rw [refusesShortRsa_iff, and_self]
  simp only [hboth]
  exact states_backed_iff ops

/-- FIPS mode turned on, then the jurisdiction cleared: the mode is on with no
    profile behind it, so by `check_rsa_of_none` every RSA key passes. -/
theorem cleared_profile_accepts_short_key :
    ¬ (∀ p ∈ Machine.states step initial
        [.setFipsMode (.bool true), .setJurisdiction .nil], p.Backed ∧ p.RefusesShortRsa) := by
  intro h
  have hmem : (⟨none, true⟩ : Policy) ∈ Machine.states step initial
      [.setFipsMode (.bool true), .setJurisdiction .nil] := by decide
  exact (h _ hmem).1 rfl rfl

/-- What an assignment or a reset does to the value last assigned. -/
def assigned (last : Option Setting) : PolicyOp → Option Setting
  | .setJurisdiction _ => last
  | .setFipsMode value => some value
  | .reset => none

/-- The last value assigned to FIPS mode since the last reset. -/
def lastAssigned (ops : List PolicyOp) : Option Setting := ops.foldl assigned none

/-- How the setter reads a value: on unless there is none or it is `nil`. -/
def readsOn (last : Option Setting) : Bool := last.any (fun value => !decide (value = .nil))

/-- One call moves the mode as it moves the last value assigned. -/
theorem step_fipsMode (p : Policy) (op : PolicyOp) (last : Option Setting)
    (h : p.fipsMode = readsOn last) : (step p op).2.fipsMode = readsOn (assigned last op) := by
  have hdoes := step_does p op
  generalize step p op = after at hdoes ⊢
  cases hdoes with
  | jurisdictionCleared => exact h
  | jurisdictionSet value j hnil hknown => exact h
  | jurisdictionRejected value e hnil hunknown => exact h
  | fipsCleared => rfl
  | fipsImpliedUs value hnil hnone =>
      unfold assigned readsOn
      rw [Option.any_some, decide_eq_false hnil, Bool.not_false]
  | fipsSet value j hnil hsome =>
      unfold assigned readsOn
      rw [Option.any_some, decide_eq_false hnil, Bool.not_false]
  | cleared => rfl

/-- After any history the mode is on exactly when a value was assigned since
    the last reset and the last such value is not `nil`. -/
theorem run_fipsMode (ops : List PolicyOp) :
    (Machine.run step initial ops).fipsMode = readsOn (lastAssigned ops) := by
  -- The induction carries the value assigned so far beside the settings.
  have hrun : ∀ (ops : List PolicyOp) (p : Policy) (last : Option Setting),
      p.fipsMode = readsOn last →
        (Machine.run step p ops).fipsMode = readsOn (ops.foldl assigned last) := by
    intro ops
    induction ops with
    | nil =>
        intro p last h
        exact h
    | cons op rest ih =>
        intro p last h
        rw [Machine.run, List.foldl_cons]
        exact ih _ _ (step_fipsMode p op last h)
  exact hrun ops initial none rfl

/-- A rejected jurisdiction leaves both settings as they were. -/
theorem step_setJurisdiction_error (p : Policy) (value : Setting) (e : PolicyError)
    (h : (step p (.setJurisdiction value)).1 = .error e) :
    (step p (.setJurisdiction value)).2 = p := by
  have hdoes := step_does p (.setJurisdiction value)
  generalize step p (.setJurisdiction value) = after at hdoes h ⊢
  cases hdoes with
  | jurisdictionRejected _ e' hnil hunknown => rfl
  | jurisdictionCleared => exact absurd h (by simp only [reduceCtorEq, not_false_eq_true])
  | jurisdictionSet _ j hnil hknown =>
      exact absurd h (by simp only [reduceCtorEq, not_false_eq_true])

/-- The last value assigned counts as true. -/
def LastTruthy (ops : List PolicyOp) : Prop := ∃ value, lastAssigned ops = some value ∧
  value.truthy = true

/-- What the settings should be after a history: FIPS mode on exactly when the
    last value assigned counts as true, algorithms no longer refused as
    unapproved when it does not, and rejected jurisdictions without effect. -/
structure MeansWhatItSays (ops : List PolicyOp) : Prop where
  fipsMode : (Machine.run step initial ops).fipsMode = true ↔ LastTruthy ops
  accepts : ¬ LastTruthy ops → ∀ alg keyBits alg',
    (Machine.run step initial ops).check alg keyBits ≠ .error (.unapprovedAlgorithm alg')
  rejected : ∀ t ∈ Machine.trace step initial ops, ∀ value e,
    t.op = .setJurisdiction value → t.out = .error e → t.after = t.before

/-- The setter and Ruby's truth disagree about `false` and nothing else. -/
theorem readsOn_iff_truthy (last : Option Setting) :
    (readsOn last = true ↔ ∃ value, last = some value ∧ value.truthy = true) ↔
      last ≠ some (.bool false) := by
  cases last with
  | none =>
      simp only [readsOn, Option.any_none, Bool.false_eq_true, reduceCtorEq, false_and,
        exists_false, ne_eq, not_false_eq_true]
  | some value =>
      simp only [readsOn, Option.any_some, Option.some.injEq, exists_eq_left', ne_eq]
      cases value with
      | bool b => cases b <;> decide
      | nil => decide
      | _ => simp only [Setting.truthy, reduceCtorEq, decide_false, Bool.not_false,
          not_false_eq_true]

/-- The settings mean what they say exactly when the last value assigned to
    FIPS mode since the last reset is not `false`. -/
theorem meansWhatItSays_iff (ops : List PolicyOp) :
    MeansWhatItSays ops ↔ lastAssigned ops ≠ some (.bool false) := by
  rw [← readsOn_iff_truthy, ← run_fipsMode]
  constructor
  · intro h
    exact h.fipsMode
  · intro h
    refine ⟨h, ?_, ?_⟩
    · intro hlast alg keyBits alg'
      refine check_ne_unapproved _ alg keyBits ?_ alg'
      rw [← Bool.not_eq_true, h]
      exact hlast
    · intro t ht value e hop hout
      rcases (Machine.mem_trace_iff step initial ops t).mp ht with ⟨pre, op, post, hops, htr⟩
      rw [htr] at hop hout ⊢
      have hop' : op = .setJurisdiction value := hop
      rw [hop'] at hout ⊢
      exact step_setJurisdiction_error _ value e hout

/-- FIPS mode turned on and then assigned `false` stays on. -/
theorem fips_mode_stays_on :
    ¬ MeansWhatItSays [.setFipsMode (.bool true), .setFipsMode (.bool false)] := by
  intro h
  rcases h.fipsMode.mp rfl with ⟨value, hlast, htruthy⟩
  have hvalue : Setting.bool false = value := Option.some.inj hlast
  rw [← hvalue] at htruthy
  exact absurd htruthy Bool.false_ne_true

end Policy

end Confium
