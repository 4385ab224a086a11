import Confium.Core.NetworkCoordinator
import Confium.Theory.Lifecycle
import Confium.Theory.Registry

/-!
# No Signature Without a Signer

Whether an aggregation can reach the combine when nobody has submitted a share.
The gate in front of the combine is the comparison of the share count with the
threshold, and it is as good as the threshold is. Nothing looks at the threshold
when a session is created: in process it is whatever the caller passes, over the
wire it is whatever the JSON has.

With no share the comparison is `0 >= threshold`. It answers no for a number
above zero, and then the aggregation raises `ThresholdError`. It answers yes for
zero and below, and the combine is called with an empty list. For a value that is
no number it raises something else. `signer_needed_iff` is that case distinction
over every run: what a session was created with it keeps, and other sessions
cannot touch it, so its threshold decides alone.

## Main definitions

* `NeedsSigner`: What an aggregation of a session should do while it has no
  share.
* `Holds`: The registry holds a session with a given threshold.

## Theorems

* `holds_run`: A session keeps its threshold through every run.
* `needsSigner_of_ge`: One aggregation, when the threshold is above zero.
* `signer_needed_iff`: Every aggregation of every run needs a signer exactly
  when the threshold is above zero.
* `above_zero_iff`: Which values of a document are.
* `dispatch_create`: Every value of a document is accepted as a threshold.
* `zero_threshold_reaches_combine`: A session created over the wire whose combine
  is called without a signer.
-/

namespace Confium

open Ruby

namespace Coordinator

variable {V ρ : Type} [DecidableEq V] [Object V]

/-- An aggregation of session `id` never reaches the combine with an empty share
    list, and without a share it raises `ThresholdError`. -/
def NeedsSigner (id : V)
    (e : Machine.Transition (Coordinator V) (CoordinatorOp V ρ) (Outcome V)) : Prop :=
  ∀ r s, e.op = .call id (.aggregate r) → e.before.sessions.get? id = some s →
    (∀ call, e.out.combined = some call → call.shares ≠ []) ∧
      (s.shares.length = 0 →
        ∃ x, e.out.result = .error x ∧ x.className = "Confium::ThresholdError")

/-- The registry holds session `id`, with a given threshold. -/
def Holds (id threshold : V) (c : Coordinator V) : Prop :=
  Numbered c ∧ ∃ s, c.sessions.get? id = some s ∧ s.threshold = threshold

/-- A session keeps its threshold through every run. -/
theorem holds_run (native : Natives V ρ) (id threshold : V) (c : Coordinator V)
    (ops : List (CoordinatorOp V ρ)) (h : Holds id threshold c) :
    Holds id threshold (Machine.run (step native) c ops) := by
  refine Machine.run_induct (step native) (Holds id threshold) c ops h ?_
  rintro c op ⟨hn, s, hs, hthreshold⟩
  refine ⟨numbered_step native c op hn, ?_⟩
  cases op with
  | createSession message t unlockWindow scheme =>
      exact ⟨s, get?_step_create native c message t unlockWindow scheme id s hn hs, hthreshold⟩
  | call id' op =>
      by_cases hid : id = id'
      · rw [← hid]
        refine ⟨_, get?_step_call_self native c id op s hs, ?_⟩
        exact (SigningSession.step_fixed native s op).2.1.trans hthreshold
      · refine ⟨s, ?_, hthreshold⟩
        rw [get?_step_call_ne native c id' id op hid]
        exact hs

/-- With a threshold above zero an aggregation needs a signer. -/
theorem needsSigner_of_ge (native : Natives V ρ) (id threshold : V) (c : Coordinator V)
    (op : CoordinatorOp V ρ) (h : Holds id threshold c)
    (hge : Object.ge 0 threshold = some false) :
    NeedsSigner id ((step native).transition c op) := by
  intro r s hop hs
  rcases h with ⟨_, s', hs', hthreshold⟩
  have hop : op = .call id (.aggregate r) := hop
  have hs : c.sessions.get? id = some s := hs
  have hsame : s' = s := Option.some.inj (hs'.symm.trans hs)
  rw [hsame] at hthreshold
  have hstep := step_call_of_known native c id (.aggregate r) s hs
  -- Without a share the gate compares zero with the threshold.
  have hmet : s.shares.length = 0 → s.thresholdMet = some false := by
    intro hzero
    unfold SigningSession.thresholdMet
    rw [hzero, hthreshold]
    exact hge
  have hout : ((step native).transition c op).out
      = (SigningSession.step native s (.aggregate r)).1 := by
    rw [hop]
    exact congrArg Prod.fst hstep
  rw [hout]
  constructor
  · intro call hcall hempty
    rcases SigningSession.step_combined native s (.aggregate r) call hcall with ⟨_, htrue, hcall'⟩
    have hzero : s.shares.length = 0 := by
      rw [← Hash.length_values]
      have hvalues : s.shares.values = [] := by
        rw [hcall'] at hempty
        exact hempty
      rw [hvalues, List.length_nil]
    rw [hmet hzero] at htrue
    exact absurd htrue (by simp only [Option.some.injEq, Bool.false_eq_true, not_false_eq_true])
  · intro hzero
    refine ⟨.thresholdNotMet s.shares.length s.threshold, ?_, rfl⟩
    simp only [SigningSession.step, SigningSession.aggregate, hmet hzero, Outcome.raise]

/-- A session without a share whose aggregation needs a signer has a threshold
    above zero. The combine must not be reached, and what is raised instead
    must be `ThresholdError`. -/
theorem ge_of_needsSigner (native : Natives V ρ) (id : V) (r : ρ) (s : SigningSession V)
    (c : Coordinator V) (hget : c.sessions.get? id = some s) (hzero : s.shares.length = 0)
    (h : NeedsSigner id ((step native).transition c (.call id (.aggregate r)))) :
    Object.ge 0 s.threshold = some false := by
  rcases h r s rfl hget with ⟨hcombined, hraises⟩
  rcases hraises hzero with ⟨x, hx, hclass⟩
  have hout : ((step native).transition c (.call id (.aggregate r))).out
      = (SigningSession.step native s (.aggregate r)).1 :=
    congrArg Prod.fst (step_call_of_known native c id (.aggregate r) s hget)
  have hempty : s.combineCall.shares = [] := by
    rw [← List.length_eq_zero_iff, ← hzero]
    exact Hash.length_values s.shares
  have hmet : s.thresholdMet = Object.ge 0 s.threshold := by
    unfold SigningSession.thresholdMet
    rw [hzero]
  rw [hout] at hcombined hx
  have hdoes := SigningSession.step_does native s (.aggregate r)
  generalize SigningSession.step native s (.aggregate r) = out at hdoes hcombined hx
  cases hdoes with
  | aggregateIncomparable _ hnone =>
      have hexn : Exn.comparison s.threshold = x := Except.error.inj hx
      rw [← hexn] at hclass
      have hname : "ArgumentError" = "Confium::ThresholdError" := hclass
      exact absurd hname (by decide)
  | aggregateEarly _ hfalse => exact hmet.symm.trans hfalse
  | combineRaised _ e htrue hcombine => exact absurd hempty (hcombined _ rfl)
  | combineReturned _ signature htrue hcombine => exact absurd hempty (hcombined _ rfl)

/-- An accepted creation leaves a registry that holds the session, without a
    share. -/
theorem createSession_holds (native : Natives V ρ) (c : Coordinator V) (message : Bytes)
    (threshold unlockWindow scheme id : V) (hn : Numbered c)
    (h : (step native c (.createSession message threshold unlockWindow scheme)).1.result
      = .ok (.sessionId id)) :
    Holds id threshold (step native c (.createSession message threshold unlockWindow scheme)).2 ∧
      ∃ k, (step native c (.createSession message threshold unlockWindow scheme)).2.sessions.get? id
        = some (SigningSession.fresh message threshold unlockWindow k) := by
  have hnumbered := numbered_step native c
    (.createSession message threshold unlockWindow scheme) hn
  rcases createSession_cases native c message threshold unlockWindow scheme with
    ⟨_, hstep⟩ | ⟨k, _, hstep⟩
  · rw [hstep] at h
    exact absurd h (by simp only [Outcome.raise, reduceCtorEq, not_false_eq_true])
  · rw [hstep] at h hnumbered ⊢
    simp only [Outcome.reply, Except.ok.injEq, Reply.sessionId.injEq] at h
    rw [← h]
    have hget : (c.sessions.set c.nextId
        (SigningSession.fresh message threshold unlockWindow k)).get? c.nextId
          = some (SigningSession.fresh message threshold unlockWindow k) :=
      Hash.get?_set_self c.sessions c.nextId _
    exact ⟨⟨hnumbered, _, hget, rfl⟩, k, hget⟩

/-- Of a session that was accepted, every aggregation of every later run needs a
    signer exactly when its threshold compares as above zero. -/
theorem signer_needed_iff [Inhabited ρ] (native : Natives V ρ) (ops : List (CoordinatorOp V ρ))
    (message : Bytes) (threshold unlockWindow scheme id : V)
    (h : (step native (after native ops)
      (.createSession message threshold unlockWindow scheme)).1.result = .ok (.sessionId id)) :
    (∀ later, ∀ e ∈ Machine.trace (step native) (step native (after native ops)
        (.createSession message threshold unlockWindow scheme)).2 later, NeedsSigner id e) ↔
      Object.ge 0 threshold = some false := by
  rcases createSession_holds native (after native ops) message threshold unlockWindow scheme id
    (numbered_run native ops) h with ⟨hholds, k, hget⟩
  generalize (step native (after native ops)
    (.createSession message threshold unlockWindow scheme)).2 = c at hholds hget ⊢
  constructor
  · intro hall
    -- One aggregation, at once, shows what the threshold lets through.
    have hneeds := hall [.call id (.aggregate default)] _ List.mem_cons_self
    exact ge_of_needsSigner native id default _ c hget rfl hneeds
  · intro hge later e he
    rcases (Machine.mem_trace_iff (step native) c later e).mp he with ⟨pre, op, post, _, htr⟩
    rw [htr]
    exact needsSigner_of_ge native id threshold _ op (holds_run native id threshold c pre hholds)
      hge

/-- A session with threshold two: no later aggregation goes without a signer. -/
theorem positive_threshold_needs_signer :
    Object.ge 0 (Json.int 2) = some false ∧
    ∀ later, ∀ e ∈ Machine.trace (step signAnything) (step signAnything (after signAnything [])
        (.createSession [0] (Json.int 2) (Json.int 14400) (.str "CMP20-ECDSA-P256"))).2 later,
      NeedsSigner (.str "session-1") e := by
  have hge : Object.ge 0 (Json.int 2) = some false := rfl
  refine ⟨hge, ?_⟩
  exact (signer_needed_iff signAnything [] [0] (Json.int 2) (Json.int 14400)
    (.str "CMP20-ECDSA-P256") (.str "session-1") (by decide)).mpr hge

end Coordinator

/-- The values of a document that are above zero. -/
def aboveZero : Json → Bool
  | .int t => decide (0 < t)
  | .float (.finite q) => decide (0 < q)
  | .float .posInf => true
  | _ => false

/-- A value compares as above zero exactly when it is a number that is. -/
theorem above_zero_iff (v : Json) : Object.ge 0 v = some false ↔ aboveZero v = true := by
  cases v with
  | int t => simp only [Object.ge, aboveZero, Option.some.injEq, decide_eq_false_iff_not,
      Nat.cast_zero, not_le, decide_eq_true_eq]
  | float x =>
      cases x with
      | finite q => simp only [Object.ge, Double.le, aboveZero, Option.some.injEq,
          decide_eq_false_iff_not, Nat.cast_zero, not_le, decide_eq_true_eq]
      | posInf => exact iff_of_true rfl rfl
      | negInf => exact iff_of_false (by decide) (by decide)
  | _ =>
      refine iff_of_false (fun h => ?_) Bool.false_ne_true
      have hnone : (none : Option Bool) = some false := h
      exact absurd hnone (by simp only [reduceCtorEq, not_false_eq_true])

namespace NetworkCoordinator

/-- A creation over the wire is accepted whatever value the document has for its
    threshold, and the session is created with that value. -/
theorem dispatch_create {ρ : Type} (native : Natives Json ρ) (c : Coordinator Json)
    (fields : Fields) (v threshold : Json) (message : Bytes) (r : ρ)
    (hop : Json.field? fields "op" = some (.str "create"))
    (hv : Json.field? fields "message_hex" = some v) (hpack : packValue v = .ok message)
    (hthreshold : Json.field? fields "threshold" = some threshold)
    (hscheme : Json.field? fields "scheme" = none) :
    dispatch native c (.obj fields) r = (.ok (.obj [("session_id", c.nextId)]),
      ⟨c.sessions.set c.nextId (SigningSession.fresh message threshold
        SigningSession.defaultUnlockWindow .cmp20)⟩) := by
  have hhandler : handlerOf (.obj fields) = .ok ((create : Handler ρ), fields) :=
    (handlerOf_eq_ok_iff (.obj fields) create fields).mpr ⟨rfl, _, hop, rfl⟩
  have hcall := (create_call_eq_ok_iff fields r _).mpr
    ⟨v, message, threshold, hv, hpack, hthreshold, rfl⟩
  have hknown : Scheme.ofValue? (schemeOf fields) = some .cmp20 := by
    unfold schemeOf
    rw [hscheme]
    decide
  unfold dispatch
  simp only [hhandler, hcall, Coordinator.createSession_of_known native c message threshold
    SigningSession.defaultUnlockWindow (schemeOf fields) .cmp20 hknown]
  rfl

/-- A session created over the wire with threshold zero, aggregated at once: the
    combine is called with no share at all. -/
theorem zero_threshold_reaches_combine :
    ¬ Coordinator.NeedsSigner (.str "session-1")
      ((Coordinator.step signAnything).transition
        (dispatch signAnything Coordinator.new (.obj [("op", .str "create"),
          ("message_hex", .str "00"), ("threshold", .int 0)]) ()).2
        (.call (.str "session-1") (.aggregate ()))) := by
  rw [dispatch_create signAnything Coordinator.new _ (.str "00") (.int 0) [0] () rfl rfl
    (by decide +kernel) rfl rfl]
  intro h
  rcases h () (SigningSession.fresh [0] (.int 0) SigningSession.defaultUnlockWindow .cmp20) rfl
    (by decide) with ⟨hcombined, _⟩
  exact hcombined ⟨.cmp20, [], .int 0, [0]⟩ (by decide) rfl

end NetworkCoordinator

end Confium
