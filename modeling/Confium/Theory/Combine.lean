import Confium.Core.Combine
import Confium.Theory.AuditTrail
import Confium.Theory.Quorum
import Confium.Theory.Screens

/-!
# Signatures Are Recorded

A coordinator followed down to the audit sink. An aggregation that gets as far
as the upstream library leaves one record there, and a signature comes from
nowhere else. So the records of success are the signatures, one for one and in
the order they were made, whatever else the run did: submissions, refused
aggregations, combines that fail, other sessions in between. Each names the
scheme it was made with and has the hash of the message its session was created
with.

## Main definitions

* `Scheme.operation`: The operation of a scheme in its records.
* `combineRecords`: The records of an upstream call.
* `returnedSignature`: Whether a call returned a signature.
* `Attests`: A record of success that belongs to a call.
* `succeeded`: Whether a record is one of success.

## Theorems

* `inprocessArgs_eq_ok_iff`: What the extension reads of a session.
* `inprocessSign_cases`, `combine_cases`: What a combine does.
* `combine_result`: What it returns when it can read its arguments.
* `natives_combine`: A session's combine is the extension's.
* `forall₂_filter_flatMap`: Picking from a log that was put together.
* `records_combineLog`: The successes one call leaves.
* `signatures_are_recorded`: And a run.
-/

namespace Confium

open Ruby Composite

namespace TC

/-- The operation of a scheme in its records. -/
def Scheme.operation : Scheme → String
  | .cmp20 => "tc_cmp20_sign"
  | .gg18 => "tc_gg18_sign"

/-- The records of an upstream call, by how it went. -/
def combineRecords (env : AuditEnv) (call : CombineCall Json) :
    Except Failure Bytes → List AuditRecord
  | .ok _ => [⟨env.now, Scheme.operation call.scheme, "success", env.sha256Hex call.message,
      some call.scheme.name, none⟩]
  | .error (.error text) => [⟨env.now, Scheme.operation call.scheme, "failure",
      env.sha256Hex call.message, some call.scheme.name, some text⟩]
  | .error (.panic _) => []

/-- A String of bytes is read as its bytes, if there are not too many. -/
theorem bytes_bytesInput_eq_ok_iff (bytes bytes' : Bytes) :
    (bytesInput bytes).bytes = .ok bytes' ↔ bytes.length ≤ maxInputSize ∧ bytes = bytes' := by
  have hbytes := arg_bytes_eq (.string (RString.binary bytes))
  unfold bytesInput
  rw [show (Arg.str (RString.binary bytes)) = (ByteInput.string (RString.binary bytes)).arg from
    rfl, hbytes]
  by_cases h : maxInputSize < (ByteInput.string (RString.binary bytes)).size
  · rw [if_pos h]
    have hlen : ¬ bytes.length ≤ maxInputSize := Nat.not_le.mpr h
    simp only [reduceCtorEq, hlen, false_and]
  · rw [if_neg h]
    have hlen : bytes.length ≤ maxInputSize := Nat.not_lt.mp h
    simp only [hlen, true_and, Except.ok.injEq]
    exact Iff.rfl

/-- What the extension reads of the shares, the threshold and the message of a
    session: the shares and the message as they are, none of them over the cap,
    and the threshold as a number. -/
theorem inprocessArgs_eq_ok_iff (shares : List Bytes) (threshold : Arg) (message : Bytes)
    (args : List Bytes × Nat × Bytes) :
    inprocessArgs (.arr (shares.map bytesInput)) threshold (bytesInput message) = .ok args ↔
      (∀ share ∈ shares, share.length ≤ maxInputSize) ∧ message.length ≤ maxInputSize ∧
        ∃ t, threshold.unsigned 32 = .ok t ∧ args = (shares, t, message) := by
  simp only [inprocessArgs, bind_eq_ok_iff, items_eq_ok_iff, Arg.arr.injEq, pure, Except.pure,
    Except.ok.injEq, mapM_eq_ok_iff, bytes_bytesInput_eq_ok_iff]
  constructor
  · rintro ⟨t, ht, _, rfl, shares', hshares, _, ⟨hlen, rfl⟩, rfl⟩
    rw [List.forall₂_map_left_iff] at hshares
    have hread := hshares.imp (fun _ _ => (bytes_bytesInput_eq_ok_iff _ _).mp)
    have heq : shares = shares' := by
      rw [← List.forall₂_eq_eq_eq]
      exact hread.imp (fun _ _ h => h.2)
    refine ⟨?_, hlen, t, ht, by rw [heq]⟩
    rw [← heq, List.forall₂_same] at hread
    exact fun share hshare => (hread share hshare).1
  · rintro ⟨hshares, hlen, t, ht, rfl⟩
    refine ⟨t, ht, _, rfl, shares, ?_, message, ⟨hlen, rfl⟩, rfl⟩
    rw [List.forall₂_map_left_iff, List.forall₂_same]
    exact fun share hshare => (bytes_bytesInput_eq_ok_iff _ _).mpr ⟨hshares share hshare, rfl⟩

/-- What an upstream call that is recorded leaves, in full. -/
theorem recorded_eq (env : AuditEnv) (henv : env.enabled = true) (routine caller : String)
    (call : CombineCall Json) (t : Nat) (x : Except Failure Bytes) :
    records (recorded env routine (Scheme.operation call.scheme) call.scheme.name
        (some call.message) (thresholdError caller call.shares.length t) x).log
      = combineRecords env call x := by
  unfold recorded fireEvent
  cases x with
  | ok a => simp only [henv, if_true]; rfl
  | error failure =>
      cases failure with
      | error text => simp only [henv, if_true]; rfl
      | panic text => rfl

/-- A signer of the extension reads what it was given, and raises before anything
    else if it cannot. Otherwise it asks upstream, and leaves one record of what
    came of that. -/
theorem inprocessSign_cases (env : AuditEnv) (routine caller : String) (call : CombineCall Json)
    (sign : List Bytes → Nat → Bytes → Except Failure Bytes) (x : Native Bytes)
    (hx : x = inprocessSign env routine (Scheme.operation call.scheme) call.scheme.name caller
      sign (.arr (call.shares.map bytesInput)) (thresholdInput call.threshold)
      (bytesInput call.message)) :
    (∃ e, x.result = .error e ∧ x.log = []) ∨
    (∃ t, (∀ share ∈ call.shares, share.length ≤ maxInputSize) ∧
      call.message.length ≤ maxInputSize ∧ (thresholdInput call.threshold).unsigned 32 = .ok t ∧
      x.result = (sign call.shares t call.message).mapError
        (Failure.raised (thresholdError caller call.shares.length t)) ∧
      (env.enabled = true → records x.log
        = combineRecords env call (sign call.shares t call.message))) := by
  rw [hx, inprocessSign]
  cases hargs : inprocessArgs (.arr (call.shares.map bytesInput)) (thresholdInput call.threshold)
    (bytesInput call.message) with
  | error e => exact Or.inl ⟨e, rfl, rfl⟩
  | ok args =>
      rcases (inprocessArgs_eq_ok_iff _ _ _ _).mp hargs with ⟨hshares, hlen, t, ht, rfl⟩
      refine Or.inr ⟨t, hshares, hlen, ht, ?_, fun henv => ?_⟩
      · rw [Eff.ofExcept_ok_bind]
        exact recorded_result _ _ _ _ _ _ _
      · rw [Eff.ofExcept_ok_bind]
        exact recorded_eq env henv routine caller call t _

/-- The caller a scheme's errors name. -/
def Scheme.caller : Scheme → String
  | .cmp20 => "Cmp20.sign"
  | .gg18 => "Gg18.sign"

/-- What a combine does, whichever the scheme. -/
theorem combine_cases (env : AuditEnv) (up : ThresholdUpstream) (call : CombineCall Json) :
    (∃ e, (combine env up call).result = .error e ∧ (combine env up call).log = []) ∨
    (∃ t, (∀ share ∈ call.shares, share.length ≤ maxInputSize) ∧
      call.message.length ≤ maxInputSize ∧ (thresholdInput call.threshold).unsigned 32 = .ok t ∧
      (combine env up call).result = (up.sign call.scheme call.shares t call.message).mapError
        (Failure.raised (thresholdError (Scheme.caller call.scheme) call.shares.length t)) ∧
      (env.enabled = true → records (combine env up call).log
        = combineRecords env call (up.sign call.scheme call.shares t call.message))) := by
  rcases call with ⟨scheme, shares, threshold, message⟩
  cases scheme with
  | cmp20 => exact inprocessSign_cases env "cmp20_inprocess::sign" _ ⟨.cmp20, _, _, _⟩ _ _ rfl
  | gg18 => exact inprocessSign_cases env "gg18_inprocess::sign" _ ⟨.gg18, _, _, _⟩ _ _ rfl

/-- A combine that can read what it was given returns what upstream does. -/
theorem combine_result (env : AuditEnv) (up : ThresholdUpstream) (call : CombineCall Json) (t : Nat)
    (hshares : ∀ share ∈ call.shares, share.length ≤ maxInputSize)
    (hlen : call.message.length ≤ maxInputSize)
    (ht : (thresholdInput call.threshold).unsigned 32 = .ok t) :
    (combine env up call).result = (up.sign call.scheme call.shares t call.message).mapError
      (Failure.raised (thresholdError (Scheme.caller call.scheme) call.shares.length t)) := by
  have hargs := (inprocessArgs_eq_ok_iff call.shares _ call.message _).mpr
    ⟨hshares, hlen, t, ht, rfl⟩
  rcases call with ⟨scheme, shares, threshold, message⟩
  cases scheme with
  | cmp20 =>
      rw [combine, cmp20Sign, inprocessSign, hargs, Eff.ofExcept_ok_bind]
      exact recorded_result _ _ _ _ _ _ _
  | gg18 =>
      rw [combine, gg18Sign, inprocessSign, hargs, Eff.ofExcept_ok_bind]
      exact recorded_result _ _ _ _ _ _ _

variable {ρ : Type} (env : ρ → AuditEnv) (up : ρ → ThresholdUpstream) (text : NativeError → String)

/-- The combine a session calls is the extension's. -/
theorem natives_combine (call : CombineCall Json) (r : ρ) :
    (natives env up text).combine call r
      = (combine (env r) (up r) call).result.mapError (raised text) := by
  rcases call with ⟨scheme, shares, threshold, message⟩
  cases scheme <;> rfl

/-- Whether a call returned a signature. -/
def returnedSignature
    (t : Machine.Transition (Coordinator Json) (CoordinatorOp Json ρ) (Outcome Json)) : Bool :=
  match t.out.result with
  | .ok (.signature _) => true
  | _ => false

/-- A record of success that belongs to a call: the call is an aggregation, and
    the record has its time, the scheme its session has and the hash of the
    message its session was created with. -/
def Attests (ops : List (CoordinatorOp Json ρ))
    (t : Machine.Transition (Coordinator Json) (CoordinatorOp Json ρ) (Outcome Json))
    (record : AuditRecord) : Prop :=
  ∃ id r s, t.op = .call id (.aggregate r) ∧ t.before.sessions.get? id = some s ∧
    Coordinator.CreatedWith (Coordinator.history (natives env up text) ops) id s.message
      s.threshold ∧
    record = ⟨(env r).now, Scheme.operation s.scheme, "success", (env r).sha256Hex s.message,
      some s.scheme.name, none⟩

/-- A creation is still one when the run goes on. -/
theorem createdWith_append {V : Type} [DecidableEq V] [Object V] (native : Natives V ρ)
    (ops later : List (CoordinatorOp V ρ)) (id : V) (message : Bytes) (threshold : V)
    (h : Coordinator.CreatedWith (Coordinator.history native ops) id message threshold) :
    Coordinator.CreatedWith (Coordinator.history native (ops ++ later)) id message threshold := by
  rcases h with ⟨e, he, unlockWindow, scheme, hop, hresult⟩
  refine ⟨e, ?_, unlockWindow, scheme, hop, hresult⟩
  rw [Coordinator.history, Machine.trace_append]
  exact List.mem_append_left _ he

/-- Picking from a log that was put together step by step: if each step has one
    entry to pick when it counts, and none when it does not, the entries belong
    to the steps that count. -/
theorem forall₂_filter_flatMap {α β : Type} (R : α → β → Prop) (p : α → Bool) (q : β → Bool)
    (f : α → List β) (l : List α)
    (h : ∀ a ∈ l, (p a = true ∧ ∃ b, (f a).filter q = [b] ∧ R a b) ∨
      (p a = false ∧ (f a).filter q = [])) :
    List.Forall₂ R (l.filter p) ((l.flatMap f).filter q) := by
  induction l with
  | nil => exact List.Forall₂.nil
  | cons a rest ih =>
      have hrest := ih (fun b hb => h b (List.mem_cons_of_mem a hb))
      rw [List.flatMap_cons, List.filter_append, List.filter_cons]
      rcases h a List.mem_cons_self with ⟨hp, b, hb, hR⟩ | ⟨hp, hb⟩
      · rw [if_pos hp, hb]
        exact List.Forall₂.cons hR hrest
      · rw [if_neg (by rw [hp]; exact Bool.false_ne_true), hb]
        exact hrest

/-- Whether a record is one of success. -/
def succeeded (record : AuditRecord) : Bool := decide (record.result = "success")

/-- What an aggregation that reached the combine leaves: one success if it
    returned a signature, and none if it raised. -/
theorem combined_success (henv : ∀ r, (env r).enabled = true) (call : CombineCall Json) (r : ρ) :
    (∀ signature, (natives env up text).combine call r = .ok signature →
      (records (combine (env r) (up r) call).log).filter succeeded
        = combineRecords (env r) call (.ok signature)) ∧
    (∀ e, (natives env up text).combine call r = .error e →
      (records (combine (env r) (up r) call).log).filter succeeded = []) := by
  rw [natives_combine]
  rcases combine_cases (env r) (up r) call with
    ⟨e, hresult, hlog⟩ | ⟨t, -, -, -, hresult, hlog⟩
  · rw [hresult, hlog]
    refine ⟨fun signature h => ?_, fun e' _ => rfl⟩
    exact absurd h (by simp only [Except.mapError, reduceCtorEq, not_false_eq_true])
  · rw [hresult, hlog (henv r)]
    cases (up r).sign call.scheme call.shares t call.message with
    | ok signature =>
        refine ⟨fun signature' h => ?_, fun e h => ?_⟩
        · rw [← Except.ok.inj h]
          rfl
        · exact absurd h (by simp only [Except.mapError, reduceCtorEq, not_false_eq_true])
    | error failure =>
        refine ⟨fun signature h => ?_, fun e _ => ?_⟩
        · exact absurd h (by simp only [Except.mapError, reduceCtorEq, not_false_eq_true])
        · cases failure <;> rfl

/-- The successes one call leaves: one for a signature that was returned, and
    otherwise none. -/
theorem records_combineLog (henv : ∀ r, (env r).enabled = true) (c : Coordinator Json)
    (op : CoordinatorOp Json ρ) :
    let t := (Coordinator.step (natives env up text)).transition c op
    (returnedSignature t = true ∧ ∃ id r s, op = .call id (.aggregate r) ∧
      c.sessions.get? id = some s ∧ (records (combineLog env up t)).filter succeeded
        = combineRecords (env r) s.combineCall (.ok [])) ∨
    (returnedSignature t = false ∧ (records (combineLog env up t)).filter succeeded = []) := by
  intro t
  cases op with
  | createSession message threshold unlockWindow scheme =>
      refine Or.inr ⟨?_, rfl⟩
      rcases Coordinator.createSession_cases (natives env up text) c message threshold
        unlockWindow scheme with ⟨_, hstep⟩ | ⟨k, _, hstep⟩ <;>
      · simp only [t, returnedSignature, Machine.Step.transition, hstep]
        rfl
  | call id op =>
      cases hget : c.sessions.get? id with
      | none =>
          have hstep := Coordinator.step_call_of_unknown (natives env up text) c id op hget
          refine Or.inr ⟨?_, ?_⟩
          · simp only [t, returnedSignature, Machine.Step.transition, hstep]
            rfl
          · simp only [t, combineLog, Machine.Step.transition, hstep]
            cases op <;> rfl
      | some s =>
          have hstep := Coordinator.step_call_of_known (natives env up text) c id op s hget
          have hdoes := SigningSession.step_does (natives env up text) s op
          simp only [t, returnedSignature, combineLog, Machine.Step.transition, hstep]
          generalize SigningSession.step (natives env up text) s op = after at hdoes
          cases hdoes with
          | combineReturned r signature hmet hcombine =>
              refine Or.inl ⟨rfl, id, r, s, rfl, hget, ?_⟩
              exact (combined_success env up text henv _ r).1 signature hcombine
          | combineRaised r e hmet hcombine =>
              exact Or.inr ⟨rfl, (combined_success env up text henv _ r).2 e hcombine⟩
          | _ => exact Or.inr ⟨rfl, rfl⟩

/-- With a sink set, the records of success are the signatures: as many as the
    calls that returned one, in the same order, each with the scheme and the
    message of the session that was signed for. -/
theorem signatures_are_recorded (henv : ∀ r, (env r).enabled = true)
    (ops : List (CoordinatorOp Json ρ)) :
    List.Forall₂ (Attests env up text ops)
      ((Coordinator.history (natives env up text) ops).filter returnedSignature)
      ((records (auditLog env up text ops)).filter succeeded) := by
  have hlog : records (auditLog env up text ops)
      = (Coordinator.history (natives env up text) ops).flatMap
          (fun t => records (combineLog env up t)) := List.filterMap_flatMap
  rw [hlog]
  refine forall₂_filter_flatMap _ _ _ _ _ (fun t ht => ?_)
  rcases (Machine.mem_trace_iff _ _ _ t).mp ht with ⟨pre, op, post, hops, rfl⟩
  rcases records_combineLog env up text henv _ op with ⟨hsig, id, r, s, hop, hget, hrec⟩ | hnone
  · refine Or.inl ⟨hsig, _, hrec, id, r, s, hop, hget, ?_, rfl⟩
    -- The session was created before the call, so in the run.
    rw [hops]
    exact createdWith_append _ pre _ _ _ _
      ((Coordinator.accounted_run (natives env up text) pre).created id s hget)
  · exact Or.inr hnone

/-- Two aggregations, the first of which comes too early. -/
def earlyAndLate : List (CoordinatorOp Json Unit) :=
  [.createSession [1] (.int 1) (.int 60) (.str "GG18-ECDSA-P256"),
    .call (.str "session-1") (.aggregate ()),
    .call (.str "session-1") (.addShare (.str "a") [2]),
    .call (.str "session-1") (.aggregate ())]

/-- Of the two, the one that signed is recorded. -/
theorem signatures_are_recorded_once :
    List.Forall₂ (Attests (fun _ => auditedHost.audit) (fun _ => agreeableThreshold)
        NativeError.className earlyAndLate)
      ((Coordinator.history (natives (fun _ => auditedHost.audit) (fun _ => agreeableThreshold)
        NativeError.className) earlyAndLate).filter returnedSignature)
      ((records (auditLog (fun _ => auditedHost.audit) (fun _ => agreeableThreshold)
        NativeError.className earlyAndLate)).filter succeeded) ∧
    ((records (auditLog (fun _ => auditedHost.audit) (fun _ => agreeableThreshold)
      NativeError.className earlyAndLate)).filter succeeded).length = 1 :=
  ⟨signatures_are_recorded _ _ _ (fun _ => rfl) earlyAndLate, by decide +kernel⟩

end TC

end Confium
