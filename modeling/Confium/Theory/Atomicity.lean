import Confium.Core.NetworkCoordinator
import Confium.Theory.Lifecycle
import Confium.Theory.Registry

/-!
# Rejected Requests

Whether a request that raises leaves the registry as it found it. Almost every
failure happens before anything is written: an unknown operation, a missing
field, a duplicate, an unknown session, too few shares, a combine that raises.
The one exception is a commitment. `add_commitment` stores it and then compares
the count with the threshold, and a threshold that is not a number makes that
comparison raise with the commitment already in the store.

The wire can set this up, since `create` takes whatever JSON value it finds
under `threshold`. `HalfApplied` describes the requests that hit it: a
well-formed commitment from a signer who has none yet, for a session whose
threshold is neither an integer nor a float. A signer is told by the key of its id,
so an object with its fields in another order is the same one. `rejected_unchanged_iff` says a
run of requests has the all-or-nothing property exactly when none of them is
half applied, and `numeric_requests_are_atomic` gives the condition a client
can arrange for: create sessions with numeric thresholds only.

## Main definitions

* `isNumber`: The JSON values a count can be compared with.
* `HalfRecorded`: A commitment that is stored and then raises.
* `CommitmentRequest`: A well-formed commitment request.
* `HalfApplied`: A request that raises after it has written.
* `dispatchStep`: Requests as steps of a machine.

## Theorems

* `step_unchanged_of_raise`: A session operation that raises leaves the session
  alone unless it is half recorded.
* `step_commitment_reordered`: An object in another order is the same signer.
* `dispatch_unchanged_iff`: The same for one request.
* `rejected_unchanged_iff`: The same for every request of a run.
* `numeric_requests_are_atomic`: Numeric thresholds suffice.
* `half_applied_commitment`: A rejected request that changes the registry.
-/

namespace Confium

open Ruby

/-- The values a count can be compared with. -/
def isNumber : Json → Bool
  | .int _ => true
  | .float _ => true
  | _ => false

theorem ge_eq_none_iff (n : Nat) (v : Json) : Object.ge n v = none ↔ isNumber v = false := by
  cases v <;> simp only [Object.ge, isNumber, reduceCtorEq]

namespace SigningSession

variable {V ρ : Type} [DecidableEq V] [Object V]

/-- A new signer's commitment to a session whose threshold does not compare:
    it is stored, and then the comparison raises. -/
def HalfRecorded (s : SigningSession V) (op : SessionOp V ρ) : Prop :=
  ∃ signerId bytes, op = .addCommitment signerId bytes ∧
    s.commitments.get? (Object.key signerId) = none ∧
    Object.ge (s.commitments.length + 1) s.threshold = none

/-- A session operation that raises has left the session alone, unless it is
    half recorded. -/
theorem step_unchanged_of_raise (native : Natives V ρ) (s : SigningSession V)
    (op : SessionOp V ρ) (e : Exn V) (h : (step native s op).1.result = .error e)
    (hhalf : ¬ HalfRecorded s op) : (step native s op).2 = s := by
  have hdoes := step_does native s op
  generalize step native s op = after at hdoes h ⊢
  cases hdoes with
  | commitmentDuplicate signerId bytes b hget => rfl
  | commitmentIncomparable signerId bytes hget hge =>
      exact absurd ⟨signerId, bytes, rfl, hget, hge⟩ hhalf
  | shareDuplicate signerId bytes b hget => rfl
  | aggregateIncomparable r hmet => rfl
  | aggregateEarly r hmet => rfl
  | combineRaised r e' hmet hcombine => rfl
  | _ =>
      -- The others return.
      exact absurd h (by simp only [Outcome.reply, reduceCtorEq, not_false_eq_true])

/-- A half-recorded commitment raises, and the commitment is in the store. -/
theorem step_of_halfRecorded (native : Natives V ρ) (s : SigningSession V) (op : SessionOp V ρ)
    (h : HalfRecorded s op) :
    (∃ e, (step native s op).1.result = .error e) ∧ (step native s op).2 ≠ s := by
  rcases h with ⟨signerId, bytes, hop, hget, hge⟩
  have hstep : step native s op = (.raise (.comparison s.threshold),
      { s with commitments := s.commitments.set (Object.key signerId) bytes }) := by
    simp only [hop, step, addCommitment, record_of_get?_eq_none s.commitments signerId bytes hget,
      Hash.length_set_of_get?_eq_none s.commitments _ bytes hget, hge]
  rw [hstep]
  -- The signer had no commitment before and has one now.
  refine ⟨⟨_, rfl⟩, fun hsame => ?_⟩
  have hstore := congrArg (fun s => s.commitments.get? (Object.key signerId)) hsame
  simp only [Hash.get?_set_self, hget] at hstore
  exact absurd hstore (by simp only [reduceCtorEq, not_false_eq_true])

/-- An object with its fields in another order is the same signer, whose second
    commitment is refused and changes nothing. -/
theorem step_commitment_reordered (native : Natives Json ρ) (s : SigningSession Json)
    (fields fields' : Fields) (hperm : fields.Perm fields')
    (hnodup : (fields.map Prod.fst).Nodup) (b : Bytes)
    (hget : s.commitments.get? (Object.key (.obj fields)) = some b) (bytes : Bytes) :
    step native s (.addCommitment (.obj fields') bytes)
      = (.raise (.duplicateSubmission (.obj fields')), s) := by
  have hkey : Object.key (Json.obj fields) = Object.key (Json.obj fields') := by
    refine (Json.key_obj_eq_iff fields fields' hnodup
      ((hperm.map Prod.fst).nodup_iff.mp hnodup)).mpr ?_
    intro name v
    simp only [hperm.mem_iff]
  rw [hkey] at hget
  simp only [step, addCommitment, record_of_get?_eq_some s.commitments (.obj fields') bytes b hget]

end SigningSession

namespace Coordinator

variable {V ρ : Type} [DecidableEq V] [Object V]

/-- The coordinator call that hits a half-recorded commitment. -/
def HalfRecorded (c : Coordinator V) (op : CoordinatorOp V ρ) : Prop :=
  ∃ id sop s, op = .call id sop ∧ c.sessions.get? id = some s ∧ SigningSession.HalfRecorded s sop

theorem step_unchanged_of_raise (native : Natives V ρ) (c : Coordinator V)
    (op : CoordinatorOp V ρ) (e : Exn V) (h : (step native c op).1.result = .error e)
    (hhalf : ¬ HalfRecorded c op) : (step native c op).2 = c := by
  cases op with
  | createSession message threshold unlockWindow scheme =>
      rcases createSession_cases native c message threshold unlockWindow scheme with
        ⟨_, hstep⟩ | ⟨k, _, hstep⟩
      · rw [hstep]
      · rw [hstep] at h
        exact absurd h (by simp only [Outcome.reply, reduceCtorEq, not_false_eq_true])
  | call id sop =>
      cases hget : c.sessions.get? id with
      | none => rw [step_call_of_unknown native c id sop hget]
      | some s =>
          rw [step_call_of_known native c id sop s hget] at h ⊢
          have hsame := SigningSession.step_unchanged_of_raise native s sop e h
            (fun hs => hhalf ⟨id, sop, s, rfl, hget, hs⟩)
          simp only [hsame, Hash.set_of_get?_eq_some c.sessions id s hget]

theorem step_of_halfRecorded (native : Natives V ρ) (c : Coordinator V) (op : CoordinatorOp V ρ)
    (h : HalfRecorded c op) :
    (∃ e, (step native c op).1.result = .error e) ∧ (step native c op).2 ≠ c := by
  rcases h with ⟨id, sop, s, hop, hget, hs⟩
  rcases SigningSession.step_of_halfRecorded native s sop hs with ⟨hraise, hne⟩
  rw [hop, step_call_of_known native c id sop s hget]
  refine ⟨hraise, fun hsame => hne ?_⟩
  have hses := congrArg (fun c => c.sessions.get? id) hsame
  simp only [Hash.get?_set_self, hget, Option.some.injEq] at hses
  exact hses

end Coordinator

namespace NetworkCoordinator

variable {ρ : Type}

/-- A well-formed commitment request: an object whose `op` is `commitment`,
    with a session id, a signer id and bytes that unpack. -/
def CommitmentRequest (request id signerId : Json) (bytes : Bytes) : Prop :=
  ∃ fields, request = .obj fields ∧ Json.field? fields "op" = some (.str "commitment") ∧
    Submission fields id signerId bytes

/-- A request that raises after it has written: a well-formed commitment from
    a signer with none yet, to a session whose threshold is not a number. -/
def HalfApplied (c : Coordinator Json) (request : Json) : Prop :=
  ∃ id signerId bytes s, CommitmentRequest request id signerId bytes ∧
    c.sessions.get? id = some s ∧ s.commitments.get? (Object.key signerId) = none ∧
    isNumber s.threshold = false

/-- The requests that amount to a commitment. -/
theorem callOf_addCommitment_iff (request : Json) (r : ρ) (id signerId : Json) (bytes : Bytes) :
    callOf request r = .ok (.call id (.addCommitment signerId bytes)) ↔
      CommitmentRequest request id signerId bytes := by
  rw [callOf_eq_ok_iff_asks]
  constructor
  · rintro ⟨fields, hreq, hasks⟩
    cases hasks with
    | commitment _ _ _ hop hsub => exact ⟨fields, hreq, hop, hsub⟩
  · rintro ⟨fields, hreq, hop, hsub⟩
    exact ⟨fields, hreq, .commitment id signerId bytes hop hsub⟩

/-- A call that returned has something to answer with: the session a
    commitment went to is still there to be asked for its state. -/
theorem response_eq_ok (native : Natives Json ρ) (c : Coordinator Json) (request : Json) (r : ρ)
    (handler : Handler ρ) (fields : Fields) (op : CoordinatorOp Json ρ) (a : Reply Json)
    (hh : handlerOf request = .ok (handler, fields)) (hcall : handler.call fields r = .ok op)
    (ha : (Coordinator.step native c op).1.result = .ok a) :
    ∃ answer, handler.response fields a (Coordinator.step native c op).2 = .ok answer := by
  rcases (handlerOf_eq_ok_iff request handler fields).mp hh with ⟨_, _, _, hserved⟩
  rcases (handlers_eq_some_iff _ handler).mp hserved with
    ⟨_, hhd⟩ | ⟨_, hhd⟩ | ⟨_, hhd⟩ | ⟨_, hhd⟩
  · rw [hhd]
    cases a <;> exact ⟨_, rfl⟩
  · rw [hhd, commitment_call_eq_ok_iff] at hcall
    rcases hcall with ⟨id, signerId, bytes, ⟨v, hid, _⟩, hop⟩
    cases hget : c.sessions.get? id with
    | none =>
        rw [hop, Coordinator.step_call_of_unknown native c id _ hget] at ha
        exact absurd ha (by simp only [Outcome.raise, reduceCtorEq, not_false_eq_true])
    | some s =>
        have hself := Coordinator.get?_step_call_self native c id (.addCommitment signerId bytes)
          s hget
        rw [← hop] at hself
        rw [hhd]
        exact ⟨_, commitment_response_eq fields a _ id _ hid hself⟩
  · rw [hhd]
    exact ⟨_, rfl⟩
  · rw [hhd]
    cases a <;> exact ⟨_, rfl⟩

/-- A half-applied request is one whose call is half recorded. -/
theorem halfApplied_iff (c : Coordinator Json) (request : Json) (r : ρ) :
    HalfApplied c request ↔
      ∃ op, callOf request r = .ok op ∧ Coordinator.HalfRecorded c op := by
  constructor
  · rintro ⟨id, signerId, bytes, s, hreq, hget, hnew, hnum⟩
    exact ⟨_, (callOf_addCommitment_iff request r id signerId bytes).mpr hreq, id, _, s, rfl, hget,
      signerId, bytes, rfl, hnew, (ge_eq_none_iff _ _).mpr hnum⟩
  · rintro ⟨op, hcall, id, sop, s, hop, hget, signerId, bytes, hsop, hnew, hge⟩
    rw [hop, hsop] at hcall
    exact ⟨id, signerId, bytes, s, (callOf_addCommitment_iff request r id signerId bytes).mp hcall,
      hget, hnew, (ge_eq_none_iff _ _).mp hge⟩

/-- One request that raises leaves the registry as it was, unless it is half
    applied. -/
theorem dispatch_unchanged_iff (native : Natives Json ρ) (c : Coordinator Json) (request : Json)
    (r : ρ) :
    (∀ e, (dispatch native c request r).1 = .error e → (dispatch native c request r).2 = c) ↔
      ¬ HalfApplied c request := by
  rw [halfApplied_iff c request r]
  cases hcall : callOf request r with
  | error e =>
      rw [dispatch_of_error native c request r e hcall]
      refine iff_of_true (fun _ _ => rfl) ?_
      rintro ⟨op, hop, _⟩
      exact absurd hop (by simp only [reduceCtorEq, not_false_eq_true])
  | ok op =>
      rcases dispatch_of_call native c request r op hcall with
        ⟨handler, fields, hh, hhc, hdispatch⟩
      rw [hdispatch]
      constructor
      · rintro h ⟨op', hop', hhalf⟩
        simp only [Except.ok.injEq] at hop'
        rw [← hop'] at hhalf
        -- A half-recorded call raises, so the request does, and the registry has moved.
        rcases Coordinator.step_of_halfRecorded native c op hhalf with ⟨⟨e, he⟩, hne⟩
        exact hne (h e (by rw [he]))
      · intro hhalf e he
        cases hres : (Coordinator.step native c op).1.result with
        | error e' =>
            exact Coordinator.step_unchanged_of_raise native c op e' hres
              (fun hc => hhalf ⟨op, rfl, hc⟩)
        | ok a =>
            -- The call returned, so the request is answered and nothing raised.
            rcases response_eq_ok native c request r handler fields op a hh hhc hres with
              ⟨answer, hans⟩
            rw [hres] at he
            simp only [hans, reduceCtorEq] at he

/-- Requests as steps of a machine, each with the randomness it may draw. -/
def dispatchStep (native : Natives Json ρ) :
    Machine.Step (Coordinator Json) (Json × ρ) (Except (Exn Json) Json) :=
  fun c request => dispatch native c request.1 request.2

/-- Every rejected request of a run leaves the registry as it was exactly when
    no request of the run is half applied. -/
theorem rejected_unchanged_iff (native : Natives Json ρ) (c : Coordinator Json)
    (requests : List (Json × ρ)) :
    (∀ t ∈ Machine.trace (dispatchStep native) c requests,
      ∀ e, t.out = .error e → t.after = t.before) ↔
      ∀ t ∈ Machine.trace (dispatchStep native) c requests, ¬ HalfApplied t.before t.op.1 := by
  rw [Machine.forall_trace_iff, Machine.forall_trace_iff]
  refine forall_congr' fun pre => forall_congr' fun request => forall_congr' fun post =>
    imp_congr_right fun _ => ?_
  exact dispatch_unchanged_iff native _ request.1 request.2

/-- Every session's threshold is a number. -/
def NumericThresholds (c : Coordinator Json) : Prop :=
  ∀ id s, c.sessions.get? id = some s → isNumber s.threshold = true

/-- A request that asks for a session asks for a numeric threshold. -/
def NumericRequest (request : Json) : Prop :=
  ∀ fields t, request = .obj fields → Json.field? fields "op" = some (.str "create") →
    Json.field? fields "threshold" = some t → isNumber t = true

/-- Creations from numeric requests and calls of any kind keep the thresholds
    numeric: a creation stores what it was given and nothing else stores a
    threshold. -/
theorem numericThresholds_dispatch (native : Natives Json ρ) (c : Coordinator Json)
    (request : Json) (r : ρ) (hn : NumericThresholds c) (hreq : NumericRequest request) :
    NumericThresholds (dispatch native c request r).2 := by
  cases hcall : callOf request r with
  | error e =>
      rw [dispatch_of_error native c request r e hcall]
      exact hn
  | ok op =>
      rcases dispatch_of_call native c request r op hcall with
        ⟨handler, fields, hh, hhc, hdispatch⟩
      rw [hdispatch]
      intro id s hs
      cases op with
      | createSession message threshold unlockWindow scheme =>
          -- A new session has the threshold the request asked for.
          have hnum : isNumber threshold = true := by
            rcases (callOf_eq_ok_iff_asks request r _).mp hcall with ⟨asked, hobj, hasks⟩
            cases hasks with
            | create _ _ _ hop _ _ ht => exact hreq asked threshold hobj hop ht
          rcases Coordinator.createSession_cases native c message threshold unlockWindow scheme
            with ⟨_, hstep⟩ | ⟨k, _, hstep⟩
          · rw [hstep] at hs
            exact hn id s hs
          · rw [hstep] at hs
            by_cases hid : id = c.nextId
            · rw [hid, Hash.get?_set_self, Option.some.injEq] at hs
              rw [← hs]
              exact hnum
            · rw [Hash.get?_set_ne _ _ _ _ hid] at hs
              exact hn id s hs
      | call id' sop =>
          by_cases hid : id = id'
          · rw [← hid] at hs
            cases hget : c.sessions.get? id with
            | none =>
                rw [Coordinator.step_call_of_unknown native c id sop hget, hget] at hs
                exact absurd hs (by simp only [reduceCtorEq, not_false_eq_true])
            | some s' =>
                rw [Coordinator.get?_step_call_self native c id sop s' hget,
                  Option.some.injEq] at hs
                -- A session keeps its threshold, whatever is done to it.
                rw [← hs, (SigningSession.step_fixed native s' sop).2.1]
                exact hn id s' hget
          · rw [Coordinator.get?_step_call_ne native c id' id sop hid] at hs
            exact hn id s hs

/-- On a service whose sessions are only ever created with numeric thresholds,
    every rejected request leaves the registry as it was. -/
theorem numeric_requests_are_atomic (native : Natives Json ρ) (requests : List (Json × ρ))
    (hreq : ∀ q ∈ requests, NumericRequest q.1) :
    ∀ t ∈ Machine.trace (dispatchStep native) Coordinator.new requests,
      ∀ e, t.out = .error e → t.after = t.before := by
  rw [Machine.forall_trace_iff]
  intro pre request post hsplit
  refine (dispatch_unchanged_iff native _ request.1 request.2).mpr ?_
  have hn : NumericThresholds (Machine.run (dispatchStep native) Coordinator.new pre) := by
    -- Every request before this one was numeric, so every threshold is.
    refine Machine.run_induct_of_mem (dispatchStep native) NumericThresholds _ pre ?_ ?_
    · intro id s hs
      exact absurd hs (by simp only [Coordinator.new, Hash.get?_empty, reduceCtorEq,
        not_false_eq_true])
    · intro c q hq hc
      exact numericThresholds_dispatch native c q.1 q.2 hc
        (hreq q (by rw [hsplit]; exact List.mem_append_left _ hq))
  rintro ⟨id, signerId, bytes, s, _, hget, _, hnum⟩
  rw [hn id s hget] at hnum
  exact absurd hnum (by simp only [reduceCtorEq, not_false_eq_true])

end NetworkCoordinator

/-- A session created over the wire with the threshold `"2"`. Its first
    commitment raises, and is in the store all the same. -/
theorem half_applied_commitment :
    let c := (NetworkCoordinator.dispatch signAnything Coordinator.new
      (.obj [("op", .str "create"), ("message_hex", .str "00"), ("threshold", .str "2")]) ()).2
    let request := Json.obj [("op", .str "commitment"), ("session_id", .str "session-1"),
      ("signer_id", .str "a"), ("bytes_hex", .str "0a")]
    (NetworkCoordinator.dispatch signAnything c request ()).1 = .error (.comparison (.str "2")) ∧
      (NetworkCoordinator.dispatch signAnything c request ()).2 ≠ c := by
  decide

end Confium
