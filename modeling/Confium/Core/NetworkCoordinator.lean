import Confium.Core.Fields
import Confium.Core.Coordinator

/-!
# The Wire Handlers

The coordinator behind a socket: a request is one parsed document, `dispatch`
picks the handler its `op` names, and the handler makes one call on the
coordinator and answers with an object.

A handler is given here in two halves. `call` is everything up to the call:
fetching fields and unpacking hexadecimal, in the order the lambda evaluates
its arguments, and raising where a field is missing or not a string.
`response` is everything after it. Between the two stands a single step of the
coordinator, which is what makes the wire path a path to the same sessions.

A request is any document at all, so `op` may be asked of things that are not
objects.

## Main definitions

* `Handler`: One entry of `HANDLERS`.
* `opOf`: `request['op']`.
* `handlerOf`: The handler a request selects, with its fields.
* `dispatch`: Serving one request.
* `callOf`: The call a request amounts to.
* `Submission`: The fields of a commitment or a share.
* `Asks`: The calls an object can ask for.
* `errorObject`: What a request that raised is answered with.

## Theorems

* `handlerOf_eq_ok_iff`: The requests that select a handler.
* `callOf_eq_ok_iff`: The requests that amount to a call.
* `create_call_eq_ok_iff`, `commitment_call_eq_ok_iff`, `share_call_eq_ok_iff`,
  `aggregate_call_eq_ok_iff`: The requests each handler makes a call for.
* `callOf_eq_ok_iff_asks`: All of them at once.
* `dispatch_of_error`: A request that does not amount to a call changes
  nothing.
* `dispatch_of_call`: A request that does is a step of the coordinator.
-/

namespace Confium

open Ruby

namespace NetworkCoordinator

variable {ρ : Type}

/-- `req['scheme'] || 'CMP20-ECDSA-P256'`. -/
def schemeOf (req : Fields) : Json :=
  match Json.field? req "scheme" with
  | none => .str Scheme.cmp20.name
  | some v => if v.truthy then v else .str Scheme.cmp20.name

/-- A handler: the call it makes on the coordinator, and the object it answers
    with once that call has returned. -/
structure Handler (ρ : Type) where
  call : Fields → ρ → Except (Exn Json) (CoordinatorOp Json ρ)
  response : Fields → Reply Json → Coordinator Json → Except (Exn Json) Json

/-- `HANDLERS['create']`. -/
def create : Handler ρ where
  call := fun req _ => do
    -- The scheme is read without `fetch`, so it alone may be missing.
    let message ← packValue (← fetch req "message_hex")
    let threshold ← fetch req "threshold"
    return .createSession message threshold SigningSession.defaultUnlockWindow (schemeOf req)
  response := fun _ a _ => match a with
    | .sessionId id => .ok (.obj [("session_id", id)])
    | _ => .ok (.obj [])

/-- `SessionState#to_s`. -/
def stateName : SessionState → String
  | .pending => "pending"
  | .commitmentsCollected => "commitments_collected"
  | .completed => "completed"

/-- `HANDLERS['commitment']`, which reads the state back for its answer. -/
def commitment : Handler ρ where
  call := fun req _ => do
    let id ← fetch req "session_id"
    let signerId ← fetch req "signer_id"
    let bytes ← packValue (← fetch req "bytes_hex")
    return .call id (.addCommitment signerId bytes)
  response := fun req _ c => do
    let state ← c.sessionState (← fetch req "session_id")
    return .obj [("ok", .bool true), ("state", .str (stateName state))]

/-- `HANDLERS['share']`. -/
def share : Handler ρ where
  call := fun req _ => do
    let id ← fetch req "session_id"
    let signerId ← fetch req "signer_id"
    let bytes ← packValue (← fetch req "bytes_hex")
    return .call id (.addShare signerId bytes)
  response := fun _ _ _ => .ok (.obj [("ok", .bool true)])

/-- `HANDLERS['aggregate']`. -/
def aggregate : Handler ρ where
  call := fun req r => do
    let id ← fetch req "session_id"
    return .call id (.aggregate r)
  response := fun _ a _ => match a with
    | .signature bytes => .ok (.obj [("signature_hex", .str (unpackHex bytes))])
    | _ => .ok (.obj [])

/-- `HANDLERS[op]`. -/
def handlers (op : Json) : Option (Handler ρ) :=
  if op = .str "create" then some create
  else if op = .str "commitment" then some commitment
  else if op = .str "share" then some share
  else if op = .str "aggregate" then some aggregate
  else none

/-- `request['op']`, `nil` when there is none. -/
def opOf (request : Json) : Except (Exn Json) Json := index request "op"

/-- The handler a request selects, and the fields it is called with. A string
    request names the operation `op`, which no handler serves, so only objects
    get this far. -/
def handlerOf (request : Json) : Except (Exn Json) (Handler ρ × Fields) := do
  let op ← opOf request
  if op.truthy then
    match handlers op, request with
    | some handler, .obj fields => return (handler, fields)
    | _, _ => .error (.unknownOp op)
  else .error .missingOp

/-- Serving one request, with the randomness an aggregation would draw. -/
def dispatch (native : Natives Json ρ) (c : Coordinator Json) (request : Json) (r : ρ) :
    Except (Exn Json) Json × Coordinator Json :=
  match handlerOf request with
  | .error e => (.error e, c)
  | .ok (handler, fields) =>
    match handler.call fields r with
    | .error e => (.error e, c)
    | .ok op =>
      -- A call that raised may have written, and the registry keeps what it wrote.
      let (out, c') := Coordinator.step native c op
      match out.result with
      | .error e => (.error e, c')
      | .ok a => (handler.response fields a c', c')

/-- What a request that raised is answered with. -/
def errorObject (toS describe : Json → String) (e : Exn Json) : Json :=
  .obj [("error", .str e.className), ("message", .str (e.message toS describe))]

/-- The call a request amounts to, if it amounts to one. -/
def callOf (request : Json) (r : ρ) : Except (Exn Json) (CoordinatorOp Json ρ) := do
  let (handler, fields) ← handlerOf request
  handler.call fields r

/-- The four operations are served and nothing else is. -/
theorem handlers_eq_some_iff (op : Json) (handler : Handler ρ) :
    handlers op = some handler ↔
      (op = .str "create" ∧ handler = create) ∨ (op = .str "commitment" ∧ handler = commitment) ∨
      (op = .str "share" ∧ handler = share) ∨ (op = .str "aggregate" ∧ handler = aggregate) := by
  rw [handlers]
  split
  · next h => subst h; simp [eq_comm]
  · split
    · next h => subst h; simp [eq_comm]
    · split
      · next h => subst h; simp [eq_comm]
      · split
        · next h => subst h; simp [eq_comm]
        · simp [*]

/-- A request that selects a handler is an object whose `op` names it. -/
theorem handlerOf_eq_ok_iff (request : Json) (handler : Handler ρ) (fields : Fields) :
    handlerOf request = .ok (handler, fields) ↔ request = .obj fields ∧
      ∃ op, Json.field? fields "op" = some op ∧ handlers op = some handler := by
  constructor
  · intro h
    rw [handlerOf, bind_eq_ok_iff] at h
    rcases h with ⟨op, hop, h⟩
    split at h
    · next ht =>
        split at h
        · next hd f hh =>
            simp only [pure, Except.pure, Except.ok.injEq, Prod.mk.injEq] at h
            rcases h with ⟨rfl, rfl⟩
            refine ⟨rfl, op, ?_, hh⟩
            simp only [opOf, index, Except.ok.injEq] at hop
            cases hf : Json.field? f "op" with
            | none =>
                -- A missing `op` reads as `nil`, which is not truthy.
                rw [hf] at hop
                rw [← hop] at ht
                exact absurd ht (by simp only [Option.getD_none, Json.truthy, Bool.false_eq_true,
                  not_false_eq_true])
            | some v =>
                rw [hf] at hop
                rw [← hop, Option.getD_some]
        · exact absurd h (by simp only [reduceCtorEq, not_false_eq_true])
    · exact absurd h (by simp only [reduceCtorEq, not_false_eq_true])
  · rintro ⟨hreq, op, hop, hh⟩
    have htruthy : op.truthy = true := by
      rcases (handlers_eq_some_iff op handler).mp hh with ⟨h, _⟩ | ⟨h, _⟩ | ⟨h, _⟩ | ⟨h, _⟩ <;>
      · rw [h]
        rfl
    rw [handlerOf, bind_eq_ok_iff]
    refine ⟨op, by rw [hreq, opOf, index, hop]; rfl, ?_⟩
    rw [if_pos htruthy, hh, hreq]
    rfl

theorem callOf_eq_ok_iff (request : Json) (r : ρ) (op : CoordinatorOp Json ρ) :
    callOf request r = .ok op ↔ ∃ handler fields,
      handlerOf request = .ok (handler, fields) ∧ handler.call fields r = .ok op := by
  rw [callOf, bind_eq_ok_iff]
  constructor
  · rintro ⟨⟨handler, fields⟩, hh, hcall⟩
    exact ⟨handler, fields, hh, hcall⟩
  · rintro ⟨handler, fields, hh, hcall⟩
    exact ⟨(handler, fields), hh, hcall⟩

theorem create_call_eq_ok_iff (req : Fields) (r : ρ) (op : CoordinatorOp Json ρ) :
    create.call req r = .ok op ↔ ∃ v message threshold,
      Json.field? req "message_hex" = some v ∧ packValue v = .ok message ∧
      Json.field? req "threshold" = some threshold ∧
      op = .createSession message threshold SigningSession.defaultUnlockWindow (schemeOf req) := by
  simp only [create, bind_eq_ok_iff, fetch_eq_ok_iff, pure, Except.pure, Except.ok.injEq]
  constructor
  · rintro ⟨v, hv, message, hm, threshold, ht, rfl⟩
    exact ⟨v, message, threshold, hv, hm, ht, rfl⟩
  · rintro ⟨v, message, threshold, hv, hm, ht, rfl⟩
    exact ⟨v, hv, message, hm, threshold, ht, rfl⟩

/-- The fields a submission is made of. -/
def Submission (req : Fields) (id signerId : Json) (bytes : Bytes) : Prop :=
  ∃ v, Json.field? req "session_id" = some id ∧ Json.field? req "signer_id" = some signerId ∧
    Json.field? req "bytes_hex" = some v ∧ packValue v = .ok bytes

theorem commitment_call_eq_ok_iff (req : Fields) (r : ρ) (op : CoordinatorOp Json ρ) :
    commitment.call req r = .ok op ↔ ∃ id signerId bytes, Submission req id signerId bytes ∧
      op = .call id (.addCommitment signerId bytes) := by
  simp only [commitment, bind_eq_ok_iff, fetch_eq_ok_iff, pure, Except.pure, Except.ok.injEq]
  constructor
  · rintro ⟨id, hid, signerId, hs, v, hv, bytes, hb, rfl⟩
    exact ⟨id, signerId, bytes, ⟨v, hid, hs, hv, hb⟩, rfl⟩
  · rintro ⟨id, signerId, bytes, ⟨v, hid, hs, hv, hb⟩, rfl⟩
    exact ⟨id, hid, signerId, hs, v, hv, bytes, hb, rfl⟩

theorem share_call_eq_ok_iff (req : Fields) (r : ρ) (op : CoordinatorOp Json ρ) :
    share.call req r = .ok op ↔ ∃ id signerId bytes, Submission req id signerId bytes ∧
      op = .call id (.addShare signerId bytes) := by
  simp only [share, bind_eq_ok_iff, fetch_eq_ok_iff, pure, Except.pure, Except.ok.injEq]
  constructor
  · rintro ⟨id, hid, signerId, hs, v, hv, bytes, hb, rfl⟩
    exact ⟨id, signerId, bytes, ⟨v, hid, hs, hv, hb⟩, rfl⟩
  · rintro ⟨id, signerId, bytes, ⟨v, hid, hs, hv, hb⟩, rfl⟩
    exact ⟨id, hid, signerId, hs, v, hv, bytes, hb, rfl⟩

theorem aggregate_call_eq_ok_iff (req : Fields) (r : ρ) (op : CoordinatorOp Json ρ) :
    aggregate.call req r = .ok op ↔ ∃ id, Json.field? req "session_id" = some id ∧
      op = .call id (.aggregate r) := by
  simp only [aggregate, bind_eq_ok_iff, fetch_eq_ok_iff, pure, Except.pure, Except.ok.injEq]
  constructor
  · rintro ⟨id, hid, rfl⟩
    exact ⟨id, hid, rfl⟩
  · rintro ⟨id, hid, rfl⟩
    exact ⟨id, hid, rfl⟩

/-- The calls an object can ask for, each with the fields it is read from. -/
inductive Asks (fields : Fields) (r : ρ) : CoordinatorOp Json ρ → Prop where
  | create (v threshold : Json) (message : Bytes)
      (hop : Json.field? fields "op" = some (.str "create"))
      (hv : Json.field? fields "message_hex" = some v) (hpack : packValue v = .ok message)
      (hthreshold : Json.field? fields "threshold" = some threshold) :
      Asks fields r (.createSession message threshold SigningSession.defaultUnlockWindow
        (schemeOf fields))
  | commitment (id signerId : Json) (bytes : Bytes)
      (hop : Json.field? fields "op" = some (.str "commitment"))
      (hsub : Submission fields id signerId bytes) :
      Asks fields r (.call id (.addCommitment signerId bytes))
  | share (id signerId : Json) (bytes : Bytes)
      (hop : Json.field? fields "op" = some (.str "share"))
      (hsub : Submission fields id signerId bytes) :
      Asks fields r (.call id (.addShare signerId bytes))
  | aggregate (id : Json) (hop : Json.field? fields "op" = some (.str "aggregate"))
      (hid : Json.field? fields "session_id" = some id) :
      Asks fields r (.call id (.aggregate r))

/-- The requests that amount to a call are the objects that ask for it. -/
theorem callOf_eq_ok_iff_asks (request : Json) (r : ρ) (op : CoordinatorOp Json ρ) :
    callOf request r = .ok op ↔ ∃ fields, request = .obj fields ∧ Asks fields r op := by
  rw [callOf_eq_ok_iff]
  constructor
  · rintro ⟨handler, fields, hh, hcall⟩
    rcases (handlerOf_eq_ok_iff request handler fields).mp hh with ⟨hreq, name, hname, hserved⟩
    refine ⟨fields, hreq, ?_⟩
    rcases (handlers_eq_some_iff name handler).mp hserved with
      ⟨ho, hhd⟩ | ⟨ho, hhd⟩ | ⟨ho, hhd⟩ | ⟨ho, hhd⟩
    · rw [hhd, create_call_eq_ok_iff] at hcall
      rcases hcall with ⟨v, message, threshold, hv, hpack, ht, rfl⟩
      exact .create v threshold message (by rw [hname, ho]) hv hpack ht
    · rw [hhd, commitment_call_eq_ok_iff] at hcall
      rcases hcall with ⟨id, signerId, bytes, hsub, rfl⟩
      exact .commitment id signerId bytes (by rw [hname, ho]) hsub
    · rw [hhd, share_call_eq_ok_iff] at hcall
      rcases hcall with ⟨id, signerId, bytes, hsub, rfl⟩
      exact .share id signerId bytes (by rw [hname, ho]) hsub
    · rw [hhd, aggregate_call_eq_ok_iff] at hcall
      rcases hcall with ⟨id, hid, rfl⟩
      exact .aggregate id (by rw [hname, ho]) hid
  · rintro ⟨fields, hreq, hasks⟩
    -- The handler an operation names, and that it makes the call.
    have hselect : ∀ (handler : Handler ρ) (name : Json),
        Json.field? fields "op" = some name → handlers name = some handler →
        handlerOf request = .ok (handler, fields) :=
      fun handler name hname hserved =>
        (handlerOf_eq_ok_iff request handler fields).mpr ⟨hreq, name, hname, hserved⟩
    cases hasks with
    | create v threshold message hop hv hpack ht =>
        exact ⟨_, fields, hselect NetworkCoordinator.create _ hop rfl,
          (create_call_eq_ok_iff fields r _).mpr ⟨v, message, threshold, hv, hpack, ht, rfl⟩⟩
    | commitment id signerId bytes hop hsub =>
        exact ⟨_, fields, hselect NetworkCoordinator.commitment _ hop rfl,
          (commitment_call_eq_ok_iff fields r _).mpr ⟨id, signerId, bytes, hsub, rfl⟩⟩
    | share id signerId bytes hop hsub =>
        exact ⟨_, fields, hselect NetworkCoordinator.share _ hop rfl,
          (share_call_eq_ok_iff fields r _).mpr ⟨id, signerId, bytes, hsub, rfl⟩⟩
    | aggregate id hop hid =>
        exact ⟨_, fields, hselect NetworkCoordinator.aggregate _ hop rfl,
          (aggregate_call_eq_ok_iff fields r _).mpr ⟨id, hid, rfl⟩⟩

/-- A commitment is answered with the state its session is in afterwards. -/
theorem commitment_response_eq (req : Fields) (a : Reply Json) (c : Coordinator Json) (id : Json)
    (s : SigningSession Json) (hid : Json.field? req "session_id" = some id)
    (hget : c.sessions.get? id = some s) :
    (commitment (ρ := ρ)).response req a c
      = .ok (.obj [("ok", .bool true), ("state", .str (stateName s.state))]) := by
  simp only [commitment, fetch, hid, bind, Except.bind, Coordinator.sessionState, hget, pure,
    Except.pure]

theorem dispatch_of_error (native : Natives Json ρ) (c : Coordinator Json) (request : Json)
    (r : ρ) (e : Exn Json) (h : callOf request r = .error e) :
    dispatch native c request r = (.error e, c) := by
  rw [dispatch]
  cases hh : (handlerOf request : Except (Exn Json) (Handler ρ × Fields)) with
  | error e' =>
      simp only [callOf, hh, bind, Except.bind, Except.error.injEq] at h
      rw [h]
  | ok p =>
      simp only [callOf, hh, bind, Except.bind] at h
      simp only [h]

/-- Everything a request that makes a call does to the registry is what that
    call does to it, and it raises whenever the call does. -/
theorem dispatch_of_call (native : Natives Json ρ) (c : Coordinator Json) (request : Json)
    (r : ρ) (op : CoordinatorOp Json ρ) (h : callOf request r = .ok op) :
    ∃ handler fields, handlerOf request = .ok (handler, fields) ∧ handler.call fields r = .ok op ∧
      dispatch native c request r = ((match (Coordinator.step native c op).1.result with
        | .error e => .error e
        | .ok a => handler.response fields a (Coordinator.step native c op).2),
        (Coordinator.step native c op).2) := by
  cases hh : (handlerOf request : Except (Exn Json) (Handler ρ × Fields)) with
  | error e' =>
      simp only [callOf, hh, bind, Except.bind] at h
      exact absurd h (by simp only [reduceCtorEq, not_false_eq_true])
  | ok p =>
      simp only [callOf, hh, bind, Except.bind] at h
      refine ⟨p.1, p.2, rfl, h, ?_⟩
      rw [dispatch, hh]
      simp only [h]
      cases (Coordinator.step native c op).1.result <;> rfl

end NetworkCoordinator

end Confium
