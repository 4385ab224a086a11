import Confium.Lib.Json
import Confium.Lib.Lines
import Confium.Core.NetworkCoordinator

/-!
# The Signer Client

The client side of the wire. A call builds one request object, sends it as a
line, reads one line back, and raises `RemoteError` if the answer carries an
error; otherwise it takes the one field it wants from the answer. Where there is
no line, because the server closed the connection, `readline` raises `EOFError`.

`request` and `decode` are the two adapters that have to line up with the
handlers: binary arguments go out in hexadecimal, and a signature comes back in
it.

## Main definitions

* `ClientCall`: The calls of a client, with their arguments.
* `ClientExn`: What a call raises.
* `ClientValue`: What a call returns.
* `request`: The object a call sends.
* `line`: A document as a line of the wire.
* `receive`: What a call makes of the answer.
* `directOp`: The call of the coordinator a client call stands for.

## Theorems

* `callOf_request`: The request of a call amounts to the direct call.
* `receive_line`, `receive_nil`: What a call makes of a document it is sent, and of
  nothing.
-/

namespace Confium

open Ruby

namespace SignerClient

/-- The calls of a client. -/
inductive ClientCall where
  | createSession (message : Bytes) (threshold : Int) (scheme : String)
  | submitCommitment (sessionId signerId : String) (bytes : Bytes)
  | submitShare (sessionId signerId : String) (bytes : Bytes)
  | aggregate (sessionId : String)

/-- What a call raises: the remote error it was sent, or something on its own
    side of the wire. -/
inductive ClientExn where
  | remoteError (remoteClass message : Json)
  | own (e : Exn Json)
  deriving DecidableEq

/-- What a call returns: a value of the answer, or unpacked bytes. -/
inductive ClientValue where
  | value (v : Json)
  | bytes (b : Bytes)
  deriving DecidableEq

/-- The object a call sends. -/
def request : ClientCall → Json
  | .createSession message threshold scheme =>
    .obj [("op", .str "create"), ("message_hex", .str (unpackHex message)),
      ("threshold", .int threshold), ("scheme", .str scheme)]
  | .submitCommitment sessionId signerId bytes =>
    .obj [("op", .str "commitment"), ("session_id", .str sessionId), ("signer_id", .str signerId),
      ("bytes_hex", .str (unpackHex bytes))]
  | .submitShare sessionId signerId bytes =>
    .obj [("op", .str "share"), ("session_id", .str sessionId), ("signer_id", .str signerId),
      ("bytes_hex", .str (unpackHex bytes))]
  | .aggregate sessionId => .obj [("op", .str "aggregate"), ("session_id", .str sessionId)]

/-- A document as a line of the wire. -/
def line (codec : JsonCodec) (v : Json) : Text := codec.generate v ++ ['\n']

/-- The field of the answer a call wants. -/
def decode (call : ClientCall) (response : Json) : Except (Exn Json) ClientValue := do
  match call with
  | .createSession _ _ _ => return .value (← fetchMember response "session_id")
  | .submitCommitment _ _ _ => return .value (← fetchMember response "ok")
  | .submitShare _ _ _ => return .value (← fetchMember response "ok")
  | .aggregate _ => return .bytes (← packValue (← fetchMember response "signature_hex"))

/-- A failure on the client's own side. -/
def ownError {α : Type} : Except (Exn Json) α → Except ClientExn α
  | .ok a => .ok a
  | .error e => .error (.own e)

/-- What a call makes of the answer: the rest of `call`, and the field it
    fetches. -/
def receive (codec : JsonCodec) (call : ClientCall) (stream : Text) :
    Except ClientExn ClientValue :=
  if stream = [] then .error (.own .endOfFile)
  else match codec.parse (firstLine stream) with
  | .error text => .error (.own (.malformedJson text))
  | .ok response => do
    -- Anything but `nil` and `false` under `error` is taken for an error.
    let error ← ownError (index response "error")
    if error.truthy then .error (.remoteError error (← ownError (index response "message")))
    else ownError (decode call response)

/-- The call of the coordinator a client call stands for, with the randomness
    its combine draws. -/
def directOp {ρ : Type} (call : ClientCall) (r : ρ) : CoordinatorOp Json ρ :=
  match call with
  | .createSession message threshold scheme =>
    .createSession message (.int threshold) SigningSession.defaultUnlockWindow (.str scheme)
  | .submitCommitment sessionId signerId bytes =>
    .call (.str sessionId) (.addCommitment (.str signerId) bytes)
  | .submitShare sessionId signerId bytes =>
    .call (.str sessionId) (.addShare (.str signerId) bytes)
  | .aggregate sessionId => .call (.str sessionId) (.aggregate r)

/-- The handler that serves a call. -/
def handler {ρ : Type} : ClientCall → NetworkCoordinator.Handler ρ
  | .createSession _ _ _ => NetworkCoordinator.create
  | .submitCommitment _ _ _ => NetworkCoordinator.commitment
  | .submitShare _ _ _ => NetworkCoordinator.share
  | .aggregate _ => NetworkCoordinator.aggregate

/-- The fields of a request. -/
def fields (call : ClientCall) : Fields :=
  match request call with
  | .obj fields => fields
  | _ => []

open NetworkCoordinator

variable {ρ : Type}

theorem request_eq (call : ClientCall) : request call = .obj (fields call) := by
  cases call <;> rfl

/-- The request of a call selects the handler that serves it. -/
theorem handlerOf_request (call : ClientCall) :
    handlerOf (request call) = .ok ((handler call : Handler ρ), fields call) := by
  rw [handlerOf_eq_ok_iff]
  refine ⟨request_eq call, ?_⟩
  cases call with
  | createSession message threshold scheme =>
      exact ⟨.str "create", rfl, (handlers_eq_some_iff _ _).mpr (Or.inl ⟨rfl, rfl⟩)⟩
  | submitCommitment sessionId signerId bytes =>
      exact ⟨.str "commitment", rfl, (handlers_eq_some_iff _ _).mpr (Or.inr (Or.inl ⟨rfl, rfl⟩))⟩
  | submitShare sessionId signerId bytes =>
      exact ⟨.str "share", rfl,
        (handlers_eq_some_iff _ _).mpr (Or.inr (Or.inr (Or.inl ⟨rfl, rfl⟩)))⟩
  | aggregate sessionId =>
      exact ⟨.str "aggregate", rfl,
        (handlers_eq_some_iff _ _).mpr (Or.inr (Or.inr (Or.inr ⟨rfl, rfl⟩)))⟩

/-- The handler makes the direct call: what was packed is unpacked again. -/
theorem handler_call (call : ClientCall) (r : ρ) :
    (handler call).call (fields call) r = .ok (directOp call r) := by
  cases call with
  | createSession message threshold scheme =>
      refine (create_call_eq_ok_iff _ r _).mpr
        ⟨.str (unpackHex message), message, .int threshold, rfl, ?_, rfl, rfl⟩
      rw [packValue, packHex_unpackHex]
  | submitCommitment sessionId signerId bytes =>
      refine (commitment_call_eq_ok_iff _ r _).mpr
        ⟨.str sessionId, .str signerId, bytes, ⟨.str (unpackHex bytes), rfl, rfl, rfl, ?_⟩, rfl⟩
      rw [packValue, packHex_unpackHex]
  | submitShare sessionId signerId bytes =>
      refine (share_call_eq_ok_iff _ r _).mpr
        ⟨.str sessionId, .str signerId, bytes, ⟨.str (unpackHex bytes), rfl, rfl, rfl, ?_⟩, rfl⟩
      rw [packValue, packHex_unpackHex]
  | aggregate sessionId =>
      exact (aggregate_call_eq_ok_iff _ r _).mpr ⟨.str sessionId, rfl, rfl⟩

/-- The request of a call amounts to the direct call. -/
theorem callOf_request (call : ClientCall) (r : ρ) :
    callOf (request call) r = .ok (directOp call r) :=
  (callOf_eq_ok_iff _ r _).mpr ⟨handler call, fields call, handlerOf_request call,
    handler_call call r⟩

/-- A request is flat, with its own names for keys. -/
theorem plain_request (call : ClientCall) :
    Json.plain JsonCodec.maxNesting (request call) = true := by
  cases call <;> rfl

/-- What a call makes of a document it is sent. -/
theorem receive_line (codec : JsonCodec) (hcodec : codec.Lawful) (call : ClientCall) (v : Json)
    (hv : Json.plain JsonCodec.maxNesting v = true) :
    receive codec call (line codec v) = (do
      let error ← ownError (index v "error")
      if error.truthy then .error (.remoteError error (← ownError (index v "message")))
      else ownError (decode call v)) := by
  have hline : firstLine (line codec v) = line codec v :=
    firstLine_append _ [] (hcodec.newline_not_mem v hv)
  have hne : line codec v ≠ [] := List.append_ne_nil_of_right_ne_nil _ (List.cons_ne_nil _ _)
  rw [receive, if_neg hne, hline, line, hcodec.parse_line v hv]

/-- A connection that is closed with nothing on it ends the call. -/
theorem receive_nil (codec : JsonCodec) (call : ClientCall) :
    receive codec call [] = .error (.own .endOfFile) := if_pos rfl

end SignerClient

end Confium
