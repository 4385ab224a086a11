import Confium.Core.Audit

/-!
# The Transport Client

`Confium::Transport::SignerClient`, the native client of a coordinator over a
registry transport, and the `CoordinatorServer` it dials. The connection is
upstream's and a parameter. Both are made from a URL. The message of a session is
text and the payload of a submission an Array of integers, and both go out as they
were converted, with the names that go with them.

Registering and creating a session take Rust strings and integers, so a
conversion that fails raises what it raises. The submissions scan their arguments
themselves, and put an `ArgumentError` in place of whatever that raises.

## Main definitions

* `TransportUpstream`: The connection.
* `SubmissionArgs`: What a submission reads.
* `clientNew`, `serverNew`: Dialling and serving.
* `register`, `createSession`, `submitCommitment`, `submitShare`: The client's
  messages.
-/

namespace Confium

open Ruby

namespace Transport

/-- A connection, with the text of an IO error. -/
structure TransportUpstream where
  connectUrl : String → Except String Unit
  /-- `start_url`, by the address it is bound to. -/
  startUrl : String → Except String String
  register : String → String → Except String Unit
  createSession : String → String → Bytes → Nat → Nat → Except String String
  submitCommitment : String → String → Bytes → Except String Unit
  submitShare : String → String → Bytes → Except String (Option Bytes)

variable (up : TransportUpstream) (transcoder : Transcoder)

/-- `io_error`. -/
def ioError (operation text : String) : NativeError := .io (operation ++ ": " ++ text)

/-- `SignerClient::initialize`. -/
def clientNew (url : Arg) : Native Unit := do
  let url ← Eff.ofExcept (url.text transcoder)
  delegated "SignerClient::connect_url" (ioError "SignerClient.new") (up.connectUrl url)

/-- `CoordinatorServer::initialize`. -/
def serverNew (url : Arg) : Native String := do
  let url ← Eff.ofExcept (url.text transcoder)
  delegated "CoordinatorServer::start_url" (ioError "CoordinatorServer.new") (up.startUrl url)

/-- What `register` reads. -/
def registerArgs (signerId quorumId : Arg) : Except NativeError (String × String) := do
  let signerId ← signerId.text transcoder
  let quorumId ← quorumId.text transcoder
  return (signerId, quorumId)

/-- `register`. -/
def register (signerId quorumId : Arg) : Native Unit := do
  let (signerId, quorumId) ← Eff.ofExcept (registerArgs transcoder signerId quorumId)
  delegated "SignerClient::register" (ioError "register") (up.register signerId quorumId)

/-- What `create_session` reads. -/
structure SessionArgs where
  quorumId : String
  scheme : String
  message : String
  threshold : Nat
  numParties : Nat

def sessionArgs (quorumId scheme message threshold numParties : Arg) :
    Except NativeError SessionArgs := do
  let quorumId ← quorumId.text transcoder
  let scheme ← scheme.text transcoder
  let message ← message.text transcoder
  let threshold ← threshold.unsigned 32
  let numParties ← numParties.unsigned 32
  return ⟨quorumId, scheme, message, threshold, numParties⟩

/-- `create_session`. -/
def createSession (quorumId scheme message threshold numParties : Arg) : Native String := do
  let args ← Eff.ofExcept (sessionArgs transcoder quorumId scheme message threshold numParties)
  delegated "SignerClient::create_session" (ioError "create_session")
    -- `message.as_bytes()`.
    (up.createSession args.quorumId args.scheme (utf8 args.message) args.threshold args.numParties)

/-- One element of a `Vec<u8>`. -/
def byteArg (a : Arg) : Except NativeError UInt8 := do
  let n ← a.unsigned 8
  return UInt8.ofNat n

/-- `Vec<u8>::try_convert`. -/
def byteVector (a : Arg) : Except NativeError Bytes := do
  let items ← a.items
  items.mapM byteArg

/-- What a submission reads. -/
structure SubmissionArgs where
  sessionId : String
  signerId : String
  payload : Bytes

def submissionArgs (sessionId signerId payload : Arg) : Except NativeError SubmissionArgs :=
  rewrap "" (do
    let sessionId ← sessionId.text transcoder
    let signerId ← signerId.text transcoder
    let payload ← byteVector payload
    return ⟨sessionId, signerId, payload⟩)

/-- `submit_commitment`. -/
def submitCommitment (sessionId signerId commitment : Arg) : Native Unit := do
  let args ← Eff.ofExcept (submissionArgs transcoder sessionId signerId commitment)
  delegated "SignerClient::submit_commitment" (ioError "submit_commitment")
    (up.submitCommitment args.sessionId args.signerId args.payload)

/-- `submit_share`. -/
def submitShare (sessionId signerId share : Arg) : Native (Option Bytes) := do
  let args ← Eff.ofExcept (submissionArgs transcoder sessionId signerId share)
  delegated "SignerClient::submit_share" (ioError "submit_share")
    (up.submitShare args.sessionId args.signerId args.payload)

end Transport

end Confium
