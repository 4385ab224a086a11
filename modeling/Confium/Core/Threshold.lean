import Confium.Core.Audit

/-!
# Threshold Cryptography

The entry points of `Confium::TC`: Shamir sharing and single-party signing on
P-256, threshold ElGamal, the in-process CMP20 and GG18 signers, and the
per-party protocol session. The protocols are upstream's and a parameter.

Arguments come in several shapes. Byte strings go through `bytes_from_value`,
shares and partial decryptions are Arrays of Hashes, a ciphertext is a Hash of
two byte strings, and the options of a session are a Hash with Symbol or String
keys. A session puts an `ArgumentError` in place of almost whatever its options
raise. It is the one object here that changes: a step returns the messages to
send and leaves another session behind.

Converting and calling upstream do not always come one after the other.
`recover_secret` goes through its shares one by one, and has upstream read the
scalar of one before it converts the next.

The signers fire an audit event after upstream has signed or failed to, though
not when it panicked. The ElGamal entry points fire none.

## Main definitions

* `ThresholdUpstream`: The upstream calls.
* `FrostP256.splitSecretIntoShares`, `FrostP256.recover`, `FrostP256.sign`.
* `ElGamalP256.encapsulate`, `ElGamalP256.partialDecrypt`,
  `ElGamalP256.aggregate`.
* `cmp20Sign`, `gg18Sign`: The in-process signers.
* `Session.new`, `Session.roundStep`: The protocol session, with the messages
  it reads and hands out as Hashes.

## Theorems

* `Session.roundStep_fst`: What a step returns, without the session it leaves.
-/

namespace Confium

open Ruby

namespace TC

structure Ciphertext where
  c1 : Bytes
  c2 : Bytes

structure PartialDecryption where
  partyIndex : Nat
  bytes : Bytes

/-- `SessionParams`. -/
structure SessionParams where
  scheme : String
  parties : List String
  threshold : Nat
  thisPartyIdx : Nat
  localShare : Option Bytes
  message : Option Bytes

/-- A message between parties, to one of them or to all. -/
structure Message where
  fromParty : String
  toParty : Option String
  round : Nat
  payload : Bytes

/-- The upstream calls, with the text of an error where they can fail. The
    signers panic on some of what they are given: a scalar that is zero, an empty
    list of shares. -/
structure ThresholdUpstream where
  Scalar : Type
  scalarFromBytes : Bytes → Option Scalar
  /-- `split_secret`, by the index and the scalar bytes of each share. -/
  splitSecret : Scalar → Nat → Nat → List (Nat × Bytes)
  recoverSecret : List (Nat × Scalar) → Except String Bytes
  /-- `sign_message` with the keypair of a scalar, by the DER and the fixed form. -/
  signMessage : Scalar → Bytes → Except Failure (Bytes × Bytes)
  encapsulate : Bytes → Except String (Ciphertext × Bytes)
  partialDecrypt : Nat → Bytes → Ciphertext → Except String PartialDecryption
  aggregatePartials : List PartialDecryption → Nat → Ciphertext → Except String Bytes
  cmp20Sign : List Bytes → Nat → Bytes → Except Failure Bytes
  gg18Sign : List Bytes → Nat → Bytes → Except Failure Bytes
  Session : Type
  createSession : SessionParams → Except String Session
  /-- `round_step`, by the messages to send and whether that was the last round,
      and by the session it leaves behind, also when it fails. -/
  roundStep : Session → List Message → Except String (List Message × Bool) × Session

variable (env : AuditEnv) (up : ThresholdUpstream) (transcoder : Transcoder)

/-- `ok_or_else`, for an upstream call without an error of its own. -/
def okOr {α : Type} (message : String) : Option α → Except String α
  | some a => .ok a
  | none => .error message

/-- `scalar_from_bytes`, raising an `ArgumentError` of the caller's. -/
def scalarFromBytes (message : String) (bytes : Bytes) : Native up.Scalar :=
  delegated "scalar_from_bytes" .argument (okOr message (up.scalarFromBytes bytes))

namespace FrostP256

/-- What `split_secret` reads. -/
def splitArgs (secret threshold partyCount : Arg) : Except NativeError (Bytes × Nat × Nat) := do
  -- Integers are converted when the function is called, before its body runs.
  let threshold ← threshold.unsigned 32
  let partyCount ← partyCount.unsigned 32
  let bytes ← secret.bytes
  lengthArg "secret must be exactly 32 bytes, got " bytes
  return (bytes, threshold, partyCount)

/-- `split_secret_into_shares`. -/
def splitSecretIntoShares (secret threshold partyCount : Arg) : Native (List (Nat × Bytes)) := do
  let (bytes, threshold, partyCount) ← Eff.ofExcept (splitArgs secret threshold partyCount)
  let secret ← scalarFromBytes up "secret is not a valid P-256 scalar (reduce mod n failed)" bytes
  delegated "split_secret" .runtime (.ok (up.splitSecret secret threshold partyCount))

/-- What `recover_secret` reads of one share. -/
def shareArgs (share : Arg) : Except NativeError (Nat × Bytes) := do
  let h ← share.entries
  let x ← h.fetch "x"
  let x ← x.unsigned 32
  let y ← h.fetch "y"
  let y ← y.bytes
  -- The cap first, then the exact length.
  lengthArg "share y must be 32 bytes, got " y
  return (x, y)

/-- The loop of `recover_secret`. -/
def recoverShares : List Arg → Native (List (Nat × up.Scalar))
  | [] => return []
  | share :: rest => do
    let (x, y) ← Eff.ofExcept (shareArgs share)
    -- Upstream reads this scalar before the next share is looked at.
    let y ← scalarFromBytes up "share y is not a valid P-256 scalar" y
    let shares ← recoverShares rest
    return (x, y) :: shares

/-- `recover`. -/
def recover (shares : Arg) : Native Bytes := do
  let items ← Eff.ofExcept shares.items
  let shares ← recoverShares up items
  delegated "recover_secret" .runtime (up.recoverSecret shares)

/-- `sign`, by the two forms of the signature. -/
def sign (privateKey message : Arg) : Native (Bytes × Bytes) := do
  let (key, msg) ←
    Eff.ofExcept (signerArgs "private key must be 32 bytes, got " privateKey message)
  let secret ← scalarFromBytes up "private key not a valid P-256 scalar" key
  recorded env "sign_message" "tc_frost_p256_sign" "FROST-P256" (some msg)
    (cryptoError "FrostP256.sign" "ecdsa-p256") (up.signMessage secret msg)

end FrostP256

namespace ElGamalP256

/-- A ciphertext argument: both members are fetched before either is converted. -/
def ciphertextArgs (ciphertext : Arg) : Except NativeError Ciphertext := do
  let h ← ciphertext.entries
  let c1 ← h.fetch "c1"
  let c2 ← h.fetch "c2"
  let c1 ← c1.bytes
  let c2 ← c2.bytes
  return ⟨c1, c2⟩

/-- `elgamal_encapsulate`, by the ciphertext and the shared secret. -/
def encapsulate (publicKey : Arg) : Native (Ciphertext × Bytes) := do
  let publicKey ← Eff.ofExcept publicKey.bytes
  delegated "encapsulate" (cryptoError "ElGamalP256.encapsulate" "elgamal-p256")
    (up.encapsulate publicKey)

/-- What `partial_decrypt` reads. -/
def partialDecryptArgs (partyIndex share ciphertext : Arg) :
    Except NativeError (Nat × Bytes × Ciphertext) := do
  let partyIndex ← partyIndex.unsigned 32
  let share ← share.bytes
  let ciphertext ← ciphertextArgs ciphertext
  return (partyIndex, share, ciphertext)

/-- `elgamal_partial_decrypt`. -/
def partialDecrypt (partyIndex share ciphertext : Arg) : Native PartialDecryption := do
  let (partyIndex, share, ciphertext) ←
    Eff.ofExcept (partialDecryptArgs partyIndex share ciphertext)
  delegated "partial_decrypt" (cryptoError "ElGamalP256.partial_decrypt" "elgamal-p256")
    (up.partialDecrypt partyIndex share ciphertext)

/-- One round of the loop of `aggregate_partials`. -/
def partialArgs (item : Arg) : Except NativeError PartialDecryption := do
  let h ← item.entries
  let partyIndex ← h.fetch "party_index"
  let partyIndex ← partyIndex.unsigned 32
  let bytes ← h.fetch "bytes"
  let bytes ← bytes.bytes
  return ⟨partyIndex, bytes⟩

/-- What `aggregate_partials` reads. -/
def aggregateArgs (partials threshold ciphertext : Arg) :
    Except NativeError (List PartialDecryption × Nat × Ciphertext) := do
  let threshold ← threshold.unsigned 32
  let items ← partials.items
  let partials ← items.mapM partialArgs
  let ciphertext ← ciphertextArgs ciphertext
  return (partials, threshold, ciphertext)

/-- `elgamal_aggregate`. -/
def aggregate (partials threshold ciphertext : Arg) : Native Bytes := do
  let (partials, threshold, ciphertext) ←
    Eff.ofExcept (aggregateArgs partials threshold ciphertext)
  delegated "aggregate_partials" (cryptoError "ElGamalP256.aggregate_partials" "elgamal-p256")
    (up.aggregatePartials partials threshold ciphertext)

end ElGamalP256

/-- What the in-process signers read. -/
def inprocessArgs (shares threshold message : Arg) :
    Except NativeError (List Bytes × Nat × Bytes) := do
  let threshold ← threshold.unsigned 32
  let items ← shares.items
  let shares ← items.mapM Arg.bytes
  let msg ← message.bytes
  return (shares, threshold, msg)

/-- An in-process signer, by its upstream routine and its names. -/
def inprocessSign (routine operation algorithm caller : String)
    (sign : List Bytes → Nat → Bytes → Except Failure Bytes) (shares threshold message : Arg) :
    Native Bytes := do
  let (shares, threshold, msg) ← Eff.ofExcept (inprocessArgs shares threshold message)
  recorded env routine operation algorithm (some msg)
    (thresholdError caller shares.length threshold) (sign shares threshold msg)

/-- `cmp20_sign`. -/
def cmp20Sign (shares threshold message : Arg) : Native Bytes :=
  inprocessSign env "cmp20_inprocess::sign" "tc_cmp20_sign" "CMP20-ECDSA-P256" "Cmp20.sign"
    up.cmp20Sign shares threshold message

/-- `gg18_sign`. -/
def gg18Sign (shares threshold message : Arg) : Native Bytes :=
  inprocessSign env "gg18_inprocess::sign" "tc_gg18_sign" "GG18-ECDSA-P256" "Gg18.sign"
    up.gg18Sign shares threshold message

namespace Session

/-- `typed_session_error`. -/
def typedSessionError (operation message : String) : NativeError :=
  .typed "Error" message [("operation", .text operation)]

/-- `bytes_arg`. -/
def bytesArg (name : String) (v : Arg) : Except NativeError Bytes :=
  rewrap ("Session: " ++ name ++ ": ") v.bytes

/-- The name of an option: a Symbol's, or a String's text. -/
def optionName : HashKey → Except NativeError String
  | .sym name => .ok name
  | .str s => textArg transcoder (.str s)
  | .other => .error (.conversion (.noImplicitConversion "String"))

/-- The loop that normalizes the options. A later option of a name stands in
    front of an earlier one, and so hides it. -/
def normalize (out : List (String × Arg)) : Entries → Except NativeError (List (String × Arg))
  | [] => .ok out
  | (key, v) :: rest => do
    let name ← optionName transcoder key
    normalize ((name, v) :: out) rest

/-- The options Hash, which has to be there. -/
def optionsArg (options : Arg) : Except NativeError Entries :=
  match options with
  | .nil => .error (.argument "Session.new: options Hash is required")
  | options => rewrap "" options.entries

/-- An option that has to be there. -/
def required (opts : List (String × Arg)) (key : String) : Except NativeError Arg :=
  match opts.lookup key with
  | some v => .ok v
  | none => .error (.argument ("Session.new: :" ++ key ++ " is required"))

/-- An option of bytes that may be missing or nil. -/
def optionalBytes (opts : List (String × Arg)) (name : String) :
    Except NativeError (Option Bytes) :=
  match opts.lookup name with
  | none => .ok none
  | some .nil => .ok none
  | some v => do
    let bytes ← bytesArg name v
    return some bytes

/-- `Vec<String>::try_convert` of the party ids. -/
def partyIds (v : Arg) : Except NativeError (List String) := do
  let items ← v.items
  items.mapM (Arg.text transcoder)

/-- What `Session.new` reads of its options. -/
def paramsOf (scheme : String) (opts : List (String × Arg)) :
    Except NativeError SessionParams := do
  let parties ← required opts "parties"
  let ids ← orArgumentError "Session.new: :parties must be an Array of String ids"
    (partyIds transcoder parties)
  if ids.length < 2 then .error (.argument "Session.new: at least two parties are required")
  else
    let threshold ← required opts "threshold"
    let threshold ← orArgumentError "Session.new: :threshold must be an Integer"
      (threshold.unsigned 32)
    let thisPartyIdx ← required opts "this_party_idx"
    let thisPartyIdx ← orArgumentError "Session.new: :this_party_idx must be an Integer"
      (thisPartyIdx.unsigned 64)
    let localShare ← optionalBytes opts "local_share"
    let message ← optionalBytes opts "message"
    return ⟨scheme, ids, threshold, thisPartyIdx, localShare, message⟩

/-- What `Session.new` reads. -/
def params (scheme options : Arg) : Except NativeError SessionParams := do
  let scheme ← rewrap "" (scheme.text transcoder)
  let raw ← optionsArg options
  let opts ← normalize transcoder [] raw
  paramsOf transcoder scheme opts

/-- `Session.new`. -/
def new (scheme options : Arg) : Native up.Session := do
  let params ← Eff.ofExcept (params transcoder scheme options)
  delegated "Session::create" (typedSessionError "Session.new") (up.createSession params)

/-- A member of a message that has to be there. -/
def messageMember (h : Entries) (key : String) : Except NativeError Arg :=
  orArgumentError ("message: '" ++ key ++ "' is required") (h.fetch key)

/-- The receiver of a message, if it has one. -/
def receiver (v : Arg) : Except NativeError (Option String) :=
  match v with
  | .nil => .ok none
  | v => do
    let name ← orArgumentError "message: 'to' must be a String" (v.text transcoder)
    return some name

/-- One round of the loop of `parse_messages`. -/
def parseMessage (item : Arg) : Except NativeError Message := do
  let h ← orArgumentError "Session#round_step: each message must be a Hash" item.entries
  let sender ← messageMember h "from"
  let sender ← orArgumentError "message: 'from' must be a String" (sender.text transcoder)
  let recipient ← messageMember h "to"
  let recipient ← receiver transcoder recipient
  let round ← messageMember h "round"
  let round ← orArgumentError "message: 'round' must be an Integer" (round.unsigned 8)
  let payload ← messageMember h "payload"
  -- The one conversion of a message whose exception is not replaced.
  let payload ← payload.bytes
  return ⟨sender, recipient, round, payload⟩

/-- `parse_messages`, for what `round_step` was given. -/
def parseMessages (incoming : Arg) : Except NativeError (List Message) :=
  match incoming with
  -- The first round has nothing incoming.
  | .nil => .ok []
  | incoming => do
    let items ← orArgumentError "Session#round_step: incoming must be an Array" incoming.items
    items.mapM (parseMessage transcoder)

/-- A message as the Hash that is handed out. -/
def messageToHash (m : Message) : Arg :=
  .hash [(textKey "from", textInput m.fromParty),
    (textKey "to", (m.toParty.map textInput).getD .nil),
    (textKey "round", .int m.round), (textKey "payload", .str (RString.binary m.payload))]

/-- The Hash `round_step` returns. -/
structure RoundResult where
  outgoing : List Arg
  complete : Bool

/-- The result of an upstream step, handed out. -/
def roundResult (step : List Message × Bool) : RoundResult :=
  ⟨step.1.map messageToHash, step.2⟩

/-- `round_step`: what it returns, and the wrapped session afterwards. -/
def roundStep (session : up.Session) (incoming : Arg) : Native RoundResult × up.Session :=
  match parseMessages transcoder incoming with
  -- The whole batch is read before the session is borrowed.
  | .error e => (Eff.raise e, session)
  | .ok incoming =>
    (delegated "Session::round_step" (typedSessionError "Session#round_step")
      ((up.roundStep session incoming).1.map roundResult), (up.roundStep session incoming).2)

end Session

end TC

end Confium
