import Confium.Core.Audit
import Confium.Core.Cms

/-!
# Signing and Verifying

The single-party entry points: the two composite component signers, the
verification of a composite signature, `Keystore#sign`, and
`SignedData#verify_signatures`. The cryptography is upstream's and a parameter.
What is done here is to convert the arguments, in order and each in its own way,
to call upstream, and to turn what it says into a result or an exception.

The component signers convert both arguments before they look at the length of
the key, and fire an audit event once upstream has signed or failed to. The
other three call upstream and fire nothing.

## Main definitions

* `SigningUpstream`: The upstream calls.
* `Composite.signEd25519`, `Composite.signP256`: The component signers.
* `Composite.newComposite`: The native constructor.
* `Composite.parseCallerVerifiers`, `Composite.componentVerifier`: The verifier
  of each component.
* `Composite.Signature.verify`: Verifying a composite signature.
* `Keystore.new`, `Keystore.sign`: A keystore, and signing with a key it holds.
* `Cms.SignedData.verifySignatures`: Verifying a SignedData.
-/

namespace Confium

open Ruby

/-- What a keystore backend fails with. -/
inductive StoreError where
  | notImplemented (what text : String)
  | unknownBackend (name text : String)
  | failed (text : String)

/-- The upstream calls, with the text of an error where they can fail. The
    signers may panic as well. -/
structure SigningUpstream where
  /-- `ED25519` and `ECDSA_P256`. -/
  ed25519 : String
  ecdsaP256 : String
  P256SigningKey : Type
  /-- Every thirty-two bytes are an Ed25519 key, so the bytes stand for it. -/
  buildEd25519Component : Bytes → Bytes → Except Failure Composite.ComponentSignature
  p256FromBytes : Bytes → Except String P256SigningKey
  /-- `try_sign`, by the DER form of the signature. -/
  p256TrySign : P256SigningKey → Bytes → Except Failure Bytes
  p256VerifyingKey : P256SigningKey → Bytes
  ed25519Verifier : String → Bytes → Bytes → Bytes → Except String Unit
  p256Verifier : String → Bytes → Bytes → Bytes → Except String Unit
  CompositeVerdict : Type
  verifyComposite : List Composite.ComponentSignature → Bytes →
    (String → Bytes → Bytes → Bytes → Except String Unit) → Except String CompositeVerdict
  CmsVerdict : Type
  verifySignedData : Cms.SignedData → Bytes → (Nat → Cms.SignerInput → Cms.Verdict) →
    Except String CmsVerdict
  /-- `Keystore::sign`, by namespace, owner, key, algorithm and message. -/
  keystoreSign : String → String → String → String → Bytes → Except StoreError Bytes

variable (env : AuditEnv) (up : SigningUpstream) (transcoder : Transcoder)

namespace Composite

/-- `sign_ed25519`, by the component whose members the Hash has. -/
def signEd25519 (privateKey message : Arg) : Native ComponentSignature := do
  let (key, msg) ←
    Eff.ofExcept (signerArgs "Ed25519 private key must be 32 bytes, got " privateKey message)
  recorded env "build_ed25519_component" "composite_sign_ed25519" "Ed25519" (some msg)
    -- The event is fired on both paths of the upstream call.
    (cryptoError "Composite.sign_ed25519" "ed25519") (up.buildEd25519Component key msg)

/-- `sign_p256`. -/
def signP256 (privateKey message : Arg) : Native ComponentSignature := do
  let (key, msg) ←
    Eff.ofExcept (signerArgs "P-256 private key must be 32 bytes, got " privateKey message)
  -- An invalid key is an argument error, and fires nothing.
  let signing ← delegated "SigningKey::from_bytes"
    (fun e => .argument ("invalid P-256 private key: " ++ e)) (up.p256FromBytes key)
  let signature ← recorded env "SigningKey::try_sign" "composite_sign_p256" "ECDSA-P256" (some msg)
    (cryptoError "Composite.sign_p256" "ecdsa-p256")
    ((up.p256TrySign signing msg).mapError (Failure.labelled "sign error: "))
  return ⟨"ECDSA-P256", up.p256VerifyingKey signing, signature⟩

/-- `CompositeSig::new`, for an Array of Hashes. -/
def newComposite (components : List Members) : Native (List ComponentSignature) := do
  let comps ← Eff.ofExcept ((parseComponents transcoder components).mapError .conversion)
  delegated "CompositeSignature::new" .runtime (.ok comps)

/-- `String::try_convert` of a key of a Hash. -/
def keyText (transcoder : Transcoder) : HashKey → Except NativeError String
  | .str s => textArg transcoder (.str s)
  | .sym _ => .error (.conversion (.noImplicitConversion "String"))
  | .other => .error (.conversion (.noImplicitConversion "String"))

/-- The loop of `parse_caller_verifiers`. A later entry stands in front of an
    earlier one of the same name, and so hides it. -/
def insertVerifiers (transcoder : Transcoder) (out : List (String × Arg)) :
    Entries → Except NativeError (List (String × Arg))
  | [] => .ok out
  | (key, callback) :: rest => do
    let name ← keyText transcoder key
    insertVerifiers transcoder ((name, callback) :: out) rest

/-- `parse_caller_verifiers`. -/
def parseCallerVerifiers (v : Arg) : Except NativeError (List (String × Arg)) := do
  let entries ← v.entries
  insertVerifiers transcoder [] entries

/-- `invoke_caller_verifier`. -/
def invokeCallerVerifier (callback : Arg) (publicKey message signature : Bytes) :
    Except String Unit :=
  match callback with
  -- Only truthiness is looked at, so any value that is no `false` or nil accepts.
  | .callable call =>
    match call publicKey message signature with
    | .error e => .error ("caller verifier raised: " ++ e)
    | .ok true => .ok ()
    | .ok false => .error "caller verifier returned false"
  | _ => .error "caller verifier raised: undefined method 'call'"

/-- The closure `verify` passes upstream. -/
def componentVerifier (callers : List (String × Arg)) (algorithm : String)
    (publicKey message signature : Bytes) : Except String Unit :=
  if algorithm = up.ed25519 then up.ed25519Verifier algorithm publicKey message signature
  else if algorithm = up.ecdsaP256 ∨ algorithm = "ECDSA" then
    up.p256Verifier algorithm publicKey message signature
  else
    match callers.lookup algorithm with
    | some callback => invokeCallerVerifier callback publicKey message signature
    | none => .error ("unsupported algorithm: " ++ algorithm)

/-- What `verify` reads. No verifiers are as good as an empty Hash of them. -/
def verifyArgs (message verifiers : Arg) : Except NativeError (Bytes × List (String × Arg)) := do
  let msg ← message.bytes
  match verifiers with
  | .nil => return (msg, [])
  | verifiers => do
    let callers ← parseCallerVerifiers transcoder verifiers
    return (msg, callers)

/-- `Signature#verify`. -/
def Signature.verify (sig : Signature) (message verifiers : Arg) : Native up.CompositeVerdict := do
  let (msg, callers) ← Eff.ofExcept (verifyArgs transcoder message verifiers)
  delegated "CompositeSignature::verify" (.typed "VerificationError" · [])
    (up.verifyComposite sig.inner msg (componentVerifier up callers))

end Composite

namespace Keystore

/-- `store_error`. -/
def storeError (operation : String) : StoreError → NativeError
  | .notImplemented what text =>
    .typed "Error" text [("operation", .text operation), ("what", .text what)]
  | .unknownBackend name text =>
    .typed "Error" text [("operation", .text operation), ("backend", .text name)]
  | .failed text => .typed "Error" text [("operation", .text operation)]

/-- A Hash of options, which may be left out. Keys and values are converted one
    pair after another, and these conversions raise what they raise. -/
def optionArgs (options : Arg) : Except NativeError (List (String × String)) :=
  match options with
  | .nil => .ok []
  | options => do
    let entries ← rewrap "" options.entries
    entries.mapM fun entry => do
      let key ← Composite.keyText transcoder entry.1
      let value ← entry.2.text transcoder
      return (key, value)

/-- What `Keystore.new` reads: the backend, and the options in order. -/
def newArgs (backend options : Arg) : Except NativeError (String × List (String × String)) := do
  let backend ← rewrap "" (backend.text transcoder)
  let options ← optionArgs transcoder options
  return (backend, options)

/-- `Keystore.new`, with the upstream constructor. -/
def new (keystoreNew : String → List (String × String) → Except StoreError Unit)
    (backend options : Arg) : Native Unit := do
  let (backend, options) ← Eff.ofExcept (newArgs transcoder backend options)
  delegated "Keystore::new" (storeError "Keystore.new") (keystoreNew backend options)

/-- What `sign` reads: the two names, the message being there, its bytes. -/
def signArgs (keyId algorithm message : Arg) : Except NativeError (String × String × Bytes) := do
  let keyId ← rewrap "" (keyId.text transcoder)
  let algorithm ← rewrap "" (algorithm.text transcoder)
  -- A message that is left out and one that is nil are the same to `scan_args`.
  match message with
  | .nil => .error (.argument "Keystore#sign: message is required")
  | message => do
    let bytes ← message.bytes
    return (keyId, algorithm, bytes)

/-- `Keystore#sign`. -/
def sign (keyId algorithm message : Arg) : Native Bytes := do
  let (keyId, algorithm, bytes) ← Eff.ofExcept (signArgs transcoder keyId algorithm message)
  delegated "Keystore::sign" (storeError "Keystore#sign")
    (up.keystoreSign "confium" "ruby" keyId algorithm bytes)

end Keystore

namespace Cms

/-- `SignedData#verify_signatures`, with the verifiers its closure calls. -/
def SignedData.verifySignatures (v : Verifiers) (sd : SignedData) (payload : Arg) :
    Native up.CmsVerdict := do
  let payload ← Eff.ofExcept payload.bytes
  delegated "verify_signed_data" .runtime (up.verifySignedData sd payload (callback v sd))

end Cms

end Confium
