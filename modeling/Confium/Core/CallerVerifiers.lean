import Confium.Core.Signing

/-!
# Verifiers of the Caller

`Signature#verify` with a Hash of verifiers, a callback for each algorithm the
extension has no verifier of its own for. The callbacks are Ruby code, so what one
of them answers may depend on what was called before it: they are modelled over a
state of any type, which each call reads and moves on.

The closure passed upstream looks at the algorithm of a component. The two the
extension has verifiers for come first, and only what is left is looked up among
the callbacks. Upstream's own walk over the components is a parameter. It takes
the closure, and the state goes through the walk with it.

## Main definitions

* `Callback`, `Verifier`: What a callback does, and what the closure does.
* `ComponentVerification`, `VerificationResult`: What a verification returns.
* `Walk`, `CompositeUpstream`: The upstream calls.
* `insertCallers`: The loop of `parse_caller_verifiers`, for any callbacks.
* `invokeCaller`, `selectVerifier`: The closure.
* `verifyWith`: `Signature#verify`.
-/

namespace Confium

open Ruby

namespace Composite

/-- A value of a Hash of verifiers, by what calling it with a public key, a
    message and a signature does: the text of what it raises, or whether what it
    returns is truthy, and the state it leaves. -/
abbrev Callback (σ : Type) := Bytes → Bytes → Bytes → σ → Except String Bool × σ

/-- A verifier by algorithm, public key, message and signature. -/
abbrev Verifier (σ : Type) := String → Bytes → Bytes → Bytes → σ → Except String Unit × σ

/-- The verdict on one component. -/
structure ComponentVerification where
  index : Nat
  algorithm : String
  verified : Bool
  error : Option String
  deriving DecidableEq

/-- `confium_composite::VerificationResult`. -/
structure VerificationResult where
  allVerified : Bool
  perComponent : List ComponentVerification
  deriving DecidableEq

/-- A walk over the components of a signature with a closure, which takes the state
    along. -/
abbrev Walk := (σ : Type) → List ComponentSignature → Bytes → Verifier σ → σ →
  Except String VerificationResult × σ

/-- The upstream calls: `ED25519`, `ECDSA_P256`, `ed25519_verifier`,
    `p256_verifier` and `CompositeSignature::verify`. -/
structure CompositeUpstream where
  ed25519 : String
  ecdsaP256 : String
  ed25519Verifier : String → Bytes → Bytes → Bytes → Except String Unit
  p256Verifier : String → Bytes → Bytes → Bytes → Except String Unit
  verify : Walk

variable {σ : Type}

/-- The loop of `parse_caller_verifiers`. -/
def insertCallers {V : Type} (transcoder : Transcoder) (out : List (String × V)) :
    List (HashKey × V) → Except NativeError (List (String × V))
  | [] => .ok out
  | (key, callback) :: rest => do
    let name ← keyText transcoder key
    -- `out.insert`: a name that comes again hides the earlier one.
    insertCallers transcoder ((name, callback) :: out) rest

/-- `invoke_caller_verifier`. -/
def invokeCaller (callback : Callback σ) (publicKey message signature : Bytes) (s : σ) :
    Except String Unit × σ :=
  match callback publicKey message signature s with
  | (.error e, s) => (.error ("caller verifier raised: " ++ e), s)
  | (.ok true, s) => (.ok (), s)
  | (.ok false, s) => (.error "caller verifier returned false", s)

/-- The closure `verify` passes upstream. -/
def selectVerifier (up : CompositeUpstream) (callers : List (String × Callback σ)) : Verifier σ :=
  fun algorithm publicKey message signature s =>
    -- The built-in verifiers are asked before the callbacks are looked at.
    if algorithm = up.ed25519 then (up.ed25519Verifier algorithm publicKey message signature, s)
    else if algorithm = up.ecdsaP256 ∨ algorithm = "ECDSA" then
      (up.p256Verifier algorithm publicKey message signature, s)
    else
      match callers.lookup algorithm with
      | some callback => invokeCaller callback publicKey message signature s
      | none => (.error ("unsupported algorithm: " ++ algorithm), s)

/-- `Signature#verify`, by the components of the instance. The message is
    converted first, then the verifiers, and without verifiers there are none. -/
def verifyWith (up : CompositeUpstream) (transcoder : Transcoder)
    (components : List ComponentSignature) (message : Arg)
    (verifiers : Option (List (HashKey × Callback σ))) (s : σ) :
    Except NativeError VerificationResult × σ :=
  match message.bytes with
  | .error e => (.error e, s)
  | .ok msg =>
    match insertCallers transcoder [] (verifiers.getD []) with
    | .error e => (.error e, s)
    | .ok callers =>
      match up.verify σ components msg (selectVerifier up callers) s with
      | (.error e, s) => (.error (.typed "VerificationError" e []), s)
      | (.ok result, s) => (.ok result, s)

end Composite

end Confium
