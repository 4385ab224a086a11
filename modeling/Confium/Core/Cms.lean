import Confium.Lib.Value

/-!
# Verifying CMS Signatures

`SignedData#verify_signatures`. The upstream library walks the signers and calls
back once for each, with the signer's index, the public key of its certificate,
the bytes that were signed and the signature. The callback picks a verifier by
the OID of a signature algorithm, strips the DER key down to raw key bytes, and
asks that verifier.

The cryptography is upstream's, so the verifiers are parameters: the Ed25519 one
as a whole, and the three calls the inline P-256 verifier is made of. What the
walk hands to the callback is a parameter too, one `SignerInput` for each
signer.

The OID the callback looks at is that of the first signer, whichever signer it
was called for.

## Main definitions

* `Verifiers`: The upstream verifiers.
* `SignerInfo`, `SignedData`: The part of a SignedData the callback reads.
* `SignerInput`: What the walk hands over for one signer.
* `p256VerifyInline`: The inline P-256 verifier.
* `verifyByOid`: The verifier an OID selects.
* `callback`: The closure `verify_signatures` passes upstream.
* `verifySignatures`: The verdicts it leads to.
-/

namespace Confium

open Ruby

namespace Cms

/-- A verdict: accepted, or the text of an error. -/
abbrev Verdict := Except String Unit

/-- The upstream verifiers: `confium_composite::ed25519_verifier`, and
    `VerifyingKey::from_sec1_bytes`, `Signature::from_der` and
    `VerifyingKey::verify` of `p256`. -/
structure Verifiers where
  VerifyingKey : Type
  EcdsaSignature : Type
  ed25519Verifier : String → Bytes → Bytes → Bytes → Verdict
  fromSec1Bytes : Bytes → Except String VerifyingKey
  fromDer : Bytes → Except String EcdsaSignature
  verify : VerifyingKey → Bytes → EcdsaSignature → Verdict

/-- A signer, by the OID of its signature algorithm. -/
structure SignerInfo where
  oid : String
  deriving DecidableEq

/-- A SignedData, by its signers. -/
structure SignedData where
  signerInfos : List SignerInfo

/-- What the walk hands to the callback for one signer. -/
structure SignerInput where
  pubkeyDer : Bytes
  signedBytes : Bytes
  signature : Bytes

/-- An error with a label in front. -/
def labelled {α : Type} (label : String) : Except String α → Except String α
  | .ok a => .ok a
  | .error e => .error (label ++ e)

/-- `p256_verify_inline`. -/
def p256VerifyInline (v : Verifiers) (publicKey message signature : Bytes) : Verdict := do
  let vk ← labelled "invalid P-256 public key: " (v.fromSec1Bytes publicKey)
  let sig ← labelled "invalid DER signature: " (v.fromDer signature)
  labelled "verify: " (v.verify vk message sig)

/-- The last bytes of a DER key. -/
def lastBytes (n : Nat) (der : Bytes) : Bytes := der.drop (der.length - n)

/-- The Ed25519 branch: the last thirty-two bytes of the key. -/
def verifyEd25519 (v : Verifiers) (input : SignerInput) : Verdict :=
  if input.pubkeyDer.length < 32 then .error "Ed25519 public key too short"
  else v.ed25519Verifier "Ed25519" (lastBytes 32 input.pubkeyDer) input.signedBytes input.signature

/-- The ECDSA-P256 branch: the last sixty-five bytes of the key. -/
def verifyEcdsaP256 (v : Verifiers) (input : SignerInput) : Verdict :=
  if input.pubkeyDer.length < 65 then .error "ECDSA-P256 public key too short"
  else p256VerifyInline v (lastBytes 65 input.pubkeyDer) input.signedBytes input.signature

/-- The branches of the callback, by OID. -/
def verifyByOid (v : Verifiers) (oid : String) (input : SignerInput) : Verdict :=
  if oid = "1.3.101.112" then verifyEd25519 v input
  else if oid = "1.2.840.10045.4.3.2" then verifyEcdsaP256 v input
  else .error ("unsupported signature algorithm OID: " ++ oid)

/-- The closure `verify_signatures` passes upstream. It does not look at the
    index it is called with. -/
def callback (v : Verifiers) (sd : SignedData) (_signerIndex : Nat) (input : SignerInput) :
    Verdict :=
  -- `signer_infos.first()`, whichever signer this is.
  match sd.signerInfos.head? with
  | none => .error "no signer infos"
  | some signer => verifyByOid v signer.oid input

/-- `verify_signatures`: one call of the closure for each signer, in order. -/
def verifySignatures (v : Verifiers) (sd : SignedData) (inputs : Nat → SignerInput) :
    List Verdict :=
  (List.range sd.signerInfos.length).map (fun i => callback v sd i (inputs i))

end Cms

end Confium
