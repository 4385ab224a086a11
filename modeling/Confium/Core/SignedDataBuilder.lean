import Confium.Lib.Run
import Confium.Core.Parsers
import Confium.Core.SecureBytes
import Confium.Core.Signing
import Confium.Core.Threshold

/-!
# Building a Signed Envelope

`Confium::PKI::CMS::SignedDataBuilder` collects a content and signers and builds
a detached CMS SignedData. The first signer's key signs; the certificates of all
of them go into the envelope. Each algorithm has a signer of its own in the
native extension and an OID, by which the envelope says how it was signed.

The content may be a String, whose `bytes` are an Array of integers, an object
with a `bytes` of its own such as a `SecureBytes`, or anything else, which is
passed on as it is.

## Main definitions

* `SignatureAlgorithm`: The algorithms and their OIDs.
* `Content`, `Content.payload`: What is signed.
* `SignedDataBuilder`, `SignedDataBuilder.addSigner`: The builder.
* `SignedDataBuilder.build`: Signing and assembling.
* `BuilderOp`, `SignedDataBuilder.step`: What a program does with a builder.
-/

namespace Confium

open Ruby Composite

namespace Cms

/-- The algorithms the builder knows. -/
inductive SignatureAlgorithm where
  | ed25519
  | ecdsaP256
  deriving DecidableEq

namespace SignatureAlgorithm

/-- The key in `SIGNATURE_ALGORITHM_OID`. -/
def name : SignatureAlgorithm → String
  | .ed25519 => "ed25519"
  | .ecdsaP256 => "ecdsa_p256"

/-- The value in `SIGNATURE_ALGORITHM_OID`. -/
def oid : SignatureAlgorithm → String
  | .ed25519 => "1.3.101.112"
  | .ecdsaP256 => "1.2.840.10045.4.3.2"

def known : List SignatureAlgorithm := [.ed25519, .ecdsaP256]

/-- The algorithm of a Symbol. -/
def ofSym? (sym : RSymbol) : Option SignatureAlgorithm :=
  known.find? (fun a => decide (sym = .text a.name))

end SignatureAlgorithm

/-- What the builder raises. -/
inductive BuilderExn where
  /-- `ArgumentError`. -/
  | argument (message : String)
  /-- `ArgumentError` for an algorithm, which is inspected in its message. -/
  | unsupported (sym : RSymbol)
  /-- `NoMethodError`: something that has no `to_sym`. -/
  | noMethod
  /-- `EncodingError`: a String that names no Symbol. -/
  | encoding
  /-- What `bytes` of the content raised. -/
  | content (e : SecureExn)
  /-- What a native entry point raised. -/
  | native (e : NativeError)

/-- The message for an algorithm the builder does not know. The source breaks
    the line inside the literal and keeps the indentation. -/
def BuilderExn.unsupportedMessage (inspect : RSymbol → String) (sym : RSymbol) : String :=
  "unsupported algorithm: " ++ inspect sym ++ " " ++ String.ofList (List.replicate 19 ' ')
    ++ "(expected one of: " ++ ", ".intercalate (SignatureAlgorithm.known.map (·.name)) ++ ")"

/-- What `algorithm:` is given. -/
inductive AlgorithmValue where
  | sym (s : RSymbol)
  | str (s : RString)
  | other

/-- `algorithm.to_sym unless algorithm.is_a?(Symbol)`. -/
def AlgorithmValue.toSym (encodings : Encodings) : AlgorithmValue → Except BuilderExn RSymbol
  | .sym s => .ok s
  | .str s =>
    match s.toSym? encodings with
    | some symbol => .ok symbol
    | none => .error .encoding
  | .other => .error .noMethod

/-- What `content=` is given. -/
inductive Content where
  | str (s : RString)
  /-- An object with a `bytes` that returns a String or raises. -/
  | object (bytes : Except SecureExn RString)
  /-- Anything without a `bytes`. -/
  | value (a : Arg)

/-- `@content.respond_to?(:bytes) ? @content.bytes : @content`. -/
def Content.payload : Content → Except BuilderExn Arg
  | .str s => .ok (.arr (s.bytes.map (fun b => .int b.toNat)))
  | .object bytes => (bytes.map Arg.str).mapError .content
  | .value a => .ok a

/-- One entry of `@signers`. -/
structure BuilderSigner where
  certDer : Arg
  privateKey : Arg
  algorithm : SignatureAlgorithm

/-- The builder: `@content` and `@signers`. -/
structure SignedDataBuilder where
  content : Option Content
  signers : List BuilderSigner

/-- What the builder does with the native extension. -/
abbrev Building := Eff NativeEvent BuilderExn

/-- A call of a native entry point. -/
def calling {α : Type} (x : Native α) : Building α := ⟨x.log, x.result.mapError .native⟩

namespace SignedDataBuilder

def new : SignedDataBuilder := ⟨none, []⟩

/-- `add_signer`. -/
def addSigner (encodings : Encodings) (b : SignedDataBuilder) (certDer privateKey : Arg)
    (algorithm : AlgorithmValue) : Except BuilderExn Unit × SignedDataBuilder :=
  match algorithm.toSym encodings with
  | .error e => (.error e, b)
  | .ok sym =>
    match SignatureAlgorithm.ofSym? sym with
    | none => (.error (.unsupported sym), b)
    | some a => (.ok (), { b with signers := b.signers ++ [⟨certDer, privateKey, a⟩] })

variable (env : AuditEnv) (signing : SigningUpstream) (threshold : TC.ThresholdUpstream)
  (parsers : ParserUpstream) (transcoder : Transcoder)

/-- `sign_payload`. -/
def signPayload (algorithm : SignatureAlgorithm) (privateKey payload : Arg) : Native Bytes :=
  match algorithm with
  | .ed25519 => do
    let component ← signEd25519 env signing privateKey payload
    return component.signature
  | .ecdsaP256 => do
    -- The DER form, not the fixed one.
    let forms ← TC.FrostP256.sign env threshold privateKey payload
    return forms.1

/-- `build`. -/
def build (b : SignedDataBuilder) : Building parsers.SignedData :=
  match b.signers, b.content with
  | [], _ => Eff.raise (.argument "at least one signer is required")
  | _ :: _, none => Eff.raise (.argument "#content is required (detached builder)")
  | primary :: rest, some content => do
    let payload ← Eff.ofExcept content.payload
    let signature ←
      calling (signPayload env signing threshold primary.algorithm primary.privateKey payload)
    calling (Parsers.buildDetached parsers transcoder (.str (RString.binary signature))
      (textInput primary.algorithm.oid) (.arr ((primary :: rest).map BuilderSigner.certDer)))

end SignedDataBuilder

/-- What a program does to a builder before it builds. -/
inductive BuilderOp where
  | setContent (content : Option Content)
  | addSigner (certDer privateKey : Arg) (algorithm : AlgorithmValue)

/-- One such operation. -/
def SignedDataBuilder.step (encodings : Encodings) :
    Machine.Step SignedDataBuilder BuilderOp (Except BuilderExn Unit)
  | b, .setContent content => (.ok (), { b with content := content })
  | b, .addSigner certDer privateKey algorithm =>
    b.addSigner encodings certDer privateKey algorithm

end Cms

end Confium
