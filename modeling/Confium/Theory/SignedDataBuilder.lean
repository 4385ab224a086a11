import Confium.Core.Cms
import Confium.Core.SignedDataBuilder
import Confium.Theory.AuditTrail
import Confium.Theory.Screens

/-!
# What an Envelope Is Built Of

The builder and the verifier meet only through the envelope: the builder writes
an OID into it, and the closure of `verify_signatures` picks a verifier by that
OID. Whatever a program did with a builder, an envelope it built is what upstream
makes of the OID of the first signer it accepted, the certificates of all of them,
and a signature by the key of that signer. The branch of the closure that the OID
selects accepts that signature, for the bytes of the content and the public key of
the signer.

What is needed of the libraries underneath is that each signer's signatures are
accepted by the verifier of the same algorithm. The rest is checked here: that a
String is signed as its own bytes although it goes through an Array, that the
form of the signature is the one its verifier reads, and that the two tables of
OIDs agree. Whether `verify_signatures` finds the signer of such an envelope among
its certificates, and so calls the closure at all, is upstream's.

## Main definitions

* `Content.bytes`: The bytes of a content.
* `BuilderOp.accepted`: The signer an operation adds.
* `KeyPairs`: Signers and verifiers that belong together.
* `OidAccepts`: A signature that the branch of an OID accepts.

## Theorems

* `bytes_of_ints`: An Array of bytes has those bytes.
* `Content.payload_bytes`: What is signed is the bytes of the content.
* `run_signers`: The signers a builder has are the ones that were accepted.
* `signPayload_accepted`: What was signed is accepted.
* `built_envelope_is_signed`: An envelope is built of an accepted signature.
-/

namespace Confium

open Ruby Composite

namespace Cms

/-- The bytes of a content, where it has any. -/
def Content.bytes : Content → Except NativeError Bytes
  | .str s => (Arg.str s).bytes
  | .object (.ok s) => (Arg.str s).bytes
  | .object (.error _) => .error (.conversion (.noImplicitConversion "Array"))
  | .value a => a.bytes

/-- An Array of bytes has those bytes, as a String has them. -/
theorem bytes_of_ints (s : RString) : (byteArray s.bytes).bytes = (Arg.str s).bytes :=
  (arg_bytes_eq (.array s.bytes)).trans (arg_bytes_eq (.string s)).symm

/-- What is signed is the bytes of the content. -/
theorem Content.payload_bytes (content : Content) (payload : Arg)
    (h : content.payload = .ok payload) : payload.bytes = content.bytes := by
  cases content with
  | str s =>
      rw [Content.payload, Except.ok.injEq] at h
      rw [← h]
      exact bytes_of_ints s
  | object bytes =>
      cases bytes with
      | error e => exact absurd h (by simp only [Content.payload, Except.map, Except.mapError,
          reduceCtorEq, not_false_eq_true])
      | ok s =>
          rw [← Except.ok.inj h]
          rfl
  | value a =>
      rw [← Except.ok.inj h]
      rfl

/-- The signer an operation adds, if it is accepted. -/
def BuilderOp.accepted (encodings : Encodings) : BuilderOp → Option BuilderSigner
  | .addSigner certDer privateKey algorithm =>
    match algorithm.toSym encodings with
    | .error _ => none
    | .ok sym => (SignatureAlgorithm.ofSym? sym).map (fun a => ⟨certDer, privateKey, a⟩)
  | .setContent _ => none

namespace SignedDataBuilder

theorem step_signers (encodings : Encodings) (b : SignedDataBuilder) (op : BuilderOp) :
    (step encodings b op).2.signers = b.signers ++ (op.accepted encodings).toList := by
  cases op with
  | setContent content => exact (List.append_nil _).symm
  | addSigner certDer privateKey algorithm =>
      simp only [step, addSigner, BuilderOp.accepted]
      cases algorithm.toSym encodings with
      | error e => exact (List.append_nil _).symm
      | ok sym =>
          dsimp only
          cases SignatureAlgorithm.ofSym? sym with
          | none => exact (List.append_nil _).symm
          | some a => rfl

/-- A builder has the signers that were accepted, in order. The ones that were
    refused left nothing behind. -/
theorem run_signers (encodings : Encodings) (b : SignedDataBuilder) (ops : List BuilderOp) :
    (Machine.run (step encodings) b ops).signers
      = b.signers ++ ops.filterMap (BuilderOp.accepted encodings) := by
  induction ops generalizing b with
  | nil => exact (List.append_nil _).symm
  | cons op rest ih =>
      rw [Machine.run, ih, step_signers, List.append_assoc, List.filterMap_cons]
      cases op.accepted encodings with
      | none => rfl
      | some s => rfl

end SignedDataBuilder

/-- Signers and verifiers that belong together: the public key of a private one,
    in the form a certificate ends in, with which the verifier of the algorithm
    accepts what the signer of the algorithm makes. -/
structure KeyPairs (v : Verifiers) (signing : SigningUpstream)
    (threshold : TC.ThresholdUpstream) where
  publicKey : SignatureAlgorithm → Bytes → Bytes
  length_ed25519 : ∀ key, (publicKey .ed25519 key).length = 32
  length_ecdsaP256 : ∀ key, (publicKey .ecdsaP256 key).length = 65
  ed25519_accepts : ∀ key msg component,
    signing.buildEd25519Component key msg = .ok component →
      v.ed25519Verifier "Ed25519" (publicKey .ed25519 key) msg component.signature = .ok ()
  ecdsaP256_accepts : ∀ key secret msg forms, threshold.scalarFromBytes key = some secret →
    threshold.signMessage secret msg = .ok forms →
      p256VerifyInline v (publicKey .ecdsaP256 key) msg forms.1 = .ok ()

/-- The branch that an OID selects accepts a signature, whatever stands before the
    public key in its DER. -/
def OidAccepts (v : Verifiers) (oid : String) (publicKey msg signature : Bytes) : Prop :=
  ∀ header, verifyByOid v oid ⟨header ++ publicKey, msg, signature⟩ = .ok ()

theorem lastBytes_append (n : Nat) (header key : Bytes) (h : key.length = n) :
    lastBytes n (header ++ key) = key := by
  unfold lastBytes
  rw [List.length_append, h, Nat.add_sub_cancel, List.drop_left]

/-- The OID of the builder's Ed25519 leads to the Ed25519 verifier. -/
theorem oidAccepts_ed25519 (v : Verifiers) (publicKey msg signature : Bytes)
    (hlen : publicKey.length = 32)
    (h : v.ed25519Verifier "Ed25519" publicKey msg signature = .ok ()) :
    OidAccepts v SignatureAlgorithm.ed25519.oid publicKey msg signature := by
  intro header
  rw [verifyByOid, SignatureAlgorithm.oid, if_pos rfl, verifyEd25519,
    if_neg (by rw [List.length_append]; omega), lastBytes_append 32 header publicKey hlen, h]

/-- The OID of the builder's ECDSA leads to the P-256 verifier. -/
theorem oidAccepts_ecdsaP256 (v : Verifiers) (publicKey msg signature : Bytes)
    (hlen : publicKey.length = 65) (h : p256VerifyInline v publicKey msg signature = .ok ()) :
    OidAccepts v SignatureAlgorithm.ecdsaP256.oid publicKey msg signature := by
  intro header
  rw [verifyByOid, SignatureAlgorithm.oid, if_neg (by decide), if_pos rfl,
    verifyEcdsaP256, if_neg (by rw [List.length_append]; omega),
    lastBytes_append 65 header publicKey hlen, h]

/-- A scalar that was read is upstream's. -/
theorem scalarFromBytes_eq_ok (threshold : TC.ThresholdUpstream) (message : String) (bytes : Bytes)
    (secret : threshold.Scalar)
    (h : (TC.scalarFromBytes threshold message bytes).result = .ok secret) :
    threshold.scalarFromBytes bytes = some secret :=
  (okOr_eq_ok_iff message _ secret).mp ((mapError_eq_ok_iff _ _ _).mp h)

section

variable {v : Verifiers} {signing : SigningUpstream} {threshold : TC.ThresholdUpstream}
  (keys : KeyPairs v signing threshold) (env : AuditEnv)

/-- What a signer of the extension makes of a key and a payload is accepted by the
    branch of the OID of its algorithm. -/
theorem signPayload_accepted (algorithm : SignatureAlgorithm) (privateKey payload : Arg)
    (signature : Bytes)
    (h : (SignedDataBuilder.signPayload env signing threshold algorithm privateKey payload).result
      = .ok signature) :
    ∃ key msg, privateKey.bytes = .ok key ∧ payload.bytes = .ok msg ∧
      OidAccepts v algorithm.oid (keys.publicKey algorithm key) msg signature := by
  cases algorithm with
  | ed25519 =>
      rcases (Eff.result_bind_eq_ok_iff _ _ _).mp h with ⟨component, hsign, hreturn⟩
      rcases (Eff.result_bind_eq_ok_iff _ _ _).mp hsign with ⟨⟨key, msg⟩, hargs, hsign⟩
      have hargs := (signerArgs_eq_ok_iff _ _ _ _ _).mp hargs
      rw [recorded_result, mapError_eq_ok_iff] at hsign
      refine ⟨key, msg, hargs.1, hargs.2.1, ?_⟩
      have hsignature : component.signature = signature := Except.ok.inj hreturn
      have haccept := keys.ed25519_accepts key msg component hsign
      rw [hsignature] at haccept
      exact oidAccepts_ed25519 v _ msg signature (keys.length_ed25519 key) haccept
  | ecdsaP256 =>
      rcases (Eff.result_bind_eq_ok_iff _ _ _).mp h with ⟨forms, hsign, hreturn⟩
      rcases (Eff.result_bind_eq_ok_iff _ _ _).mp hsign with ⟨⟨key, msg⟩, hargs, hsign⟩
      rcases (Eff.result_bind_eq_ok_iff _ _ _).mp hsign with ⟨secret, hsecret, hsign⟩
      have hargs := (signerArgs_eq_ok_iff _ _ _ _ _).mp hargs
      rw [recorded_result, mapError_eq_ok_iff] at hsign
      refine ⟨key, msg, hargs.1, hargs.2.1, ?_⟩
      have hsignature : forms.1 = signature := Except.ok.inj hreturn
      have haccept := keys.ecdsaP256_accepts key secret msg forms
        (scalarFromBytes_eq_ok threshold _ key secret hsecret) hsign
      rw [hsignature] at haccept
      exact oidAccepts_ecdsaP256 v _ msg signature (keys.length_ecdsaP256 key) haccept

/-- What a call of a native entry point returned. -/
theorem calling_eq_ok_iff {α : Type} (x : Native α) (a : α) :
    (calling x).result = .ok a ↔ x.result = .ok a := mapError_eq_ok_iff _ _ _

/-- The bytes that are enforced twice are the bytes. -/
theorem cappedBytes_eq_ok {a : Arg} {bytes : Bytes} (h : Parsers.cappedBytes a = .ok bytes) :
    a.bytes = .ok bytes := by
  rcases (bind_eq_ok_iff _ _ _).mp h with ⟨bytes', hbytes, h⟩
  rcases (bind_eq_ok_iff _ _ _).mp h with ⟨_, -, h⟩
  rw [← Except.ok.inj h]
  exact hbytes

/-- What `build_detached` read of what the builder passes on. -/
theorem buildDetachedArgs_eq_ok (transcoder : Transcoder) (signature : Bytes) (oid : String)
    (certs : List Arg) (args : String × Bytes × List Bytes)
    (h : Parsers.buildDetachedArgs transcoder (.str (RString.binary signature)) (textInput oid)
      (.arr certs) = .ok args) :
    args.1 = oid ∧ args.2.1 = signature ∧
      List.Forall₂ (fun cert der => cert.bytes = .ok der) certs args.2.2 := by
  rcases (bind_eq_ok_iff _ _ _).mp h with ⟨text, htext, h⟩
  rcases (bind_eq_ok_iff _ _ _).mp h with ⟨_, -, h⟩
  rcases (bind_eq_ok_iff _ _ _).mp h with ⟨_, -, h⟩
  rcases (bind_eq_ok_iff _ _ _).mp h with ⟨bytes, hbytes, h⟩
  rcases (bind_eq_ok_iff _ _ _).mp h with ⟨items, hitems, h⟩
  rcases (bind_eq_ok_iff _ _ _).mp h with ⟨ders, hders, h⟩
  rw [text_textInput, Except.ok.injEq] at htext
  rw [← Except.ok.inj hitems, mapM_eq_ok_iff] at hders
  rw [← Except.ok.inj h]
  refine ⟨htext.symm, ?_, hders.imp (fun _ _ => cappedBytes_eq_ok)⟩
  have hsignature := (arg_bytes_eq (.string (RString.binary signature))).symm.trans
    (cappedBytes_eq_ok hbytes)
  by_cases hsize : maxInputSize < (ByteInput.string (RString.binary signature)).size
  · rw [if_pos hsize] at hsignature
    exact absurd hsignature (by simp only [reduceCtorEq, not_false_eq_true])
  · rw [if_neg hsize] at hsignature
    exact (Except.ok.inj hsignature).symm

/-- Whatever a program did with a builder, an envelope it built is what upstream
    makes of the OID of the first signer that was accepted, the certificates of all
    that were, in order, and a signature that the branch of that OID accepts, for the
    bytes of the content and the public key of that signer. -/
theorem built_envelope_is_signed (parsers : ParserUpstream) (transcoder : Transcoder)
    (encodings : Encodings) (ops : List BuilderOp) (sd : parsers.SignedData)
    (h : (SignedDataBuilder.build env signing threshold parsers transcoder
      (Machine.run (SignedDataBuilder.step encodings) SignedDataBuilder.new ops)).result = .ok sd) :
    ∃ primary rest content key msg signature ders,
      ops.filterMap (BuilderOp.accepted encodings) = primary :: rest ∧
      (Machine.run (SignedDataBuilder.step encodings) SignedDataBuilder.new ops).content
        = some content ∧
      content.bytes = .ok msg ∧ primary.privateKey.bytes = .ok key ∧
      List.Forall₂ (fun s der => s.certDer.bytes = .ok der) (primary :: rest) ders ∧
      parsers.buildDetachedSignature primary.algorithm.oid signature ders = .ok sd ∧
      OidAccepts v primary.algorithm.oid (keys.publicKey primary.algorithm key) msg signature := by
  have hsigners := SignedDataBuilder.run_signers encodings SignedDataBuilder.new ops
  generalize Machine.run (SignedDataBuilder.step encodings) SignedDataBuilder.new ops = b
    at h hsigners ⊢
  rcases b with ⟨content, signers⟩
  have hsigners : signers = ops.filterMap (BuilderOp.accepted encodings) := hsigners
  cases signers with
  | nil => exact absurd h (by simp only [SignedDataBuilder.build, Eff.raise, reduceCtorEq,
      not_false_eq_true])
  | cons primary rest =>
      cases content with
      | none => exact absurd h (by simp only [SignedDataBuilder.build, Eff.raise, reduceCtorEq,
          not_false_eq_true])
      | some content =>
          rcases (Eff.result_bind_eq_ok_iff _ _ _).mp h with ⟨payload, hpayload, h⟩
          rcases (Eff.result_bind_eq_ok_iff _ _ _).mp h with ⟨signature, hsign, h⟩
          rw [calling_eq_ok_iff] at hsign h
          rcases signPayload_accepted keys env primary.algorithm primary.privateKey payload
            signature hsign with ⟨key, msg, hkey, hmsg, haccepts⟩
          rw [Content.payload_bytes content payload hpayload] at hmsg
          rcases (Eff.result_bind_eq_ok_iff _ _ _).mp h with ⟨⟨oid, sig, ders⟩, hargs, h⟩
          rcases buildDetachedArgs_eq_ok transcoder signature _ _ _ hargs with
            ⟨hoid, hsig, hders⟩
          rw [List.forall₂_map_left_iff] at hders
          have hbuilt : parsers.buildDetachedSignature oid sig ders = .ok sd :=
            (mapError_eq_ok_iff _ _ _).mp h
          rw [show oid = primary.algorithm.oid from hoid, show sig = signature from hsig] at hbuilt
          exact ⟨primary, rest, content, key, msg, signature, ders, hsigners.symm, rfl, hmsg, hkey,
            hders, hbuilt, haccepts⟩

end

/-- A key of a given length that repeats none of the others: the bytes it was
    made from, filled up. -/
def paddedKey (n : Nat) (key : Bytes) : Bytes := (key ++ List.replicate n 0).take n

theorem length_paddedKey (n : Nat) (key : Bytes) : (paddedKey n key).length = n := by
  rw [paddedKey, List.length_take, List.length_append, List.length_replicate]
  omega

/-- Verifiers that accept the key followed by the message and nothing else. -/
def tagVerifiers : Verifiers where
  VerifyingKey := Bytes
  EcdsaSignature := Bytes
  ed25519Verifier := fun _ publicKey msg signature =>
    if signature = publicKey ++ msg then .ok () else .error "signature mismatch"
  fromSec1Bytes := .ok
  fromDer := .ok
  verify := fun publicKey msg signature =>
    if signature = publicKey ++ msg then .ok () else .error "signature mismatch"

/-- The signer that goes with them. -/
def tagSigning : SigningUpstream where
  ed25519 := "Ed25519"
  ecdsaP256 := "ECDSA-P256"
  P256SigningKey := Bytes
  buildEd25519Component := fun key msg =>
    .ok ⟨"Ed25519", paddedKey 32 key, paddedKey 32 key ++ msg⟩
  p256FromBytes := .ok
  p256TrySign := fun key msg => .ok (paddedKey 65 key ++ msg)
  p256VerifyingKey := paddedKey 65
  ed25519Verifier := tagVerifiers.ed25519Verifier
  p256Verifier := tagVerifiers.ed25519Verifier
  CompositeVerdict := Unit
  verifyComposite := fun _ _ _ => .ok ()
  CmsVerdict := Unit
  verifySignedData := fun _ _ _ => .ok ()
  keystoreSign := fun _ _ _ _ msg => .ok msg

/-- And the one for P-256, of which the fixed form is not accepted. -/
def tagThreshold : TC.ThresholdUpstream where
  Scalar := Bytes
  scalarFromBytes := some
  splitSecret := fun secret _ _ => [(1, secret)]
  recoverSecret := fun _ => .ok []
  signMessage := fun key msg => .ok (paddedKey 65 key ++ msg, msg)
  encapsulate := fun key => .ok (⟨key, key⟩, key)
  partialDecrypt := fun index share _ => .ok ⟨index, share⟩
  aggregatePartials := fun _ _ _ => .ok []
  cmp20Sign := fun _ _ msg => .ok msg
  gg18Sign := fun _ _ msg => .ok msg
  Session := Unit
  createSession := fun _ => .ok ()
  roundStep := fun session _ => (.ok ([], true), session)

def tagKeys : KeyPairs tagVerifiers tagSigning tagThreshold where
  publicKey
    | .ed25519 => paddedKey 32
    | .ecdsaP256 => paddedKey 65
  length_ed25519 := length_paddedKey 32
  length_ecdsaP256 := length_paddedKey 65
  ed25519_accepts := by
    intro key msg component h
    rw [← Except.ok.inj h]
    exact if_pos rfl
  ecdsaP256_accepts := by
    intro key secret msg forms hsecret h
    rw [← Except.ok.inj h, ← Option.some.inj hsecret]
    exact congrArg (labelled "verify: ") (if_pos rfl)

/-- Parsers that keep what an envelope is built of. -/
def keepingParsers : ParserUpstream where
  Certificate := Unit
  certificateFromDer := fun _ => .ok ()
  certificateFromPem := fun _ => .ok ()
  Time := Unit
  utcNow := ()
  parseFromRfc3339 := fun _ => .ok ()
  isWithinValidity := fun _ _ => true
  PathVerdict := Unit
  validatePath := fun _ _ _ _ => ()
  Csr := Unit
  csrFromDer := fun _ => .ok ()
  csrFromPem := fun _ => .ok ()
  SignedData := String × Bytes × List Bytes
  signedDataFromStr := fun _ => .error "not built here"
  buildDetachedSignature := fun oid signature ders => .ok (oid, signature, ders)
  canonicalize := .ok
  canonicalizeExclusive := .ok
  Actor := Unit
  actorFromStr := fun _ => .ok ()
  Manifest := Unit
  parseManifest := fun _ => .ok ()
  Predicate := Unit
  dslParse := fun _ => .ok ()
  OtsFile := Unit
  otsParse := fun _ _ => .ok ()
  otsVerify := fun _ => .ok ⟨[], [], []⟩

def quietEnv : AuditEnv := { enabled := false, now := "", sha256Hex := fun _ => "" }

def noTranscoder : Transcoder := fun _ _ => none

/-- A refused signer, and then one that signs. -/
def sampleOps : List BuilderOp :=
  [.addSigner (.str (RString.binary [1])) .nil (.sym (.text "rsa")),
    .setContent (some (.str (RString.ofString "m"))),
    .addSigner (.str (RString.binary [2])) (.str (RString.binary (List.replicate 32 7)))
      (.sym (.text "ecdsa_p256"))]

def sampleEnvelope : keepingParsers.SignedData :=
  ("1.2.840.10045.4.3.2", paddedKey 65 (List.replicate 32 7) ++ utf8 "m", [[2]])

theorem build_sampleOps :
    (SignedDataBuilder.build quietEnv tagSigning tagThreshold keepingParsers noTranscoder
      (Machine.run (SignedDataBuilder.step Encodings.none) SignedDataBuilder.new sampleOps)).result
      = .ok sampleEnvelope := by
  have hrun : Machine.run (SignedDataBuilder.step Encodings.none) SignedDataBuilder.new sampleOps
      = ⟨some (.str (RString.ofString "m")), [⟨.str (RString.binary [2]),
          .str (RString.binary (List.replicate 32 7)), .ecdsaP256⟩]⟩ := rfl
  rw [hrun]
  rfl

/-- Whatever was refused, the envelope of `sampleOps` is signed. -/
theorem built_envelope_is_signed_of_sampleOps :
    ∃ primary rest content key msg signature ders,
      sampleOps.filterMap (BuilderOp.accepted Encodings.none) = primary :: rest ∧
      (Machine.run (SignedDataBuilder.step Encodings.none) SignedDataBuilder.new sampleOps).content
        = some content ∧
      content.bytes = .ok msg ∧ primary.privateKey.bytes = .ok key ∧
      List.Forall₂ (fun s der => s.certDer.bytes = .ok der) (primary :: rest) ders ∧
      keepingParsers.buildDetachedSignature primary.algorithm.oid signature ders
        = .ok sampleEnvelope ∧
      OidAccepts tagVerifiers primary.algorithm.oid (tagKeys.publicKey primary.algorithm key) msg
        signature :=
  built_envelope_is_signed tagKeys quietEnv keepingParsers noTranscoder Encodings.none sampleOps
    sampleEnvelope build_sampleOps

end Cms

end Confium
