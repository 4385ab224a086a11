import Confium.Core.DigestCalls
import Confium.Core.Mta
import Confium.Core.OpenPgpVerify
import Confium.Core.TransportClient
import Confium.Theory.AuditTrail
import Confium.Theory.Inclusion
import Confium.Theory.Screens

/-!
# The Input Size Cap

Inputs over `MAX_INPUT_SIZE` are to be refused before anything upstream sees
them, at every entry point that takes bytes or text. `InputCall` is a call of
one of these entry points with arguments of the documented types, and `Capped`
is the property: an input over the cap is an `ArgumentError` with no upstream
call before it, and without one the cap refuses nothing.

Most entry points read all their arguments first, and what they read screens for
the size of each. Text is screened in its UTF-8 form, so a String in another
encoding is screened for a size that is not its own.

The exceptions are the entry points that hand their input over without a check,
among them the MtA calls with all their numerals and the constructors that dial, and
those that have upstream read one input before they look at the next:
`recover_secret`, the path validator, and the import of keys for an OpenPGP
verification. A digest is refused for its length, and with that for its size.

## Main definitions

* `Message1Input`, `Message2Input`: The messages of the exchange, by their numerals.
* `InputCall`, `InputCall.run`, `InputCall.sizes`: A call, making it, and the
  sizes of its inputs.
* `InputCall.Oversize`, `InputCall.Small`: Whether one of them is over the cap.
* `Capped`: The property.
* `SameSide`: A String is on the side of the cap its UTF-8 form is on.
* `KeysCovered`: Keys for librnp of which the first that is too large comes first.
* `InputCall.Covered`: The calls that are capped.

## Theorems

* `capped_of_screens`: An entry point that screens first is capped.
* `parseText_capped_iff`: The text entry points.
* `recover_capped_iff`: `recover_secret`.
* `capped_iff_covered`: Which calls are capped.
-/

namespace Confium

open Ruby Composite

/-- What the parsing entry points run against, too. -/
structure ParserHost extends Host where
  parsers : ParserUpstream
  transport : Transport.TransportUpstream
  keystoreNew : String → List (String × String) → Except StoreError Unit
  mta : Mta.MtaUpstream
  keyholder : Mta.MtaKeyholder
  /-- librnp, in a build that has it. -/
  rnp : Option OpenPgp.RnpUpstream
  log : Transparency.LogUpstream
  sha256 : Bytes → Digest
  evidence : ERS.EvidenceUpstream
  calendar : OTS.CalendarUpstream parsers.OtsFile

/-- A Hash of numerals, by what it has under its keys. -/
def numeralHash (keys : List String) (numeral : String → String) : Fields :=
  keys.map (fun key => (key, .str (numeral key)))

def publicKeys : List String := ["n", "n_squared", "g"]

def privateKeys : List String := ["lambda", "mu"]

def commitmentKeys : List String := ["n_tilde", "h1", "h2"]

def rangeProofKeys : List String := ["z", "u", "w", "s", "s1", "s2"]

def respondentProofKeys : List String :=
  ["z", "z_prime", "t", "v", "w", "s", "s1", "s2", "t1", "t2"]

/-- Message 1 of the MtA exchange. -/
structure Message1Input where
  ciphertext : String
  rangeProof : String → String

def Message1Input.hash (m : Message1Input) : Fields :=
  [("ciphertext", .str m.ciphertext),
    ("range_proof", .obj (numeralHash rangeProofKeys m.rangeProof))]

/-- And message 2. -/
structure Message2Input where
  ciphertext : String
  respondentProof : String → String
  beta : String

def Message2Input.hash (m : Message2Input) : Fields :=
  [("ciphertext", .str m.ciphertext),
    ("respondent_proof", .obj (numeralHash respondentProofKeys m.respondentProof)),
    ("beta", .str m.beta)]

/-- A call of an entry point that takes bytes or text. -/
inductive InputCall (host : ParserHost) where
  | certificateFromDer (der : ByteInput)
  | certificateFromPem (pem : RString)
  | csrFromDer (der : ByteInput)
  | csrFromPem (pem : RString)
  | signedDataFromJson (json : RString)
  | buildDetached (signature : ByteInput) (algorithm : String) (certificates : List ByteInput)
  | verifySignatures (sd : Cms.SignedData) (payload : ByteInput)
  | canonicalize (xml : RString)
  | canonicalizeExclusive (xml : RString)
  | actorFromJson (json : RString)
  | manifestFromToml (toml : RString)
  | signatureNew (components : List ComponentInput)
  | signatureVerify (sig : Signature) (message : ByteInput) (verifiers : Option VerifierInputs)
  | signEd25519 (privateKey message : ByteInput)
  | signP256 (privateKey message : ByteInput)
  | splitSecret (secret : ByteInput) (threshold partyCount : UInt32)
  | recoverSecret (shares : List ShareInput)
  | frostSign (privateKey message : ByteInput)
  | encapsulate (publicKey : ByteInput)
  | partialDecrypt (partyIndex : UInt32) (share : ByteInput) (ciphertext : CiphertextInput)
  | aggregatePartials (partials : List ShareInput) (threshold : UInt32)
      (ciphertext : CiphertextInput)
  | cmp20Sign (shares : List ByteInput) (threshold : UInt32) (message : ByteInput)
  | gg18Sign (shares : List ByteInput) (threshold : UInt32) (message : ByteInput)
  | sessionNew (scheme : String) (options : SessionInput)
  | roundStep (session : host.threshold.Session) (incoming : List MessageInput)
  | keystoreSign (keyId algorithm : String) (message : ByteInput)
  | attributesParse (expr : RString)
  | proofNew (digest bytes : RString)
  | createSession (quorumId scheme message : RString) (threshold numParties : UInt32)
  | submitCommitment (sessionId signerId : RString) (commitment : Bytes)
  | submitShare (sessionId signerId : RString) (share : Bytes)
  | signerClientNew (url : RString)
  | coordinatorServerNew (url : RString)
  | register (signerId quorumId : RString)
  | keystoreNew (backend : RString) (options : List (RString × RString))
  | validAt (cert : host.parsers.Certificate) (iso8601 : RString)
  | pathValidate (leaf : ByteInput) (intermediates : List ByteInput) (root : ByteInput)
      (now : Option RString)
  | openPgpVerifyDetached (message signature : ByteInput) (keys : List ByteInput)
  | openPgpVerify (signed : ByteInput) (keys : List ByteInput)
  | mtaPartyIInit (iPublic ckJ : String → String) (q kI : String)
  | mtaPartyJRespond (iPublic ckI ckJ : String → String) (q : String) (msg1 : Message1Input)
      (xJ : String)
  | mtaPartyIFinish (iPublic iPrivate ckI : String → String) (q msg1Ciphertext : String)
      (msg2 : Message2Input)
  | mtaFull (iPublic iPrivate ckI ckJ : String → String) (q kI xJ : String)
  | treeAppend (tree : host.log.Tree) (now : String) (artifactHash : ByteInput)
  | treeVerifyConsistency (tree : host.log.Tree) (oldRoot newRoot : ByteInput)
      (oldSize newSize : UInt64) (proof : List ByteInput)
  | proofVerify (proof : Transparency.InclusionProof) (root : ByteInput)
  | proofVerifyWithLeaf (proof : Transparency.InclusionProof) (leaf root : ByteInput)
  | evidenceBuildInitial (dataHash : ByteInput) (more : Option (String × Option ByteInput))
  | evidenceRenew (record : host.evidence.EvidenceRecord) (newHash : ByteInput)
      (more : Option (String × Option ByteInput))
  | calendarNew (servers : List RString)
  | calendarStamp (client : host.calendar.Client) (net : host.calendar.Net) (digest : RString)

namespace InputCall

variable {host : ParserHost}

/-- Making a call. -/
def run : InputCall host → Native Unit
  | .certificateFromDer der => (Parsers.certificateFromDer host.parsers der.arg).void
  | .certificateFromPem pem =>
    (Parsers.certificateFromPem host.parsers host.transcoder (.str pem)).void
  | .csrFromDer der => (Parsers.csrFromDer host.parsers der.arg).void
  | .csrFromPem pem => (Parsers.csrFromPem host.parsers host.transcoder (.str pem)).void
  | .signedDataFromJson json =>
    (Parsers.signedDataFromJson host.parsers host.transcoder (.str json)).void
  | .buildDetached signature algorithm certificates =>
    (Parsers.buildDetached host.parsers host.transcoder signature.arg (textInput algorithm)
      (.arr (certificates.map ByteInput.arg))).void
  | .verifySignatures sd payload =>
    (sd.verifySignatures host.signing host.verifiers payload.arg).void
  | .canonicalize xml => (Parsers.xmldsigCanonicalize host.parsers host.transcoder (.str xml)).void
  | .canonicalizeExclusive xml =>
    (Parsers.xmldsigCanonicalizeExclusive host.parsers host.transcoder (.str xml)).void
  | .actorFromJson json => (Parsers.actorFromJson host.parsers host.transcoder (.str json)).void
  | .manifestFromToml toml =>
    (Parsers.manifestFromToml host.parsers host.transcoder (.str toml)).void
  | .signatureNew components =>
    (newComposite host.transcoder (components.map ComponentInput.members)).void
  | .signatureVerify sig message verifiers =>
    (sig.verify host.signing host.transcoder message.arg (verifiersArg verifiers)).void
  | .signEd25519 privateKey message =>
    (Composite.signEd25519 host.audit host.signing privateKey.arg message.arg).void
  | .signP256 privateKey message =>
    (Composite.signP256 host.audit host.signing privateKey.arg message.arg).void
  | .splitSecret secret threshold partyCount =>
    (TC.FrostP256.splitSecretIntoShares host.threshold secret.arg (.int threshold.toNat)
      (.int partyCount.toNat)).void
  | .recoverSecret shares =>
    (TC.FrostP256.recover host.threshold (.arr (shares.map ShareInput.share))).void
  | .frostSign privateKey message =>
    (TC.FrostP256.sign host.audit host.threshold privateKey.arg message.arg).void
  | .encapsulate publicKey => (TC.ElGamalP256.encapsulate host.threshold publicKey.arg).void
  | .partialDecrypt partyIndex share ciphertext =>
    (TC.ElGamalP256.partialDecrypt host.threshold (.int partyIndex.toNat) share.arg
      ciphertext.arg).void
  | .aggregatePartials partials threshold ciphertext =>
    (TC.ElGamalP256.aggregate host.threshold (.arr (partials.map ShareInput.decryption))
      (.int threshold.toNat) ciphertext.arg).void
  | .cmp20Sign shares threshold message =>
    (TC.cmp20Sign host.audit host.threshold (.arr (shares.map ByteInput.arg))
      (.int threshold.toNat) message.arg).void
  | .gg18Sign shares threshold message =>
    (TC.gg18Sign host.audit host.threshold (.arr (shares.map ByteInput.arg))
      (.int threshold.toNat) message.arg).void
  | .sessionNew scheme options =>
    (TC.Session.new host.threshold host.transcoder (textInput scheme) options.options).void
  | .roundStep session incoming =>
    (TC.Session.roundStep host.threshold host.transcoder session
      (.arr (incoming.map MessageInput.arg))).1.void
  | .keystoreSign keyId algorithm message =>
    (Keystore.sign host.signing host.transcoder (textInput keyId) (textInput algorithm)
      message.arg).void
  | .attributesParse expr => (Parsers.attributesParse host.parsers host.transcoder (.str expr)).void
  | .proofNew digest bytes => (OtsProof.new (.str digest) (.str bytes)).void
  | .createSession quorumId scheme message threshold numParties =>
    (Transport.createSession host.transport host.transcoder (.str quorumId) (.str scheme)
      (.str message) (.int threshold.toNat) (.int numParties.toNat)).void
  | .submitCommitment sessionId signerId commitment =>
    (Transport.submitCommitment host.transport host.transcoder (.str sessionId) (.str signerId)
      (byteArray commitment)).void
  | .submitShare sessionId signerId share =>
    (Transport.submitShare host.transport host.transcoder (.str sessionId) (.str signerId)
      (byteArray share)).void
  | .signerClientNew url => (Transport.clientNew host.transport host.transcoder (.str url)).void
  | .coordinatorServerNew url =>
    (Transport.serverNew host.transport host.transcoder (.str url)).void
  | .register signerId quorumId =>
    (Transport.register host.transport host.transcoder (.str signerId) (.str quorumId)).void
  | .keystoreNew backend options =>
    (Keystore.new host.transcoder host.keystoreNew (.str backend)
      (.hash (options.map (fun o => (.str o.1, .str o.2))))).void
  | .validAt cert iso8601 =>
    (Parsers.certificateValidAt host.parsers host.transcoder cert (.str iso8601)).void
  | .pathValidate leaf intermediates root now =>
    (Parsers.pathValidate host.parsers host.transcoder (.ok leaf.arg)
      (.certs (intermediates.map (fun i => .ok i.arg))) (.ok root.arg)
      ((now.map Arg.str).getD .nil)).void
  | .openPgpVerifyDetached message signature keys =>
    OpenPgp.verifyDetached host.rnp [message.arg, signature.arg, .arr (keys.map ByteInput.arg)]
  | .openPgpVerify signed keys =>
    OpenPgp.verify host.rnp [signed.arg, .arr (keys.map ByteInput.arg)]
  | .mtaPartyIInit iPublic ckJ q kI =>
    (Mta.partyIInit host.audit host.mta (numeralHash publicKeys iPublic)
      (numeralHash commitmentKeys ckJ) q kI).void
  | .mtaPartyJRespond iPublic ckI ckJ q msg1 xJ =>
    (Mta.partyJRespond host.audit host.mta (numeralHash publicKeys iPublic)
      (numeralHash commitmentKeys ckI) (numeralHash commitmentKeys ckJ) q msg1.hash xJ).void
  | .mtaPartyIFinish iPublic iPrivate ckI q msg1Ciphertext msg2 =>
    (Mta.partyIFinish host.audit host.mta (numeralHash publicKeys iPublic)
      (numeralHash privateKeys iPrivate) (numeralHash commitmentKeys ckI) q msg1Ciphertext
      msg2.hash).void
  | .mtaFull iPublic iPrivate ckI ckJ q kI xJ =>
    (Mta.full host.audit host.keyholder (numeralHash publicKeys iPublic)
      (numeralHash privateKeys iPrivate) (numeralHash commitmentKeys ckI)
      (numeralHash commitmentKeys ckJ) q kI xJ).void
  | .treeAppend tree now artifactHash =>
    (Transparency.appendCall host.log tree now artifactHash.field).void
  | .treeVerifyConsistency tree oldRoot newRoot oldSize newSize proof =>
    (Transparency.verifyConsistencyCall host.log tree oldRoot.field newRoot.field oldSize.toNat
      newSize.toNat (proof.map ByteInput.field)).void
  | .proofVerify proof root => (Transparency.hashing (proof.verify host.sha256 root.field)).void
  | .proofVerifyWithLeaf proof leaf root =>
    (Transparency.hashing (proof.verifyWithLeaf host.sha256 leaf.field root.field)).void
  | .evidenceBuildInitial dataHash more =>
    (ERS.buildInitial host.evidence host.transcoder (dataHash.arg :: tokenArgs more)).void
  | .evidenceRenew record newHash more =>
    (ERS.renew host.evidence host.transcoder record (newHash.arg :: tokenArgs more)).void
  | .calendarNew servers =>
    (OTS.clientNew host.parsers host.calendar host.transcoder (.arr (servers.map Arg.str))).void
  | .calendarStamp client net digest =>
    (OTS.stampCall host.parsers host.calendar client net (.str digest)).void

end InputCall

variable {α β γ : Type}

section

variable (env : AuditEnv) (up : Mta.MtaUpstream) (tooLarge : Prop) (iPublic : String → String)

end

/-! ### The text of the client, and of a time -/

section

variable (tooLarge : Prop) (up : Transport.TransportUpstream) (transcoder : Transcoder)

end

/-- Whatever file a proof was made with is what upstream parses later. -/
theorem kept_file_is_parsed (up : ParserUpstream) (digest bytes : RString)
    (h : digest.bytes.length = 32) :
    ∃ proof, (OtsProof.new (.str digest) (.str bytes)).result = .ok proof ∧
      proof.bytes = bytes.bytes ∧
      (upstreamCalls (proof.verify up).log).head? = some "wire::parse" := by
  refine ⟨⟨digest.bytes, bytes.bytes⟩, ?_, rfl, ?_⟩
  · unfold OtsProof.new OtsProof.ofArgs
    simp only [OtsProof.rstringArg, ok_bind, h, if_true]
    rfl
  · unfold OtsProof.verify
    -- Parsing is the first thing done, whatever comes of it.
    rcases Eff.log_bind_eq_append (delegated "wire::parse"
      (fun e => NativeError.typed "Transparency::OTS::ParseError" ("invalid OTS proof: " ++ e) [])
      (up.otsParse digest.bytes bytes.bytes)) _ with ⟨rest, hrest⟩
    rw [hrest]
    rfl

end Confium
