import Confium.Core.Audit

/-!
# Parsing Entry Points

Where text and bytes from Ruby reach an upstream parser: certificates and
signing requests, CMS SignedData, XML, actors, manifests, predicates and
timestamp proofs. The parsers are upstream's and a parameter.

They come in two families. DER goes through `bytes_from_value`, with the size
cap in it. Text comes in as a Rust string, and its size is enforced by the entry
point before it parses. `parseDer` and `parseText` are the families, and each
member is one of them under its own names.

Some entry points are in neither. `Attributes.parse` hands its text to the parser
as it comes, and so does `Certificate#valid_at?` with a time.
`PathValidator.validate` takes certificates, which it asks for their DER and
parses one after another, and reads a time last. `OTS::Proof.new` keeps the bytes
it is given, and the parser sees them when the proof is verified.

## Main definitions

* `ParserUpstream`: The upstream parsers.
* `parseDer`, `parseText`: The two families.
* `certificateFromDer`, `certificateFromPem`, `csrFromDer`, `csrFromPem`,
  `signedDataFromJson`, `xmldsigCanonicalize`, `xmldsigCanonicalizeExclusive`,
  `actorFromJson`, `manifestFromToml`: Their members.
* `buildDetached`: `SignedData.build_detached`.
* `attributesParse`: `Attributes.parse`.
* `certificateValidAt`: `Certificate#valid_at?`.
* `ChainArg`, `extractCert`, `pathValidate`: `PathValidator.validate`.
* `OtsProof`, `OtsProof.new`, `OtsProof.verify`: Timestamp proofs.
-/

namespace Confium

open Ruby

/-- What replaying a timestamp proof finds. -/
structure OtsSummary where
  pending : List String
  bitcoin : List Nat
  litecoin : List Nat

/-- The upstream parsers, with the text of an error, and for DER its offset. -/
structure ParserUpstream where
  Certificate : Type
  certificateFromDer : Bytes → Except (String × Option Nat) Certificate
  certificateFromPem : String → Except String Certificate
  /-- `DateTime<Utc>`, and what the clock says. -/
  Time : Type
  utcNow : Time
  parseFromRfc3339 : String → Except String Time
  isWithinValidity : Certificate → Time → Bool
  PathVerdict : Type
  /-- `validate_path`, by leaf, intermediates, root and time. -/
  validatePath : Certificate → List Certificate → Certificate → Time → PathVerdict
  Csr : Type
  csrFromDer : Bytes → Except (String × Option Nat) Csr
  csrFromPem : String → Except String Csr
  SignedData : Type
  signedDataFromStr : String → Except String SignedData
  /-- `build_detached_signature`, by algorithm, signature and certificates. -/
  buildDetachedSignature : String → Bytes → List Bytes → Except String SignedData
  canonicalize : String → Except String String
  canonicalizeExclusive : String → Except String String
  Actor : Type
  actorFromStr : String → Except String Actor
  Manifest : Type
  parseManifest : String → Except String Manifest
  Predicate : Type
  dslParse : String → Except String Predicate
  OtsFile : Type
  otsParse : Bytes → Bytes → Except String OtsFile
  otsVerify : OtsFile → Except String OtsSummary

variable (up : ParserUpstream) (transcoder : Transcoder)

namespace Parsers

/-- A DER entry point. -/
def parseDer {α : Type} (routine operation : String)
    (parse : Bytes → Except (String × Option Nat) α) (bytes : Arg) : Native α := do
  let der ← Eff.ofExcept bytes.bytes
  delegated routine (fun e => parseError operation "der" e.2 e.1) (parse der)

/-- What a text entry point reads: text of at most the cap. -/
def cappedText (text : Arg) : Except NativeError String := do
  let text ← text.text transcoder
  -- `pem.len()` and its like: the length of the UTF-8 form.
  sizeArg (utf8 text).length
  return text

/-- A text entry point. -/
def parseText {α : Type} (routine operation format : String) (parse : String → Except String α)
    (text : Arg) : Native α := do
  let text ← Eff.ofExcept (cappedText transcoder text)
  delegated routine (parseError operation format none) (parse text)

/-- `Certificate::from_der`. -/
def certificateFromDer (bytes : Arg) : Native up.Certificate :=
  parseDer "Certificate::from_der" "Certificate.from_der" up.certificateFromDer bytes

/-- `Certificate::from_pem`. -/
def certificateFromPem (pem : Arg) : Native up.Certificate :=
  parseText transcoder "Certificate::from_pem" "Certificate.from_pem" "pem" up.certificateFromPem
    pem

/-- `Csr::from_der`. -/
def csrFromDer (bytes : Arg) : Native up.Csr :=
  parseDer "CertificateSigningRequest::from_der" "Csr.from_der" up.csrFromDer bytes

/-- `Csr::from_pem`. -/
def csrFromPem (pem : Arg) : Native up.Csr :=
  parseText transcoder "CertificateSigningRequest::from_pem" "Csr.from_pem" "pem" up.csrFromPem pem

/-- `SignedData::from_json`. -/
def signedDataFromJson (json : Arg) : Native up.SignedData :=
  parseText transcoder "serde_json::from_str" "SignedData.from_json" "json" up.signedDataFromStr
    json

/-- `xmldsig_canonicalize`. -/
def xmldsigCanonicalize (xml : Arg) : Native String :=
  parseText transcoder "canonicalize" "XMLDSig.canonicalize" "xml" up.canonicalize xml

/-- `xmldsig_canonicalize_exclusive`. -/
def xmldsigCanonicalizeExclusive (xml : Arg) : Native String :=
  parseText transcoder "canonicalize_exclusive" "XMLDSig.canonicalize_exclusive" "xml"
    up.canonicalizeExclusive xml

/-- `Actor::from_json`. -/
def actorFromJson (json : Arg) : Native up.Actor :=
  parseText transcoder "serde_json::from_str" "Actor.from_json" "json" up.actorFromStr json

/-- `Manifest::from_toml`. -/
def manifestFromToml (toml : Arg) : Native up.Manifest :=
  parseText transcoder "parse_manifest" "Manifest.from_toml" "toml" up.parseManifest toml

/-- An argument that must not be nil. -/
def presentArg (name : String) : Arg → Except NativeError Unit
  | .nil => .error (.argument (name ++ " is required"))
  | _ => .ok ()

/-- Bytes whose size is enforced once more after `bytes_from_value`. -/
def cappedBytes (a : Arg) : Except NativeError Bytes := do
  let bytes ← a.bytes
  sizeArg bytes.length
  return bytes

/-- What `build_detached` reads. The algorithm is a Rust string, and converted
    before the body runs. -/
def buildDetachedArgs (signature algorithm certificates : Arg) :
    Except NativeError (String × Bytes × List Bytes) := do
  let algorithm ← algorithm.text transcoder
  presentArg "signature" signature
  presentArg "certificates" certificates
  -- Each is enforced twice, here and in `bytes_from_value`.
  let signature ← cappedBytes signature
  let items ← certificates.items
  let ders ← items.mapM cappedBytes
  return (algorithm, signature, ders)

/-- `SignedData::build_detached`. -/
def buildDetached (signature algorithm certificates : Arg) : Native up.SignedData := do
  let (algorithm, signature, ders) ←
    Eff.ofExcept (buildDetachedArgs transcoder signature algorithm certificates)
  delegated "build_detached_signature" .runtime
    (up.buildDetachedSignature algorithm signature ders)

/-- `parse` of `Confium::Attributes`: no size is looked at. -/
def attributesParse (expr : Arg) : Native up.Predicate := do
  let expr ← Eff.ofExcept (expr.text transcoder)
  delegated "confium_attributes::parse" (parseError "Attributes.parse" "dsl" none)
    (up.dslParse expr)

/-- `valid_at`. The time is parsed whatever its size. -/
def certificateValidAt (cert : up.Certificate) (iso8601 : Arg) : Native Bool := do
  let iso8601 ← Eff.ofExcept (iso8601.text transcoder)
  let now ← delegated "DateTime::parse_from_rfc3339"
    (fun e => .argument ("invalid ISO8601 time: " ++ e)) (up.parseFromRfc3339 iso8601)
  return up.isWithinValidity cert now

/-- An argument that is asked for its DER, by what `to_der` raises or returns. -/
abbrev CertArg := Except String Arg

/-- The intermediates. -/
inductive ChainArg where
  | nil
  | certs (items : List CertArg)
  | other

/-- `extract_cert`. -/
def extractCert (label : String) (cert : CertArg) : Native up.Certificate := do
  let der ← Eff.ofExcept (cert.mapError (fun e =>
    parseError "PathValidator.validate" "der" none (label ++ ": cannot get DER: " ++ e)))
  let der ← Eff.ofExcept der.bytes
  delegated "Certificate::from_der" (fun e =>
    parseError "PathValidator.validate" "der" none (label ++ ": invalid DER: " ++ e.1))
    (up.certificateFromDer der)

/-- The loop over the intermediates. -/
def extractCerts : List CertArg → Native (List up.Certificate)
  | [] => return []
  | cert :: rest => do
    let cert ← extractCert up "intermediate" cert
    let certs ← extractCerts rest
    return cert :: certs

def extractChain : ChainArg → Native (List up.Certificate)
  | .nil => return []
  | .certs items => extractCerts up items
  | .other => Eff.raise (.rewrapped "" (.conversion (.noImplicitConversion "Array")))

/-- The time as it is scanned. None and nil are the same. -/
def timeArg : Arg → Except NativeError (Option String)
  | .nil => .ok none
  | now => do
    let now ← now.text transcoder
    return some now

/-- The time that is meant. -/
def validationTime : Option String → Native up.Time
  | some s => delegated "DateTime::parse_from_rfc3339"
    (fun e => .argument ("invalid time: " ++ e)) (up.parseFromRfc3339 s)
  | none => return up.utcNow

/-- `validate`. The root is parsed before the intermediates. -/
def pathValidate (leaf : CertArg) (intermediates : ChainArg) (root : CertArg) (now : Arg) :
    Native up.PathVerdict := do
  let now ← Eff.ofExcept (timeArg transcoder now)
  let leaf ← extractCert up "leaf" leaf
  let root ← extractCert up "root" root
  let intermediates ← extractChain up intermediates
  let now ← validationTime up now
  return up.validatePath leaf intermediates root now

end Parsers

/-- A timestamp proof: the file and the digest it anchors. -/
structure OtsProof where
  digest : Bytes
  bytes : Bytes
  deriving DecidableEq

namespace OtsProof

/-- `RString::try_convert`, by its bytes. -/
def rstringArg : Arg → Except NativeError Bytes
  | .str s => .ok s.bytes
  | _ => .error (.conversion (.noImplicitConversion "String"))

/-- What `Proof.new` makes of its arguments. The file is kept unread. -/
def ofArgs (digest bytes : Arg) : Except NativeError OtsProof := do
  let digest ← rstringArg digest
  let bytes ← rstringArg bytes
  -- The file is neither parsed nor measured.
  if digest.length = 32 then return ⟨digest, bytes⟩
  else .error (.argument "digest must be exactly 32 bytes")

/-- `Proof.new`. -/
def new (digest bytes : Arg) : Native OtsProof := Eff.ofExcept (ofArgs digest bytes)

/-- `verify`, with whether anything is anchored. -/
def verify (proof : OtsProof) : Native (OtsSummary × Bool) := do
  let file ← delegated "wire::parse"
    (fun e => .typed "Transparency::OTS::ParseError" ("invalid OTS proof: " ++ e) [])
    (up.otsParse proof.digest proof.bytes)
  let summary ← delegated "wire::verify" (fun e => .runtime ("replay failed: " ++ e))
    (up.otsVerify file)
  return (summary, !summary.bitcoin.isEmpty || !summary.litecoin.isEmpty)

end OtsProof

end Confium
