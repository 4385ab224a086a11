import Confium.Lib.Json
import Confium.Lib.RString
import Confium.Core.Fields

/-!
# Composite Signatures

A composite signature is a list of components, each an algorithm name with a
public key and a signature over the same message. A component comes in as a hash
whose binary members may be strings of any encoding or arrays of integers, and
the native side keeps only the bytes. The instance remembers the hashes it was
built from, so that it can be written as JSON later.

The two directions of the JSON form decide differently what is binary.
Writing looks at the encoding tag of each value and hex-encodes the ASCII-8BIT
ones, whatever member they are. Reading looks at the name of the member and
unpacks `public_key` and `signature`, whatever their text is.

Writing goes in two passes, as the source does: every value is transformed
first, then the whole is generated, and each pass has its own way to raise.

## Main definitions

* `FieldValue`: What a member of a component hash may be.
* `CompositeExn`: What building and transporting a signature raises.
* `bytesFromValue`: The bytes of a binary argument.
* `parseComponent`: The native reading of one component hash.
* `Signature`: An instance, with what it remembers.
* `Signature.new`, `Signature.toJson`, `Signature.fromJson`: Building, writing
  and reading one.

## Theorems

* `parseComponent_eq_ok_iff`: The hashes that make a component, and which.
* `Signature.new_eq_ok_iff`, `Signature.componentsToJson_eq_ok_iff`,
  `Signature.ofDocument_eq_ok_iff`: What each direction succeeds on.
-/

namespace Confium

open Ruby

namespace Composite

/-- A member of a component hash: a string, an array, or something that is
    neither and has no `encoding`. -/
inductive FieldValue where
  | str (s : RString)
  | arr (items : List Json)
  | other

/-- The members of a component hash, in order. -/
abbrev Members := List (String × FieldValue)

/-- What building and transporting a signature raises. -/
inductive CompositeExn where
  /-- `KeyError`: a member that is missing. -/
  | keyNotFound (key : String)
  /-- `TypeError`: a value of the wrong class. -/
  | noImplicitConversion (target : String)
  /-- `EncodingError`: a name that is not text. -/
  | invalidEncoding
  /-- `RangeError` or `FloatDomainError`: a number no 64-bit integer holds. -/
  | numberOutOfRange
  /-- `ArgumentError`: a binary argument over the size cap. -/
  | inputTooLarge (size : Nat)
  /-- `ArgumentError`: an array element that is no byte. -/
  | byteOutOfRange (i : Int)
  /-- `NoMethodError`: a value without the method. -/
  | undefinedMethod (method : String)
  /-- `JSON::GeneratorError`: a string without text. -/
  | ungeneratable
  /-- `JSON::ParserError`: text that is not a document. -/
  | malformedJson (text : String)
  /-- `ArgumentError`: no array of components, or an empty one. -/
  | noComponents
  /-- `Confium::Error`: an instance that remembers nothing to write. -/
  | notBuiltFromComponents
  deriving DecidableEq

/-- `MAX_INPUT_SIZE`. -/
def maxInputSize : Nat := 2 ^ 20

/-- `enforce_size`. -/
def enforceSize (len : Nat) : Except CompositeExn Unit :=
  if maxInputSize < len then .error (.inputTooLarge len) else .ok ()

/-- `i64::try_convert`: integers that fit, and floats by truncation. -/
def toI64 : Json → Except CompositeExn Int
  | .int i => if -2 ^ 63 ≤ i ∧ i < 2 ^ 63 then .ok i else .error .numberOutOfRange
  | .float (.finite q) =>
    if -2 ^ 63 ≤ q.num.tdiv q.den ∧ q.num.tdiv q.den < 2 ^ 63 then .ok (q.num.tdiv q.den)
    else .error .numberOutOfRange
  | .float _ => .error .numberOutOfRange
  | _ => .error (.noImplicitConversion "Integer")

/-- One element of a byte array. -/
def toByte (i : Int) : Except CompositeExn UInt8 :=
  if 0 ≤ i ∧ i ≤ 255 then .ok (UInt8.ofNat i.toNat) else .error (.byteOutOfRange i)

/-- `bytes_from_value`. -/
def bytesFromValue : FieldValue → Except CompositeExn Bytes
  | .str s => do
    enforceSize s.bytes.length
    return s.bytes
  | .arr items => do
    -- The whole array is converted before its size is looked at.
    let ints ← items.mapM toI64
    enforceSize ints.length
    ints.mapM toByte
  | .other => .error (.noImplicitConversion "Array")

/-- `String::try_convert` on a string. One that does not transcode is taken as
    it stands, if it happens to be UTF-8. -/
def toRustString (transcoder : Transcoder) (s : RString) : Option String :=
  match s.encoding with
  | .other name =>
    match transcoder name s.bytes with
    | some t => some t
    | none => decodeUtf8 s.bytes
  | _ => decodeUtf8 s.bytes

/-- `String::try_convert`. -/
def stringFromValue (transcoder : Transcoder) : FieldValue → Except CompositeExn String
  | .str s =>
    match toRustString transcoder s with
    | some t => .ok t
    | none => .error .invalidEncoding
  | _ => .error (.noImplicitConversion "String")

/-- `h.fetch(key)`. -/
def fetchValue (h : Members) (key : String) : Except CompositeExn FieldValue :=
  match h.lookup key with
  | none => .error (.keyNotFound key)
  | some v => .ok v

/-- A component on the native side. -/
@[ext] structure ComponentSignature where
  algorithm : String
  publicKey : Bytes
  signature : Bytes
  deriving DecidableEq

/-- One round of the loop of `parse_components`. -/
def parseComponent (transcoder : Transcoder) (h : Members) :
    Except CompositeExn ComponentSignature := do
  let algorithm ← stringFromValue transcoder (← fetchValue h "algorithm")
  -- Both members are fetched before either is converted.
  let publicKey ← fetchValue h "public_key"
  let signature ← fetchValue h "signature"
  let publicKeyBytes ← bytesFromValue publicKey
  let signatureBytes ← bytesFromValue signature
  return ⟨algorithm, publicKeyBytes, signatureBytes⟩

theorem fetchValue_eq_ok_iff (h : Members) (key : String) (v : FieldValue) :
    fetchValue h key = .ok v ↔ h.lookup key = some v := by
  rw [fetchValue]
  cases h.lookup key with
  | none => simp only [reduceCtorEq]
  | some w => simp only [Except.ok.injEq, Option.some.injEq]

/-- The hashes that make a component, and which: all three members are there,
    the name is text and the other two are bytes. -/
theorem parseComponent_eq_ok_iff (transcoder : Transcoder) (h : Members)
    (c : ComponentSignature) :
    parseComponent transcoder h = .ok c ↔ ∃ algorithm publicKey signature,
      h.lookup "algorithm" = some algorithm ∧ h.lookup "public_key" = some publicKey ∧
      h.lookup "signature" = some signature ∧
      stringFromValue transcoder algorithm = .ok c.algorithm ∧
      bytesFromValue publicKey = .ok c.publicKey ∧
      bytesFromValue signature = .ok c.signature := by
  rcases c with ⟨name, pkBytes, sigBytes⟩
  simp only [parseComponent, bind_eq_ok_iff, fetchValue_eq_ok_iff, pure, Except.pure,
    Except.ok.injEq, ComponentSignature.mk.injEq]
  constructor
  · rintro ⟨algorithm, ha, _, hname, publicKey, hp, signature, hs, _, hpk, _, hsig, rfl, rfl, rfl⟩
    exact ⟨algorithm, publicKey, signature, ha, hp, hs, hname, hpk, hsig⟩
  · rintro ⟨algorithm, publicKey, signature, ha, hp, hs, hname, hpk, hsig⟩
    exact ⟨algorithm, ha, _, hname, publicKey, hp, signature, hs, _, hpk, _, hsig, rfl, rfl, rfl⟩

/-- `parse_components`. -/
def parseComponents (transcoder : Transcoder) (components : List Members) :
    Except CompositeExn (List ComponentSignature) :=
  components.mapM (parseComponent transcoder)

/-- An instance: what the native side holds, the component hashes it was built
    from, and the text it was read from. -/
structure Signature where
  inner : List ComponentSignature
  components : Option (List Members)
  componentsJson : Option Text

/-- `BINARY_FIELDS`. -/
def binaryFields : List String := ["public_key", "signature"]

/-- A parsed value as a member of a component hash. -/
def FieldValue.ofJson : Json → FieldValue
  | .str s => .str (RString.ofString s)
  | .arr items => .arr items
  | _ => .other

namespace Signature

/-- `Signature.new(components)`. -/
def new (transcoder : Transcoder) (components : List Members) : Except CompositeExn Signature := do
  let inner ← parseComponents transcoder components
  return ⟨inner, some components, none⟩

/-- The block of `transform_values`: `value.encoding` is asked of every value,
    and the binary ones become hexadecimal, which is a US-ASCII string. -/
def wireValue : FieldValue → Except CompositeExn RString
  | .str s =>
    .ok (if s.encoding = .ascii8bit then ⟨utf8 (unpackHex s.bytes), .usAscii⟩ else s)
  | .arr _ => .error (.undefinedMethod "encoding")
  | .other => .error (.undefinedMethod "encoding")

/-- What `JSON.generate` makes of a string. -/
def textOf (transcoder : Transcoder) (s : RString) : Except CompositeExn Json :=
  match s.encode transcoder with
  | some t => .ok (.str t)
  | none => .error .ungeneratable

/-- The same thing done to every value of a hash. -/
def transformValues {α β ε : Type} (f : α → Except ε β) (h : List (String × α)) :
    Except ε (List (String × β)) :=
  h.mapM (fun entry => do
    let v ← f entry.2
    return (entry.1, v))

/-- `Signature.components_to_json`. -/
def componentsToJson (codec : JsonCodec) (transcoder : Transcoder) (components : List Members) :
    Except CompositeExn Text := do
  -- Every value is asked for its encoding before anything is generated.
  let transformed ← components.mapM (transformValues wireValue)
  let objects ← transformed.mapM (transformValues (textOf transcoder))
  return codec.generate (.arr (objects.map .obj))

/-- `to_json`. -/
def toJson (codec : JsonCodec) (transcoder : Transcoder) (sig : Signature) :
    Except CompositeExn Text :=
  match sig.componentsJson, sig.components with
  -- The text an instance was read from is written back untouched.
  | some cached, _ => .ok cached
  | none, some components => componentsToJson codec transcoder components
  | none, none => .error .notBuiltFromComponents

/-- `component.fetch(field)` on a parsed value. -/
def fetchJson (component : Json) (key : String) : Except CompositeExn Json :=
  match component with
  | .obj fields =>
    match Json.field? fields key with
    | none => .error (.keyNotFound key)
    | some v => .ok v
  | .arr _ => .error (.noImplicitConversion "Integer")
  | _ => .error (.undefinedMethod "fetch")

/-- A member as `decode_binary_fields` leaves it: a binary one is unpacked if it
    is a string. -/
def decodeMember (key : String) (v : Json) : FieldValue :=
  match v with
  | .str s =>
    if key ∈ binaryFields then .str (RString.binary (packHex s)) else .str (RString.ofString s)
  | v => FieldValue.ofJson v

/-- The entries of a parsed object. -/
def entriesOf : Json → Fields
  | .obj fields => fields
  | _ => []

/-- `decode_binary_fields`. Both binary members have to be there, so what is
    decoded is an object. -/
def decodeBinaryFields (component : Json) : Except CompositeExn Members := do
  let _ ← fetchJson component "public_key"
  let _ ← fetchJson component "signature"
  return (entriesOf component).map (fun entry => (entry.1, decodeMember entry.1 entry.2))

/-- The components of a document, an array or an envelope around one. -/
def componentsOf (data : Json) : Except CompositeExn (List Json) :=
  match data with
  | .arr (c :: rest) => .ok (c :: rest)
  | .obj fields =>
    match Json.field? fields "components" with
    | some (.arr (c :: rest)) => .ok (c :: rest)
    | _ => .error .noComponents
  | _ => .error .noComponents

/-- A parsed component as it is remembered, with nothing unpacked. -/
def remembered (component : Json) : Members :=
  (entriesOf component).map (fun entry => (entry.1, FieldValue.ofJson entry.2))

/-- `Signature.from_json`, once the text is parsed. -/
def ofDocument (transcoder : Transcoder) (json : Text) (data : Json) :
    Except CompositeExn Signature := do
  let components ← componentsOf data
  let decoded ← components.mapM decodeBinaryFields
  let sig ← new transcoder decoded
  -- What `new` remembered is replaced by the parsed components themselves.
  return ⟨sig.inner, some (components.map remembered), some json⟩

/-- `Signature.from_json(json)`. -/
def fromJson (codec : JsonCodec) (transcoder : Transcoder) (json : Text) :
    Except CompositeExn Signature :=
  match codec.parse json with
  | .error text => .error (.malformedJson text)
  | .ok data => ofDocument transcoder json data

/-- What one component is on the wire. -/
def sendComponent (transcoder : Transcoder) (h : Members) : Except CompositeExn Fields := do
  let transformed ← transformValues wireValue h
  transformValues (textOf transcoder) transformed

/-- Reading one component off the wire. -/
def receiveComponent (transcoder : Transcoder) (component : Json) :
    Except CompositeExn ComponentSignature := do
  let decoded ← decodeBinaryFields component
  parseComponent transcoder decoded

/-- Only an object has members to fetch. -/
theorem fetchJson_eq_ok_iff (component : Json) (key : String) (v : Json) :
    fetchJson component key = .ok v ↔
      ∃ fields, component = .obj fields ∧ Json.field? fields key = some v := by
  cases component with
  | obj fields =>
      simp only [fetchJson, Json.obj.injEq, exists_eq_left']
      cases Json.field? fields key with
      | none => simp only [reduceCtorEq]
      | some w => simp only [Except.ok.injEq, Option.some.injEq]
  | _ => simp only [fetchJson, reduceCtorEq, false_and, exists_false]

theorem new_eq_ok_iff (transcoder : Transcoder) (components : List Members) (sig : Signature) :
    new transcoder components = .ok sig ↔
      components.mapM (parseComponent transcoder) = .ok sig.inner ∧
      sig.components = some components ∧ sig.componentsJson = none := by
  rcases sig with ⟨inner, remembered, cached⟩
  simp only [new, parseComponents, bind_eq_ok_iff, pure, Except.pure, Except.ok.injEq, mk.injEq]
  constructor
  · rintro ⟨inner', h, rfl, rfl, rfl⟩
    exact ⟨h, rfl, rfl⟩
  · rintro ⟨h, rfl, rfl⟩
    exact ⟨inner, h, rfl, rfl, rfl⟩

/-- The two passes of writing amount to sending every component. -/
theorem componentsToJson_eq_ok_iff (codec : JsonCodec) (transcoder : Transcoder)
    (components : List Members) (text : Text) :
    componentsToJson codec transcoder components = .ok text ↔ ∃ objects,
      components.mapM (sendComponent transcoder) = .ok objects ∧
      text = codec.generate (.arr (objects.map .obj)) := by
  simp only [componentsToJson, bind_eq_ok_iff, pure, Except.pure, Except.ok.injEq]
  constructor
  · rintro ⟨transformed, ht, objects, ho, rfl⟩
    exact ⟨objects, (mapM_mapM_eq_ok_iff _ _ _ _).mp ⟨transformed, ht, ho⟩, rfl⟩
  · rintro ⟨objects, h, rfl⟩
    rcases (mapM_mapM_eq_ok_iff _ _ _ _).mpr h with ⟨transformed, ht, ho⟩
    exact ⟨transformed, ht, objects, ho, rfl⟩

/-- A document is read when its components are, each by itself. -/
theorem ofDocument_eq_ok_iff (transcoder : Transcoder) (json : Text) (data : Json)
    (sig : Signature) :
    ofDocument transcoder json data = .ok sig ↔ ∃ components,
      componentsOf data = .ok components ∧
      components.mapM (receiveComponent transcoder) = .ok sig.inner ∧
      sig.components = some (components.map remembered) ∧ sig.componentsJson = some json := by
  rcases sig with ⟨inner, comps, cached⟩
  simp only [ofDocument, bind_eq_ok_iff, new_eq_ok_iff, pure, Except.pure, Except.ok.injEq,
    mk.injEq]
  constructor
  · rintro ⟨components, hc, decoded, hd, sig, ⟨hs, _, _⟩, rfl, rfl, rfl⟩
    exact ⟨components, hc, (mapM_mapM_eq_ok_iff _ _ _ _).mp ⟨decoded, hd, hs⟩, rfl, rfl⟩
  · rintro ⟨components, hc, h, rfl, rfl⟩
    rcases (mapM_mapM_eq_ok_iff _ _ _ _).mpr h with ⟨decoded, hd, hs⟩
    exact ⟨components, hc, decoded, hd, ⟨inner, some decoded, none⟩, ⟨hs, rfl, rfl⟩, rfl, rfl, rfl⟩

end Signature

end Composite

end Confium
