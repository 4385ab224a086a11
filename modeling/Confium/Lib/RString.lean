import Confium.Lib.Hex

/-!
# Strings with an Encoding

A string of the language is bytes with a tag that says how to read them. Most
operations look only at the bytes; the ones that turn a string into text look at
the tag.

Three tags matter here by name. UTF-8 and US-ASCII strings are their own text
when their bytes are well formed. ASCII-8BIT strings are bytes with no text at
all, beyond the ASCII ones. Every other tag is read through the language's
transcoder, which is a parameter: it is given the name of the encoding and the
bytes, and it raises where they do not convert.

A string can also be made a Symbol. Symbols of the same text are the same, and so
ASCII text is one Symbol in whatever encoding it was written that has ASCII in
it; bytes that are no text in their encoding name no Symbol at all.

## Main definitions

* `Encoding`, `RString`: A string and its tag.
* `decodeUtf8`: The text of well-formed bytes.
* `Transcoder`: Conversion to UTF-8 from an encoding by name.
* `RString.encode`: `s.encode(Encoding::UTF_8)`.
* `Encodings`, `RSymbol`, `RString.toSym?`: Symbols, and the one a string names.

## Theorems

* `decodeUtf8_eq_some_iff`: Bytes have the text they are the encoding of.
* `utf8_injective`: Different texts have different bytes.
* `isAscii_utf8_unpackHex`: Hexadecimal text is ASCII.
-/

namespace Ruby

/-- The tag of a string. -/
inductive Encoding where
  | ascii8bit
  | utf8
  | usAscii
  | other (name : String)
  deriving DecidableEq

/-- A string: bytes and a tag. -/
structure RString where
  bytes : Bytes
  encoding : Encoding
  deriving DecidableEq

/-- The text of well-formed bytes. -/
def decodeUtf8 (bytes : Bytes) : Option String := String.fromUTF8? bytes.toByteArray

/-- Conversion to UTF-8, from an encoding by name, `none` where it raises. -/
abbrev Transcoder := String → Bytes → Option String

/-- Whether every byte is an ASCII one. -/
def isAscii (bytes : Bytes) : Bool := bytes.all (fun b => b < 128)

namespace RString

/-- A string literal. -/
def ofString (s : String) : RString := ⟨utf8 s, .utf8⟩

/-- A binary string. -/
def binary (bytes : Bytes) : RString := ⟨bytes, .ascii8bit⟩

/-- `s.encode(Encoding::UTF_8)`, `none` where it raises. -/
def encode (transcoder : Transcoder) (s : RString) : Option String :=
  match s.encoding with
  | .utf8 => decodeUtf8 s.bytes
  | .usAscii => if isAscii s.bytes then decodeUtf8 s.bytes else none
  | .ascii8bit => if isAscii s.bytes then decodeUtf8 s.bytes else none
  | .other name => transcoder name s.bytes

end RString

/-- What is known of the other encodings: whether ASCII text is written in them
    as it is, and which bytes are well formed. -/
structure Encodings where
  asciiCompatible : String → Bool
  valid : String → Bytes → Bool

/-- No other encodings are known. -/
def Encodings.none : Encodings := ⟨fun _ => false, fun _ _ => false⟩

/-- A Symbol, by its text, or by its bytes and their tag where it has none. -/
inductive RSymbol where
  | text (s : String)
  | bytes (s : RString)
  deriving DecidableEq

instance : Coe String RSymbol := ⟨RSymbol.text⟩

namespace RString

variable (encodings : Encodings)

/-- The text a Symbol of this string has. -/
def symText (s : RString) : Option String :=
  match s.encoding with
  | .utf8 => decodeUtf8 s.bytes
  | .usAscii => if isAscii s.bytes then decodeUtf8 s.bytes else none
  | .ascii8bit => if isAscii s.bytes then decodeUtf8 s.bytes else none
  | .other name =>
    if encodings.asciiCompatible name && isAscii s.bytes then decodeUtf8 s.bytes else none

/-- `s.valid_encoding?`. -/
def validEncoding (s : RString) : Bool :=
  match s.encoding with
  | .utf8 => (decodeUtf8 s.bytes).isSome
  | .usAscii => isAscii s.bytes
  | .ascii8bit => true
  | .other name => encodings.valid name s.bytes

/-- `s.to_sym`, `none` where it raises. -/
def toSym? (s : RString) : Option RSymbol :=
  match s.symText encodings with
  | some text => some (.text text)
  | none => if s.validEncoding encodings then some (.bytes s) else none

end RString

theorem toByteArray_utf8 (s : String) : (utf8 s).toByteArray = s.toByteArray := by
  rw [← String.utf8Encode_toList, List.utf8Encode, utf8]

theorem toByteArray_injective : Function.Injective (List.toByteArray) := by
  intro a b h
  have hdata := congrArg (fun x => x.data.toList) h
  simpa only [List.data_toByteArray, List.toList_toArray] using hdata

theorem utf8_injective : Function.Injective utf8 := by
  intro s t h
  rw [← String.toByteArray_inj, ← toByteArray_utf8, ← toByteArray_utf8, h]

/-- Bytes have the text they are the encoding of. -/
theorem decodeUtf8_eq_some_iff (bytes : Bytes) (s : String) :
    decodeUtf8 bytes = some s ↔ utf8 s = bytes := by
  unfold decodeUtf8 String.fromUTF8?
  constructor
  · intro h
    split at h
    · rw [Option.some.injEq] at h
      apply toByteArray_injective
      rw [toByteArray_utf8, ← h]
      rfl
    · exact absurd h (by simp only [reduceCtorEq, not_false_eq_true])
  · intro h
    subst h
    simp only [toByteArray_utf8, dif_pos s.isValidUTF8]
    rfl

/-- Hexadecimal text is ASCII. -/
theorem isAscii_utf8_unpackHex (bytes : Bytes) : isAscii (utf8 (unpackHex bytes)) = true := by
  have hdigit : ∀ n < 16, (String.utf8EncodeChar (Nat.digitChar n)).all (· < 128) = true := by
    decide
  rw [isAscii, List.all_eq_true]
  intro b hb
  rw [utf8, unpackHex, String.toList_ofList] at hb
  rcases List.mem_flatMap.mp hb with ⟨c, hc, hb⟩
  rcases List.mem_flatMap.mp hc with ⟨byte, _, hc⟩
  have hbyte := UInt8.toNat_lt byte
  simp only [hexPair, List.mem_cons, List.not_mem_nil, or_false] at hc
  rcases hc with hc | hc
  · rw [hc] at hb
    exact List.all_eq_true.mp (hdigit _ (by omega)) b hb
  · rw [hc] at hb
    exact List.all_eq_true.mp (hdigit _ (by omega)) b hb

end Ruby
