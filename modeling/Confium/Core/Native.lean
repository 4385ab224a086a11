import Confium.Core.Composite

/-!
# Arguments of the Native Extension

How a native entry point gets at what it was called with, and what it raises
when it cannot. Binary arguments go through `bytes_from_value`, which takes a
String of any encoding or an Array of integers and enforces the size cap; text
goes through the conversion to a Rust string, which enforces nothing. Fixed-size
arguments are checked for their length afterwards, by each entry point on its
own and in its own words.

An argument is any Ruby object, and what is converted here is told apart: the
objects that have bytes, text, elements, entries or a number in them, and the
rest. A Hash is read by its String keys, compared by their bytes.

What an entry point raises is of a few kinds. The conversions raise what Ruby
core raises for them, unless the entry point puts an `ArgumentError` in its
place. Arguments of the wrong shape are an `ArgumentError`, and a failure
upstream comes back as a `RuntimeError`, an `IOError` or one of the typed errors
under `Confium`, with details. A panic upstream comes back as `fatal`, the one
class among these that is no `StandardError`.

## Main definitions

* `NativeError`, `NativeError.className`: What an entry point raises.
* `parseError`, `indexError`, `cryptoError`, `thresholdError`: The typed errors.
* `bytesArg`, `textArg`: The bytes and the text of a value.
* `Arg`, `HashKey`: An argument.
* `textInput`, `textKey`: Text as an argument and as a key.
* `Arg.bytes`, `Arg.text`, `Arg.items`, `Arg.entries`, `Arg.unsigned`: Converting
  an argument.
* `signerArgs`: A private key and a message.
* `Digest`, `digestArg`: Thirty-two bytes.

## Theorems

* `unsigned_int`, `unsigned_out_of_range`: Which integers fit.
* `bytesArg_eq_ok_iff`: Which arguments have bytes.
* `digestArg_eq_ok_iff`: Which have thirty-two.
-/

namespace Confium

open Ruby Composite

/-- `e.class.name` of what a conversion raises. -/
def Composite.CompositeExn.className : CompositeExn → String
  | .keyNotFound _ => "KeyError"
  | .noImplicitConversion _ => "TypeError"
  | .invalidEncoding => "EncodingError"
  | .numberOutOfRange => "RangeError"
  | .inputTooLarge _ => "ArgumentError"
  | .byteOutOfRange _ => "ArgumentError"
  | .undefinedMethod _ => "NoMethodError"
  | .ungeneratable => "JSON::GeneratorError"
  | .malformedJson _ => "JSON::ParserError"
  | .noComponents => "ArgumentError"
  | .notBuiltFromComponents => "Confium::Error"

/-- A value in the details of a typed error. -/
inductive Detail where
  | text (s : String)
  | count (n : Nat)
  deriving DecidableEq

/-- What a native entry point raises. -/
inductive NativeError where
  /-- Raised while an argument was converted. -/
  | conversion (e : CompositeExn)
  /-- `ArgumentError`: `arg_error`. -/
  | argument (message : String)
  /-- `ArgumentError` in place of another exception, its text behind a label. -/
  | rewrapped (label : String) (cause : NativeError)
  /-- `RuntimeError`: `runtime`. -/
  | runtime (message : String)
  /-- `IOError`: `io_error`. -/
  | io (message : String)
  /-- A typed error of `Confium`: `confium_error`. -/
  | typed (name message : String) (details : List (String × Detail))
  /-- `fatal`: a panic, which the bindings catch and raise. -/
  | fatal (text : String)
  deriving DecidableEq

/-- `e.class.name`. -/
def NativeError.className : NativeError → String
  | .conversion e => e.className
  | .argument _ => "ArgumentError"
  | .rewrapped _ _ => "ArgumentError"
  | .runtime _ => "RuntimeError"
  | .io _ => "IOError"
  | .typed name _ _ => "Confium::" ++ name
  | .fatal _ => "fatal"

/-- A detail that is only there when it has a value. -/
def optionalDetail (key : String) (value : Option Nat) : List (String × Detail) :=
  match value with
  | some n => [(key, .count n)]
  | none => []

/-- `parse_error`. -/
def parseError (operation format : String) (offset : Option Nat) (message : String) :
    NativeError :=
  .typed "ParseError" message
    ([("operation", .text operation), ("component", .text "Confium"), ("format", .text format)]
      ++ optionalDetail "offset" offset)

/-- `index_error`. -/
def indexError (operation : String) (index : Option Nat) (message : String) : NativeError :=
  .typed "IndexError" message
    ([("operation", .text operation), ("component", .text "Confium")]
      ++ optionalDetail "index" index)

/-- `crypto_error`. -/
def cryptoError (operation primitive message : String) : NativeError :=
  .typed "CryptoError" message [("operation", .text operation), ("primitive", .text primitive)]

/-- `threshold_error`. -/
def thresholdError (operation : String) (supplied needed : Nat) (message : String) : NativeError :=
  .typed "ThresholdError" message
    [("operation", .text operation), ("have_count", .count supplied), ("need_count", .count needed)]

/-- `bytes_from_value` of an argument. -/
def bytesArg (v : FieldValue) : Except NativeError Bytes :=
  (bytesFromValue v).mapError .conversion

/-- `String::try_convert` of an argument. -/
def textArg (transcoder : Transcoder) (v : FieldValue) : Except NativeError String :=
  (stringFromValue transcoder v).mapError .conversion

/-- A key of a Hash. -/
inductive HashKey where
  | str (s : RString)
  | sym (name : String)
  | other

/-- What an entry point is called with. -/
inductive Arg where
  | nil
  | int (i : Int)
  | float (x : Double)
  | str (s : RString)
  | arr (items : List Arg)
  | hash (entries : List (HashKey × Arg))
  /-- An object with a `call` of three arguments, by what that raises or whether
      what it returns is truthy. -/
  | callable (call : Bytes → Bytes → Bytes → Except String Bool)
  | other

/-- The entries of a Hash, in order. -/
abbrev Entries := List (HashKey × Arg)

namespace Arg

/-- An element of a byte array. What is no number fails to convert whatever it
    is. -/
def number : Arg → Json
  | .int i => .int i
  | .float x => .float x
  | _ => .null

/-- An argument as `bytes_from_value` tells them apart. -/
def field : Arg → FieldValue
  | .str s => .str s
  | .arr items => .arr (items.map number)
  | _ => .other

/-- `bytes_from_value`. -/
def bytes (a : Arg) : Except NativeError Bytes := bytesArg a.field

/-- `String::try_convert`. -/
def text (transcoder : Transcoder) (a : Arg) : Except NativeError String :=
  textArg transcoder a.field

/-- `RArray::try_convert`. -/
def items : Arg → Except NativeError (List Arg)
  | .arr items => .ok items
  | _ => .error (.conversion (.noImplicitConversion "Array"))

/-- `RHash::try_convert`. -/
def entries : Arg → Except NativeError Entries
  | .hash entries => .ok entries
  | _ => .error (.conversion (.noImplicitConversion "Hash"))

/-- `to_int`: integers, and floats by truncation. -/
def integer : Arg → Except NativeError Int
  | .int i => .ok i
  | .float (.finite q) => .ok (q.num.tdiv q.den)
  | .float _ => .error (.conversion .numberOutOfRange)
  | _ => .error (.conversion (.noImplicitConversion "Integer"))

/-- `try_convert` to an unsigned integer of so many bits. -/
def unsigned (bits : Nat) (a : Arg) : Except NativeError Nat := do
  let i ← a.integer
  -- Out of range is a `RangeError`, negative or too large.
  if 0 ≤ i ∧ i < 2 ^ bits then return i.toNat else .error (.conversion .numberOutOfRange)

end Arg

/-- A String as Ruby code writes it, and as a Rust string is returned. -/
def textInput (s : String) : Arg := .str (RString.ofString s)

/-- A String key. -/
def textKey (s : String) : HashKey := .str (RString.ofString s)

/-- Whether a key is the given literal. A literal of the extension is ASCII, and
    with such a String any other of the same bytes is `eql?`, whatever its encoding
    is tagged, as long as that is an ASCII superset. -/
def HashKey.names (k : HashKey) (key : String) : Bool :=
  match k with
  | .str s => decide (s.bytes = utf8 key)
  | .sym _ => false
  | .other => false

/-- `h.get(key)`. -/
def Entries.get? (h : Entries) (key : String) : Option Arg :=
  -- A Hash never repeats a key, so the first is the only one.
  (h.find? (fun entry => entry.1.names key)).map Prod.snd

/-- `h.fetch(key)`. -/
def Entries.fetch (h : Entries) (key : String) : Except NativeError Arg :=
  match h.get? key with
  | none => .error (.conversion (.keyNotFound key))
  | some a => .ok a

/-- `map_err` to an `ArgumentError`. -/
def rewrap {α : Type} (label : String) (x : Except NativeError α) : Except NativeError α :=
  x.mapError (.rewrapped label)

/-- `map_err` that drops what was raised. -/
def orArgumentError {α : Type} (message : String) (x : Except NativeError α) :
    Except NativeError α :=
  x.mapError (fun _ => .argument message)

/-- `enforce_size`. -/
def sizeArg (len : Nat) : Except NativeError Unit := (enforceSize len).mapError .conversion

/-- A length that has to be thirty-two. -/
def lengthArg (label : String) (bytes : Bytes) : Except NativeError Unit :=
  if bytes.length = 32 then .ok () else .error (.argument (label ++ toString bytes.length))

/-- A private key and a message. Both are converted before the length of the key
    is looked at. -/
def signerArgs (label : String) (privateKey message : Arg) :
    Except NativeError (Bytes × Bytes) := do
  let key ← privateKey.bytes
  let msg ← message.bytes
  lengthArg label key
  return (key, msg)

/-- A SHA-256 digest: `[u8; 32]`. -/
@[ext] structure Digest where
  bytes : Bytes
  length_bytes : bytes.length = 32
  deriving DecidableEq

/-- The bytes of an argument that has to be a digest. -/
def digestArg (name : String) (v : FieldValue) : Except NativeError Digest := do
  let bytes ← bytesArg v
  if h : bytes.length = 32 then return ⟨bytes, h⟩
  else .error (.argument (name ++ " must be exactly 32 bytes, got " ++ toString bytes.length))

/-- An integer that fits is converted to itself. -/
theorem unsigned_int (bits n : Nat) (h : n < 2 ^ bits) : (Arg.int n).unsigned bits = .ok n := by
  have hlt : (n : Int) < 2 ^ bits := by exact_mod_cast h
  simp only [Arg.unsigned, Arg.integer, bind, Except.bind]
  rw [if_pos ⟨Int.natCast_nonneg n, hlt⟩, Int.toNat_natCast]
  rfl

/-- Any other is refused. -/
theorem unsigned_out_of_range (bits : Nat) (i : Int) (h : i < 0 ∨ 2 ^ bits ≤ i) :
    (Arg.int i).unsigned bits = .error (.conversion .numberOutOfRange) := by
  simp only [Arg.unsigned, Arg.integer, bind, Except.bind]
  refine if_neg (fun hword => ?_)
  rcases h with h | h
  · exact absurd hword.1 (Int.not_le.mpr h)
  · exact absurd hword.2 (Int.not_lt.mpr h)

theorem mapError_eq_ok_iff {ε ε' α : Type} (x : Except ε α) (f : ε → ε') (a : α) :
    x.mapError f = .ok a ↔ x = .ok a := by
  cases x with
  | error e => simp only [Except.mapError, reduceCtorEq]
  | ok b => simp only [Except.mapError, Except.ok.injEq]

/-- An argument has the bytes its conversion gives. -/
theorem bytesArg_eq_ok_iff (v : FieldValue) (bytes : Bytes) :
    bytesArg v = .ok bytes ↔ bytesFromValue v = .ok bytes :=
  mapError_eq_ok_iff _ _ _

/-- An argument is a digest when its bytes are those of one. -/
theorem digestArg_eq_ok_iff (name : String) (v : FieldValue) (d : Digest) :
    digestArg name v = .ok d ↔ bytesFromValue v = .ok d.bytes := by
  rw [digestArg, bind_eq_ok_iff]
  constructor
  · rintro ⟨bytes, hbytes, h⟩
    by_cases hlen : bytes.length = 32
    · rw [dif_pos hlen] at h
      rw [← Except.ok.inj h]
      exact (bytesArg_eq_ok_iff v bytes).mp hbytes
    · rw [dif_neg hlen] at h
      exact absurd h (by simp only [reduceCtorEq, not_false_eq_true])
  · intro h
    refine ⟨d.bytes, (bytesArg_eq_ok_iff v d.bytes).mpr h, ?_⟩
    rw [dif_pos d.length_bytes]
    rfl

end Confium
