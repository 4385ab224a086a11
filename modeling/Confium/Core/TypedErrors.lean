import Confium.Lib.Hash
import Confium.Lib.RString

/-!
# Constructing Typed Errors

The initialisers of the error classes under `Confium::Error`. Each of them takes a
message and details, in one of three forms: the details as a Hash after the
message, which is how the native extension constructs them, the details as
keywords, or one Hash with the message among the details. `Coerce.args` brings the
three to one, a message and keywords; the class then takes its own attributes out
of the keywords, and hands them back with what is left as the details of the base
class.

A key of a Hash is a String or a Symbol, and every Hash is symbolised on its way
in, so a String and a Symbol of the same text are one key to these classes.
Making a Symbol can raise, and then nothing is constructed.

## Main definitions

* `Key`, `symbolise`: A key of a Hash, and `transform_keys(&:to_sym)`.
* `Argument`: A positional argument.
* `Coerce.args`: Bringing the forms to one.
* `TypedError`: A constructed error.
* `Error.details`: The initialiser of the base class.
* `ErrorClass`, `ErrorClass.new`: A typed class, and its initialiser.
* `typedErrors`: The nine classes.
-/

namespace Confium

open Ruby

namespace Errors

/-- A key of a Hash. -/
inductive Key where
  | str (s : RString)
  | sym (s : RSymbol)
  deriving DecidableEq

/-- `key.to_sym`, `none` where it raises. -/
def Key.toSym? (encodings : Encodings) : Key → Option RSymbol
  | .str s => s.toSym? encodings
  | .sym s => some s

variable {V : Type} (encodings : Encodings) (null : V)

/-- `h.transform_keys(&:to_sym)`. A key that becomes the same as an earlier one
    overwrites it. -/
def symbolise (h : Hash Key V) : Option (Hash RSymbol V) := do
  let entries ← h.entries.mapM (fun e => do
    let key ← e.1.toSym? encodings
    return (key, e.2))
  return Hash.ofEntries entries

/-- A positional argument: a Hash, or anything else. -/
inductive Argument (V : Type) where
  | value (v : V)
  | hash (h : Hash Key V)

/-- `if message.is_a?(Hash)`: the message is one of the keywords. -/
def Coerce.message (kwargs : Hash RSymbol V) : Argument V → Option (V × Hash RSymbol V)
  | .value message => some (message, kwargs)
  | .hash h => do
    let given ← symbolise encodings h
    let kwargs := given.merge kwargs
    -- `kwargs.delete(:message)` returns the value it takes out.
    return ((kwargs.get? "message").getD null, kwargs.delete "message")

/-- `if details_hash.is_a?(Hash)`: the details go under the keywords. -/
def Coerce.details (kwargs : Hash RSymbol V) : Argument V → Option (Hash RSymbol V)
  | .value _ => some kwargs
  | .hash h => do
    let given ← symbolise encodings h
    return given.merge kwargs

/-- `Coerce.args`. -/
def Coerce.args (message detailsHash : Argument V) (kwargs : Hash RSymbol V) :
    Option (V × Hash RSymbol V) := do
  let (message, kwargs) ← Coerce.message encodings null kwargs message
  let kwargs ← Coerce.details encodings kwargs detailsHash
  return (message, kwargs)

/-- A constructed error. -/
structure TypedError (V : Type) where
  className : String
  message : V
  /-- What the attribute readers of the class return. -/
  attributes : List (String × V)
  details : Hash RSymbol V

/-- A Hash of Symbols, as any Hash is given. -/
def symKeyed (h : Hash RSymbol V) : Hash Key V :=
  ⟨h.entries.map (fun e => (.sym e.1, e.2)), by
    have hkeys : (h.entries.map (fun e => (Key.sym e.1, e.2))).map Prod.fst
        = (h.entries.map Prod.fst).map Key.sym := by
      rw [List.map_map, List.map_map]
      rfl
    rw [hkeys]
    exact h.nodup.map (fun _ _ heq => Key.sym.inj heq)⟩

/-- `Error#initialize`: the details of an error. An empty Hash is as good as
    none. -/
def Error.details (detailsHash : Argument V) (details : Hash Key V) :
    Option (Hash RSymbol V) :=
  match detailsHash with
  | .hash h => if h.entries = [] then symbolise encodings details else symbolise encodings h
  | .value _ => symbolise encodings details

/-- A typed class: its name, and the attributes it takes out of the keywords. -/
structure ErrorClass where
  name : String
  fields : List String
  nodup : fields.Nodup

def CryptoError : ErrorClass := ⟨"Confium::CryptoError", ["primitive"], by decide⟩

def IndexError : ErrorClass := ⟨"Confium::IndexError", ["index", "valid_range"], by decide⟩

def NotFoundError : ErrorClass := ⟨"Confium::NotFoundError", ["kind", "identifier"], by decide⟩

def ParseError : ErrorClass := ⟨"Confium::ParseError", ["format", "offset"], by decide⟩

def PolicyViolationError : ErrorClass :=
  ⟨"Confium::PolicyViolationError", ["policy", "violation"], by decide⟩

def ThresholdError : ErrorClass :=
  ⟨"Confium::ThresholdError", ["have_count", "need_count"], by decide⟩

def UnresolvedSignerError : ErrorClass :=
  ⟨"Confium::UnresolvedSignerError", ["signer_index"], by decide⟩

def ValidationError : ErrorClass :=
  ⟨"Confium::ValidationError", ["param", "expected", "actual"], by decide⟩

def VerificationError : ErrorClass :=
  ⟨"Confium::VerificationError", ["signer_index", "algorithm"], by decide⟩

/-- The typed classes. -/
def typedErrors : List ErrorClass :=
  [CryptoError, IndexError, NotFoundError, ParseError, PolicyViolationError, ThresholdError,
    UnresolvedSignerError, ValidationError, VerificationError]

/-- `kwargs.delete` of one attribute after another: their values, and what is
    left. -/
def takeFields (kwargs : Hash RSymbol V) : List String → List (String × V) × Hash RSymbol V
  | [] => ([], kwargs)
  | field :: rest =>
    let taken := takeFields (kwargs.delete field) rest
    ((field, (kwargs.get? field).getD null) :: taken.1, taken.2)

/-- The details a class hands to the base class: its attributes, and the rest of
    the keywords after them. -/
def detailsOf (attributes : List (String × V)) (kwargs : Hash RSymbol V) : Hash RSymbol V :=
  (Hash.ofEntries (attributes.map (fun a => ((a.1 : RSymbol), a.2)))).merge kwargs

/-- The initialiser of a typed class. -/
def ErrorClass.new (cls : ErrorClass) (message detailsHash : Argument V)
    (kwargs : Hash RSymbol V) : Option (TypedError V) := do
  let (message, kwargs) ← Coerce.args encodings null message detailsHash kwargs
  let (attributes, kwargs) := takeFields null kwargs cls.fields
  let details ← Error.details encodings (.value null) (symKeyed (detailsOf attributes kwargs))
  return ⟨cls.name, message, attributes, details⟩

end Errors

end Confium
