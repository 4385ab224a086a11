import Confium.Lib.Value

/-!
# Exceptions of the Threshold-Signing Layer

Every exception the session, the coordinator, the wire handlers and the share
files raise, with the data each carries. A typed error of the `Confium::Error` family keeps its
structured fields (`have_count` and `need_count`, `param`, `expected` and
`actual`, `kind` and `identifier`), and the ones Ruby core raises on its own keep
what their message is built from.

What the native combine raises is carried by its class and its text. A panic of
it is kept apart, since it is raised as `fatal`, which is no `StandardError`.

`className` is what `e.class.name` reads and what the wire carries under
`error`; `message` is what `e.message` reads. Interpolating a value calls its
`to_s`, and the comparison error describes its operand, so the message takes
both as parameters: they are Ruby's, not this program's.

## Main definitions

* `Exn`: An exception of the threshold-signing layer.
* `Exn.className`: The name of its class.
* `Exn.isStandardError`: Whether a plain `rescue` takes it.
* `Exn.message`: Its message.

## Theorems

* `Exn.isStandardError_eq_false_iff`: Which exceptions are no `StandardError`.
-/

namespace Confium

/-- An exception, over the values `V` a caller may hand in. -/
inductive Exn (V : Type) where
  /-- `ArgumentError`: a scheme `SCHEMES` does not list. -/
  | unknownScheme (scheme : V)
  /-- `ArgumentError`: a count compared with something that is not a number. -/
  | comparison (operand : V)
  /-- `ValidationError`: a signer's second submission of one kind. -/
  | duplicateSubmission (signerId : V)
  /-- `ThresholdError`: aggregation below the threshold. -/
  | thresholdNotMet (haveCount : Nat) (needCount : V)
  /-- `NotFoundError`: an id the registry does not hold. -/
  | unknownSession (sessionId : V)
  /-- `RequestError`: a request without an operation. -/
  | missingOp
  /-- `RequestError`: an operation no handler serves. -/
  | unknownOp (op : V)
  /-- `KeyError`: a request without a field its handler fetches. -/
  | keyNotFound (key : String)
  /-- `TypeError`: a value where Ruby core wants another class. -/
  | noImplicitConversion (operand : V) (target : String)
  /-- `NoMethodError`: a method the receiver's class does not have. -/
  | undefinedMethod (method : String) (receiver : V)
  /-- `JSON::ParserError`: text that is not a document. -/
  | malformedJson (text : String)
  /-- `EOFError`: a connection that was closed where a line was expected. -/
  | endOfFile
  /-- Whatever the native combine raised. -/
  | native (name text : String)
  /-- `fatal`: a panic of the native combine. -/
  | fatal (text : String)
  deriving DecidableEq

namespace Exn

variable {V : Type}

/-- `e.class.name`. -/
def className : Exn V → String
  | .unknownScheme _ => "ArgumentError"
  | .comparison _ => "ArgumentError"
  | .duplicateSubmission _ => "Confium::ValidationError"
  | .thresholdNotMet _ _ => "Confium::ThresholdError"
  | .unknownSession _ => "Confium::NotFoundError"
  | .missingOp => "Confium::TC::NetworkCoordinator::RequestError"
  | .unknownOp _ => "Confium::TC::NetworkCoordinator::RequestError"
  | .keyNotFound _ => "KeyError"
  | .noImplicitConversion _ _ => "TypeError"
  | .undefinedMethod _ _ => "NoMethodError"
  | .malformedJson _ => "JSON::ParserError"
  | .endOfFile => "EOFError"
  | .native name _ => name
  | .fatal _ => "fatal"

/-- Whether `rescue StandardError` takes it. Every class here is one but `fatal`. -/
def isStandardError : Exn V → Bool
  | .fatal _ => false
  | _ => true

theorem isStandardError_eq_false_iff (e : Exn V) :
    e.isStandardError = false ↔ ∃ text, e = .fatal text := by
  cases e with
  | fatal text => exact iff_of_true rfl ⟨text, rfl⟩
  | _ => exact iff_of_false (fun h => nomatch h) (fun ⟨_, h⟩ => nomatch h)

/-- `e.message`, with `toS` the `to_s` a string interpolation calls and
    `describe` how Ruby core names an operand in its own messages. -/
def message (toS describe : V → String) : Exn V → String
  | .unknownScheme scheme => "unknown scheme: " ++ toS scheme ++
      " (known: CMP20-ECDSA-P256, GG18-ECDSA-P256)"
  | .comparison operand => "comparison of Integer with " ++ describe operand ++ " failed"
  | .duplicateSubmission signerId => "duplicate submission from signer " ++ toS signerId
  | .thresholdNotMet _ _ => "Threshold not met"
  | .unknownSession sessionId => "Unknown session: " ++ toS sessionId
  | .missingOp => "missing \"op\""
  | .unknownOp op => "unknown op: " ++ toS op
  | .keyNotFound key => "key not found: \"" ++ key ++ "\""
  | .noImplicitConversion operand target =>
      "no implicit conversion of " ++ describe operand ++ " into " ++ target
  | .undefinedMethod method receiver =>
      "undefined method '" ++ method ++ "' for " ++ describe receiver
  | .malformedJson text => text
  | .endOfFile => "end of file reached"
  | .native _ text => text
  | .fatal text => text

end Exn

end Confium
