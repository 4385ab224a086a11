import Confium.Lib.Json

/-!
# Reports as Text

Two result objects of the native extension give their details as text, and build
that text by hand: `per_signer_json` of a CMS verification, and `checks_json` of a
path validation. Both format one entry at a time and join the entries with commas
between brackets.

An entry of `per_signer_json` is an object written out member by member. Its error
text is the only part that needs escaping, and that is left to
`serde_json::to_string`, a parameter here, with `null` where it fails.

An entry of `checks_json` is the `Debug` output of a check. The type of checks is
upstream's, so it and its `Debug` are parameters.

## Main definitions

* `SignerVerification`, `CmsVerificationResult`: The verdicts on the signers.
* `perSignerJson`: Those verdicts as text.
* `PathResult`: The checks of a path validation.
* `checksJson`: Those checks as text.
-/

namespace Confium

open Ruby

namespace Reports

/-- The verdict on one signer. -/
structure SignerVerification where
  signerIndex : Nat
  verified : Bool
  error : Option String
  deriving DecidableEq

/-- `confium_pki::cms::CmsVerificationResult`. -/
structure CmsVerificationResult where
  allVerified : Bool
  perSigner : List SignerVerification

/-- Entries with commas between them, in brackets. -/
def bracketed (entries : List Text) : Text := '[' :: [','].intercalate entries ++ [']']

/-- What stands before the index of a signer. -/
def indexKey : Text := "\x7b\"signer_index\":".toList

/-- What stands between the index and the verdict. -/
def verifiedKey : Text := ",\"verified\":".toList

/-- What stands between the verdict and the error. -/
def errorKey : Text := ",\"error\":".toList

/-- A Boolean as it is displayed. -/
def displayBool (b : Bool) : Text := if b then "true".toList else "false".toList

/-- The `error` member and the comma in front of it, or nothing. -/
def errorMember (toJson : String → Option Text) : Option String → Text
  | some e => errorKey ++ (toJson e).getD "null".toList
  | none => []

/-- One signer as an object. -/
def signerEntry (toJson : String → Option Text) (s : SignerVerification) : Text :=
  indexKey ++ Nat.toDigits 10 s.signerIndex ++ verifiedKey ++ displayBool s.verified ++
    errorMember toJson s.error ++ ['}']

/-- `per_signer_json`. -/
def perSignerJson (toJson : String → Option Text) (result : CmsVerificationResult) : Text :=
  bracketed (result.perSigner.map (signerEntry toJson))

/-- `confium_pki::result::VerificationResult`, over the type of its checks. -/
structure PathResult (Check : Type) where
  valid : Bool
  checks : List Check

/-- `checks_json`. -/
def checksJson {Check : Type} (debug : Check → Text) (result : PathResult Check) : Text :=
  bracketed (result.checks.map debug)

end Reports

end Confium
