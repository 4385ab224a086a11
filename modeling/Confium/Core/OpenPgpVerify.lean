import Confium.Core.Audit

/-!
# OpenPGP Verification

`Confium::OpenPGP.verify_detached` and `verify`, which come in two builds. By
default they are stubs, and raise whatever they are given. With the `pgp` feature
they go to a vendored librnp, which is a parameter: they take bytes, make a
context, import the caller's keys into it one by one, and verify. A signature
that is not valid is an answer there, and whatever else librnp complains of is a
`ParseError`.

The keys are an optional last argument, an Array of them or a single one.

## Main definitions

* `RnpUpstream`: librnp.
* `splitArgs`, `importKeys`: The arguments, and the keys among them.
* `verifyDetached`, `verify`: The two methods, in whichever build.
-/

namespace Confium

open Ruby

namespace OpenPgp

/-- What librnp fails with. -/
inductive RnpError where
  /-- `ErrorKind::SignatureInvalid`. -/
  | signatureInvalid
  | other (text : String)

/-- librnp, with the text of an error. -/
structure RnpUpstream where
  Context : Type
  newContext : Except String Context
  /-- The context with the keys in it. -/
  importKeys : Context → Bytes → Except String Context
  /-- What `result_to_hash` makes of a result. -/
  Report : Type
  verifyDetached : Context → Bytes → Bytes → Except RnpError Report
  verify : Context → Bytes → Except RnpError Report

/-- `stub_message`. -/
def stubMessage (method : String) : String :=
  "Confium::OpenPGP." ++ method ++ " requires the pgp cargo feature — rebuild the extension " ++
    "with --features pgp (platform gems build default features)"

/-- `split_args`. -/
def splitArgs (args : List Arg) (min : Nat) (method : String) :
    Except NativeError (Arg × Option Arg × List Arg) :=
  if args.length < min ∨ min + 1 < args.length then
    .error (.argument ("Confium::OpenPGP." ++ method ++ ": wrong number of arguments (given "
      ++ toString args.length ++ ", expected " ++ toString min ++ ".." ++ toString (min + 1)
      ++ ")"))
  else
    let keys := match args[min]? with
      | some (.arr keys) => keys
      | some key => [key]
      | none => []
    .ok (args.headD .nil, args[1]?, keys)

variable (up : RnpUpstream)

/-- `ctx`. Making a context parses nothing and computes nothing, so it is no event. -/
def newContext : Native up.Context :=
  Eff.ofExcept (up.newContext.mapError (cryptoError "OpenPGP" "openpgp"))

/-- `import_keys`. -/
def importKeys (context : up.Context) : List Arg → Native up.Context
  | [] => return context
  | key :: keys => do
    let bytes ← Eff.ofExcept key.bytes
    let context ← delegated "Context::import_keys" (parseError "OpenPGP key import" "openpgp" none)
      (up.importKeys context bytes)
    importKeys context keys

/-- `result_to_hash`, or `negative_result` for a signature that is not valid. -/
def answered : Except RnpError up.Report → Except String (Option up.Report)
  | .ok report => .ok (some report)
  | .error .signatureInvalid => .ok none
  | .error (.other text) => .error text

/-- What `verify_detached` reads before it makes a context. -/
def detachedArgs (args : List Arg) : Except NativeError (Bytes × Bytes × List Arg) := do
  let (message, signature, keys) ← splitArgs args 2 "verify_detached"
  let msg ← message.bytes
  match signature with
  | none => .error (.argument "missing signature")
  | some signature => do
    let sig ← signature.bytes
    return (msg, sig, keys)

/-- What `verify` reads before it makes a context. -/
def signedArgs (args : List Arg) : Except NativeError (Bytes × List Arg) := do
  let (signed, _, keys) ← splitArgs args 1 "verify"
  let msg ← signed.bytes
  return (msg, keys)

/-- `verify_detached` with the feature. -/
def rnpVerifyDetached (args : List Arg) : Native (Option up.Report) := do
  let (msg, sig, keys) ← Eff.ofExcept (detachedArgs args)
  let context ← newContext up
  let context ← importKeys up context keys
  delegated "rnp::verify_detached" (parseError "OpenPGP.verify_detached" "openpgp" none)
    (answered up (up.verifyDetached context msg sig))

/-- `verify` with the feature. -/
def rnpVerify (args : List Arg) : Native (Option up.Report) := do
  let (msg, keys) ← Eff.ofExcept (signedArgs args)
  let context ← newContext up
  let context ← importKeys up context keys
  delegated "rnp::verify" (parseError "OpenPGP.verify" "openpgp" none)
    (answered up (up.verify context msg))

/-- `verify_detached`, by the build. -/
def verifyDetached (build : Option RnpUpstream) (args : List Arg) : Native Unit :=
  match build with
  | none => Eff.raise (.runtime (stubMessage "verify_detached"))
  | some up => (rnpVerifyDetached up args).void

/-- `verify`, by the build. -/
def verify (build : Option RnpUpstream) (args : List Arg) : Native Unit :=
  match build with
  | none => Eff.raise (.runtime (stubMessage "verify"))
  | some up => (rnpVerify up args).void

end OpenPgp

end Confium
