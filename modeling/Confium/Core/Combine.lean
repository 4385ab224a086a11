import Confium.Core.Coordinator
import Confium.Core.Threshold

/-!
# The Combine Behind a Session

A session reaches the native extension through `SCHEMES`: each scheme has a
lambda, which calls `Cmp20.sign` or `Gg18.sign` with the collected shares, the
threshold and the message. Here those two are the entry points of the extension
themselves, so that a coordinator can be followed down to the upstream library
and to the audit sink.

A call draws a nonce and reads a clock. Both are in the randomness the call is
given, so the upstream library and what `fire_event` reads depend on it.

The other end is key generation, which makes the shares. What it returns goes
into a share file.

## Main definitions

* `TC.Keygen`, `TC.KeygenUpstream`: Key generation upstream.
* `TC.keygen`: `Cmp20.keygen` and `Gg18.keygen`.
* `TC.combine`: The lambda of a scheme.
* `TC.natives`: The combines as a session calls them.
* `TC.combineLog`, `TC.auditLog`: What calls of a coordinator have the extension
  do.
-/

namespace Confium

open Ruby

namespace TC

/-- The Hash a key generation returns. -/
structure Keygen where
  shares : List Bytes
  publicKey : Bytes

/-- The upstream key generations, by threshold and party count. -/
structure KeygenUpstream where
  cmp20Keygen : Nat → Nat → Except Failure Keygen
  gg18Keygen : Nat → Nat → Except Failure Keygen

/-- The one of a scheme. -/
def KeygenUpstream.keygen (up : KeygenUpstream) : Scheme → Nat → Nat → Except Failure Keygen
  | .cmp20 => up.cmp20Keygen
  | .gg18 => up.gg18Keygen

/-- The upstream signer of a scheme. -/
def ThresholdUpstream.sign (up : ThresholdUpstream) :
    Scheme → List Bytes → Nat → Bytes → Except Failure Bytes
  | .cmp20 => up.cmp20Sign
  | .gg18 => up.gg18Sign

/-- What the key generations read. -/
def keygenArgs (threshold partyCount : Arg) : Except NativeError (Nat × Nat) := do
  let threshold ← threshold.unsigned 32
  let partyCount ← partyCount.unsigned 32
  return (threshold, partyCount)

/-- A key generation, by its upstream routine and its names. -/
def inprocessKeygen (env : AuditEnv) (routine operation algorithm caller : String)
    (generate : Nat → Nat → Except Failure Keygen) (threshold partyCount : Arg) :
    Native Keygen := do
  let (threshold, partyCount) ← Eff.ofExcept (keygenArgs threshold partyCount)
  -- There is no payload, and the party count stands for the shares at hand.
  recorded env routine operation algorithm none (thresholdError caller partyCount threshold)
    (generate threshold partyCount)

/-- `cmp20_keygen`. -/
def cmp20Keygen (env : AuditEnv) (up : KeygenUpstream) (threshold partyCount : Arg) :
    Native Keygen :=
  inprocessKeygen env "cmp20_inprocess::keygen" "tc_cmp20_keygen" "CMP20-ECDSA-P256"
    "Cmp20.keygen" up.cmp20Keygen threshold partyCount

/-- `gg18_keygen`. -/
def gg18Keygen (env : AuditEnv) (up : KeygenUpstream) (threshold partyCount : Arg) :
    Native Keygen :=
  inprocessKeygen env "gg18_inprocess::keygen" "tc_gg18_keygen" "GG18-ECDSA-P256"
    "Gg18.keygen" up.gg18Keygen threshold partyCount

/-- The key generation of a scheme. -/
def keygen (env : AuditEnv) (up : KeygenUpstream) : Scheme → Arg → Arg → Native Keygen
  | .cmp20 => cmp20Keygen env up
  | .gg18 => gg18Keygen env up

/-- A share or a message as it is handed over. -/
def bytesInput (bytes : Bytes) : Arg := .str (RString.binary bytes)

/-- A threshold as it is handed over. What is neither a number nor a String is
    refused whatever it holds. -/
def thresholdInput : Json → Arg
  | .null => .nil
  | .int i => .int i
  | .float x => .float x
  | .str s => textInput s
  | _ => .other

/-- The lambda of a scheme in `SCHEMES`. -/
def combine (env : AuditEnv) (up : ThresholdUpstream) (call : CombineCall Json) : Native Bytes :=
  let shares := .arr (call.shares.map bytesInput)
  let threshold := thresholdInput call.threshold
  let message := bytesInput call.message
  match call.scheme with
  | .cmp20 => cmp20Sign env up shares threshold message
  | .gg18 => gg18Sign env up shares threshold message

variable {ρ : Type} (env : ρ → AuditEnv) (up : ρ → ThresholdUpstream) (text : NativeError → String)

/-- What the extension raised, as a session sees it. -/
def raised : NativeError → Exn Json
  | .fatal message => .fatal message
  | e => .native e.className (text e)

/-- The combines as a session calls them. -/
def natives : Natives Json ρ where
  cmp20Sign shares threshold message r :=
    (combine (env r) (up r) ⟨.cmp20, shares, threshold, message⟩).result.mapError (raised text)
  gg18Sign shares threshold message r :=
    (combine (env r) (up r) ⟨.gg18, shares, threshold, message⟩).result.mapError (raised text)

/-- What one call of a coordinator has the extension do. -/
def combineLog (t : Machine.Transition (Coordinator Json) (CoordinatorOp Json ρ) (Outcome Json)) :
    List NativeEvent :=
  match t.op, t.out.combined with
  | .call _ (.aggregate r), some call => (combine (env r) (up r) call).log
  | _, _ => []

/-- What a list of calls on a new coordinator has it do. -/
def auditLog (ops : List (CoordinatorOp Json ρ)) : List NativeEvent :=
  (Coordinator.history (natives env up text) ops).flatMap (combineLog env up)

end TC

end Confium
