import Confium.Lib.Run
import Confium.Core.Transparency

/-!
# The Transparency Log

`Confium::Transparency::MerkleTree`, the object a program appends to. The tree
itself is upstream's, a parameter: it takes an entry and says where it put it,
and it answers for its length, its root, its inclusion proofs and its
consistency proofs. What is done here is the checking of arguments, the errors,
and `entries`, which asks for the proof of every sequence number in turn.

Everything a program can ask of one tree is one operation of a machine, whose
state is the upstream tree. Upstream stamps an entry with the time, so appending
is given one. Numbers are converted to a machine word when a method is called, and
what is none raises a `RangeError` before anything else happens.

## Main definitions

* `LogUpstream`: The upstream tree.
* `appendEntry`, `proofAt`, `entries`, `consistencyProof`, `verifyConsistency`: The
  methods.
* `InclusionProof.stepsHash`: The steps of a proof as a program sees them.
* `LogOp`, `logStep`: What a program does with a tree.

## Theorems

* `digestArg_toRString`, `hashArg_toRString`: A digest the program got from
  somewhere is taken as it is.
-/

namespace Confium

open Ruby Composite

namespace Transparency

/-- The upstream tree. -/
structure LogUpstream where
  Tree : Type
  new : Tree
  append : Tree → String → Digest → Nat × Tree
  len : Tree → Nat
  root : Tree → Digest
  /-- Inclusion proofs and entries. -/
  lookup : Tree → UpstreamTree
  consistencyProof : Tree → Nat → Except String (List Digest)
  verifyConsistency : Tree → Digest → Digest → Nat → Nat → List Digest → Except String Unit

/-- A digest among the arguments of `verify_consistency`, which words its
    complaint differently. -/
def hashArg (name : String) (v : FieldValue) : Except NativeError Digest := do
  let bytes ← bytesArg v
  if h : bytes.length = 32 then return ⟨bytes, h⟩
  else .error (.argument (name ++ " must be 32 bytes, got " ++ toString bytes.length))

/-- `verification_error`, without a signer or an algorithm. -/
def verificationError (operation message : String) : NativeError :=
  .typed "VerificationError" message [("operation", .text operation)]

/-- A digest as a program gets it. -/
def Digest.toRString (d : Digest) : FieldValue := .str (RString.binary d.bytes)

/-- The steps of a proof as a program sees them: Hashes by position. -/
def InclusionProof.stepsHash (proof : InclusionProof) : List (Nat × RString × String) :=
  proof.inner.steps.mapIdx (fun i step =>
    (i, RString.binary step.sibling.bytes,
      match step.side with
      | .left => "left"
      | .right => "right"))

section

variable (up : LogUpstream) (sha256 : Bytes → Digest)

/-- `append`. -/
def appendEntry (t : up.Tree) (now : String) (artifactHash : FieldValue) :
    Except NativeError Nat × up.Tree :=
  match digestArg "artifact_hash" artifactHash with
  | .error e => (.error e, t)
  | .ok d => (.ok (up.append t now d).1, (up.append t now d).2)

/-- `u64`, and `usize`. -/
def wordArg (i : Int) : Except NativeError Nat := (Arg.int i).unsigned 64

/-- `inclusion_proof`, by the number a program asks for. -/
def proofAt (t : up.Tree) (seq : Int) : Hashing InclusionProof := do
  let seq ← Eff.ofExcept (wordArg seq)
  inclusionProof sha256 (up.lookup t) seq

/-- The loop of `entries`. -/
def proofsOf (tree : UpstreamTree) : List Nat → Hashing (List InclusionProof)
  | [] => return []
  | seq :: rest => do
    let proof ← inclusionProof sha256 tree seq
    let proofs ← proofsOf tree rest
    return proof :: proofs

/-- `entries`, also `to_a`: the proof of every sequence number. -/
def entries (t : up.Tree) : Hashing (List InclusionProof) :=
  proofsOf sha256 (up.lookup t) (List.range (up.len t))

/-- `consistency_proof`. -/
def consistencyProof (t : up.Tree) (oldSize : Int) : Except NativeError (List Digest) := do
  let oldSize ← wordArg oldSize
  (up.consistencyProof t oldSize).mapError
    (indexError "MerkleTree.consistency_proof" (some oldSize))

/-- `verify_consistency`. -/
def verifyConsistency (t : up.Tree) (oldRoot newRoot : FieldValue) (oldSize newSize : Int)
    (proof : List FieldValue) : Except NativeError Bool := do
  let oldSize ← wordArg oldSize
  let newSize ← wordArg newSize
  let oldRoot ← hashArg "old_root" oldRoot
  let newRoot ← hashArg "new_root" newRoot
  let proof ← proof.mapM (hashArg "proof entries")
  match up.verifyConsistency t oldRoot newRoot oldSize newSize proof with
  | .ok () => .ok true
  | .error text => .error (verificationError "MerkleTree.verify_consistency" text)

/-- What a program does with a tree. -/
inductive LogOp where
  | append (now : String) (artifactHash : FieldValue)
  | length
  | isEmpty
  | root
  | inclusionProof (seq : Int)
  | entries
  | consistencyProof (oldSize : Int)
  | verifyConsistency (oldRoot newRoot : FieldValue) (oldSize newSize : Int)
      (proof : List FieldValue)

/-- What an operation returns. -/
inductive LogReply where
  | number (n : Nat)
  | bool (b : Bool)
  | hash (d : Digest)
  | proof (p : InclusionProof)
  | proofs (ps : List InclusionProof)
  | hashes (ds : List Digest)

/-- One operation. -/
def logStep : Machine.Step up.Tree LogOp (Except NativeError LogReply)
  | t, .append now artifactHash =>
    let appended := appendEntry up t now artifactHash
    (appended.1.map .number, appended.2)
  | t, .length => (.ok (.number (up.len t)), t)
  | t, .isEmpty => (.ok (.bool (up.len t == 0)), t)
  | t, .root => (.ok (.hash (up.root t)), t)
  | t, .inclusionProof seq => ((proofAt up sha256 t seq).result.map .proof, t)
  | t, .entries => ((Transparency.entries up sha256 t).result.map .proofs, t)
  | t, .consistencyProof oldSize => ((Transparency.consistencyProof up t oldSize).map .hashes, t)
  | t, .verifyConsistency oldRoot newRoot oldSize newSize proof =>
    ((Transparency.verifyConsistency up t oldRoot newRoot oldSize newSize proof).map .bool, t)

/-- Where some operations on a new tree lead. -/
def logAfter (ops : List LogOp) : up.Tree := Machine.run (logStep up sha256) up.new ops

end

theorem bytesFromValue_toRString (d : Digest) :
    bytesFromValue (Digest.toRString d) = .ok d.bytes := by
  show (enforceSize d.bytes.length >>= fun _ => Except.ok d.bytes) = .ok d.bytes
  rw [d.length_bytes]
  rfl

/-- A digest that a program got is taken as it is. -/
theorem digestArg_toRString (name : String) (d : Digest) :
    digestArg name (Digest.toRString d) = .ok d :=
  (digestArg_eq_ok_iff name _ d).mpr (bytesFromValue_toRString d)

theorem hashArg_toRString (name : String) (d : Digest) :
    hashArg name (Digest.toRString d) = .ok d := by
  have hbytes : bytesArg (Digest.toRString d) = .ok d.bytes :=
    (bytesArg_eq_ok_iff _ _).mpr (bytesFromValue_toRString d)
  rw [hashArg, hbytes]
  show (if h : d.bytes.length = 32 then _ else _) = _
  rw [dif_pos d.length_bytes]
  rfl

end Transparency

end Confium
