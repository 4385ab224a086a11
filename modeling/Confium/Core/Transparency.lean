import Confium.Lib.Effect
import Confium.Core.Native

/-!
# Inclusion Proofs

`MerkleTree#inclusion_proof` and the verification of what it returns. The tree
is upstream's, so it is a parameter: it hands over a list of steps for a
sequence number, and the entry stored there. What is done here is the hashing.
The leaf is the entry's hash run through SHA-256 behind a `0x01`, and is kept
with the proof; verifying starts from it and hashes each sibling in on its side
behind a `0x02`, from the leaf up to the root.

SHA-256 is a parameter, any function to thirty-two bytes. The computations log
every string they feed to it, since what a verified proof is worth is a question
about those strings.

## Main definitions

* `Side`, `InclusionStep`, `UpstreamProof`, `UpstreamTree`: What upstream hands
  over.
* `InclusionProof`: A proof with its leaf.
* `hashLeaf`, `hashInternal`: The two hashes.
* `inclusionProof`: Building a proof.
* `InclusionProof.verify`, `InclusionProof.verifyWithLeaf`: Verifying it.

## Theorems

* `InclusionProof.verify_eq_verifyWithLeaf`: Verifying is verifying with the
  leaf that was kept.
-/

namespace Confium

open Ruby Composite

namespace Transparency

/-- The side a sibling stands on. -/
inductive Side where
  | left
  | right
  deriving DecidableEq

structure InclusionStep where
  sibling : Digest
  side : Side
  deriving DecidableEq

/-- The proof upstream returns, steps from the leaf up. -/
structure UpstreamProof where
  sequence : Nat
  steps : List InclusionStep

/-- The upstream tree: the proof and the entry hash at a sequence number, or the
    text of an error. -/
structure UpstreamTree where
  inclusionProof : Nat → Except String UpstreamProof
  entryHash : Nat → Except String Digest

/-- `InclusionProofWrap`. -/
structure InclusionProof where
  inner : UpstreamProof
  leafHash : Digest

/-- A computation that logs the strings it feeds to SHA-256. -/
abbrev Hashing := Eff Bytes NativeError

/-- One SHA-256 digest, of a string that is logged. -/
def digest (sha256 : Bytes → Digest) (input : Bytes) : Hashing Digest :=
  Eff.perform input (.ok (sha256 input))

/-- What `hash_leaf` feeds. -/
def leafInput (entryHash : Digest) : Bytes := 0x01 :: entryHash.bytes

/-- What `hash_internal` feeds. -/
def internalInput (left right : Digest) : Bytes := 0x02 :: (left.bytes ++ right.bytes)

/-- `hash_leaf`. -/
def hashLeaf (sha256 : Bytes → Digest) (entryHash : Digest) : Hashing Digest :=
  digest sha256 (leafInput entryHash)

/-- `hash_internal`. -/
def hashInternal (sha256 : Bytes → Digest) (left right : Digest) : Hashing Digest :=
  digest sha256 (internalInput left right)

/-- `index_error` around an upstream lookup. -/
def lookedUp {α : Type} (seq : Nat) (x : Except String α) : Except NativeError α :=
  x.mapError (indexError "MerkleTree.inclusion_proof" (some seq))

/-- `MerkleTree::inclusion_proof`. -/
def inclusionProof (sha256 : Bytes → Digest) (tree : UpstreamTree) (seq : Nat) :
    Hashing InclusionProof := do
  let proof ← Eff.ofExcept (lookedUp seq (tree.inclusionProof seq))
  let entryHash ← Eff.ofExcept (lookedUp seq (tree.entryHash seq))
  let leafHash ← hashLeaf sha256 entryHash
  return ⟨proof, leafHash⟩

/-- One round of the verification loop. -/
def climbStep (sha256 : Bytes → Digest) (current : Digest) (step : InclusionStep) :
    Hashing Digest :=
  match step.side with
  | .left => hashInternal sha256 step.sibling current
  | .right => hashInternal sha256 current step.sibling

/-- The verification loop. -/
def climb (sha256 : Bytes → Digest) (current : Digest) : List InclusionStep → Hashing Digest
  | [] => return current
  | step :: steps => do
    let next ← climbStep sha256 current step
    climb sha256 next steps

namespace InclusionProof

/-- `verify`. -/
def verify (sha256 : Bytes → Digest) (proof : InclusionProof) (root : FieldValue) :
    Hashing Bool := do
  let root ← Eff.ofExcept (digestArg "root" root)
  let current ← climb sha256 proof.leafHash proof.inner.steps
  return decide (current = root)

/-- `verify_with_leaf`. -/
def verifyWithLeaf (sha256 : Bytes → Digest) (proof : InclusionProof)
    (leaf root : FieldValue) : Hashing Bool := do
  let leaf ← Eff.ofExcept (digestArg "leaf_hash" leaf)
  let root ← Eff.ofExcept (digestArg "root" root)
  let current ← climb sha256 leaf proof.inner.steps
  return decide (current = root)

/-- Verifying is verifying with the leaf that was kept. -/
theorem verify_eq_verifyWithLeaf (sha256 : Bytes → Digest) (proof : InclusionProof)
    (leaf root : FieldValue) (h : bytesFromValue leaf = .ok proof.leafHash.bytes) :
    proof.verify sha256 root = proof.verifyWithLeaf sha256 leaf root := by
  have hleaf := (digestArg_eq_ok_iff "leaf_hash" leaf proof.leafHash).mpr h
  unfold verify verifyWithLeaf
  rw [hleaf]
  rfl

end InclusionProof

end Transparency

end Confium
