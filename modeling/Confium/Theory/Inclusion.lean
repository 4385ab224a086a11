import Confium.Lib.Merkle
import Confium.Core.Transparency

/-!
# What a Verified Inclusion Proof Is Worth

Two proofs that verify against one root say the same thing, unless SHA-256 was
made to collide on the way. The general fact is about paths in hash trees, and
`scheme` is the instance: the strings are the ones `hash_leaf` and
`hash_internal` feed. They are separated because a leaf's string begins with
`0x01` and an inner node's with `0x02`, and because the two halves of an inner
node's string are thirty-two bytes each, so it splits in one place only.

Verifying is `Merkle.Scheme.climb`, from the leaf up. The paths compare from the
root down, where the two of them meet, so the steps are reversed first. That the
sides of one have to begin the sides of the other is no restriction for proofs
of one sequence number in one tree, and it is what two proofs of different
leaves do not satisfy.

The collision is not merely claimed to exist. It is between two strings that
were fed to SHA-256 while these two proofs were built and verified, one in each,
so whoever checked them has it in hand.

## Main definitions

* `scheme`: The hashes of the transparency log as a hash tree.
* `path`: The steps of a proof, as a path.
* `sidesFromRoot`: The sides of a proof, read from the root down.
* `evaluation`: The strings a proof feeds to SHA-256.

## Theorems

* `scheme_separated`: Domain separation.
* `climb_result`, `climb_log`: The verification loop computes the root of the
  path, and feeds the strings along it.
* `verified_top`: A proof that verifies leads to the root.
* `inclusion_binds`: Two proofs that verify against one root are of one entry
  and have the same siblings, or exhibit a collision.
-/

namespace Confium

open Ruby Composite Merkle

namespace Transparency

/-- What an inner node feeds, by the side of its sibling. -/
def nodeInput : Side → Digest → Digest → Bytes
  | .left, sibling, current => internalInput sibling current
  | .right, sibling, current => internalInput current sibling

/-- The transparency log's hashes. -/
def scheme (sha256 : Bytes → Digest) : Merkle.Scheme Bytes Digest Digest Side :=
  { hash := sha256, leaf := leafInput, node := nodeInput }

theorem internalInput_injective (l l' r r' : Digest) (h : internalInput l r = internalInput l' r') :
    l = l' ∧ r = r' := by
  have hbytes : l.bytes ++ r.bytes = l'.bytes ++ r'.bytes := (List.cons.inj h).2
  -- Both halves are thirty-two bytes, so the split is in the same place.
  have hlen : l.bytes.length = l'.bytes.length := by rw [l.length_bytes, l'.length_bytes]
  rcases List.append_inj hbytes hlen with ⟨hl, hr⟩
  exact ⟨Digest.ext hl, Digest.ext hr⟩

/-- The strings of the log are separated, by their first byte and by the fixed
    length of a digest. -/
theorem scheme_separated (sha256 : Bytes → Digest) : (scheme sha256).Separated where
  leaf_injective := by
    intro e e' h
    exact Digest.ext (List.cons.inj h).2
  node_injective := by
    intro s x x' c c' h
    cases s with
    | left => exact internalInput_injective x x' c c' h
    | right => exact (internalInput_injective c c' x x' h).symm
  leaf_ne_node := by
    intro e s x c h
    cases s with
    | left => exact absurd (List.cons.inj h).1 (by decide)
    | right => exact absurd (List.cons.inj h).1 (by decide)

/-- The steps of a proof, as a path from the leaf up. -/
def path (steps : List InclusionStep) : List (Side × Digest) :=
  steps.map (fun step => (step.side, step.sibling))

theorem climbStep_eq (sha256 : Bytes → Digest) (current : Digest) (step : InclusionStep) :
    climbStep sha256 current step
      = digest sha256 (nodeInput step.side step.sibling current) := by
  unfold climbStep
  cases step.side <;> rfl

/-- The loop computes the root of the path. -/
theorem climb_result (sha256 : Bytes → Digest) (current : Digest) (steps : List InclusionStep) :
    (climb sha256 current steps).result
      = .ok ((scheme sha256).climb current (path steps)) := by
  induction steps generalizing current with
  | nil => rfl
  | cons step steps ih =>
      rw [climb, climbStep_eq, Eff.result_bind_ok _ _ _ rfl, ih]
      rfl

/-- The loop feeds the strings along the path. -/
theorem climb_log (sha256 : Bytes → Digest) (current : Digest) (steps : List InclusionStep) :
    (climb sha256 current steps).log = (scheme sha256).climbed current (path steps) := by
  induction steps generalizing current with
  | nil => rfl
  | cons step steps ih =>
      rw [climb, climbStep_eq, Eff.log_bind_ok _ _ _ rfl, ih]
      rfl

/-- The sides of a proof, read from the root down. -/
def InclusionProof.sidesFromRoot (proof : InclusionProof) : List Side :=
  (proof.inner.steps.map InclusionStep.side).reverse

/-- The siblings of a proof, from the leaf up. -/
def InclusionProof.siblings (proof : InclusionProof) : List Digest :=
  proof.inner.steps.map InclusionStep.sibling

/-- Every string fed to SHA-256 while a proof is built and verified. -/
def evaluation (sha256 : Bytes → Digest) (tree : UpstreamTree) (seq : Nat)
    (proof : InclusionProof) (root : FieldValue) : List Bytes :=
  (inclusionProof sha256 tree seq).log ++ (proof.verify sha256 root).log

/-- A proof that was built keeps the leaf of its entry, which was fed to SHA-256
    to get it. -/
theorem inclusionProof_built (sha256 : Bytes → Digest) (tree : UpstreamTree) (seq : Nat)
    (proof : InclusionProof) (e : Digest) (h : (inclusionProof sha256 tree seq).result = .ok proof)
    (he : tree.entryHash seq = .ok e) :
    proof.leafHash = sha256 (leafInput e) ∧
      (inclusionProof sha256 tree seq).log = [leafInput e] := by
  unfold inclusionProof at h ⊢
  cases hproof : tree.inclusionProof seq with
  | error text =>
      rw [hproof] at h
      exact absurd h (by simp only [lookedUp, Except.mapError, Eff.bind_def, Eff.andThen,
        Eff.ofExcept, reduceCtorEq, not_false_eq_true])
  | ok inner =>
      rw [hproof, he] at h
      rw [he]
      have hproof' : (⟨inner, sha256 (leafInput e)⟩ : InclusionProof) = proof := Except.ok.inj h
      rw [← hproof']
      exact ⟨rfl, rfl⟩

/-- A proof of an entry that verifies leads from that entry to the root, and
    everything hashed along the way was fed to SHA-256. -/
theorem verified_top (sha256 : Bytes → Digest) (tree : UpstreamTree) (seq : Nat)
    (proof : InclusionProof) (e : Digest) (root : FieldValue)
    (hbuilt : (inclusionProof sha256 tree seq).result = .ok proof)
    (he : tree.entryHash seq = .ok e) (hverify : (proof.verify sha256 root).result = .ok true) :
    (∃ r : Digest, bytesFromValue root = .ok r.bytes ∧
        (scheme sha256).top e (path proof.inner.steps).reverse = r) ∧
      (scheme sha256).fed e (path proof.inner.steps).reverse
        ⊆ evaluation sha256 tree seq proof root := by
  rcases inclusionProof_built sha256 tree seq proof e hbuilt he with ⟨hleaf, hlog⟩
  unfold InclusionProof.verify at hverify
  rw [Eff.result_bind_eq_ok_iff] at hverify
  rcases hverify with ⟨r, hroot, hverify⟩
  rw [Eff.result_ofExcept] at hroot
  rw [Eff.result_bind_ok _ _ _ (climb_result sha256 _ _), Eff.result_pure, Except.ok.injEq,
    decide_eq_true_eq] at hverify
  -- Verifying is climbing from the leaf the proof was built with.
  have hclimbed : (scheme sha256).climb ((scheme sha256).hash ((scheme sha256).leaf e))
      (path proof.inner.steps) = r := by
    rw [← hverify, hleaf]
    rfl
  refine ⟨⟨r, (digestArg_eq_ok_iff "root" root r).mp hroot, ?_⟩, ?_⟩
  · rw [← Merkle.Scheme.climb_eq_top]
    exact hclimbed
  · -- The leaf was fed when the proof was built, the rest while it was verified.
    have hfed := Merkle.Scheme.fed_reverse_subset (scheme sha256) e (path proof.inner.steps)
    have hverifyLog : (proof.verify sha256 root).log
        = (scheme sha256).climbed ((scheme sha256).hash ((scheme sha256).leaf e))
            (path proof.inner.steps) := by
      unfold InclusionProof.verify
      rw [Eff.log_bind_ok _ _ r hroot, Eff.log_ofExcept, List.nil_append,
        Eff.log_bind_ok _ _ _ (climb_result sha256 _ _), climb_log, Eff.log_pure, List.append_nil,
        hleaf]
      rfl
    unfold evaluation
    rw [hlog, hverifyLog]
    exact hfed

theorem map_fst_path_reverse (proof : InclusionProof) :
    (path proof.inner.steps).reverse.map Prod.fst = proof.sidesFromRoot := by
  rw [List.map_reverse, path, List.map_map]
  rfl

/-- Paths that agree have the same siblings. -/
theorem siblings_of_path_eq (p p' : InclusionProof)
    (h : (path p.inner.steps).reverse = (path p'.inner.steps).reverse) :
    p.siblings = p'.siblings := by
  have hmap := congrArg (List.map Prod.snd) (List.reverse_injective h)
  rw [path, path, List.map_map, List.map_map] at hmap
  exact hmap

/-- The two proofs, the one whose sides begin the other's first. -/
theorem binds_of_prefix (sha256 : Bytes → Digest) (tree tree' : UpstreamTree) (seq seq' : Nat)
    (p p' : InclusionProof) (e e' : Digest) (root : FieldValue)
    (hbuilt : (inclusionProof sha256 tree seq).result = .ok p)
    (hbuilt' : (inclusionProof sha256 tree' seq').result = .ok p')
    (he : tree.entryHash seq = .ok e) (he' : tree'.entryHash seq' = .ok e')
    (hverify : (p.verify sha256 root).result = .ok true)
    (hverify' : (p'.verify sha256 root).result = .ok true)
    (hsides : p.sidesFromRoot <+: p'.sidesFromRoot) :
    (p.siblings = p'.siblings ∧ e = e') ∨
      (scheme sha256).Collision (evaluation sha256 tree seq p root)
        (evaluation sha256 tree' seq' p' root) := by
  rcases verified_top sha256 tree seq p e root hbuilt he hverify with ⟨⟨r, hr, htop⟩, hfed⟩
  rcases verified_top sha256 tree' seq' p' e' root hbuilt' he' hverify' with
    ⟨⟨r', hr', htop'⟩, hfed'⟩
  -- One argument, one root.
  rw [hr, Except.ok.injEq] at hr'
  have hsame : r = r' := Digest.ext hr'
  rw [← map_fst_path_reverse, ← map_fst_path_reverse] at hsides
  rcases Merkle.Scheme.top_binds (scheme sha256) (scheme_separated sha256) e e' _ _ hsides
    (htop.trans (hsame.trans htop'.symm)) with ⟨hentry, hpath⟩ | hcollision
  · exact Or.inl ⟨siblings_of_path_eq p p' hpath, hentry⟩
  · exact Or.inr (hcollision.mono hfed hfed')

/-- Two proofs built by `inclusion_proof` that verify against one root, the
    sides of one beginning the sides of the other from the root down, are of the
    same length, have the same siblings and are of the same entry, or two
    different strings with one digest were fed to SHA-256 in their
    evaluations. -/
theorem inclusion_binds (sha256 : Bytes → Digest) (tree tree' : UpstreamTree) (seq seq' : Nat)
    (p p' : InclusionProof) (e e' : Digest) (root : FieldValue)
    (hbuilt : (inclusionProof sha256 tree seq).result = .ok p)
    (hbuilt' : (inclusionProof sha256 tree' seq').result = .ok p')
    (he : tree.entryHash seq = .ok e) (he' : tree'.entryHash seq' = .ok e')
    (hverify : (p.verify sha256 root).result = .ok true)
    (hverify' : (p'.verify sha256 root).result = .ok true)
    (hsides : p.sidesFromRoot <+: p'.sidesFromRoot ∨ p'.sidesFromRoot <+: p.sidesFromRoot) :
    (p.inner.steps.length = p'.inner.steps.length ∧ p.siblings = p'.siblings ∧ e = e') ∨
      ∃ x ∈ evaluation sha256 tree seq p root, ∃ y ∈ evaluation sha256 tree' seq' p' root,
        x ≠ y ∧ sha256 x = sha256 y := by
  have hlength : p.siblings = p'.siblings → p.inner.steps.length = p'.inner.steps.length := by
    intro h
    have hlen := congrArg List.length h
    rw [InclusionProof.siblings, InclusionProof.siblings, List.length_map, List.length_map] at hlen
    exact hlen
  rcases hsides with hsides | hsides
  · rcases binds_of_prefix sha256 tree tree' seq seq' p p' e e' root hbuilt hbuilt' he he' hverify
      hverify' hsides with ⟨hsib, hentry⟩ | hcollision
    · exact Or.inl ⟨hlength hsib, hsib, hentry⟩
    · exact Or.inr hcollision
  · rcases binds_of_prefix sha256 tree' tree seq' seq p' p e' e root hbuilt' hbuilt he' he hverify'
      hverify hsides with ⟨hsib, hentry⟩ | hcollision
    · exact Or.inl ⟨hlength hsib.symm, hsib.symm, hentry.symm⟩
    · exact Or.inr hcollision.symm

/-- A stand-in for SHA-256 that keeps the first bytes of what it is fed. -/
def firstBytes (input : Bytes) : Digest :=
  ⟨(input ++ List.replicate 32 0).take 32, by
    rw [List.length_take, List.length_append, List.length_replicate]
    omega⟩

/-- A tree of two equal entries, by the proof of its first one. -/
def twoLeaves (e : Digest) : UpstreamTree :=
  { inclusionProof := fun seq => .ok ⟨seq, [⟨firstBytes (leafInput e), .right⟩]⟩,
    entryHash := fun _ => .ok e }

/-- The proof of its first entry. -/
def firstLeafProof (e : Digest) : InclusionProof :=
  ⟨⟨0, [⟨firstBytes (leafInput e), .right⟩]⟩, firstBytes (leafInput e)⟩

/-- Its root. -/
def twoLeavesRoot (e : Digest) : FieldValue :=
  .str (RString.binary
    (firstBytes (internalInput (firstBytes (leafInput e)) (firstBytes (leafInput e)))).bytes)

/-- The one-step proof of the first of two equal entries, built twice. -/
theorem firstLeafProof_binds :
    ((firstLeafProof (firstBytes [7])).verify firstBytes (twoLeavesRoot (firstBytes [7]))).result
        = .ok true ∧
      (((firstLeafProof (firstBytes [7])).inner.steps.length = 1 ∧
          (firstLeafProof (firstBytes [7])).siblings = (firstLeafProof (firstBytes [7])).siblings ∧
          firstBytes [7] = firstBytes [7]) ∨
        ∃ x ∈ evaluation firstBytes (twoLeaves (firstBytes [7])) 0 (firstLeafProof (firstBytes [7]))
            (twoLeavesRoot (firstBytes [7])),
          ∃ y ∈ evaluation firstBytes (twoLeaves (firstBytes [7])) 0
            (firstLeafProof (firstBytes [7])) (twoLeavesRoot (firstBytes [7])),
            x ≠ y ∧ firstBytes x = firstBytes y) := by
  have hverify : ((firstLeafProof (firstBytes [7])).verify firstBytes
      (twoLeavesRoot (firstBytes [7]))).result = .ok true := by rfl
  exact ⟨hverify, inclusion_binds firstBytes (twoLeaves (firstBytes [7]))
    (twoLeaves (firstBytes [7])) 0 0 (firstLeafProof (firstBytes [7]))
    (firstLeafProof (firstBytes [7])) (firstBytes [7]) (firstBytes [7])
    (twoLeavesRoot (firstBytes [7])) rfl rfl rfl rfl hverify hverify (Or.inl (List.prefix_refl _))⟩

end Transparency

end Confium
