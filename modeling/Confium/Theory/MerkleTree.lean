import Confium.Lib.MerkleTree
import Confium.Core.MerkleTree
import Confium.Theory.Inclusion

/-!
# What the Log Proves

A log is asked for three things. Entries get sequence numbers in the order they
were appended. Every entry has a proof that verifies against the root. And a
root that was handed out stays good: however much is appended afterwards, the
log shows that what it then had is a beginning of what it has now.

All three are about any program that appends and asks in whatever order, with
appends that are refused along the way, and they rest on what upstream says of
its tree: it only grows, and it hashes its entries in a tree. Nothing is asked of
the shape of that tree, so the proofs are `Merkle.Sided.climb_path`: climbing
from an entry along its path ends at the root.

## Main definitions

* `sides`: The two sides of the log's inner nodes.
* `Documented`: What upstream says of its tree.
* `acceptedAppends`: The sequence numbers a program was given.

## Theorems

* `Documented.inclusionProof_result`, `Documented.verify_path`: A proof is built
  and verifies.
* `Documented.proofsOf_result`: And so for each sequence number.
* `Documented.entries_run`: The entries after a run begin with those before it.
* `log_entries_verify`: Every entry of a log can be proved, in order.
* `recorded_roots_stay_good`: Roots that were handed out stay good.
-/

namespace Confium

open Ruby Composite Merkle

namespace Transparency

/-- The log's inner nodes, from both sides. -/
def sides (sha256 : Bytes → Digest) : Sided (scheme sha256) where
  left := .left
  right := .right
  mirrored := fun _ _ => rfl

/-- A path as the steps upstream hands over. -/
def stepsOf (path : List (Side × Digest)) : List InclusionStep :=
  path.map (fun p => ⟨p.2, p.1⟩)

theorem path_stepsOf (steps : List (Side × Digest)) : path (stepsOf steps) = steps := by
  rw [path, stepsOf, List.map_map]
  exact List.map_id _

/-- What upstream says of its tree: it is append-only, sequence numbers are
    positions, and the root and the paths are those of a hash tree over the
    entries. -/
structure Documented (up : LogUpstream) (sha256 : Bytes → Digest) where
  /-- The hashes of the entries, in order. -/
  entries : up.Tree → List Digest
  /-- The hash tree over some entries. -/
  shape : List Digest → Merkle.Tree Digest
  leaves_shape : ∀ es, es ≠ [] → (shape es).leaves = es
  entries_new : entries up.new = []
  sequence_append : ∀ t now d, (up.append t now d).1 = (entries t).length
  entries_append : ∀ t now d, ∃ e, entries (up.append t now d).2 = entries t ++ [e]
  len_eq : ∀ t, up.len t = (entries t).length
  root_eq : ∀ t, entries t ≠ [] → up.root t = (sides sha256).root (shape (entries t))
  entryHash_eq : ∀ t i e, (entries t)[i]? = some e → (up.lookup t).entryHash i = .ok e
  inclusionProof_eq : ∀ t i, i < (entries t).length →
    (up.lookup t).inclusionProof i
      = .ok ⟨i, stepsOf ((sides sha256).path (shape (entries t)) i)⟩
  inclusionProof_beyond : ∀ t i, (entries t).length ≤ i →
    ∃ text, (up.lookup t).inclusionProof i = .error text
  /-- There is a proof for every size the tree has had. -/
  consistencyProof_ok : ∀ t n, 0 < n → n ≤ (entries t).length →
    ∃ proof, up.consistencyProof t n = .ok proof
  /-- The verifier recomputes the root at the old size and the current one, and
      compares them with those it is given. -/
  verifyConsistency_iff : ∀ t n m old new proof, 0 < n → n ≤ (entries t).length →
    up.consistencyProof t n = .ok proof →
    (up.verifyConsistency t old new n m proof = .ok () ↔
      m = (entries t).length ∧ old = (sides sha256).root (shape ((entries t).take n)) ∧
        new = up.root t)

/-- The sequence number an append was given. -/
def acceptedSequence : LogOp → Except NativeError LogReply → Option Nat
  | .append _ _, .ok (.number n) => some n
  | _, _ => none

/-- The sequence numbers a program was given, in order. -/
def acceptedAppends (up : LogUpstream) (sha256 : Bytes → Digest) (ops : List LogOp) : List Nat :=
  (Machine.trace (logStep up sha256) up.new ops).filterMap
    (fun t => acceptedSequence t.op t.out)

namespace Documented

variable {up : LogUpstream} {sha256 : Bytes → Digest} (doc : Documented up sha256)

include doc

/-- The proof of an entry. -/
theorem inclusionProof_result (t : up.Tree) (i : Nat) (e : Digest)
    (h : (doc.entries t)[i]? = some e) :
    (inclusionProof sha256 (up.lookup t) i).result
      = .ok ⟨⟨i, stepsOf ((sides sha256).path (doc.shape (doc.entries t)) i)⟩,
          sha256 (leafInput e)⟩ := by
  rcases List.getElem?_eq_some_iff.mp h with ⟨hlt, -⟩
  unfold inclusionProof
  rw [doc.inclusionProof_eq t i hlt, doc.entryHash_eq t i e h]
  rfl

/-- It verifies against the root. -/
theorem verify_path (t : up.Tree) (i : Nat) (e : Digest) (h : (doc.entries t)[i]? = some e) :
    (InclusionProof.verify sha256
      ⟨⟨i, stepsOf ((sides sha256).path (doc.shape (doc.entries t)) i)⟩, sha256 (leafInput e)⟩
      (Digest.toRString (up.root t))).result = .ok true := by
  have hne : doc.entries t ≠ [] := by
    intro hnil
    rw [hnil] at h
    exact absurd h (by simp only [List.getElem?_nil, reduceCtorEq, not_false_eq_true])
  have hleaf : (doc.shape (doc.entries t)).leaves[i]? = some e := by
    rw [doc.leaves_shape _ hne]
    exact h
  have hclimb := (sides sha256).climb_path (doc.shape (doc.entries t)) i e hleaf
  unfold InclusionProof.verify
  rw [digestArg_toRString, Eff.ofExcept_ok_bind, Eff.result_bind_ok _ _ _ (climb_result _ _ _),
    path_stepsOf]
  have hroot : (scheme sha256).climb (sha256 (leafInput e))
      ((sides sha256).path (doc.shape (doc.entries t)) i) = up.root t := by
    rw [doc.root_eq t hne]
    exact hclimb
  rw [hroot]
  exact congrArg Except.ok (decide_eq_true rfl)

/-- So does the proof of each of some sequence numbers. -/
theorem proofsOf_result (t : up.Tree) (seqs : List Nat)
    (h : ∀ i ∈ seqs, i < (doc.entries t).length) :
    ∃ proofs, (proofsOf sha256 (up.lookup t) seqs).result = .ok proofs ∧
      List.Forall₂ (fun i (proof : InclusionProof) => proof.inner.sequence = i ∧
        (proof.verify sha256 (Digest.toRString (up.root t))).result = .ok true) seqs proofs := by
  induction seqs with
  | nil => exact ⟨[], rfl, List.Forall₂.nil⟩
  | cons i rest ih =>
      rw [List.forall_mem_cons] at h
      have he := List.getElem?_eq_getElem h.1
      have hproof := doc.inclusionProof_result t i _ he
      rcases ih h.2 with ⟨proofs, hproofs, hverify⟩
      refine ⟨_ :: proofs, ?_, List.Forall₂.cons ⟨rfl, doc.verify_path t i _ he⟩ hverify⟩
      rw [proofsOf, Eff.result_bind_ok _ _ _ hproof, Eff.result_bind_ok _ _ _ hproofs]
      rfl

/-- A step leaves the entries as they are, or appends one and returns the number
    of those before it. -/
theorem entries_step (t : up.Tree) (op : LogOp) :
    (acceptedSequence op (logStep up sha256 t op).1 = none ∧ (logStep up sha256 t op).2 = t) ∨
      (acceptedSequence op (logStep up sha256 t op).1 = some (doc.entries t).length ∧
        ∃ e, doc.entries (logStep up sha256 t op).2 = doc.entries t ++ [e]) := by
  cases op with
  | append now artifactHash =>
      simp only [logStep, appendEntry]
      cases digestArg "artifact_hash" artifactHash with
      | error e => exact Or.inl ⟨rfl, rfl⟩
      | ok d =>
          exact Or.inr ⟨congrArg some (doc.sequence_append t now d), doc.entries_append t now d⟩
  | length => exact Or.inl ⟨rfl, rfl⟩
  | isEmpty => exact Or.inl ⟨rfl, rfl⟩
  | root => exact Or.inl ⟨rfl, rfl⟩
  | inclusionProof seq => exact Or.inl ⟨rfl, rfl⟩
  | entries => exact Or.inl ⟨rfl, rfl⟩
  | consistencyProof oldSize => exact Or.inl ⟨rfl, rfl⟩
  | verifyConsistency oldRoot newRoot oldSize newSize proof => exact Or.inl ⟨rfl, rfl⟩

/-- The sequence numbers a program was given are the positions of the entries. -/
theorem acceptedAppends_eq_range (ops : List LogOp) :
    acceptedAppends up sha256 ops
      = List.range (doc.entries (logAfter up sha256 ops)).length := by
  refine Machine.history_induct (logStep up sha256)
    (fun tr t => tr.filterMap (fun s => acceptedSequence s.op s.out)
      = List.range (doc.entries t).length) up.new ops ?_ ?_
  · rw [doc.entries_new]
    rfl
  · intro tr t op ih
    rw [List.filterMap_append, ih]
    show _ ++ [(logStep up sha256).transition t op].filterMap _ = _
    rw [List.filterMap_cons, List.filterMap_nil]
    simp only [Machine.Step.transition]
    rcases doc.entries_step t op with ⟨hnone, hsame⟩ | ⟨hsome, e, hentries⟩
    · rw [hnone, hsame, List.append_nil]
    · rw [hsome, hentries, List.length_append, List.length_singleton, List.range_succ]

/-- What a tree has is a beginning of what it has later. -/
theorem entries_run (t : up.Tree) (ops : List LogOp) :
    doc.entries t <+: doc.entries (Machine.run (logStep up sha256) t ops) := by
  refine Machine.run_induct (logStep up sha256) (fun t' => doc.entries t <+: doc.entries t') t ops
    (List.prefix_refl _) ?_
  intro t' op ih
  rcases doc.entries_step t' op with ⟨-, hsame⟩ | ⟨-, e, hentries⟩
  · rw [hsame]
    exact ih
  · rw [hentries]
    exact ih.trans (List.prefix_append _ _)

end Documented

/-- Whatever a program did with a log, the appends that were accepted were given
    the sequence numbers from zero on, `entries` has one proof for each of them,
    in that order, every one verifies against the root, and asking for a proof
    beyond them is an `IndexError` with the number asked for, or a `RangeError` if
    that is no machine word. -/
theorem log_entries_verify (up : LogUpstream) (sha256 : Bytes → Digest)
    (doc : Documented up sha256) (ops : List LogOp) :
    ∃ proofs : List InclusionProof,
      (entries up sha256 (logAfter up sha256 ops)).result = .ok proofs ∧
      acceptedAppends up sha256 ops = List.range proofs.length ∧
      (∀ (i : Nat) (proof : InclusionProof), proofs[i]? = some proof →
        proof.inner.sequence = i ∧
          (proof.verify sha256 (Digest.toRString (up.root (logAfter up sha256 ops)))).result
            = .ok true) ∧
      (∀ seq : Nat, proofs.length ≤ seq → seq < 2 ^ 64 →
        ∃ text, (proofAt up sha256 (logAfter up sha256 ops) seq).result
          = .error (indexError "MerkleTree.inclusion_proof" (some seq) text)) ∧
      ∀ seq : Int, seq < 0 ∨ 2 ^ 64 ≤ seq →
        (proofAt up sha256 (logAfter up sha256 ops) seq).result
          = .error (.conversion .numberOutOfRange) := by
  have hlen := doc.len_eq (logAfter up sha256 ops)
  rcases doc.proofsOf_result (logAfter up sha256 ops) (List.range (up.len (logAfter up sha256 ops)))
    (fun i hi => by rw [← hlen]; exact List.mem_range.mp hi) with ⟨proofs, hproofs, hverify⟩
  have hlength := hverify.length_eq
  rw [List.length_range] at hlength
  refine ⟨proofs, hproofs, ?_, ?_, ?_, ?_⟩
  · rw [doc.acceptedAppends_eq_range, ← hlen, hlength]
  · intro i proof hi
    rcases List.getElem?_eq_some_iff.mp hi with ⟨hlt, heq⟩
    have hget := hverify.get (by rw [List.length_range, hlength]; exact hlt) hlt
    rw [List.get_eq_getElem, List.get_eq_getElem, heq, List.getElem_range] at hget
    exact hget
  · intro seq hseq hword
    rcases doc.inclusionProof_beyond (logAfter up sha256 ops) seq (by omega) with ⟨text, htext⟩
    refine ⟨text, ?_⟩
    unfold proofAt inclusionProof
    rw [wordArg, unsigned_int 64 seq hword, Eff.ofExcept_ok_bind, htext]
    rfl
  · intro seq hseq
    unfold proofAt
    rw [wordArg, unsigned_out_of_range 64 seq hseq]
    rfl

/-- Digests that a program got are taken as they are. -/
theorem mapM_hashArg_toRString (name : String) (ds : List Digest) :
    (ds.map Digest.toRString).mapM (hashArg name) = .ok ds := by
  rw [mapM_eq_ok_iff, List.forall₂_map_left_iff, List.forall₂_same]
  exact fun d _ => hashArg_toRString name d

/-- A root that was handed out once something had been appended stays good, and
    stays the only one: after any further operations, as long as the sizes are
    machine words, the log has a consistency proof for the old size, and with that
    proof and the two sizes accepts the root it had then and the root it has now, and
    no others. -/
theorem recorded_roots_stay_good (up : LogUpstream) (sha256 : Bytes → Digest)
    (doc : Documented up sha256) (ops more : List LogOp)
    (h : acceptedAppends up sha256 ops ≠ [])
    (hword : up.len (logAfter up sha256 (ops ++ more)) < 2 ^ 64) :
    let before := logAfter up sha256 ops
    let now := logAfter up sha256 (ops ++ more)
    ∃ proof, consistencyProof up now (up.len before) = .ok proof ∧
      ∀ old new : Digest,
        verifyConsistency up now (Digest.toRString old) (Digest.toRString new) (up.len before)
            (up.len now) (proof.map Digest.toRString) = .ok true ↔
          old = up.root before ∧ new = up.root now := by
  intro before now
  have hne : doc.entries before ≠ [] := by
    intro hnil
    rw [doc.acceptedAppends_eq_range, hnil] at h
    exact h rfl
  have hpre : doc.entries before <+: doc.entries now := by
    simp only [before, now, logAfter, Machine.run_append]
    exact doc.entries_run _ more
  have hpos : 0 < up.len before := by
    rw [doc.len_eq]
    exact List.length_pos_iff.mpr hne
  have hle : up.len before ≤ (doc.entries now).length := by
    rw [doc.len_eq]
    exact hpre.length_le
  rcases doc.consistencyProof_ok now _ hpos hle with ⟨proof, hproof⟩
  -- What the log had then is what it now begins with.
  have hthen : (sides sha256).root (doc.shape ((doc.entries now).take (up.len before)))
      = up.root before := by
    rw [doc.len_eq, ← List.prefix_iff_eq_take.mp hpre, ← doc.root_eq _ hne]
  have hwordBefore : up.len before < 2 ^ 64 := by
    rw [doc.len_eq now] at hword
    exact hle.trans_lt hword
  refine ⟨proof, ?_, fun old new => ?_⟩
  · rw [consistencyProof, wordArg, unsigned_int 64 _ hwordBefore]
    show (up.consistencyProof now (up.len before)).mapError _ = _
    rw [hproof]
    rfl
  · have hverify : up.verifyConsistency now old new (up.len before) (up.len now) proof = .ok () ↔
        old = up.root before ∧ new = up.root now := by
      rw [doc.verifyConsistency_iff now _ _ old new proof hpos hle hproof, hthen]
      exact and_iff_right (doc.len_eq now)
    rw [← hverify]
    unfold verifyConsistency
    rw [wordArg, wordArg, unsigned_int 64 _ hwordBefore, unsigned_int 64 _ hword]
    simp only [hashArg_toRString, mapM_hashArg_toRString, bind, Except.bind]
    cases up.verifyConsistency now old new (up.len before) (up.len now) proof with
    | ok u => exact iff_of_true rfl rfl
    | error text =>
      constructor
      · intro h
        cases h
      · intro h
        cases h

/-- The hash tree of a log. -/
def logShape : List Digest → Merkle.Tree Digest
  | [] => .leaf (firstBytes [])
  | e :: rest => Merkle.Tree.split rest.length e rest

/-- A log that hashes its entries in halves, the first of them a power of two. -/
def halvedLog (sha256 : Bytes → Digest) : LogUpstream where
  Tree := List Digest
  new := []
  append := fun t _ d => (t.length, t ++ [d])
  len := List.length
  root := fun t => (sides sha256).root (logShape t)
  lookup := fun t =>
    { inclusionProof := fun i =>
        if i < t.length then .ok ⟨i, stepsOf ((sides sha256).path (logShape t) i)⟩
        else .error "sequence out of range"
      entryHash := fun i =>
        match t[i]? with
        | some e => .ok e
        | none => .error "sequence out of range" }
  consistencyProof := fun t n =>
    if n = t.length then .ok [] else .ok [(sides sha256).root (logShape (t.drop n))]
  verifyConsistency := fun t old new n m _ =>
    if (sides sha256).root (logShape (t.take n)) = old ∧ (sides sha256).root (logShape t) = new ∧
      m = t.length then .ok () else .error "consistency check failed"

/-- It is as upstream says. -/
def halvedLogDocumented (sha256 : Bytes → Digest) : Documented (halvedLog sha256) sha256 where
  entries := id
  shape := logShape
  leaves_shape := by
    intro es hes
    cases es with
    | nil => exact absurd rfl hes
    | cons e rest => exact Merkle.Tree.leaves_split rest.length e rest (Nat.le_refl _)
  entries_new := rfl
  sequence_append := fun _ _ _ => rfl
  entries_append := fun _ _ d => ⟨d, rfl⟩
  len_eq := fun _ => rfl
  root_eq := fun _ _ => rfl
  entryHash_eq := by
    intro (t : List Digest) i e h
    have h : t[i]? = some e := h
    show (match t[i]? with
      | some e => Except.ok e
      | none => .error "sequence out of range") = .ok e
    rw [h]
  inclusionProof_eq := fun _ _ h => if_pos h
  inclusionProof_beyond := fun _ _ h => ⟨_, if_neg (Nat.not_lt.mpr h)⟩
  consistencyProof_ok := by
    intro t n _ _
    by_cases hn : n = t.length
    · exact ⟨[], if_pos hn⟩
    · exact ⟨[(sides sha256).root (logShape (t.drop n))], if_neg hn⟩
  verifyConsistency_iff := by
    intro (t : List Digest) n m old new proof _ _ _
    show (if (sides sha256).root (logShape (t.take n)) = old ∧
      (sides sha256).root (logShape t) = new ∧ m = t.length then Except.ok ()
      else .error "consistency check failed") = .ok () ↔ _
    constructor
    · intro h
      split at h
      · rename_i hgood
        exact ⟨hgood.2.2, hgood.1.symm, hgood.2.1.symm⟩
      · cases h
    · rintro ⟨hsize, hold, hnew⟩
      exact if_pos ⟨hold.symm, hnew.symm, hsize⟩

/-- An entry is appended, after one that is too short. -/
def appendOnce : List LogOp :=
  [.append "2026-07-30T22:00:00Z" (.str (RString.binary [1])),
    .append "2026-07-30T22:00:00Z" (Digest.toRString (firstBytes [7]))]

/-- The log it is appended to. -/
def sampleLog : LogUpstream := halvedLog firstBytes

theorem log_entries_verify_once :
    ∃ proofs : List InclusionProof,
      (entries sampleLog firstBytes (logAfter sampleLog firstBytes appendOnce)).result
        = .ok proofs ∧
      [0] = List.range proofs.length := by
  rcases log_entries_verify sampleLog firstBytes (halvedLogDocumented firstBytes) appendOnce with
    ⟨proofs, hproofs, hnumbers, -⟩
  exact ⟨proofs, hproofs, hnumbers⟩

theorem recorded_roots_stay_good_once :
    ∃ proof, consistencyProof sampleLog (logAfter sampleLog firstBytes (appendOnce ++ appendOnce)) 1
        = .ok proof ∧
      verifyConsistency sampleLog (logAfter sampleLog firstBytes (appendOnce ++ appendOnce))
        (Digest.toRString (sampleLog.root (logAfter sampleLog firstBytes appendOnce)))
        (Digest.toRString (sampleLog.root
          (logAfter sampleLog firstBytes (appendOnce ++ appendOnce))))
        1 2 (proof.map Digest.toRString) = .ok true := by
  have hsome : acceptedAppends sampleLog firstBytes appendOnce = [0] := rfl
  have hlen : sampleLog.len (logAfter sampleLog firstBytes (appendOnce ++ appendOnce)) = 2 := rfl
  rcases recorded_roots_stay_good sampleLog firstBytes (halvedLogDocumented firstBytes) appendOnce
    appendOnce (by rw [hsome]; exact List.cons_ne_nil 0 []) (by rw [hlen]; decide) with
    ⟨proof, hproof, hverify⟩
  exact ⟨proof, hproof, (hverify _ _).mpr ⟨rfl, rfl⟩⟩

end Transparency

end Confium
