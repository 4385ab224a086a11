import Confium.Core.Cms

/-!
# Judging Each Signer by Its Own Algorithm

What `verify_signatures` is documented to do is dispatch on the OID found in
each signer's own record. What it does is dispatch every signer on the OID found
in the first. `judged_by_own_algorithm_iff` says exactly when that makes no
difference: whatever the verifiers are and whatever keys and signatures the walk
hands over, every signer gets the verdict of its own verifier precisely when all
signers select the same one as the first.

Signers whose OID selects no verifier are only promised an error, and any error
will do, so two of them need not carry the same OID.

## Main definitions

* `Algorithm`, `algorithmOf`: The verifier an OID selects.
* `ownVerdict`: The verdict of one verifier.
* `IsVerdictFor`: A verdict that is right for an OID.
* `JudgedByOwn`: Every signer gets a verdict that is right for its OID.
* `SameAlgorithm`: Every signer selects the verifier the first selects.

## Theorems

* `isVerdictFor_verifyByOid`: Dispatching on an OID is right for every OID that
  selects the same verifier.
* `judged_by_own_algorithm_iff`: When every signer is judged by its own
  algorithm.
* `second_signer_misjudged`: A signer who is not.
-/

namespace Confium

open Ruby

namespace Cms

/-- The supported signature algorithms. -/
inductive Algorithm where
  | ed25519
  | ecdsaP256
  deriving DecidableEq

/-- The algorithm an OID stands for. -/
def algorithmOf (oid : String) : Option Algorithm :=
  if oid = "1.3.101.112" then some .ed25519
  else if oid = "1.2.840.10045.4.3.2" then some .ecdsaP256
  else none

/-- The verdict of one verifier. -/
def ownVerdict (v : Verifiers) : Algorithm → SignerInput → Verdict
  | .ed25519, input => verifyEd25519 v input
  | .ecdsaP256, input => verifyEcdsaP256 v input

/-- A verdict that is right for an OID: that of the verifier it selects, and an
    error if it selects none. -/
def IsVerdictFor (v : Verifiers) (oid : String) (input : SignerInput) (verdict : Verdict) : Prop :=
  match algorithmOf oid with
  | some algorithm => verdict = ownVerdict v algorithm input
  | none => ∃ e, verdict = .error e

/-- Every signer gets a verdict, and it is right for the signer's own OID. -/
def JudgedByOwn (v : Verifiers) (sd : SignedData) (inputs : Nat → SignerInput) : Prop :=
  ∀ i signer, sd.signerInfos[i]? = some signer →
    ∃ verdict, (verifySignatures v sd inputs)[i]? = some verdict ∧
      IsVerdictFor v signer.oid (inputs i) verdict

/-- Every signer selects the verifier the first selects. -/
def SameAlgorithm (sd : SignedData) : Prop :=
  ∀ first, sd.signerInfos.head? = some first →
    ∀ signer ∈ sd.signerInfos, algorithmOf signer.oid = algorithmOf first.oid

/-- The branches of the callback, by algorithm. -/
theorem verifyByOid_eq (v : Verifiers) (oid : String) (input : SignerInput) :
    verifyByOid v oid input = match algorithmOf oid with
      | some algorithm => ownVerdict v algorithm input
      | none => .error ("unsupported signature algorithm OID: " ++ oid) := by
  unfold verifyByOid algorithmOf
  by_cases hed : oid = "1.3.101.112"
  · rw [if_pos hed, if_pos hed]
    rfl
  · rw [if_neg hed, if_neg hed]
    by_cases hec : oid = "1.2.840.10045.4.3.2"
    · rw [if_pos hec, if_pos hec]
      rfl
    · rw [if_neg hec, if_neg hec]

/-- Dispatching on an OID is right for every OID that selects the same
    verifier. -/
theorem isVerdictFor_verifyByOid (v : Verifiers) (oid oid' : String) (input : SignerInput)
    (h : algorithmOf oid = algorithmOf oid') :
    IsVerdictFor v oid input (verifyByOid v oid' input) := by
  rw [verifyByOid_eq, IsVerdictFor, h]
  cases algorithmOf oid' with
  | none => exact ⟨_, rfl⟩
  | some algorithm => rfl

/-- What the walk returns for a signer is what the callback says of it. -/
theorem getElem?_verifySignatures (v : Verifiers) (sd : SignedData) (inputs : Nat → SignerInput)
    (i : Nat) (signer : SignerInfo) (h : sd.signerInfos[i]? = some signer) :
    (verifySignatures v sd inputs)[i]? = some (callback v sd i (inputs i)) := by
  have hi : i < sd.signerInfos.length := (List.getElem?_eq_some_iff.mp h).1
  rw [verifySignatures, List.getElem?_map, List.getElem?_range hi, Option.map_some]

/-- Verifiers that accept everything. -/
def acceptingVerifiers : Verifiers where
  VerifyingKey := Unit
  EcdsaSignature := Unit
  ed25519Verifier := fun _ _ _ _ => .ok ()
  fromSec1Bytes := fun _ => .ok ()
  fromDer := fun _ => .ok ()
  verify := fun _ _ _ => .ok ()

/-- A key long enough for either verifier, and nothing signed. -/
def longKey : SignerInput := ⟨List.replicate 65 0, [], []⟩

/-- No key at all. -/
def emptyKey : SignerInput := ⟨[], [], []⟩

theorem ownVerdict_longKey (algorithm : Algorithm) :
    ownVerdict acceptingVerifiers algorithm longKey = .ok () := by
  cases algorithm with
  | ed25519 => rfl
  | ecdsaP256 => rfl

/-- The verifiers refuse an empty key each with an error of its own. -/
theorem ownVerdict_emptyKey_injective (v : Verifiers) (a b : Algorithm)
    (h : ownVerdict v a emptyKey = ownVerdict v b emptyKey) : a = b := by
  have hed : ownVerdict v .ed25519 emptyKey = .error "Ed25519 public key too short" := rfl
  have hec : ownVerdict v .ecdsaP256 emptyKey = .error "ECDSA-P256 public key too short" := rfl
  cases a with
  | ed25519 =>
      cases b with
      | ed25519 => rfl
      | ecdsaP256 =>
          rw [hed, hec] at h
          exact absurd h (by decide)
  | ecdsaP256 =>
      cases b with
      | ed25519 =>
          rw [hed, hec] at h
          exact absurd h (by decide)
      | ecdsaP256 => rfl

/-- A verdict that is right for two OIDs whatever was signed is one verifier's:
    an empty key tells the verifiers apart by their errors, and a long one tells
    both from an unsupported OID once they accept. -/
theorem algorithmOf_eq_of_isVerdictFor (oid oid' : String)
    (h : ∀ v input, IsVerdictFor v oid input (verifyByOid v oid' input)) :
    algorithmOf oid = algorithmOf oid' := by
  have hshort := h acceptingVerifiers emptyKey
  have hlong := h acceptingVerifiers longKey
  rw [verifyByOid_eq, IsVerdictFor] at hshort hlong
  cases hoid : algorithmOf oid with
  | none =>
      cases hoid' : algorithmOf oid' with
      | none => rfl
      | some algorithm =>
          -- The verifier accepts, where only an error would be right.
          simp only [hoid, hoid', ownVerdict_longKey] at hlong
          rcases hlong with ⟨e, he⟩
          exact absurd he (by simp only [reduceCtorEq, not_false_eq_true])
  | some algorithm =>
      cases hoid' : algorithmOf oid' with
      | none =>
          -- Nothing is accepted under an unsupported OID, and the right verifier accepts.
          simp only [hoid, hoid', ownVerdict_longKey] at hlong
          exact absurd hlong (by simp only [reduceCtorEq, not_false_eq_true])
      | some algorithm' =>
          simp only [hoid, hoid'] at hshort
          rw [ownVerdict_emptyKey_injective acceptingVerifiers algorithm' algorithm hshort]

/-- When every signer is judged by its own algorithm: whatever the verifiers are
    and whatever is handed over for each signer, exactly when all signers select
    the verifier the first selects. -/
theorem judged_by_own_algorithm_iff (sd : SignedData) :
    (∀ v inputs, JudgedByOwn v sd inputs) ↔ SameAlgorithm sd := by
  constructor
  · intro h first hfirst signer hsigner
    rcases List.mem_iff_getElem?.mp hsigner with ⟨i, hi⟩
    refine algorithmOf_eq_of_isVerdictFor signer.oid first.oid (fun v input => ?_)
    rcases h v (fun _ => input) i signer hi with ⟨verdict, hverdict, hright⟩
    rw [getElem?_verifySignatures v sd _ i signer hi, Option.some.injEq] at hverdict
    rw [← hverdict, callback, hfirst] at hright
    exact hright
  · intro hsame v inputs i signer hi
    refine ⟨_, getElem?_verifySignatures v sd inputs i signer hi, ?_⟩
    cases hfirst : sd.signerInfos.head? with
    | none =>
        rw [List.head?_eq_none_iff] at hfirst
        rw [hfirst] at hi
        exact absurd hi (by simp only [List.getElem?_nil, reduceCtorEq, not_false_eq_true])
    | some first =>
        rw [callback, hfirst]
        have hmem : signer ∈ sd.signerInfos := List.mem_iff_getElem?.mpr ⟨i, hi⟩
        exact isVerdictFor_verifyByOid v _ _ _ (hsame first hfirst signer hmem)

/-- Verifiers that find no genuine Ed25519 signature and accept ECDSA ones. -/
def ecdsaVerifiers : Verifiers where
  VerifyingKey := Unit
  EcdsaSignature := Unit
  ed25519Verifier := fun _ _ _ _ => .error "signature error"
  fromSec1Bytes := fun _ => .ok ()
  fromDer := fun _ => .ok ()
  verify := fun _ _ _ => .ok ()

/-- An Ed25519 signer followed by an ECDSA-P256 one. -/
def mixedSigners : SignedData := ⟨[⟨"1.3.101.112"⟩, ⟨"1.2.840.10045.4.3.2"⟩]⟩

/-- The second signer's own verifier accepts its signature, and the verdict it
    gets is the Ed25519 verifier's rejection. -/
theorem second_signer_misjudged :
    ownVerdict ecdsaVerifiers .ecdsaP256 longKey = .ok () ∧
      verifySignatures ecdsaVerifiers mixedSigners (fun _ => longKey)
        = [.error "signature error", .error "signature error"] ∧
      ¬ JudgedByOwn ecdsaVerifiers mixedSigners (fun _ => longKey) := by
  refine ⟨by decide, by decide, fun h => ?_⟩
  rcases h 1 ⟨"1.2.840.10045.4.3.2"⟩ rfl with ⟨verdict, hverdict, hright⟩
  rw [show (verifySignatures ecdsaVerifiers mixedSigners (fun _ => longKey))[1]?
    = some (.error "signature error") by decide, Option.some.injEq] at hverdict
  rw [← hverdict] at hright
  have howned : (.error "signature error" : Verdict)
      = ownVerdict ecdsaVerifiers .ecdsaP256 longKey := hright
  exact absurd howned (by decide)

end Cms

end Confium
