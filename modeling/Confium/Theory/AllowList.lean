import Confium.Lib.Hash
import Confium.Core.Policy

/-!
# What a Profile Allows

A profile is described as the list of the algorithms a jurisdiction allows, with
the key sizes it asks of them, and `check!` as what keeps to that list: an
algorithm that is listed, approved where FIPS mode asks for it and large enough
is let through, and anything else is a policy violation.

The check looks a name up and refuses a key that is below what it finds. A name
it finds nothing under is let through, so the list allows nothing and limits what
it names. In FIPS mode that does not show, since the approved algorithms are all
listed and others have been refused by then. Out of it every name that is not one
of the four is treated wrongly: most are let through, the names of the profile's
own entries that are no key sizes raise an `ArgumentError`, and a name that is no
Symbol raises an `EncodingError`, in either mode.

## Main definitions

* `Allowed`: An algorithm and a key size the list allows.
* `EnforcesAllowList`: The check lets through what is allowed and refuses the
  rest as a violation.

## Theorems

* `mem_profile_iff`: A profile has at most one entry under a name.
* `checkProfile_of_listed`, `checkProfile_of_unlisted`: What becomes of a key of
  an algorithm that is listed, and of one that is not.
* `allowList_enforced_iff`: The names the list is enforced for.
-/

namespace Confium

open Ruby

namespace Policy

/-- An algorithm is listed, with the key bits a profile asks of it. -/
def Listed (j : Jurisdiction) (alg : RSymbol) (minBits : Nat) : Prop :=
  (alg, Jurisdiction.Rule.bits minBits) ∈ j.profile

/-- An algorithm and a key size the list allows. -/
def Allowed (j : Jurisdiction) (fips : Bool) (alg : RSymbol) (keyBits : Int) : Prop :=
  ∃ minBits, Listed j alg minBits ∧ (fips = true → alg ∈ fipsApproved) ∧ (minBits : Int) ≤ keyBits

/-- The check lets through exactly what is allowed, and refuses the rest as a
    policy violation. -/
def EnforcesAllowList (encodings : Encodings) (j : Jurisdiction) (fips : Bool)
    (algorithm : AlgorithmName) (keyBits : Int) : Prop :=
  (checkAlgorithm encodings ⟨some j, fips⟩ algorithm keyBits = .ok true ↔
      ∃ alg, algorithm.toSym encodings = .ok alg ∧ Allowed j fips alg keyBits) ∧
    (checkAlgorithm encodings ⟨some j, fips⟩ algorithm keyBits ≠ .ok true →
      ∃ e, checkAlgorithm encodings ⟨some j, fips⟩ algorithm keyBits = .error e ∧
        e.className = "Confium::PolicyViolationError")

/-- A profile has at most one entry under a name. -/
theorem mem_profile_iff (j : Jurisdiction) (alg : RSymbol) (rule : Jurisdiction.Rule) :
    (alg, rule) ∈ j.profile ↔ j.profile.lookup alg = some rule := by
  have hnodup : (j.profile.map Prod.fst).Nodup := by cases j <;> decide
  exact (Hash.get?_eq_some_iff ⟨j.profile, hnodup⟩ alg rule).symm

theorem listed_iff (j : Jurisdiction) (alg : RSymbol) (minBits : Nat) :
    Listed j alg minBits ↔ j.profile.lookup alg = some (.bits minBits) :=
  mem_profile_iff j alg _

/-- A key of an algorithm that is listed has to be as large as the list says. -/
theorem checkProfile_of_listed (j : Jurisdiction) (fips : Bool) (alg : RSymbol) (keyBits : Int)
    (minBits : Nat) (h : Listed j alg minBits) :
    checkProfile ⟨some j, fips⟩ alg keyBits =
      if keyBits < minBits then .error (.keyTooSmall alg keyBits minBits j) else .ok true := by
  simp only [checkProfile, (listed_iff j alg minBits).mp h]

/-- A name that is not listed is let through, or else compared with what the
    profile has under it. -/
theorem checkProfile_of_unlisted (j : Jurisdiction) (fips : Bool) (alg : RSymbol) (keyBits : Int)
    (h : ∀ minBits, ¬ Listed j alg minBits) :
    checkProfile ⟨some j, fips⟩ alg keyBits = .ok true ∨
      ∃ entry, checkProfile ⟨some j, fips⟩ alg keyBits = .error (.comparison entry) := by
  simp only [checkProfile]
  cases hlookup : j.profile.lookup alg with
  | none => exact Or.inl rfl
  | some rule =>
      cases rule with
      | bits minBits => exact absurd ((listed_iff j alg minBits).mpr hlookup) (h minBits)
      | flag on => exact Or.inr ⟨_, rfl⟩
      | text s => exact Or.inr ⟨_, rfl⟩

/-- Every profile lists the approved algorithms. -/
theorem listed_of_approved (j : Jurisdiction) (alg : RSymbol) (h : alg ∈ fipsApproved) :
    ∃ minBits, Listed j alg minBits := by
  simp only [fipsApproved, List.mem_cons, List.not_mem_nil, or_false] at h
  rcases h with rfl | rfl | rfl
  · exact ⟨256, (listed_iff j _ _).mpr (by cases j <;> rfl)⟩
  · exact ⟨384, (listed_iff j _ _).mpr (by cases j <;> rfl)⟩
  · exact ⟨2048, (listed_iff j _ _).mpr (by cases j <;> rfl)⟩

/-- What the check comes to for a listed algorithm that FIPS mode does not
    refuse. -/
theorem check_of_listed (j : Jurisdiction) (fips : Bool) (alg : RSymbol) (keyBits : Int)
    (minBits : Nat) (h : Listed j alg minBits) (hfips : fips = true → alg ∈ fipsApproved) :
    check ⟨some j, fips⟩ alg keyBits =
      if keyBits < minBits then .error (.keyTooSmall alg keyBits minBits j) else .ok true := by
  rw [check, ← checkProfile_of_listed j fips alg keyBits minBits h]
  refine if_neg (fun hrefused => ?_)
  rw [Bool.and_eq_true, Bool.not_eq_true', ← Bool.not_eq_true, List.contains_iff_mem] at hrefused
  exact hrefused.2 (hfips hrefused.1)

/-- FIPS mode refuses what is not approved before the profile is looked at. -/
theorem check_of_unapproved (j : Jurisdiction) (alg : RSymbol) (keyBits : Int)
    (h : alg ∉ fipsApproved) :
    check ⟨some j, true⟩ alg keyBits = .error (.unapprovedAlgorithm alg) := by
  have hcontains : fipsApproved.contains alg = false := by
    rw [← Bool.not_eq_true, List.contains_iff_mem]
    exact h
  rw [check, hcontains]
  rfl

/-- Out of FIPS mode nothing but the profile is looked at. -/
theorem check_of_not_fips (j : Jurisdiction) (alg : RSymbol) (keyBits : Int) :
    check ⟨some j, false⟩ alg keyBits = checkProfile ⟨some j, false⟩ alg keyBits := rfl

section Enforcement

variable (encodings : Encodings) (j : Jurisdiction) (fips : Bool) (algorithm : AlgorithmName)
  (alg : RSymbol) (keyBits : Int) (hsym : algorithm.toSym encodings = .ok alg)

include hsym

/-- Past the conversion of its name, the list is enforced when the check decides
    as the list does. -/
theorem enforcesAllowList_iff :
    EnforcesAllowList encodings j fips algorithm keyBits ↔
      (check ⟨some j, fips⟩ alg keyBits = .ok true ↔ Allowed j fips alg keyBits) ∧
        (check ⟨some j, fips⟩ alg keyBits ≠ .ok true →
          ∃ e, check ⟨some j, fips⟩ alg keyBits = .error e ∧
            e.className = "Confium::PolicyViolationError") := by
  have hcheck : checkAlgorithm encodings ⟨some j, fips⟩ algorithm keyBits
      = check ⟨some j, fips⟩ alg keyBits := by
    simp only [checkAlgorithm, hsym, bind, Except.bind]
  simp only [EnforcesAllowList, hcheck, hsym, Except.ok.injEq, exists_eq_left']

/-- The list is enforced for the algorithms it names. -/
theorem enforces_of_listed (minBits : Nat) (h : Listed j alg minBits)
    (hfips : fips = true → alg ∈ fipsApproved) :
    EnforcesAllowList encodings j fips algorithm keyBits := by
  rw [enforcesAllowList_iff encodings j fips algorithm alg keyBits hsym,
    check_of_listed j fips alg keyBits minBits h hfips]
  -- There is one entry under the name, so what is allowed is decided by its size.
  have hallowed : Allowed j fips alg keyBits ↔ ¬ keyBits < minBits := by
    constructor
    · rintro ⟨minBits', h', _, hle⟩
      have hsame := ((listed_iff j alg minBits).mp h).symm.trans ((listed_iff j alg minBits').mp h')
      rw [Option.some.injEq, Jurisdiction.Rule.bits.injEq] at hsame
      rw [hsame]
      omega
    · intro hle
      exact ⟨minBits, h, hfips, by omega⟩
  rw [hallowed]
  by_cases hlt : keyBits < minBits
  · rw [if_pos hlt]
    refine ⟨iff_of_false (by simp only [reduceCtorEq, not_false_eq_true]) (not_not.mpr hlt), ?_⟩
    exact fun _ => ⟨_, rfl, rfl⟩
  · rw [if_neg hlt]
    exact ⟨iff_of_true rfl hlt, fun hne => absurd rfl hne⟩

/-- In FIPS mode it is enforced for every other name too. -/
theorem enforces_of_fips : EnforcesAllowList encodings j true algorithm keyBits := by
  by_cases happroved : alg ∈ fipsApproved
  · rcases listed_of_approved j alg happroved with ⟨minBits, h⟩
    exact enforces_of_listed encodings j true algorithm alg keyBits hsym minBits h
      (fun _ => happroved)
  · rw [enforcesAllowList_iff encodings j true algorithm alg keyBits hsym,
      check_of_unapproved j alg keyBits happroved]
    refine ⟨iff_of_false (by simp only [reduceCtorEq, not_false_eq_true]) ?_,
      fun _ => ⟨_, rfl, rfl⟩⟩
    rintro ⟨minBits, _, hfips, _⟩
    exact happroved (hfips rfl)

/-- Out of FIPS mode it is enforced for no name that is not listed. -/
theorem not_enforces_of_unlisted (h : ∀ minBits, ¬ Listed j alg minBits) :
    ¬ EnforcesAllowList encodings j false algorithm keyBits := by
  rw [enforcesAllowList_iff encodings j false algorithm alg keyBits hsym, check_of_not_fips]
  rintro ⟨hiff, hviolation⟩
  rcases checkProfile_of_unlisted j false alg keyBits h with hpasses | ⟨entry, hraises⟩
  · rcases hiff.mp hpasses with ⟨minBits, hlisted, _⟩
    exact h minBits hlisted
  · rw [hraises] at hviolation
    rcases hviolation (by simp only [ne_eq, reduceCtorEq, not_false_eq_true]) with ⟨e, he, hclass⟩
    rw [Except.error.injEq] at he
    rw [← he] at hclass
    exact absurd hclass (show "ArgumentError" ≠ "Confium::PolicyViolationError" by decide)

end Enforcement

/-- Under an active jurisdiction the list is enforced exactly for the names that
    are Symbols and, out of FIPS mode, are listed. -/
theorem allowList_enforced_iff (encodings : Encodings) (j : Jurisdiction) (fips : Bool)
    (algorithm : AlgorithmName) (keyBits : Int) :
    EnforcesAllowList encodings j fips algorithm keyBits ↔
      ∃ alg, algorithm.toSym encodings = .ok alg ∧
        (fips = true ∨ ∃ minBits, Listed j alg minBits) := by
  cases hsym : algorithm.toSym encodings with
  | error e =>
      refine iff_of_false ?_ (by simp only [reduceCtorEq, false_and, exists_false,
        not_false_eq_true])
      rintro ⟨_, hviolation⟩
      have hcheck : checkAlgorithm encodings ⟨some j, fips⟩ algorithm keyBits = .error e := by
        simp only [checkAlgorithm, hsym, bind, Except.bind]
      rw [hcheck] at hviolation
      rcases hviolation (by simp only [ne_eq, reduceCtorEq, not_false_eq_true]) with
        ⟨e', he, hclass⟩
      rw [Except.error.injEq] at he
      rw [← he] at hclass
      -- Converting a name raises one thing only.
      cases algorithm with
      | symbol sym => exact absurd hsym (by simp only [AlgorithmName.toSym, reduceCtorEq,
          not_false_eq_true])
      | string s =>
          simp only [AlgorithmName.toSym] at hsym
          split at hsym
          · exact absurd hsym (by simp only [reduceCtorEq, not_false_eq_true])
          · rw [Except.error.injEq] at hsym
            rw [← hsym] at hclass
            exact absurd hclass (show "EncodingError" ≠ "Confium::PolicyViolationError" by decide)
  | ok alg =>
      simp only [Except.ok.injEq, exists_eq_left']
      cases fips with
      | true =>
          exact iff_of_true (enforces_of_fips encodings j algorithm alg keyBits hsym)
            (Or.inl rfl)
      | false =>
          rw [or_iff_right Bool.false_ne_true]
          constructor
          · intro henforced
            by_contra hunlisted
            exact not_enforces_of_unlisted encodings j algorithm alg keyBits hsym
              (not_exists.mp hunlisted) henforced
          · rintro ⟨minBits, h⟩
            exact enforces_of_listed encodings j false algorithm alg keyBits hsym minBits h
              (fun hc => absurd hc Bool.false_ne_true)

/-- SHA-1 is let through under the EU profile, which does not list it, and the
    name of the profile's own title raises an `ArgumentError`. -/
theorem legacy_algorithm_let_through :
    checkAlgorithm Encodings.none ⟨some .eu, false⟩ (.string (RString.ofString "sha1")) 160
        = .ok true ∧
      checkAlgorithm Encodings.none ⟨some .eu, false⟩ (.symbol "name") 256
        = .error (.comparison (.text "European Union (eIDAS)")) ∧
      ¬ EnforcesAllowList Encodings.none .eu false (.string (RString.ofString "sha1")) 160 := by
  refine ⟨by decide +kernel, by decide +kernel, ?_⟩
  rintro ⟨hiff, _⟩
  rcases hiff.mp (by decide +kernel) with ⟨alg, hsym, minBits, hlisted, _⟩
  have halg : (RSymbol.text "sha1") = alg := by
    rw [show AlgorithmName.toSym Encodings.none (.string (RString.ofString "sha1"))
      = .ok (.text "sha1") by decide +kernel] at hsym
    exact Except.ok.inj hsym
  have hnone : Jurisdiction.eu.profile.lookup (.text "sha1") = none := by decide
  rw [listed_iff, ← halg, hnone] at hlisted
  exact absurd hlisted (by simp only [reduceCtorEq, not_false_eq_true])

end Policy

end Confium
