import Confium.Lib.RString
import Confium.Lib.Run

/-!
# Jurisdictional Policy

The process-wide policy: which jurisdiction's profile is active, and whether
FIPS 140 mode is on. Two setters write it, `reset!` clears it, and `check!`
reads it to accept or refuse an algorithm and a key size.

The two settings are not independent. Turning FIPS mode on with no jurisdiction
active picks the US profile, so that the mode has key sizes to enforce; `check!`
itself looks a key size up only when some jurisdiction is active.

A setter is handed any value at all, and what it asks of the value is little:
whether it is `nil`, and for a jurisdiction what `to_sym` makes of it. `Setting`
keeps exactly that apart. A profile maps names to minimum key bits, but it also
holds two entries that are not bit counts, its display name and the US profile's
SHA-1 flag, and a check that is asked about one of those names compares a key
size with it. The names are Symbols, and an algorithm given as a String is made
one first, which not every String of bytes can be.

## Main definitions

* `Jurisdiction`, `Jurisdiction.profile`: The built-in profiles.
* `Setting`: A value handed to a setter.
* `PolicyError`: What the setters and the check raise.
* `AlgorithmName`: An algorithm as a Symbol or as a String.
* `Policy`: The two settings.
* `Policy.setJurisdiction`, `Policy.setFipsMode`, `Policy.reset`: The writers.
* `Policy.check`, `Policy.checkAlgorithm`: `check!`.
* `PolicyOp`, `Policy.step`: The writers as steps of a machine.
* `Policy.Does`: Everything a writer can do, and when.

## Theorems

* `Policy.step_does`: Every call of a writer does one of these things.
* `Policy.check_rsa_of_none`, `Policy.check_rsa_of_some`: What becomes of an RSA
  key under no profile, and under any.
* `Policy.check_ne_unapproved`: Out of FIPS mode no algorithm is unapproved.
-/

namespace Confium

open Ruby

/-- The keys of `JURISDICTIONS`. -/
inductive Jurisdiction where
  | eu
  | us
  | cnml
  deriving DecidableEq

namespace Jurisdiction

/-- The symbol a jurisdiction is listed under. -/
def name : Jurisdiction → String
  | .eu => "eu"
  | .us => "us"
  | .cnml => "cnml"

/-- `JURISDICTIONS.keys`. -/
def known : List Jurisdiction := [.eu, .us, .cnml]

/-- Looking a symbol up among the keys of `JURISDICTIONS`. -/
def ofSym? (sym : String) : Option Jurisdiction := known.find? (fun j => j.name == sym)

/-- What a profile lists under a name: a minimum key size, a flag, or a text. -/
inductive Rule where
  | bits (min : Nat)
  | flag (on : Bool)
  | text (s : String)
  deriving DecidableEq

/-- The minimum key bits every profile lists. -/
def keySizes : List (RSymbol × Rule) :=
  [("rsa", .bits 2048), ("ecdsa_p256", .bits 256), ("ecdsa_p384", .bits 384),
    ("ed25519", .bits 256)]

/-- What a profile holds besides. -/
def metadata : Jurisdiction → List (RSymbol × Rule)
  | .eu => [("name", .text "European Union (eIDAS)")]
  | .us => [("sha1_legacy", .flag true), ("name", .text "United States (NIST SP 800-131A)")]
  | .cnml => [("name", .text "OIML CNML (BIPM)")]

/-- `JURISDICTIONS[jurisdiction]`. -/
def profile (j : Jurisdiction) : List (RSymbol × Rule) := keySizes ++ j.metadata

end Jurisdiction

/-- A value handed to a setter. An object that is none of the others may answer
    `to_sym` or not have the method. -/
inductive Setting where
  | nil
  | bool (b : Bool)
  | symbol (name : String)
  | string (text : String)
  | object (toSym : Option String)
  deriving DecidableEq

namespace Setting

/-- Everything but `nil` and `false` counts as true. -/
def truthy : Setting → Bool
  | .nil => false
  | .bool b => b
  | _ => true

/-- `value.to_sym`, `none` when the class has no such method. -/
def toSym : Setting → Option String
  | .symbol name => some name
  | .string text => some text
  | .object sym => sym
  | _ => none

end Setting

/-- What the setters and the check raise. -/
inductive PolicyError where
  /-- `ArgumentError`: a jurisdiction `JURISDICTIONS` does not list. -/
  | unknownJurisdiction (value : Setting)
  /-- `NoMethodError`: a jurisdiction without `to_sym`. -/
  | undefinedToSym (value : Setting)
  /-- `PolicyViolationError`, policy `fips`, violation `unapproved_algorithm`. -/
  | unapprovedAlgorithm (alg : RSymbol)
  /-- `PolicyViolationError`, policy the jurisdiction, violation
      `key_too_small`. -/
  | keyTooSmall (alg : RSymbol) (keyBits : Int) (minBits : Nat) (jurisdiction : Jurisdiction)
  /-- `ArgumentError`: a key size compared with an entry that is no number. -/
  | comparison (entry : Jurisdiction.Rule)
  /-- `EncodingError`: an algorithm name that is no Symbol. -/
  | invalidSymbol (name : RString)
  deriving DecidableEq

namespace PolicyError

/-- `e.class.name`. -/
def className : PolicyError → String
  | .unknownJurisdiction _ => "ArgumentError"
  | .undefinedToSym _ => "NoMethodError"
  | .unapprovedAlgorithm _ => "Confium::PolicyViolationError"
  | .keyTooSmall _ _ _ _ => "Confium::PolicyViolationError"
  | .comparison _ => "ArgumentError"
  | .invalidSymbol _ => "EncodingError"

/-- `e.message`, with `toS` and `symToS` the `to_s` a string interpolation calls
    and `describe` how Ruby core names an operand in its own messages. -/
def message (toS describe : Setting → String) (describeRule : Jurisdiction.Rule → String)
    (symToS : RSymbol → String) (describeName : RString → String) : PolicyError → String
  | .unknownJurisdiction value => "unknown jurisdiction: " ++ toS value ++ " (known: " ++
      ", ".intercalate (Jurisdiction.known.map Jurisdiction.name) ++ ")"
  | .undefinedToSym value => "undefined method 'to_sym' for " ++ describe value
  | .unapprovedAlgorithm alg => "algorithm " ++ symToS alg ++ " is not FIPS-approved"
  | .keyTooSmall alg keyBits minBits jurisdiction => symToS alg ++ " key size " ++
      toString keyBits ++ " below " ++ toString minBits ++ " for " ++ jurisdiction.name
  | .comparison entry => "comparison of Integer with " ++ describeRule entry ++ " failed"
  | .invalidSymbol name => "invalid symbol in encoding " ++ describeName name

end PolicyError

/-- What `check!` is asked about. -/
inductive AlgorithmName where
  | symbol (sym : RSymbol)
  | string (s : RString)
  deriving DecidableEq

/-- `algorithm.to_sym`. -/
def AlgorithmName.toSym (encodings : Encodings) : AlgorithmName → Except PolicyError RSymbol
  | .symbol sym => .ok sym
  | .string s =>
    match s.toSym? encodings with
    | some sym => .ok sym
    | none => .error (.invalidSymbol s)

/-- The module's two settings. -/
structure Policy where
  jurisdiction : Option Jurisdiction
  fipsMode : Bool
  deriving DecidableEq

/-- A call of one of the writers. -/
inductive PolicyOp where
  | setJurisdiction (value : Setting)
  | setFipsMode (value : Setting)
  | reset
  deriving DecidableEq

namespace Policy

/-- The settings when the module is loaded. -/
def initial : Policy := { jurisdiction := none, fipsMode := false }

/-- `jurisdiction=`. -/
def setJurisdiction (p : Policy) (value : Setting) : Except PolicyError Unit × Policy :=
  if value = .nil then (.ok (), { p with jurisdiction := none })
  else
    match value.toSym with
    | none => (.error (.undefinedToSym value), p)
    | some sym =>
      match Jurisdiction.ofSym? sym with
      | none => (.error (.unknownJurisdiction value), p)
      | some j => (.ok (), { p with jurisdiction := some j })

/-- `fips_mode=`. -/
def setFipsMode (p : Policy) (value : Setting) : Except PolicyError Unit × Policy :=
  -- `!value.nil?`: of the two values that count as false only one is `nil`.
  let fipsMode := !decide (value = .nil)
  (.ok (), { jurisdiction := if fipsMode && p.jurisdiction.isNone then some .us
                             else p.jurisdiction,
             fipsMode := fipsMode })

/-- `reset!`. -/
def reset (_ : Policy) : Except PolicyError Unit × Policy := (.ok (), initial)

/-- The algorithms accepted in FIPS mode. -/
def fipsApproved : List RSymbol := ["ecdsa_p256", "ecdsa_p384", "rsa"]

/-- The part of `check!` past the FIPS list: the active profile's minimum. -/
def checkProfile (p : Policy) (alg : RSymbol) (keyBits : Int) : Except PolicyError Bool :=
  match p.jurisdiction with
  | none => .ok true
  | some j =>
    match j.profile.lookup alg with
    | none => .ok true
    | some (.bits minBits) =>
      if keyBits < minBits then .error (.keyTooSmall alg keyBits minBits j) else .ok true
    | some entry => .error (.comparison entry)

/-- `check!`, of the Symbol the algorithm converts to. -/
def check (p : Policy) (alg : RSymbol) (keyBits : Int) : Except PolicyError Bool :=
  if p.fipsMode && !fipsApproved.contains alg then .error (.unapprovedAlgorithm alg)
  else p.checkProfile alg keyBits

/-- `check!`. -/
def checkAlgorithm (encodings : Encodings) (p : Policy) (algorithm : AlgorithmName)
    (keyBits : Int) : Except PolicyError Bool := do
  let alg ← algorithm.toSym encodings
  p.check alg keyBits

/-- The writers as steps of a machine. -/
def step : Machine.Step Policy PolicyOp (Except PolicyError Unit)
  | p, .setJurisdiction value => p.setJurisdiction value
  | p, .setFipsMode value => p.setFipsMode value
  | p, .reset => p.reset

/-- Everything a writer can do, and when. -/
inductive Does (p : Policy) : PolicyOp → Except PolicyError Unit × Policy → Prop where
  | jurisdictionCleared :
      Does p (.setJurisdiction .nil) (.ok (), { p with jurisdiction := none })
  | jurisdictionSet (value : Setting) (j : Jurisdiction) (hnil : value ≠ .nil)
      (hknown : value.toSym.bind Jurisdiction.ofSym? = some j) :
      Does p (.setJurisdiction value) (.ok (), { p with jurisdiction := some j })
  | jurisdictionRejected (value : Setting) (e : PolicyError) (hnil : value ≠ .nil)
      (hunknown : value.toSym.bind Jurisdiction.ofSym? = none) :
      Does p (.setJurisdiction value) (.error e, p)
  | fipsCleared : Does p (.setFipsMode .nil) (.ok (), { p with fipsMode := false })
  | fipsImpliedUs (value : Setting) (hnil : value ≠ .nil) (hnone : p.jurisdiction = none) :
      Does p (.setFipsMode value) (.ok (), { jurisdiction := some .us, fipsMode := true })
  | fipsSet (value : Setting) (j : Jurisdiction) (hnil : value ≠ .nil)
      (hsome : p.jurisdiction = some j) :
      Does p (.setFipsMode value) (.ok (), { p with fipsMode := true })
  | cleared : Does p .reset (.ok (), initial)

/-- Every step is one of these. -/
theorem step_does (p : Policy) (op : PolicyOp) : Does p op (step p op) := by
  cases op with
  | setJurisdiction value =>
      simp only [step, setJurisdiction]
      by_cases hnil : value = .nil
      · rw [if_pos hnil, hnil]
        exact .jurisdictionCleared
      · rw [if_neg hnil]
        cases hsym : value.toSym with
        | none => exact .jurisdictionRejected value _ hnil (by rw [hsym, Option.bind_none])
        | some sym =>
            have hbind : value.toSym.bind Jurisdiction.ofSym? = Jurisdiction.ofSym? sym := by
              rw [hsym, Option.bind_some]
            cases hj : Jurisdiction.ofSym? sym with
            | none =>
                simp only [hj]
                exact .jurisdictionRejected value _ hnil (hbind.trans hj)
            | some j =>
                simp only [hj]
                exact .jurisdictionSet value j hnil (hbind.trans hj)
  | setFipsMode value =>
      simp only [step, setFipsMode]
      by_cases hnil : value = .nil
      · subst hnil
        exact .fipsCleared
      · rw [decide_eq_false hnil]
        -- Turning the mode on without a jurisdiction sets one.
        cases hjur : p.jurisdiction with
        | none => exact .fipsImpliedUs value hnil hjur
        | some j =>
            have hdoes := Does.fipsSet value j hnil hjur
            rw [hjur] at hdoes
            exact hdoes
  | reset => exact .cleared

/-- With no profile active, an RSA key of any size is accepted. -/
theorem check_rsa_of_none (p : Policy) (keyBits : Int) (h : p.jurisdiction = none) :
    p.check "rsa" keyBits = .ok true := by
  have happroved : fipsApproved.contains "rsa" = true := by decide
  unfold check checkProfile
  rw [happroved, h, Bool.not_true, Bool.and_false, if_neg Bool.false_ne_true]

/-- Every profile asks 2048 bits of an RSA key. -/
theorem check_rsa_of_some (p : Policy) (j : Jurisdiction) (keyBits : Int)
    (h : p.jurisdiction = some j) (hlt : keyBits < 2048) :
    p.check "rsa" keyBits = .error (.keyTooSmall "rsa" keyBits 2048 j) := by
  have happroved : fipsApproved.contains "rsa" = true := by decide
  have hrule : j.profile.lookup (.text "rsa") = some (.bits 2048) := by cases j <;> rfl
  unfold check checkProfile
  rw [happroved, h, Bool.not_true, Bool.and_false, if_neg Bool.false_ne_true]
  simp only [hrule]
  exact if_pos hlt

/-- Out of FIPS mode no algorithm is refused for not being approved. -/
theorem check_ne_unapproved (p : Policy) (alg : RSymbol) (keyBits : Int)
    (h : p.fipsMode = false) (alg' : RSymbol) :
    p.check alg keyBits ≠ .error (.unapprovedAlgorithm alg') := by
  unfold check checkProfile
  rw [h, Bool.false_and, if_neg Bool.false_ne_true]
  intro hc
  split at hc
  · exact absurd hc (by simp only [reduceCtorEq, not_false_eq_true])
  · split at hc
    · exact absurd hc (by simp only [reduceCtorEq, not_false_eq_true])
    · split at hc
      · exact absurd hc (by simp only [Except.error.injEq, reduceCtorEq, not_false_eq_true])
      · exact absurd hc (by simp only [reduceCtorEq, not_false_eq_true])
    · exact absurd hc (by simp only [Except.error.injEq, reduceCtorEq, not_false_eq_true])

end Policy

end Confium
