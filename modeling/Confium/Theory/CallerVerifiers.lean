import Confium.Core.CallerVerifiers
import Confium.Lib.Run

/-!
# Callers Extend, and Do Not Override

A Hash of verifiers adds algorithms to those the extension verifies itself and
changes nothing about these. Whether a composite signature is verified depends on
each component being accepted by the one verifier its algorithm selects, and that
is never a callback where there is a built-in one. So what a Hash holds under the
name of a built-in algorithm is never looked at: two Hashes that differ only there
verify alike.

The callbacks may keep a state, so a component is judged in the state the calls
for the components before it left. Verifying is then a run of a responding
machine, whose operations are the components, and the rules for such runs say what
holds of each call.

A Hash of verifiers is one whose keys are text. Any other makes `verify` raise
before anything is verified, and `insertCallers_isOk_iff` is where that shows.

## Main definitions

* `VerifierMap`: A Hash of verifiers whose keys are text.
* `VerifierMap.callbackFor`: The callback for a name.
* `builtIns`: The algorithms with a verifier of their own.
* `judge`: Whether a component is accepted by the verifier its algorithm selects.
* `CompositeUpstream.Lawful`: What upstream's walk is relied on for.

## Theorems

* `insertCallers_isOk_iff`: The Hashes that are read.
* `lookup_insertCallers`: What is found in the callbacks that were read.
* `judge_eq`: The closure judges as the selected verifier does.
* `selectVerifier_congr`: The callbacks under built-in names are not looked at.
* `insertVerifiers_eq`, `selectVerifier_stateless`: The closure of `Core.Signing` is
  the one for callbacks without a state.
* `callers_extend_builtIns`: What verifying returns, for any Hash of verifiers.
-/

namespace Confium

open Ruby

namespace Composite

/-- A Hash of verifiers, under keys that are text. -/
structure VerifierMap (transcoder : Transcoder) (σ : Type) where
  callbacks : Hash RString (Callback σ)
  text : ∀ entry ∈ callbacks.entries, (toRustString transcoder entry.1).isSome = true

/-- The entries as `verify` is given them. -/
def VerifierMap.entries {transcoder : Transcoder} {σ : Type} (map : VerifierMap transcoder σ) :
    List (HashKey × Callback σ) :=
  map.callbacks.entries.map (fun entry => (.str entry.1, entry.2))

/-- An entry of the given name. -/
def named {V : Type} (transcoder : Transcoder) (name : String) (entry : RString × V) : Option V :=
  if toRustString transcoder entry.1 = some name then some entry.2 else none

/-- The callback for a name. Keys of different encodings may be the same text, and
    then the last one counts. -/
def VerifierMap.callbackFor {transcoder : Transcoder} {σ : Type} (map : VerifierMap transcoder σ)
    (name : String) : Option (Callback σ) :=
  map.callbacks.entries.reverse.findSome? (named transcoder name)

/-- The algorithms with a verifier of their own. -/
def builtIns : List String := ["Ed25519", "ECDSA-P256", "ECDSA"]

/-- Whether a component is accepted by the verifier its algorithm selects: a
    built-in one, or else the callback for that name. Without a callback, or where
    it raises or returns false, it is not. -/
def judge {transcoder : Transcoder} {σ : Type} (up : CompositeUpstream)
    (map : VerifierMap transcoder σ) (msg : Bytes) : Machine.Step σ ComponentSignature Bool :=
  fun s c =>
    if c.algorithm = "Ed25519" then
      ((up.ed25519Verifier c.algorithm c.publicKey msg c.signature).isOk, s)
    else if c.algorithm = "ECDSA-P256" ∨ c.algorithm = "ECDSA" then
      ((up.p256Verifier c.algorithm c.publicKey msg c.signature).isOk, s)
    else
      match map.callbackFor c.algorithm with
      | none => (false, s)
      | some callback =>
        match callback c.publicKey msg c.signature s with
        | (.ok accepted, s) => (accepted, s)
        | (.error _, s) => (false, s)

/-- A closure called for one component after another. -/
def callStep {σ : Type} (f : Verifier σ) (msg : Bytes) :
    Machine.Step σ ComponentSignature (Except String Unit) :=
  fun s c => f c.algorithm c.publicKey msg c.signature s

/-- What upstream is relied on for: its names of the two algorithms, and that on a
    list that is not empty it calls the closure once for each component, in order,
    and takes the conjunction. -/
structure CompositeUpstream.Lawful (up : CompositeUpstream) : Prop where
  ed25519_eq : up.ed25519 = "Ed25519"
  ecdsaP256_eq : up.ecdsaP256 = "ECDSA-P256"
  verify_eq : ∀ (σ : Type) (components : List ComponentSignature) (msg : Bytes) (f : Verifier σ)
    (s : σ), components ≠ [] → ∃ result,
      up.verify σ components msg f s = (.ok result, Machine.run (callStep f msg) s components) ∧
      result.allVerified = (Machine.trace (callStep f msg) s components).all (fun t => t.out.isOk)

theorem keyText_str_eq_ok_iff (transcoder : Transcoder) (key : RString) (name : String) :
    keyText transcoder (.str key) = .ok name ↔ toRustString transcoder key = some name := by
  rw [keyText, textArg, mapError_eq_ok_iff, stringFromValue]
  cases toRustString transcoder key with
  | none => simp only [reduceCtorEq]
  | some t => simp only [Except.ok.injEq, Option.some.injEq]

section Reading

variable {V : Type} (transcoder : Transcoder)

/-- The Hashes that are read are those whose keys are text. -/
theorem insertCallers_isOk_iff (out : List (String × V)) (entries : List (RString × V)) :
    (∃ callers, insertCallers transcoder out
      (entries.map (fun entry => (.str entry.1, entry.2))) = .ok callers) ↔
      ∀ entry ∈ entries, (toRustString transcoder entry.1).isSome = true := by
  induction entries generalizing out with
  | nil => exact iff_of_true ⟨out, rfl⟩ (fun entry h => absurd h List.not_mem_nil)
  | cons entry rest ih =>
      rw [List.forall_mem_cons, Option.isSome_iff_exists]
      simp only [List.map_cons, insertCallers, bind_eq_ok_iff, keyText_str_eq_ok_iff]
      constructor
      · rintro ⟨callers, name, hname, hrest⟩
        exact ⟨⟨name, hname⟩, (ih _).mp ⟨callers, hrest⟩⟩
      · rintro ⟨⟨name, hname⟩, hrest⟩
        rcases (ih ((name, entry.2) :: out)).mpr hrest with ⟨callers, hcallers⟩
        exact ⟨callers, name, hname, hcallers⟩

/-- What is found in the callbacks that were read. -/
theorem lookup_insertCallers (out : List (String × V)) (entries : List (RString × V))
    (callers : List (String × V)) (name : String)
    (h : insertCallers transcoder out (entries.map (fun entry => (.str entry.1, entry.2)))
      = .ok callers) :
    callers.lookup name =
      (entries.reverse.findSome? (named transcoder name)).or (out.lookup name) := by
  induction entries generalizing out with
  | nil =>
      rw [List.map_nil, insertCallers, Except.ok.injEq] at h
      rw [← h, List.reverse_nil, List.findSome?_nil, Option.none_or]
  | cons entry rest ih =>
      simp only [List.map_cons, insertCallers, bind_eq_ok_iff, keyText_str_eq_ok_iff] at h
      rcases h with ⟨key, hkey, hrest⟩
      rw [ih _ hrest, List.reverse_cons, List.findSome?_append, Option.or_assoc]
      congr 1
      -- A later entry of the same name hides what was there.
      rw [List.findSome?_singleton, named, hkey, List.lookup_cons]
      by_cases hname : key = name
      · rw [hname, beq_self_eq_true, if_pos rfl, Option.some_or]
      · rw [beq_eq_false_iff_ne.mpr (Ne.symm hname), if_neg, Option.none_or]
        rw [Option.some.injEq]
        exact hname

end Reading

section Verifying

variable {transcoder : Transcoder} {σ : Type} (up : CompositeUpstream) (hup : up.Lawful)
  (map : VerifierMap transcoder σ) (callers : List (String × Callback σ))

/-- The map is read, as the callbacks its names have. -/
theorem insertCallers_entries :
    ∃ callers, insertCallers transcoder [] map.entries = .ok callers ∧
      ∀ name, callers.lookup name = map.callbackFor name := by
  rcases (insertCallers_isOk_iff transcoder [] map.callbacks.entries).mpr map.text with
    ⟨callers, hcallers⟩
  refine ⟨callers, hcallers, fun name => ?_⟩
  rw [lookup_insertCallers transcoder [] map.callbacks.entries callers name hcallers,
    List.lookup_nil, Option.or_none]
  rfl

include hup

/-- The closure judges as the selected verifier does. -/
theorem judge_eq (hcallers : ∀ name, callers.lookup name = map.callbackFor name) (msg : Bytes)
    (s : σ) (c : ComponentSignature) :
    judge up map msg s c = ((callStep (selectVerifier up callers) msg s c).1.isOk,
      (callStep (selectVerifier up callers) msg s c).2) := by
  rw [judge, callStep, selectVerifier, hup.ed25519_eq, hup.ecdsaP256_eq, hcallers]
  by_cases hed : c.algorithm = "Ed25519"
  · rw [if_pos hed, if_pos hed]
  · rw [if_neg hed, if_neg hed]
    by_cases hecdsa : c.algorithm = "ECDSA-P256" ∨ c.algorithm = "ECDSA"
    · rw [if_pos hecdsa, if_pos hecdsa]
    · rw [if_neg hecdsa, if_neg hecdsa]
      cases map.callbackFor c.algorithm with
      | none => rfl
      | some callback =>
          simp only [invokeCaller]
          rcases callback c.publicKey msg c.signature s with ⟨answer, s'⟩
          cases answer with
          | error e => rfl
          | ok accepted => cases accepted <;> rfl

/-- The callbacks under built-in names are not looked at. -/
theorem selectVerifier_congr (callers' : List (String × Callback σ))
    (h : ∀ name, name ∉ builtIns → callers'.lookup name = callers.lookup name) :
    selectVerifier up callers' = selectVerifier up callers := by
  funext algorithm publicKey message signature s
  rw [selectVerifier, selectVerifier, hup.ed25519_eq, hup.ecdsaP256_eq]
  by_cases hed : algorithm = "Ed25519"
  · rw [if_pos hed, if_pos hed]
  · rw [if_neg hed, if_neg hed]
    by_cases hecdsa : algorithm = "ECDSA-P256" ∨ algorithm = "ECDSA"
    · rw [if_pos hecdsa, if_pos hecdsa]
    · have hother : algorithm ∉ builtIns := by
        simp only [builtIns, List.mem_cons, List.not_mem_nil, or_false]
        rintro (h | h | h)
        · exact hed h
        · exact hecdsa (Or.inl h)
        · exact hecdsa (Or.inr h)
      rw [if_neg hecdsa, if_neg hecdsa, h algorithm hother]

/-- What upstream's walk returns: the conjunction of what the selected verifiers
    say, each in the state the calls before it left. -/
theorem allVerified_iff (hcallers : ∀ name, callers.lookup name = map.callbackFor name)
    (components : List ComponentSignature) (msg : Bytes) (s : σ) :
    (Machine.trace (callStep (selectVerifier up callers) msg) s components).all
        (fun t => t.out.isOk) = true ↔
      ∀ pre c post, components = pre ++ c :: post →
        (judge up map msg (Machine.run (judge up map msg) s pre) c).1 = true := by
  -- Judging and calling go through the same states.
  have hrun : ∀ pre, Machine.run (judge up map msg) s pre =
      Machine.run (callStep (selectVerifier up callers) msg) s pre := by
    refine Machine.run_congr _ _ (fun s c => ?_) s
    rw [judge_eq up hup map callers hcallers]
  rw [List.all_eq_true, Machine.forall_trace_iff]
  refine forall₃_congr fun pre c post => imp_congr_right fun _ => ?_
  rw [hrun, judge_eq up hup map callers hcallers]
  rfl

end Verifying

section Stateless

variable {σ : Type} (signing : SigningUpstream) (verify : Walk)

/-- The upstream of `Core.Signing`, as far as the closure uses it. -/
def CompositeUpstream.ofSigning : CompositeUpstream where
  ed25519 := signing.ed25519
  ecdsaP256 := signing.ecdsaP256
  ed25519Verifier := signing.ed25519Verifier
  p256Verifier := signing.p256Verifier
  verify := verify

/-- An argument as a callback that keeps no state. -/
def stateless : Arg → Callback σ
  | .callable call => fun publicKey message signature s => (call publicKey message signature, s)
  | _ => fun _ _ _ s => (.error "undefined method 'call'", s)

theorem lookup_map_snd {V W : Type} (f : V → W) (name : String) (es : List (String × V)) :
    (es.map (fun entry => (entry.1, f entry.2))).lookup name = (es.lookup name).map f := by
  induction es with
  | nil => rfl
  | cons entry es ih =>
      rw [List.map_cons, List.lookup_cons, List.lookup_cons, ih]
      cases name == entry.1 <;> rfl

theorem insertVerifiers_eq (transcoder : Transcoder) (out : List (String × Arg))
    (entries : Entries) :
    insertVerifiers transcoder out entries = insertCallers transcoder out entries := by
  induction entries generalizing out with
  | nil => rfl
  | cons entry rest ih =>
      rw [insertVerifiers, insertCallers]
      simp only [ih]

theorem invokeCaller_stateless (callback : Arg) (publicKey message signature : Bytes) (s : σ) :
    invokeCaller (stateless callback) publicKey message signature s =
      (invokeCallerVerifier callback publicKey message signature, s) := by
  cases callback with
  | callable call =>
      simp only [invokeCaller, stateless, invokeCallerVerifier]
      cases call publicKey message signature with
      | error e => rfl
      | ok accepted => cases accepted <;> rfl
  | _ => rfl

/-- With callbacks that keep no state the closure is the one of `Core.Signing`,
    and leaves the state as it was. -/
theorem selectVerifier_stateless (args : List (String × Arg)) (algorithm : String)
    (publicKey message signature : Bytes) (s : σ) :
    selectVerifier (.ofSigning signing verify)
        (args.map (fun entry => (entry.1, stateless entry.2))) algorithm publicKey message
        signature s =
      (componentVerifier signing args algorithm publicKey message signature, s) := by
  rw [selectVerifier, componentVerifier, lookup_map_snd, CompositeUpstream.ofSigning]
  by_cases hed : algorithm = signing.ed25519
  · rw [if_pos hed, if_pos hed]
  · rw [if_neg hed, if_neg hed]
    by_cases hecdsa : algorithm = signing.ecdsaP256 ∨ algorithm = "ECDSA"
    · rw [if_pos hecdsa, if_pos hecdsa]
    · rw [if_neg hecdsa, if_neg hecdsa]
      -- Only here does the Hash matter, and calling keeps the state.
      cases args.lookup algorithm with
      | none => rfl
      | some callback => exact invokeCaller_stateless callback publicKey message signature s

end Stateless

/-- For every Hash of verifiers and every list of components that is not empty, a
    message that is read is verified. All of it is verified exactly when each
    component is accepted by the verifier its algorithm selects, and any other
    Hash that has the same callbacks under all but the built-in names leads to the
    same result. -/
theorem callers_extend_builtIns {transcoder : Transcoder} {σ : Type} (up : CompositeUpstream)
    (hup : up.Lawful) (map : VerifierMap transcoder σ) (components : List ComponentSignature)
    (hne : components ≠ []) (message : Arg) (msg : Bytes) (hmsg : message.bytes = .ok msg) (s : σ) :
    ∃ result s', verifyWith up transcoder components message (some map.entries) s
        = (.ok result, s') ∧
      (result.allVerified = true ↔ ∀ pre c post, components = pre ++ c :: post →
        (judge up map msg (Machine.run (judge up map msg) s pre) c).1 = true) ∧
      ∀ map' : VerifierMap transcoder σ,
        (∀ name, name ∉ builtIns → map'.callbackFor name = map.callbackFor name) →
        verifyWith up transcoder components message (some map'.entries) s = (.ok result, s') := by
  rcases insertCallers_entries map with ⟨callers, hread, hcallers⟩
  rcases hup.verify_eq σ components msg (selectVerifier up callers) s hne with
    ⟨result, hverify, hall⟩
  refine ⟨result, Machine.run (callStep (selectVerifier up callers) msg) s components, ?_, ?_, ?_⟩
  · simp only [verifyWith, hmsg, Option.getD_some, hread, hverify]
  · rw [hall]
    exact allVerified_iff up hup map callers hcallers components msg s
  · intro map' hagree
    rcases insertCallers_entries map' with ⟨callers', hread', hcallers'⟩
    -- The two closures are the same function, so upstream cannot tell them apart.
    have hsame : selectVerifier up callers' = selectVerifier up callers := by
      refine selectVerifier_congr up hup callers callers' (fun name hname => ?_)
      rw [hcallers', hcallers, hagree name hname]
    simp only [verifyWith, hmsg, Option.getD_some, hread', hsame, hverify]

/-- An upstream that walks the components and finds every key malformed. -/
def strictUpstream : CompositeUpstream where
  ed25519 := "Ed25519"
  ecdsaP256 := "ECDSA-P256"
  ed25519Verifier := fun _ _ _ _ => .error "invalid Ed25519 public key"
  p256Verifier := fun _ _ _ _ => .error "invalid P-256 public key"
  verify := fun _ components msg f s =>
    if components = [] then (.error "no components", s)
    else
      (.ok ⟨(Machine.trace (callStep f msg) s components).all (fun t => t.out.isOk),
        (Machine.trace (callStep f msg) s components).zipIdx.map (fun p =>
          ⟨p.2, p.1.op.algorithm, p.1.out.isOk,
            match p.1.out with
            | .ok _ => none
            | .error e => some e⟩)⟩,
        Machine.run (callStep f msg) s components)

theorem strictUpstream_lawful : strictUpstream.Lawful where
  ed25519_eq := rfl
  ecdsaP256_eq := rfl
  verify_eq := by
    intro σ components msg f s hne
    simp only [strictUpstream, if_neg hne]
    exact ⟨_, rfl, rfl⟩

/-- A callback that accepts on its first call only. -/
def acceptOnce : Callback Nat := fun _ _ _ calls => (.ok (calls == 0), calls + 1)

/-- A callback that accepts always. -/
def acceptAll : Callback Nat := fun _ _ _ calls => (.ok true, calls)

theorem toRustString_ofString (transcoder : Transcoder) (s : String) :
    toRustString transcoder (RString.ofString s) = some s :=
  (decodeUtf8_eq_some_iff _ _).mpr rfl

theorem ofString_injective : Function.Injective RString.ofString := fun _ _ h =>
  utf8_injective (congrArg RString.bytes h)

/-- Callbacks under names as a literal Hash has them. -/
def literalMap (transcoder : Transcoder) {σ : Type} (entries : List (String × Callback σ))
    (hnodup : (entries.map Prod.fst).Nodup) : VerifierMap transcoder σ where
  callbacks :=
    ⟨entries.map (fun entry => (RString.ofString entry.1, entry.2)), by
      rw [List.map_map]
      have hkeys := hnodup.map ofString_injective
      rwa [List.map_map] at hkeys⟩
  text := by
    intro entry hentry
    rcases List.mem_map.mp hentry with ⟨e, _, rfl⟩
    rw [toRustString_ofString]
    rfl

/-- A post-quantum verifier, and one under the name of a built-in algorithm. -/
def shadowing : VerifierMap (fun _ _ => none) Nat :=
  literalMap _ [("ML-DSA-65", acceptOnce), ("Ed25519", acceptAll)] (by decide)

/-- The post-quantum verifier alone. -/
def plainMap : VerifierMap (fun _ _ => none) Nat :=
  literalMap _ [("ML-DSA-65", acceptOnce)] (by decide)

theorem callbackFor_shadowing (name : String) : shadowing.callbackFor name =
    if "Ed25519" = name then some acceptAll else plainMap.callbackFor name := by
  simp only [VerifierMap.callbackFor, shadowing, plainMap, literalMap, List.map_cons, List.map_nil,
    List.reverse_cons, List.reverse_nil, List.nil_append, List.singleton_append,
    List.findSome?_cons, List.findSome?_nil, named, toRustString_ofString, Option.some.injEq]
  by_cases hed : "Ed25519" = name
  · rw [if_pos hed, if_pos hed]
  · rw [if_neg hed, if_neg hed]

theorem callbackFor_plainMap : plainMap.callbackFor "ML-DSA-65" = some acceptOnce := by
  simp only [VerifierMap.callbackFor, plainMap, literalMap, List.map_cons, List.map_nil,
    List.reverse_singleton, List.findSome?_singleton, named, toRustString_ofString, if_true]

/-- A component of the post-quantum algorithm. -/
def mlDsa : ComponentSignature := ⟨"ML-DSA-65", [1], [2]⟩

/-- A component of a built-in algorithm, with a key that is none. -/
def badEd25519 : ComponentSignature := ⟨"Ed25519", [], []⟩

/-- A post-quantum component is verified by the callback for it. A malformed Ed25519
    component is rejected whatever the Hash has under that name, with the same
    result as if it had nothing there. -/
theorem shadowing_entry_not_called :
    (∃ result s', verifyWith strictUpstream (fun _ _ => none) [mlDsa] (textInput "m")
        (some shadowing.entries) 0 = (.ok result, s') ∧ result.allVerified = true) ∧
      ∃ result s', verifyWith strictUpstream (fun _ _ => none) [mlDsa, badEd25519]
          (textInput "m") (some shadowing.entries) 0 = (.ok result, s') ∧
        ¬ result.allVerified = true ∧
        verifyWith strictUpstream (fun _ _ => none) [mlDsa, badEd25519] (textInput "m")
          (some plainMap.entries) 0 = (.ok result, s') := by
  have hmsg : (textInput "m").bytes = .ok (utf8 "m") := rfl
  -- The callback is called once, so it accepts.
  have hmlDsa : (judge strictUpstream shadowing (utf8 "m") 0 mlDsa).1 = true := by
    have hcallback : shadowing.callbackFor mlDsa.algorithm = some acceptOnce := by
      rw [callbackFor_shadowing, if_neg (by decide)]
      exact callbackFor_plainMap
    rw [judge, hcallback, if_neg (by decide), if_neg (by decide)]
    rfl
  constructor
  · rcases callers_extend_builtIns strictUpstream strictUpstream_lawful shadowing [mlDsa]
      (by decide) (textInput "m") _ hmsg 0 with ⟨result, s', hrun, hiff, _⟩
    refine ⟨result, s', hrun, hiff.mpr ?_⟩
    intro pre c post hsplit
    cases pre with
    | nil =>
        rw [List.nil_append] at hsplit
        rw [← (List.cons.inj hsplit).1]
        exact hmlDsa
    | cons _ pre => exact absurd (List.cons.inj hsplit).2 (by simp)
  · rcases callers_extend_builtIns strictUpstream strictUpstream_lawful shadowing
      [mlDsa, badEd25519] (by decide) (textInput "m") _ hmsg 0 with
      ⟨result, s', hrun, hiff, hagree⟩
    refine ⟨result, s', hrun, ?_, hagree plainMap ?_⟩
    · intro hall
      exact absurd (hiff.mp hall [mlDsa] badEd25519 [] rfl) (by decide)
    · intro name hname
      rw [callbackFor_shadowing, if_neg]
      rintro rfl
      exact hname (by decide)

end Composite

end Confium
