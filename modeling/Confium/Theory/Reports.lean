import Confium.Core.Fields
import Confium.Core.Reports
import Confium.Lib.JsonText

/-!
# Which Reports Are JSON

Both reports are put together from entries, and are JSON when the entries are.

An entry of `per_signer_json` always is. Its members are literals, numbers, words
and the text of an error, and each of these reads back as what it was made from,
so a signer can be recovered from its entry.

An entry of `checks_json` is the derived `Debug` form of a check: the name of a
struct or of a variant, and after it the fields, in parentheses or in braces. A
name is no JSON, unless it happens to be one of the three words that are. So the
report is JSON only where every check is a bare word of JSON, and names are not
chosen like that: in effect, only where there are no checks.

## Main definitions

* `DerivedDebug`: The output of a derived `Debug`.
* `Describes`: An entry that says what a signer's verdict is.
* `JsonReports`: Both reports are arrays of one item for each entry.

## Theorems

* `reads_signerEntry`: The entry of a signer.
* `perSignerJson_parses`: The report on the signers is JSON.
* `readItems_debug`: Only bare words are read as items.
* `jsonReports_iff`: When both reports are JSON.
-/

namespace Confium

open Ruby

namespace Reports

/-- The output of a derived `Debug`, on one line: a name, which is an identifier,
    alone or with the fields after it. -/
inductive DerivedDebug : Text → Prop
  | unit (name : Text) : JsonText.IsWord name → DerivedDebug name
  | tuple (name fields : Text) : JsonText.IsWord name →
      DerivedDebug (name ++ '(' :: fields ++ [')'])
  | record (name fields : Text) : JsonText.IsWord name →
      DerivedDebug (name ++ ' ' :: '{' :: ' ' :: fields ++ [' ', '}'])

/-- One of the words that are JSON by themselves: `null`, `true` and `false`. -/
def BareWord (text : Text) : Prop := ∃ v, JsonText.words.lookup text = some v

/-- The item has the index, the verdict and the error text of the signer. -/
structure Describes (s : SignerVerification) (item : Json) : Prop where
  signerIndex : member item "signer_index" = some (.int s.signerIndex)
  verified : member item "verified" = some (.bool s.verified)
  error : member item "error" = s.error.map Json.str

/-- Both reports are JSON arrays, with one item for each signer and each check,
    in order. -/
structure JsonReports {Check : Type} (toJson : String → Option Text) (debug : Check → Text)
    (cms : CmsVerificationResult) (path : PathResult Check) : Prop where
  perSigner : ∃ items, JsonText.parse? (perSignerJson toJson cms) = some (.arr items) ∧
    List.Forall₂ Describes cms.perSigner items
  checks : ∃ items, JsonText.parse? (checksJson debug path) = some (.arr items) ∧
    List.Forall₂ (fun check item => JsonText.parse? (debug check) = some item) path.checks items

/-- The object the entry of a signer is. -/
def signerFields (s : SignerVerification) : Fields :=
  [("signer_index", .int s.signerIndex), ("verified", .bool s.verified)] ++
    (s.error.map (fun e => ("error", Json.str e))).toList

theorem describes_signerFields (s : SignerVerification) : Describes s (.obj (signerFields s)) := by
  cases s with
  | mk signerIndex verified error => cases error <;> exact ⟨rfl, rfl, rfl⟩

/-- A member: the key in compact form, a colon, and the value. -/
def memberText (key : String) (value : Text) : Text := Json.writeString key ++ ':' :: value

theorem readsField_memberText (key : String) (value : Text) (v : Json)
    (h : JsonText.Reads value v) : JsonText.ReadsField (memberText key value) (key, v) :=
  ⟨Json.writeString key, value, JsonText.isLiteral_writeString key, h, rfl⟩

theorem reads_displayBool (b : Bool) : JsonText.Reads (displayBool b) (.bool b) := by
  cases b with
  | false => exact JsonText.reads_word _ _ rfl
  | true => exact JsonText.reads_word _ _ rfl

section Signers

variable (toJson : String → Option Text)
  (htoJson : ∀ s, ∃ literal, toJson s = some literal ∧ JsonText.IsLiteral s literal)

/-- The members of the entry of a signer, one text each. -/
def memberTexts (s : SignerVerification) : List Text :=
  [memberText "signer_index" (Nat.toDigits 10 s.signerIndex),
    memberText "verified" (displayBool s.verified)] ++
    (s.error.map (fun e => memberText "error" ((toJson e).getD "null".toList))).toList

theorem signerEntry_eq (s : SignerVerification) :
    signerEntry toJson s = '{' :: [','].intercalate (memberTexts toJson s) ++ ['}'] := by
  have hindex : indexKey = '{' :: (Json.writeString "signer_index" ++ [':']) := rfl
  have hverified : verifiedKey = ',' :: (Json.writeString "verified" ++ [':']) := rfl
  have herror : errorKey = ',' :: (Json.writeString "error" ++ [':']) := rfl
  rw [signerEntry, hindex, hverified, memberTexts]
  cases s.error with
  | none =>
      simp only [errorMember, Option.map_none, Option.toList_none, List.append_nil, memberText,
        List.intercalate_cons_cons, List.intercalate_singleton, List.cons_append, List.append_assoc,
        List.nil_append]
  | some e =>
      simp only [errorMember, herror, Option.map_some, Option.toList_some, memberText,
        List.intercalate_cons_cons, List.intercalate_singleton, List.cons_append, List.append_assoc,
        List.nil_append]

include htoJson

/-- The entry of a signer is an object of its verdict. -/
theorem reads_signerEntry (s : SignerVerification) :
    JsonText.Reads (signerEntry toJson s) (.obj (signerFields s)) := by
  rw [signerEntry_eq]
  refine JsonText.reads_obj _ _ ?_
  -- Three members at most, each read by the rule for its kind.
  refine List.Forall₂.cons (readsField_memberText _ _ _ (JsonText.reads_nat s.signerIndex)) ?_
  refine List.Forall₂.cons (readsField_memberText _ _ _ (reads_displayBool s.verified)) ?_
  cases s.error with
  | none => exact List.Forall₂.nil
  | some e =>
      rcases htoJson e with ⟨literal, hliteral, hspelled⟩
      refine List.Forall₂.cons (readsField_memberText _ _ _ ?_) List.Forall₂.nil
      rw [hliteral, Option.getD_some]
      exact JsonText.reads_literal e literal hspelled

/-- The report on the signers is JSON, whatever the signers and their errors. -/
theorem perSignerJson_parses (cms : CmsVerificationResult) :
    JsonText.parse? (perSignerJson toJson cms) =
      some (.arr (cms.perSigner.map (fun s => .obj (signerFields s)))) := by
  refine JsonText.parse?_of_reads _ _ (JsonText.reads_arr _ _ ?_)
  rw [List.forall₂_map_left_iff, List.forall₂_map_right_iff, List.forall₂_same]
  exact fun s _ => reads_signerEntry toJson htoJson s

end Signers

/-- A name is read to its end, and must be a word of JSON to be read at all. -/
theorem readValue_name (name : Text) (hname : JsonText.IsWord name) (fuel : Nat) (rest : Text)
    (p : Json × Text) (hrest : ∀ c, rest.head? = some c → JsonText.isWordChar c = false)
    (hread : JsonText.readValue fuel (name ++ rest) = some p) : BareWord name ∧ p.2 = rest := by
  cases fuel with
  | zero => exact absurd hread (by simp only [JsonText.readValue, reduceCtorEq, not_false_eq_true])
  | succ fuel =>
      -- The name ends where it ends in the text, and is looked up as a whole.
      rw [JsonText.readValue_word fuel name rest hname hrest, Option.map_eq_some_iff] at hread
      rcases hread with ⟨v, hv, rfl⟩
      exact ⟨⟨v, hv⟩, rfl⟩

/-- What is left after a check was read: all that followed it, if it is a bare
    word, and otherwise its fields, which are no further item. -/
theorem readValue_debug (text : Text) (h : DerivedDebug text) (fuel : Nat) (rest : Text)
    (p : Json × Text) (hrest : JsonText.Stops rest)
    (hread : JsonText.readValue fuel (text ++ rest) = some p) :
    (BareWord text ∧ p.2 = rest) ∨ ∀ fuel, JsonText.readItems fuel p.2 = none := by
  cases h with
  | unit _ hname =>
      exact Or.inl (readValue_name text hname fuel rest p (fun c hc => (hrest c hc).1) hread)
  | tuple name fields hname =>
      rw [List.append_assoc, List.append_assoc] at hread
      have hleft := readValue_name name hname fuel _ p (fun c hc => by
        rw [← Option.some.inj hc]
        decide) hread
      refine Or.inr (fun fuel => ?_)
      rw [hleft.2]
      cases fuel <;> rfl
  | record name fields hname =>
      rw [List.append_assoc, List.append_assoc] at hread
      have hleft := readValue_name name hname fuel _ p (fun c hc => by
        rw [← Option.some.inj hc]
        decide) hread
      refine Or.inr (fun fuel => ?_)
      rw [hleft.2]
      cases fuel <;> rfl

/-- Only bare words are read as items. -/
theorem readItems_debug (texts : List Text) (h : ∀ text ∈ texts, DerivedDebug text) (fuel : Nat)
    (rest : Text) (p : List Json × Text)
    (hread : JsonText.readItems fuel (texts.flatMap (fun t => ',' :: t) ++ ']' :: rest) = some p) :
    ∀ text ∈ texts, BareWord text := by
  induction texts generalizing fuel p with
  | nil => exact fun text htext => absurd htext List.not_mem_nil
  | cons text texts ih =>
      rw [List.forall_mem_cons] at h ⊢
      cases fuel with
      | zero =>
          exact absurd hread (by simp only [JsonText.readItems, reduceCtorEq, not_false_eq_true])
      | succ fuel =>
          rw [List.flatMap_cons, List.cons_append, List.cons_append, List.append_assoc,
            JsonText.readItems, JsonText.skip_cons _ _ (by decide)] at hread
          simp only [Option.bind_eq_bind, Option.bind_eq_some_iff] at hread
          rcases hread with ⟨q, hq, items, hitems, _⟩
          -- Past a bare word the other items follow; past anything else nothing can.
          rcases readValue_debug text h.1 fuel _ q
            (JsonText.stops_flatMap texts ']' rest (Or.inl rfl)) hq with ⟨hword, hleft⟩ | hnone
          · rw [hleft] at hitems
            exact ⟨hword, ih h.2 fuel items hitems⟩
          · rw [hnone] at hitems
            exact absurd hitems (by simp only [reduceCtorEq, not_false_eq_true])

/-- A check starts with its name. -/
theorem head?_debug (text : Text) (h : DerivedDebug text) :
    ∃ c cs, text = c :: cs ∧ JsonText.isWordChar c = true := by
  have hfront : ∀ name rest : Text, JsonText.IsWord name →
      ∃ c cs, name ++ rest = c :: cs ∧ JsonText.isWordChar c = true := by
    intro name rest hname
    cases name with
    | nil => exact absurd rfl hname.ne_nil
    | cons c cs => exact ⟨c, cs ++ rest, rfl, hname.chars c List.mem_cons_self⟩
  cases h with
  | unit _ hname =>
      rw [← List.append_nil text]
      exact hfront text [] hname
  | tuple name fields hname =>
      rw [List.append_assoc]
      exact hfront name _ hname
  | record name fields hname =>
      rw [List.append_assoc]
      exact hfront name _ hname

/-- A report of checks that is JSON is one of bare words. -/
theorem bareWord_of_parse? (texts : List Text) (h : ∀ text ∈ texts, DerivedDebug text) (v : Json)
    (hparse : JsonText.parse? (bracketed texts) = some v) : ∀ text ∈ texts, BareWord text := by
  cases texts with
  | nil => exact fun text htext => absurd htext List.not_mem_nil
  | cons text texts =>
      rw [List.forall_mem_cons] at h ⊢
      rw [bracketed, JsonText.intercalate_cons, List.cons_append, List.append_assoc] at hparse
      -- The array is not an empty one, since its first entry starts with a name.
      rcases head?_debug text h.1 with ⟨c, cs, hc, hchar⟩
      have hne : (JsonText.skip (text ++ (texts.flatMap (fun t => ',' :: t) ++ [']']))).head?
          ≠ some ']' := by
        rw [hc, List.cons_append, JsonText.skip_cons c _ (JsonText.isBlank_of_isWordChar c hchar),
          List.head?_cons, ne_eq, Option.some.injEq]
        exact JsonText.ne_of_isWordChar c ']' hchar (by decide)
      -- A text that is parsed was read as an array, first item first.
      rcases JsonText.readValue_of_parse? _ v hparse with ⟨left, hread⟩
      rw [JsonText.readValue_bracket _ _ hne, Option.bind_eq_some_iff] at hread
      rcases hread with ⟨q, hq, hitems⟩
      rw [Option.bind_eq_some_iff] at hitems
      rcases hitems with ⟨items, hitems, _⟩
      rcases readValue_debug text h.1 _ _ q (JsonText.stops_flatMap texts ']' [] (Or.inl rfl)) hq
        with ⟨hword, hleft⟩ | hnone
      · rw [hleft] at hitems
        exact ⟨hword, readItems_debug texts h.2 _ [] items hitems⟩
      · rw [hnone] at hitems
        exact absurd hitems (by simp only [reduceCtorEq, not_false_eq_true])

/-- The document a bare word is. -/
def wordValue (text : Text) : Json := (JsonText.words.lookup text).getD .null

theorem reads_wordValue (text : Text) (h : BareWord text) :
    JsonText.Reads text (wordValue text) := by
  rcases h with ⟨v, hv⟩
  rw [wordValue, hv, Option.getD_some]
  exact JsonText.reads_word text v hv

/-- Both reports are JSON exactly when every check is printed as a bare word of
    JSON, so in particular when there are none. -/
theorem jsonReports_iff {Check : Type} (toJson : String → Option Text) (debug : Check → Text)
    (htoJson : ∀ s, ∃ literal, toJson s = some literal ∧ JsonText.IsLiteral s literal)
    (hdebug : ∀ check, DerivedDebug (debug check)) (cms : CmsVerificationResult)
    (path : PathResult Check) :
    JsonReports toJson debug cms path ↔ ∀ check ∈ path.checks, BareWord (debug check) := by
  constructor
  · rintro ⟨_, items, hparse, _⟩ check hcheck
    refine bareWord_of_parse? (path.checks.map debug) ?_ _ hparse _ (List.mem_map_of_mem hcheck)
    intro text htext
    rcases List.mem_map.mp htext with ⟨check, _, rfl⟩
    exact hdebug check
  · intro h
    refine ⟨⟨_, perSignerJson_parses toJson htoJson cms, ?_⟩, ?_⟩
    · rw [List.forall₂_map_right_iff, List.forall₂_same]
      exact fun s _ => describes_signerFields s
    · refine ⟨path.checks.map (fun check => wordValue (debug check)), ?_, ?_⟩
      · refine JsonText.parse?_of_reads _ _ (JsonText.reads_arr _ _ ?_)
        rw [List.forall₂_map_left_iff, List.forall₂_map_right_iff, List.forall₂_same]
        exact fun check hcheck => reads_wordValue (debug check) (h check hcheck)
      · rw [List.forall₂_map_right_iff, List.forall₂_same]
        exact fun check hcheck =>
          JsonText.parse?_of_reads _ _ (reads_wordValue (debug check) (h check hcheck))

/-- A check of a path, as a struct of a name and a verdict. -/
structure SampleCheck where
  name : String
  passed : Bool

/-- Its derived `Debug`. -/
def sampleDebug (check : SampleCheck) : Text :=
  "CheckResult".toList ++ ' ' :: '{' :: ' ' :: ("name: ".toList ++ Json.writeString check.name ++
    ", passed: ".toList ++ displayBool check.passed) ++ [' ', '}']

theorem derivedDebug_sampleDebug (check : SampleCheck) : DerivedDebug (sampleDebug check) :=
  .record "CheckResult".toList _ (JsonText.isWord_spec _ rfl)

/-- Two signers, one of them with an error text that needs escaping. -/
def sampleResult : CmsVerificationResult :=
  ⟨false, [⟨0, true, none⟩, ⟨1, false, some "signer \"b\"\nno certificate"⟩]⟩

/-- A path without checks leaves both reports JSON. -/
theorem reports_without_checks :
    JsonReports (fun s => some (Json.writeString s)) sampleDebug sampleResult ⟨true, []⟩ :=
  (jsonReports_iff _ sampleDebug (fun s => ⟨_, rfl, JsonText.isLiteral_writeString s⟩)
    derivedDebug_sampleDebug sampleResult ⟨true, []⟩).mpr
      (fun _ hcheck => absurd hcheck List.not_mem_nil)

/-- One check is enough to leave the report of checks no JSON at all. -/
theorem one_check_breaks_report :
    JsonText.parse? (checksJson sampleDebug ⟨true, [⟨"time", true⟩]⟩) = none ∧
      ¬ JsonReports (fun s => some (Json.writeString s)) sampleDebug sampleResult
        ⟨true, [⟨"time", true⟩]⟩ := by
  have hnone : JsonText.parse? (checksJson sampleDebug ⟨true, [⟨"time", true⟩]⟩) = none := by
    decide +kernel
  refine ⟨hnone, ?_⟩
  rintro ⟨_, items, hparse, _⟩
  rw [hnone] at hparse
  exact absurd hparse (by simp only [reduceCtorEq, not_false_eq_true])

end Reports

end Confium
