import Confium.Lib.Lines
import Confium.Lib.Hash
import Mathlib.Data.List.Basic

/-!
# JSON Text

A program that sends documents as text relies on its codec for one thing: what
was generated is parsed back. `JsonCodec` is a codec as such a program sees it,
and `JsonCodec.Lawful` is what it relies on, for the documents it may rely on it
for. Those are the plain ones: no floats, whose decimal text is a matter of its
own, no repeated keys, and nesting within the limit both directions enforce.
Generated text has no raw newline in it, which is what lets a line carry a
document.

`compact` is one such codec. It writes a document the way `JSON.generate` does,
without a space anywhere, and reads that form back. Its reader takes fuel, and
the length of the text is always enough, because every part of a document is
written as a shorter text than the whole.

## Main definitions

* `Json.plain`: The documents a codec is relied on for.
* `JsonCodec`: `JSON.generate` and `JSON.parse`.
* `JsonCodec.Lawful`: Parsing undoes generating, a line at a time.
* `Json.write`: A document in compact form.
* `Json.readValue`: Reading one off the front of a text.
* `JsonCodec.compact`: The codec of the compact form.

## Theorems

* `Json.plain_obj`, `Json.plain_arr`: How plain documents are built.
* `Json.readString_escape`: A string is read back up to its closing quote.
* `Json.readValue_write`: A document is read back off the front of a text.
* `JsonCodec.compact_lawful`: The compact codec is one to rely on.
-/

namespace Ruby

namespace Json

mutual

/-- No floats, no repeated keys, and at most so many levels of nesting. -/
def plain : Nat → Json → Bool
  | _, .null => true
  | _, .bool _ => true
  | _, .int _ => true
  | _, .float _ => false
  | _, .str _ => true
  | n, .arr items => decide (0 < n) && plainItems (n - 1) items
  | n, .obj fields =>
    decide (0 < n) && decide (fields.map Prod.fst).Nodup && plainFields (n - 1) fields

def plainItems : Nat → List Json → Bool
  | _, [] => true
  | n, v :: items => plain n v && plainItems n items

def plainFields : Nat → List (String × Json) → Bool
  | _, [] => true
  | n, (_, v) :: fields => plain n v && plainFields n fields

end

theorem plainItems_iff (n : Nat) (items : List Json) :
    plainItems n items = true ↔ ∀ v ∈ items, plain n v = true := by
  induction items with
  | nil => simp only [plainItems, List.not_mem_nil, false_imp_iff, implies_true]
  | cons v items ih => rw [plainItems, Bool.and_eq_true, ih, List.forall_mem_cons]

theorem plainFields_iff (n : Nat) (fields : List (String × Json)) :
    plainFields n fields = true ↔ ∀ field ∈ fields, plain n field.2 = true := by
  induction fields with
  | nil => simp only [plainFields, List.not_mem_nil, false_imp_iff, implies_true]
  | cons field fields ih => rw [plainFields, Bool.and_eq_true, ih, List.forall_mem_cons]

/-- An object of plain values under distinct keys is plain one level up. -/
theorem plain_obj (n : Nat) (fields : List (String × Json)) (hkeys : (fields.map Prod.fst).Nodup)
    (hvalues : ∀ field ∈ fields, plain n field.2 = true) : plain (n + 1) (.obj fields) = true := by
  rw [plain, decide_eq_true (Nat.succ_pos n), decide_eq_true hkeys, Nat.add_sub_cancel,
    (plainFields_iff n fields).mpr hvalues]
  rfl

theorem plain_arr (n : Nat) (items : List Json) (h : ∀ v ∈ items, plain n v = true) :
    plain (n + 1) (.arr items) = true := by
  rw [plain, decide_eq_true (Nat.succ_pos n), Nat.add_sub_cancel, (plainItems_iff n items).mpr h]
  rfl

end Json

/-- `JSON.generate` and `JSON.parse`, the latter with the message of its
    `ParserError`. -/
structure JsonCodec where
  generate : Json → Text
  parse : Text → Except String Json

namespace JsonCodec

/-- The default `max_nesting` of both directions. -/
def maxNesting : Nat := 100

/-- Parsing undoes generating, alone and at the end of a line, and generated
    text fits on a line. -/
structure Lawful (codec : JsonCodec) : Prop where
  parse_generate : ∀ v, Json.plain maxNesting v = true → codec.parse (codec.generate v) = .ok v
  parse_line : ∀ v, Json.plain maxNesting v = true →
    codec.parse (codec.generate v ++ ['\n']) = .ok v
  newline_not_mem : ∀ v, Json.plain maxNesting v = true → '\n' ∉ codec.generate v

end JsonCodec

namespace Json

/-- The characters with a one-letter escape, and the letter. -/
def escapes : List (Char × Char) :=
  [('"', '"'), ('\\', '\\'), ('\n', 'n'), ('\r', 'r'), ('\t', 't'), (Char.ofNat 8, 'b'),
    (Char.ofNat 12, 'f')]

/-- A character inside a string literal. -/
def escapeChar (c : Char) : Text :=
  match escapes.lookup c with
  | some letter => ['\\', letter]
  | none =>
    if c.toNat < 32 then
      ['\\', 'u', '0', '0', Nat.digitChar (c.toNat / 16), Nat.digitChar (c.toNat % 16)]
    else [c]

/-- A string literal. -/
def writeString (s : String) : Text := '"' :: s.toList.flatMap escapeChar ++ ['"']

/-- The decimal form of an integer. -/
def writeInt (i : Int) : Text :=
  if i < 0 then '-' :: Nat.toDigits 10 i.natAbs else Nat.toDigits 10 i.natAbs

mutual

/-- A document in compact form. A float is not written: it is no part of a
    plain document. -/
def write : Json → Text
  | .null => ['n', 'u', 'l', 'l']
  | .bool true => ['t', 'r', 'u', 'e']
  | .bool false => ['f', 'a', 'l', 's', 'e']
  | .int i => writeInt i
  | .float _ => []
  | .str s => writeString s
  | .arr [] => ['[', ']']
  | .arr (v :: items) => '[' :: write v ++ writeItems items
  | .obj [] => ['{', '}']
  | .obj ((k, v) :: fields) => '{' :: writeString k ++ ':' :: write v ++ writeFields fields

/-- The items after the first, and the closing bracket. -/
def writeItems : List Json → Text
  | [] => [']']
  | v :: items => ',' :: write v ++ writeItems items

/-- The fields after the first, and the closing brace. -/
def writeFields : List (String × Json) → Text
  | [] => ['}']
  | (k, v) :: fields => ',' :: writeString k ++ ':' :: write v ++ writeFields fields

end

/-- The value of a hexadecimal digit, in the case it is written in. -/
def digitValue (c : Char) : Nat := if c.isDigit then c.toNat - 48 else c.toNat - 87

/-- The character a one-letter escape stands for. -/
def unescapeChar (letter : Char) : Char :=
  match escapes.find? (fun entry => entry.2 == letter) with
  | some entry => entry.1
  | none => letter

/-- The character four hexadecimal digits stand for. -/
def codePoint (a b c d : Char) : Char :=
  Char.ofNat (4096 * digitValue a + 256 * digitValue b + 16 * digitValue c + digitValue d)

/-- A string literal after its opening quote, up to its closing one. -/
def readString : Text → Option (Text × Text)
  | [] => none
  | '"' :: rest => some ([], rest)
  | '\\' :: 'u' :: a :: b :: c :: d :: rest =>
    (readString rest).map (fun p => (codePoint a b c d :: p.1, p.2))
  | '\\' :: letter :: rest => (readString rest).map (fun p => (unescapeChar letter :: p.1, p.2))
  | c :: rest => (readString rest).map (fun p => (c :: p.1, p.2))

/-- A natural number off the front of a text. -/
def readNat (text : Text) : Option (Nat × Text) :=
  if (text.takeWhile Char.isDigit).isEmpty then none
  else some (Nat.ofDigitChars 10 (text.takeWhile Char.isDigit) 0, text.dropWhile Char.isDigit)

/-- A string literal and the colon after it. -/
def readKey : Text → Option (String × Text)
  | '"' :: rest =>
    match readString rest with
    | some (k, ':' :: rest) => some (String.ofList k, rest)
    | _ => none
  | _ => none

mutual

/-- A document off the front of a text. -/
def readValue : Nat → Text → Option (Json × Text)
  | 0, _ => none
  | _, [] => none
  | fuel + 1, c :: rest =>
    if c.isDigit then (readNat (c :: rest)).map (fun p => (.int (p.1 : Int), p.2))
    else
      match c, rest with
      | '-', rest => (readNat rest).map (fun p => (.int (-(p.1 : Int)), p.2))
      | '"', rest => (readString rest).map (fun p => (.str (String.ofList p.1), p.2))
      | 'n', 'u' :: 'l' :: 'l' :: rest => some (.null, rest)
      | 't', 'r' :: 'u' :: 'e' :: rest => some (.bool true, rest)
      | 'f', 'a' :: 'l' :: 's' :: 'e' :: rest => some (.bool false, rest)
      | '[', rest =>
        if rest.head? = some ']' then some (.arr [], rest.tail)
        else do
          let (v, rest) ← readValue fuel rest
          let (items, rest) ← readItems fuel rest
          some (.arr (v :: items), rest)
      | '{', rest =>
        if rest.head? = some '}' then some (.obj [], rest.tail)
        else do
          let (k, rest) ← readKey rest
          let (v, rest) ← readValue fuel rest
          let (fields, rest) ← readFields fuel rest
          some (.obj ((k, v) :: fields), rest)
      | _, _ => none

/-- The items after the first. -/
def readItems : Nat → Text → Option (List Json × Text)
  | 0, _ => none
  | _, ']' :: rest => some ([], rest)
  | fuel + 1, ',' :: rest => do
    let (v, rest) ← readValue fuel rest
    let (items, rest) ← readItems fuel rest
    some (v :: items, rest)
  | _, _ => none

/-- The fields after the first. -/
def readFields : Nat → Text → Option (List (String × Json) × Text)
  | 0, _ => none
  | _, '}' :: rest => some ([], rest)
  | fuel + 1, ',' :: rest => do
    let (k, rest) ← readKey rest
    let (v, rest) ← readValue fuel rest
    let (fields, rest) ← readFields fuel rest
    some ((k, v) :: fields, rest)
  | _, _ => none

end

/-- Each entry of the table is undone, and none of its letters announces four
    digits. -/
theorem readString_escapes (entry : Char × Char) (h : entry ∈ escapes) (rest : Text) :
    readString ('\\' :: entry.2 :: rest)
      = (readString rest).map (fun p => (entry.1 :: p.1, p.2)) := by
  simp only [escapes, List.mem_cons, List.not_mem_nil, or_false] at h
  rcases h with h | h | h | h | h | h | h <;>
  · rw [h]
    rfl

/-- A control character is read back from its four digits. -/
theorem codePoint_control (c : Char) (h : c.toNat < 32) :
    codePoint '0' '0' (Nat.digitChar (c.toNat / 16)) (Nat.digitChar (c.toNat % 16)) = c := by
  have hall : ∀ n < 32,
      codePoint '0' '0' (Nat.digitChar (n / 16)) (Nat.digitChar (n % 16)) = Char.ofNat n := by
    decide
  rw [hall c.toNat h, Char.ofNat_toNat]

/-- A character is read back, however it was written. -/
theorem readString_escapeChar (c : Char) (rest : Text) :
    readString (escapeChar c ++ rest) = (readString rest).map (fun p => (c :: p.1, p.2)) := by
  rw [escapeChar]
  cases hl : escapes.lookup c with
  | some letter =>
      exact readString_escapes (c, letter) (Hash.mem_of_lookup_eq_some c letter escapes hl) rest
  | none =>
      by_cases hc : c.toNat < 32
      · simp only [if_pos hc, List.cons_append, List.nil_append, readString, codePoint_control c hc]
      · -- Written as it is, so it must be neither a quote nor a backslash.
        have hquote : c ≠ '"' := by
          rintro rfl
          exact absurd hl (by decide)
        have hslash : c ≠ '\\' := by
          rintro rfl
          exact absurd hl (by decide)
        simp only [if_neg hc, List.singleton_append]
        rw [readString]
        · exact hquote
        · intro _ _ _ _ _ h
          exact absurd h hslash
        · intro _ _ h
          exact absurd h hslash

/-- A string is read back up to its closing quote. -/
theorem readString_escape (cs rest : Text) :
    readString (cs.flatMap escapeChar ++ '"' :: rest) = some (cs, rest) := by
  induction cs with
  | nil => rfl
  | cons c cs ih =>
      rw [List.flatMap_cons, List.append_assoc, readString_escapeChar, ih, Option.map_some]

theorem readKey_writeString (k : String) (rest : Text) :
    readKey (writeString k ++ ':' :: rest) = some (k, rest) := by
  have hread := readString_escape k.toList (':' :: rest)
  rw [writeString, List.cons_append, List.cons_append, List.append_assoc, List.singleton_append,
    readKey, hread]
  simp only [String.ofList_toList]

/-- A number is written with a digit first. -/
theorem toDigits_eq_cons (n : Nat) :
    ∃ d ds, Nat.toDigits 10 n = d :: ds ∧ d.isDigit = true := by
  cases hds : Nat.toDigits 10 n with
  | nil => exact absurd hds Nat.toDigits_ne_nil
  | cons d ds =>
      have hmem : d ∈ Nat.toDigits 10 n := by
        rw [hds]
        exact List.mem_cons_self
      exact ⟨d, ds, rfl, Nat.isDigit_of_mem_toDigits (by omega) (by omega) hmem⟩

/-- A number ends where the digits do. -/
theorem readNat_toDigits (n : Nat) (rest : Text) (h : rest.head?.all (fun c => !c.isDigit) = true) :
    readNat (Nat.toDigits 10 n ++ rest) = some (n, rest) := by
  -- The digits stop at the end of the number: the rest does not start with one.
  have hspan := span_toDigits n rest (fun c hc => by
    rw [hc, Option.all_some, Bool.not_eq_true'] at h
    exact h)
  have hne : (Nat.toDigits 10 n).isEmpty = false :=
    List.isEmpty_eq_false_iff.mpr Nat.toDigits_ne_nil
  rw [readNat, hspan.1, hspan.2, hne, if_neg Bool.false_ne_true, Nat.ofDigitChars_ten_toDigits]

/-- An integer is read back. -/
theorem readValue_writeInt (fuel : Nat) (i : Int) (rest : Text)
    (h : rest.head?.all (fun c => !c.isDigit) = true) :
    readValue (fuel + 1) (writeInt i ++ rest) = some (.int i, rest) := by
  rw [writeInt]
  by_cases hi : i < 0
  · have habs : -(i.natAbs : Int) = i := by omega
    rw [if_pos hi, List.cons_append, readValue, if_neg (by decide)]
    simp only [readNat_toDigits i.natAbs rest h, Option.map_some, habs]
  · have habs : (i.natAbs : Int) = i := by omega
    have hread := readNat_toDigits i.natAbs rest h
    rw [if_neg hi]
    -- The first digit is what tells a number from the other documents.
    rcases toDigits_eq_cons i.natAbs with ⟨d, ds, hds, hd⟩
    rw [hds, List.cons_append] at hread ⊢
    unfold readValue
    simp only [if_pos hd, hread, Option.map_some, habs]

theorem readValue_writeString (fuel : Nat) (s : String) (rest : Text) :
    readValue (fuel + 1) (writeString s ++ rest) = some (.str s, rest) := by
  have hread := readString_escape s.toList rest
  rw [writeString, List.cons_append, List.cons_append, List.append_assoc, List.singleton_append,
    readValue, if_neg (by decide)]
  simp only [hread, Option.map_some, String.ofList_toList]

/-- No document starts with a closing bracket. -/
theorem head?_write_ne (v : Json) (n : Nat) (hv : plain n v = true) (rest : Text) :
    (write v ++ rest).head? ≠ some ']' := by
  cases v with
  | null => exact (by decide : some 'n' ≠ some ']')
  | bool b =>
      cases b with
      | false => exact (by decide : some 'f' ≠ some ']')
      | true => exact (by decide : some 't' ≠ some ']')
  | int i =>
      rw [write, writeInt]
      by_cases hi : i < 0
      · rw [if_pos hi]
        exact (by decide : some '-' ≠ some ']')
      · rw [if_neg hi]
        rcases toDigits_eq_cons i.natAbs with ⟨d, ds, hds, hd⟩
        intro h
        rw [hds, List.cons_append, List.head?_cons, Option.some.injEq] at h
        rw [h] at hd
        exact absurd hd (by decide)
  | float x => exact absurd hv (by simp only [plain, Bool.false_eq_true, not_false_eq_true])
  | str s => exact (by decide : some '"' ≠ some ']')
  | arr items => cases items <;> exact (by decide : some '[' ≠ some ']')
  | obj fields => cases fields <;> exact (by decide : some '{' ≠ some ']')

/-- A plain document is written as something. -/
theorem length_write_pos (v : Json) (n : Nat) (hv : plain n v = true) : 0 < (write v).length := by
  cases v with
  | null => exact Nat.succ_pos _
  | bool b => cases b <;> exact Nat.succ_pos _
  | int i =>
      rw [write, writeInt]
      split
      · exact Nat.succ_pos _
      · exact Nat.length_toDigits_pos
  | float x => exact absurd hv (by simp only [plain, Bool.false_eq_true, not_false_eq_true])
  | str s => exact Nat.succ_pos _
  | arr items => cases items <;> exact Nat.succ_pos _
  | obj fields => cases fields <;> exact Nat.succ_pos _

mutual

/-- A document is read back off the front of a text. The length of what was
    written is fuel enough: every part is written as a shorter text. -/
theorem readValue_write : ∀ (v : Json) (n fuel : Nat) (rest : Text), plain n v = true →
    (write v).length ≤ fuel → rest.head?.all (fun c => !c.isDigit) = true →
    readValue fuel (write v ++ rest) = some (v, rest)
  | v, n, 0, rest, hv, hfuel, _ => by
      have hpos := length_write_pos v n hv
      omega
  | .null, _, fuel + 1, rest, _, _, _ => rfl
  | .bool true, _, fuel + 1, rest, _, _, _ => rfl
  | .bool false, _, fuel + 1, rest, _, _, _ => rfl
  | .int i, _, fuel + 1, rest, _, _, hrest => readValue_writeInt fuel i rest hrest
  | .float x, _, _, _, hv, _, _ =>
      absurd hv (by simp only [plain, Bool.false_eq_true, not_false_eq_true])
  | .str s, _, fuel + 1, rest, _, _, _ => readValue_writeString fuel s rest
  | .arr [], _, fuel + 1, rest, _, _, _ => rfl
  | .arr (v :: items), n, fuel + 1, rest, hv, hfuel, _ => by
      simp only [plain, plainItems, Bool.and_eq_true] at hv
      simp only [write, List.cons_append, List.length_cons, List.length_append] at hfuel
      -- What follows the first item starts with a comma or a bracket, never a digit.
      have hitems := readItems_writeItems items (n - 1) fuel rest hv.2.2 (by omega)
      have hhead := readValue_write v (n - 1) fuel (writeItems items ++ rest) hv.2.1 (by omega)
        (by cases items <;> rfl)
      have hne := head?_write_ne v (n - 1) hv.2.1 (writeItems items ++ rest)
      rw [write, List.cons_append, List.cons_append, List.append_assoc]
      unfold readValue
      simp only [show Char.isDigit '[' = false by decide, Bool.false_eq_true, if_false, if_neg hne,
        hhead, hitems, Option.bind_eq_bind, Option.bind_some]
  | .obj [], _, fuel + 1, rest, _, _, _ => rfl
  | .obj ((k, v) :: fields), n, fuel + 1, rest, hv, hfuel, _ => by
      simp only [plain, plainFields, Bool.and_eq_true] at hv
      simp only [write, List.cons_append, List.append_assoc, List.length_cons,
        List.length_append] at hfuel
      have hfields := readFields_writeFields fields (n - 1) fuel rest hv.2.2 (by omega)
      have hhead := readValue_write v (n - 1) fuel (writeFields fields ++ rest) hv.2.1 (by omega)
        (by cases fields <;> rfl)
      have hkey := readKey_writeString k (write v ++ (writeFields fields ++ rest))
      -- A key starts with its quote, so the object is not taken for an empty one.
      have hne : (writeString k ++ ':' :: (write v ++ (writeFields fields ++ rest))).head?
          ≠ some '}' := (by decide : some '"' ≠ some '}')
      simp only [write, List.cons_append, List.append_assoc]
      unfold readValue
      simp only [show Char.isDigit '{' = false by decide, Bool.false_eq_true, if_false, if_neg hne,
        hkey, hhead, hfields, Option.bind_eq_bind, Option.bind_some]

theorem readItems_writeItems : ∀ (items : List Json) (n fuel : Nat) (rest : Text),
    plainItems n items = true → (writeItems items).length ≤ fuel →
    readItems fuel (writeItems items ++ rest) = some (items, rest)
  | [], _, 0, _, _, hfuel => absurd hfuel (by simp only [writeItems, List.length_singleton]; omega)
  | _ :: _, _, 0, _, _, hfuel =>
      absurd hfuel (by simp only [writeItems, List.cons_append, List.length_cons]; omega)
  | [], _, fuel + 1, rest, _, _ => rfl
  | v :: items, n, fuel + 1, rest, hv, hfuel => by
      simp only [plainItems, Bool.and_eq_true] at hv
      simp only [writeItems, List.cons_append, List.length_cons, List.length_append] at hfuel
      have hitems := readItems_writeItems items n fuel rest hv.2 (by omega)
      have hhead := readValue_write v n fuel (writeItems items ++ rest) hv.1 (by omega)
        (by cases items <;> rfl)
      rw [writeItems, List.cons_append, List.cons_append, List.append_assoc, readItems]
      simp only [hhead, hitems, Option.bind_eq_bind, Option.bind_some]

theorem readFields_writeFields : ∀ (fields : List (String × Json)) (n fuel : Nat) (rest : Text),
    plainFields n fields = true → (writeFields fields).length ≤ fuel →
    readFields fuel (writeFields fields ++ rest) = some (fields, rest)
  | [], _, 0, _, _, hfuel => absurd hfuel (by simp only [writeFields, List.length_singleton]; omega)
  | _ :: _, _, 0, _, _, hfuel =>
      absurd hfuel (by simp only [writeFields, List.cons_append, List.length_cons]; omega)
  | [], _, fuel + 1, rest, _, _ => rfl
  | (k, v) :: fields, n, fuel + 1, rest, hv, hfuel => by
      simp only [plainFields, Bool.and_eq_true] at hv
      simp only [writeFields, List.cons_append, List.append_assoc, List.length_cons,
        List.length_append] at hfuel
      have hfields := readFields_writeFields fields n fuel rest hv.2 (by omega)
      have hhead := readValue_write v n fuel (writeFields fields ++ rest) hv.1 (by omega)
        (by cases fields <;> rfl)
      have hkey := readKey_writeString k (write v ++ (writeFields fields ++ rest))
      simp only [writeFields, List.cons_append, List.append_assoc]
      rw [readFields]
      simp only [hkey, hhead, hfields, Option.bind_eq_bind, Option.bind_some]

end

/-- No line break survives escaping. -/
theorem newline_not_mem_escapeChar (c : Char) : '\n' ∉ escapeChar c := by
  have hletters : ∀ entry ∈ escapes, '\n' ∉ ['\\', entry.2] := by decide
  have hdigits : ∀ n < 32, '\n' ∉ ['\\', 'u', '0', '0', Nat.digitChar (n / 16),
      Nat.digitChar (n % 16)] := by decide
  rw [escapeChar]
  cases hl : escapes.lookup c with
  | some letter =>
      exact hletters (c, letter) (Hash.mem_of_lookup_eq_some c letter escapes hl)
  | none =>
      by_cases hc : c.toNat < 32
      · simp only [if_pos hc]
        exact hdigits c.toNat hc
      · simp only [if_neg hc, List.mem_singleton]
        -- An LF is a control character itself, and would have been escaped.
        rintro rfl
        exact hc (by decide)

theorem newline_not_mem_writeString (s : String) : '\n' ∉ writeString s := by
  intro h
  rw [writeString, List.mem_append, List.mem_cons] at h
  rcases h with (h | h) | h
  · exact absurd h (by decide)
  · rcases List.mem_flatMap.mp h with ⟨c, _, hc⟩
    exact newline_not_mem_escapeChar c hc
  · exact absurd h (by decide)

theorem newline_not_mem_writeInt (i : Int) : '\n' ∉ writeInt i := by
  have hdigits : '\n' ∉ Nat.toDigits 10 i.natAbs := fun h =>
    absurd (Nat.isDigit_of_mem_toDigits (by omega) (by omega) h) (by decide)
  rw [writeInt]
  split
  · rw [List.mem_cons, not_or]
    exact ⟨by decide, hdigits⟩
  · exact hdigits

mutual

/-- A document fits on a line. -/
theorem newline_not_mem_write : ∀ v : Json, '\n' ∉ write v
  | .null => by decide
  | .bool true => by decide
  | .bool false => by decide
  | .int i => newline_not_mem_writeInt i
  | .float _ => List.not_mem_nil
  | .str s => newline_not_mem_writeString s
  | .arr [] => by decide
  | .arr (v :: items) => by
      have hv := newline_not_mem_write v
      have hitems := newline_not_mem_writeItems items
      simp only [write, List.cons_append, List.mem_cons, List.mem_append, not_or]
      exact ⟨by decide, hv, hitems⟩
  | .obj [] => by decide
  | .obj ((k, v) :: fields) => by
      have hk := newline_not_mem_writeString k
      have hv := newline_not_mem_write v
      have hfields := newline_not_mem_writeFields fields
      simp only [write, List.cons_append, List.mem_cons, List.mem_append, not_or]
      exact ⟨by decide, ⟨hk, by decide, hv⟩, hfields⟩

theorem newline_not_mem_writeItems : ∀ items : List Json, '\n' ∉ writeItems items
  | [] => by decide
  | v :: items => by
      have hv := newline_not_mem_write v
      have hitems := newline_not_mem_writeItems items
      simp only [writeItems, List.cons_append, List.mem_cons, List.mem_append, not_or]
      exact ⟨by decide, hv, hitems⟩

theorem newline_not_mem_writeFields : ∀ fields : List (String × Json), '\n' ∉ writeFields fields
  | [] => by decide
  | (k, v) :: fields => by
      have hk := newline_not_mem_writeString k
      have hv := newline_not_mem_write v
      have hfields := newline_not_mem_writeFields fields
      simp only [writeFields, List.cons_append, List.mem_cons, List.mem_append, not_or]
      exact ⟨by decide, ⟨hk, by decide, hv⟩, hfields⟩

end

end Json

namespace JsonCodec

/-- The codec of the compact form: a document, and at most a line break after
    it. -/
def compact : JsonCodec where
  generate := Json.write
  parse := fun text =>
    match Json.readValue text.length text with
    | some (v, []) => .ok v
    | some (v, ['\n']) => .ok v
    | _ => .error "unexpected token"

/-- The compact codec is one to rely on. -/
theorem compact_lawful : compact.Lawful where
  parse_generate := by
    intro v hv
    have hread := Json.readValue_write v maxNesting (Json.write v).length [] hv (le_refl _) rfl
    rw [List.append_nil] at hread
    simp only [compact, hread]
  parse_line := by
    intro v hv
    have hlen : (Json.write v).length ≤ (Json.write v ++ ['\n']).length := by
      rw [List.length_append]
      omega
    have hread := Json.readValue_write v maxNesting _ ['\n'] hv hlen (by decide)
    simp only [compact, hread]
  newline_not_mem := fun v _ => Json.newline_not_mem_write v

end JsonCodec

end Ruby
