import Confium.Lib.Json
import Confium.Lib.Radix

/-!
# The Texts of a Document

A reader of JSON text as the grammar has it: white space wherever it may stand,
numbers with a fraction and an exponent, every escape a string literal may use.
It is what decides whether a text that was put together by hand is JSON, and what
it says.

The reader takes fuel, and the length of the text is enough: whatever it calls
itself on is shorter by a character at least. A word is read as far as it goes
before it is compared with the three that are documents, which accepts the same
texts, since no document is followed by a letter.

`Reads` is what a piece of text has to satisfy to be part of a larger one, and
the rest of the module says how such pieces are put together.

## Main definitions

* `readString`, `readNumber`, `readWord`, `readValue`: Reading off the front of a
  text.
* `parse?`: The document a text is.
* `SpellsChar`, `IsLiteral`: A string literal.
* `IsWord`: A word, known or not.
* `Reads`, `ReadsField`: A text that is read as a document, or as a field,
  wherever it stands.

## Theorems

* `isLiteral_writeString`: A string in compact form is a literal.
* `reads_literal`, `reads_nat`, `reads_word`: The pieces.
* `reads_arr`, `reads_obj`: Putting them together.
* `readValue_word`: What becomes of a word.
* `parse?_of_reads`: A text that is nothing but a piece.
* `readValue_of_parse?`: A text that is a document was read.
-/

namespace Ruby

namespace JsonText

/-- White space. -/
def isBlank (c : Char) : Bool := c == ' ' || c == '\t' || c == '\n' || c == '\r'

/-- A text past the white space in front of it. -/
def skip (text : Text) : Text := text.dropWhile isBlank

/-- Four hexadecimal digits. -/
def readUnit : Text → Option (Nat × Text)
  | a :: b :: c :: d :: rest => do
    let a ← hexDigit? a
    let b ← hexDigit? b
    let c ← hexDigit? c
    let d ← hexDigit? d
    some (4096 * a + 256 * b + 16 * c + d, rest)
  | _ => none

/-- The one-letter escapes. -/
def shortEscapes : List (Char × Char) :=
  [('"', '"'), ('\\', '\\'), ('/', '/'), ('b', Char.ofNat 8), ('f', Char.ofNat 12), ('n', '\n'),
    ('r', '\r'), ('t', '\t')]

/-- An escape after its backslash. Half of a surrogate pair stands for no
    character, and is read as the replacement character. -/
def readEscape : Text → Option (Char × Text)
  | [] => none
  | letter :: rest =>
    if letter = 'u' then do
      let (high, rest) ← readUnit rest
      if 0xD800 ≤ high ∧ high < 0xDC00 then
        match rest with
        | '\\' :: 'u' :: rest' =>
          match readUnit rest' with
          | some (low, rest'') =>
            if 0xDC00 ≤ low ∧ low < 0xE000 then
              some (Char.ofNat (0x10000 + (high - 0xD800) * 1024 + (low - 0xDC00)), rest'')
            else some (Char.ofNat 0xFFFD, rest)
          | none => none
        | _ => some (Char.ofNat 0xFFFD, rest)
      else if 0xDC00 ≤ high ∧ high < 0xE000 then some (Char.ofNat 0xFFFD, rest)
      else some (Char.ofNat high, rest)
    else (shortEscapes.lookup letter).map (fun c => (c, rest))

/-- A string literal after its opening quote. -/
def readString : Nat → Text → Option (Text × Text)
  | 0, _ => none
  | _, [] => none
  | fuel + 1, c :: rest =>
    if c = '"' then some ([], rest)
    else if c = '\\' then do
      let (d, rest) ← readEscape rest
      let (cs, rest) ← readString fuel rest
      some (d :: cs, rest)
    else if c.toNat < 32 then none
    else do
      let (cs, rest) ← readString fuel rest
      some (c :: cs, rest)

/-- Digits, at least one. -/
def readDigits (text : Text) : Option (Text × Text) :=
  if (text.takeWhile Char.isDigit).isEmpty then none
  else some (text.takeWhile Char.isDigit, text.dropWhile Char.isDigit)

/-- The fraction of a number, if it has one. -/
def readFraction : Text → Option (Text × Text)
  | '.' :: rest => readDigits rest
  | rest => some ([], rest)

/-- The exponent of a number, if it has one. -/
def readExponent : Text → Option (Option Int × Text)
  | [] => some (none, [])
  | c :: rest =>
    if c = 'e' ∨ c = 'E' then
      match rest with
      | '+' :: rest =>
        (readDigits rest).map (fun p => (some (Nat.ofDigitChars 10 p.1 0 : Int), p.2))
      | '-' :: rest =>
        (readDigits rest).map (fun p => (some (-(Nat.ofDigitChars 10 p.1 0 : Int)), p.2))
      | rest => (readDigits rest).map (fun p => (some (Nat.ofDigitChars 10 p.1 0 : Int), p.2))
    else some (none, c :: rest)

/-- Ten to an exponent. -/
def scale (e : Int) : ℚ := if 0 ≤ e then 10 ^ e.toNat else 1 / 10 ^ (-e).toNat

/-- The number these parts are: an integer, or the rational that is written. -/
def numberOf (sign : Int) (whole fraction : Text) (exponent : Option Int) : Json :=
  if fraction = [] ∧ exponent = none then .int (sign * Nat.ofDigitChars 10 whole 0)
  else .float (.finite (sign * Nat.ofDigitChars 10 (whole ++ fraction) 0 *
    scale (exponent.getD 0 - fraction.length)))

/-- A number after its sign. -/
def readNumber (sign : Int) (text : Text) : Option (Json × Text) := do
  let (whole, rest) ← readDigits text
  -- No zero in front.
  if whole.head? = some '0' ∧ whole.length ≠ 1 then none
  else do
    let (fraction, rest) ← readFraction rest
    let (exponent, rest) ← readExponent rest
    some (numberOf sign whole fraction exponent, rest)

/-- The characters of a word: letters, digits, underscores, and whatever is not
    ASCII. -/
def isWordChar (c : Char) : Bool := c.isAlphanum || c == '_' || decide (128 ≤ c.toNat)

/-- The words that are documents. -/
def words : List (Text × Json) :=
  [(['n', 'u', 'l', 'l'], .null), (['t', 'r', 'u', 'e'], .bool true),
    (['f', 'a', 'l', 's', 'e'], .bool false)]

/-- A word. -/
def readWord (text : Text) : Option (Json × Text) :=
  (words.lookup (text.takeWhile isWordChar)).map (fun v => (v, text.dropWhile isWordChar))

/-- A key, and the colon after it. -/
def readKey (fuel : Nat) (text : Text) : Option (String × Text) :=
  match skip text with
  | '"' :: rest =>
    match readString fuel rest with
    | some (k, rest) =>
      match skip rest with
      | ':' :: rest => some (String.ofList k, rest)
      | _ => none
    | none => none
  | _ => none

mutual

/-- A document off the front of a text. -/
def readValue : Nat → Text → Option (Json × Text)
  | 0, _ => none
  | fuel + 1, text =>
    match skip text with
    | [] => none
    | c :: rest =>
      if c = '"' then (readString fuel rest).map (fun p => (.str (String.ofList p.1), p.2))
      else if c = '[' then
        if (skip rest).head? = some ']' then some (.arr [], (skip rest).tail)
        else do
          let (v, rest) ← readValue fuel rest
          let (items, rest) ← readItems fuel rest
          some (.arr (v :: items), rest)
      else if c = '{' then
        if (skip rest).head? = some '}' then some (.obj [], (skip rest).tail)
        else do
          let (k, rest) ← readKey fuel rest
          let (v, rest) ← readValue fuel rest
          let (fields, rest) ← readFields fuel rest
          some (.obj ((k, v) :: fields), rest)
      else if c = '-' then readNumber (-1) rest
      else if c.isDigit then readNumber 1 (c :: rest)
      else readWord (c :: rest)

/-- The items after the first. -/
def readItems : Nat → Text → Option (List Json × Text)
  | 0, _ => none
  | fuel + 1, text =>
    match skip text with
    | ']' :: rest => some ([], rest)
    | ',' :: rest => do
      let (v, rest) ← readValue fuel rest
      let (items, rest) ← readItems fuel rest
      some (v :: items, rest)
    | _ => none

/-- The fields after the first. -/
def readFields : Nat → Text → Option (List (String × Json) × Text)
  | 0, _ => none
  | fuel + 1, text =>
    match skip text with
    | '}' :: rest => some ([], rest)
    | ',' :: rest => do
      let (k, rest) ← readKey fuel rest
      let (v, rest) ← readValue fuel rest
      let (fields, rest) ← readFields fuel rest
      some ((k, v) :: fields, rest)
    | _ => none

end

/-- The document a text is, with nothing but white space around it. -/
def parse? (text : Text) : Option Json :=
  match readValue (text.length + 1) text with
  | some (v, rest) => if skip rest = [] then some v else none
  | none => none

/-- A character inside a string literal: as it is, or by one of its escapes. -/
inductive SpellsChar : Char → Text → Prop
  | plain (c : Char) : c ≠ '"' → c ≠ '\\' → 32 ≤ c.toNat → SpellsChar c [c]
  | short (letter c : Char) : (letter, c) ∈ shortEscapes → SpellsChar c ['\\', letter]
  | unit (c : Char) (digits : Text) : readUnit digits = some (c.toNat, []) →
      SpellsChar c ('\\' :: 'u' :: digits)
  | pair (c : Char) (high low : Nat) (first second : Text) : readUnit first = some (high, []) →
      readUnit second = some (low, []) → 0xD800 ≤ high → high < 0xDC00 → 0xDC00 ≤ low →
      low < 0xE000 → c.toNat = 0x10000 + (high - 0xD800) * 1024 + (low - 0xDC00) →
      SpellsChar c ('\\' :: 'u' :: first ++ '\\' :: 'u' :: second)

/-- A literal of a string. -/
def IsLiteral (s : String) (text : Text) : Prop :=
  ∃ pieces, List.Forall₂ SpellsChar s.toList pieces ∧ text = '"' :: pieces.flatten ++ ['"']

/-- A word, which no digit starts. -/
structure IsWord (word : Text) : Prop where
  ne_nil : word ≠ []
  chars : ∀ c ∈ word, isWordChar c = true
  start : ∀ c, word.head? = some c → c.isDigit = false

/-- What may stand after a number or a word without being part of it. -/
def Stops (rest : Text) : Prop := ∀ c, rest.head? = some c → isWordChar c = false ∧ c ≠ '.'

/-- A text that is read as a document wherever it stands. -/
def Reads (text : Text) (v : Json) : Prop :=
  ∀ fuel rest, text.length < fuel → Stops rest → readValue fuel (text ++ rest) = some (v, rest)

/-- A text that is read as a field of an object: a literal of the key, a colon,
    and the value. -/
def ReadsField (text : Text) (field : String × Json) : Prop :=
  ∃ key value, IsLiteral field.1 key ∧ Reads value field.2 ∧ text = key ++ ':' :: value

/-- Four digits are read whatever follows them. -/
theorem readUnit_append (digits rest : Text) (n : Nat) (h : readUnit digits = some (n, [])) :
    readUnit (digits ++ rest) = some (n, rest) := by
  unfold readUnit at h
  split at h
  · rename_i a b c d more
    simp only [Option.bind_eq_bind, Option.bind_eq_some_iff, Option.some.injEq, Prod.mk.injEq] at h
    rcases h with ⟨a', ha, b', hb, c', hc, d', hd, hn, hmore⟩
    rw [hmore]
    simp only [List.cons_append, List.nil_append, readUnit, ha, hb, hc, hd, Option.bind_eq_bind,
      Option.bind_some, hn]
  · exact absurd h (by simp only [reduceCtorEq, not_false_eq_true])

theorem readEscape_short (letter c : Char) (h : (letter, c) ∈ shortEscapes) (rest : Text) :
    readEscape (letter :: rest) = some (c, rest) := by
  simp only [shortEscapes, List.mem_cons, Prod.mk.injEq, List.not_mem_nil, or_false] at h
  rcases h with h | h | h | h | h | h | h | h <;>
  · rw [h.1, h.2]
    rfl

/-- A character is no half of a surrogate pair, so its own number is read back. -/
theorem readEscape_unit (c : Char) (digits rest : Text)
    (h : readUnit digits = some (c.toNat, [])) :
    readEscape ('u' :: (digits ++ rest)) = some (c, rest) := by
  -- The numbers of the surrogates are left out of the characters.
  have hhigh : ¬ (0xD800 ≤ c.toNat ∧ c.toNat < 0xDC00) := by
    rcases c.valid with h | h <;> simp only [Char.toNat] <;> omega
  have hlow : ¬ (0xDC00 ≤ c.toNat ∧ c.toNat < 0xE000) := by
    rcases c.valid with h | h <;> simp only [Char.toNat] <;> omega
  simp only [readEscape, if_true, readUnit_append digits rest c.toNat h, Option.bind_eq_bind,
    Option.bind_some, if_neg hhigh, if_neg hlow, Char.ofNat_toNat]

theorem readEscape_pair (c : Char) (high low : Nat) (first second rest : Text)
    (hfirst : readUnit first = some (high, [])) (hsecond : readUnit second = some (low, []))
    (hhigh : 0xD800 ≤ high ∧ high < 0xDC00) (hlow : 0xDC00 ≤ low ∧ low < 0xE000)
    (hc : c.toNat = 0x10000 + (high - 0xD800) * 1024 + (low - 0xDC00)) :
    readEscape ('u' :: (first ++ '\\' :: 'u' :: (second ++ rest))) = some (c, rest) := by
  have hboth := readUnit_append first ('\\' :: 'u' :: (second ++ rest)) high hfirst
  simp only [readEscape, if_true, hboth, Option.bind_eq_bind, Option.bind_some, if_pos hhigh,
    readUnit_append second rest low hsecond, if_pos hlow, ← hc, Char.ofNat_toNat]

/-- One character of a literal is read back. -/
theorem readString_spells (c : Char) (piece : Text) (h : SpellsChar c piece) (fuel : Nat)
    (rest : Text) :
    readString (fuel + 1) (piece ++ rest) =
      (readString fuel rest).map (fun p => (c :: p.1, p.2)) := by
  -- All the escapes are read alike, once their letter is known.
  have hescape : ∀ tail, readEscape (tail ++ rest) = some (c, rest) →
      readString (fuel + 1) ('\\' :: tail ++ rest) =
        (readString fuel rest).map (fun p => (c :: p.1, p.2)) := by
    intro tail htail
    rw [List.cons_append, readString, if_neg (by decide), if_pos rfl, htail]
    simp only [Option.bind_eq_bind, Option.bind_some]
    cases readString fuel rest <;> rfl
  cases h with
  | plain _ hquote hslash hcontrol =>
      rw [List.singleton_append, readString, if_neg hquote, if_neg hslash, if_neg (by omega)]
      cases readString fuel rest <;> rfl
  | short letter _ hmem => exact hescape _ (readEscape_short letter c hmem rest)
  | unit _ digits hdigits => exact hescape _ (readEscape_unit c digits rest hdigits)
  | pair _ high low first second hfirst hsecond hge hlt hge' hlt' hc =>
      refine hescape ('u' :: first ++ '\\' :: 'u' :: second) ?_
      rw [List.append_assoc]
      exact readEscape_pair c high low first second rest hfirst hsecond ⟨hge, hlt⟩ ⟨hge', hlt'⟩ hc

theorem length_pos_of_spells (c : Char) (piece : Text) (h : SpellsChar c piece) :
    0 < piece.length := by
  cases h <;> exact Nat.succ_pos _

/-- A literal is read back up to its closing quote. -/
theorem readString_pieces (cs : Text) (pieces : List Text) (h : List.Forall₂ SpellsChar cs pieces)
    (fuel : Nat) (rest : Text) (hfuel : pieces.flatten.length < fuel) :
    readString fuel (pieces.flatten ++ '"' :: rest) = some (cs, rest) := by
  induction h generalizing fuel with
  | nil =>
      cases fuel with
      | zero => exact absurd hfuel (Nat.not_lt_zero _)
      | succ fuel => rfl
  | @cons c piece cs pieces hc _ ih =>
      -- Each piece is a character at least, so one unit of fuel pays for it.
      rw [List.flatten_cons, List.length_append] at hfuel
      have hpos := length_pos_of_spells c piece hc
      cases fuel with
      | zero => exact absurd hfuel (Nat.not_lt_zero _)
      | succ fuel =>
          rw [List.flatten_cons, List.append_assoc, readString_spells c piece hc,
            ih fuel (by omega), Option.map_some]

/-- A string in compact form is a literal. -/
theorem isLiteral_writeString (s : String) : IsLiteral s (Json.writeString s) := by
  have hletters : ∀ entry ∈ Json.escapes, (entry.2, entry.1) ∈ shortEscapes := by decide
  have hdigits : ∀ n < 32, readUnit ['0', '0', Nat.digitChar (n / 16), Nat.digitChar (n % 16)]
      = some (n, []) := by decide
  refine ⟨s.toList.map Json.escapeChar, ?_, rfl⟩
  rw [List.forall₂_map_right_iff, List.forall₂_same]
  intro c _
  rw [Json.escapeChar]
  cases hl : Json.escapes.lookup c with
  | some letter =>
      exact .short letter c
        (hletters (c, letter) (Hash.mem_of_lookup_eq_some c letter Json.escapes hl))
  | none =>
      by_cases hc : c.toNat < 32
      · simp only [if_pos hc]
        exact .unit c _ (hdigits c.toNat hc)
      · simp only [if_neg hc]
        refine .plain c ?_ ?_ (by omega)
        · rintro rfl
          exact absurd hl (by decide)
        · rintro rfl
          exact absurd hl (by decide)

theorem skip_cons (c : Char) (rest : Text) (h : isBlank c = false) :
    skip (c :: rest) = c :: rest := by
  rw [skip, List.dropWhile_cons_of_neg]
  rw [h]
  exact Bool.false_ne_true

theorem reads_literal (s : String) (text : Text) (h : IsLiteral s text) : Reads text (.str s) := by
  rcases h with ⟨pieces, hpieces, rfl⟩
  intro fuel rest hfuel _
  simp only [List.cons_append, List.length_cons, List.length_append, List.length_nil] at hfuel
  cases fuel with
  | zero => exact absurd hfuel (Nat.not_lt_zero _)
  | succ fuel =>
      have hread := readString_pieces s.toList pieces hpieces fuel rest (by omega)
      rw [List.cons_append, List.cons_append, List.append_assoc, List.singleton_append, readValue,
        skip_cons _ _ (by decide)]
      simp only [if_true, hread, Option.map_some, String.ofList_toList]

theorem readKey_literal (k : String) (text : Text) (h : IsLiteral k text) (fuel : Nat) (rest : Text)
    (hfuel : text.length ≤ fuel) : readKey fuel (text ++ ':' :: rest) = some (k, rest) := by
  rcases h with ⟨pieces, hpieces, rfl⟩
  simp only [List.cons_append, List.length_cons, List.length_append, List.length_nil] at hfuel
  have hread := readString_pieces k.toList pieces hpieces fuel (':' :: rest) (by omega)
  rw [List.cons_append, List.cons_append, List.append_assoc, List.singleton_append, readKey,
    skip_cons _ _ (by decide)]
  simp only [hread, skip_cons ':' rest (by decide), String.ofList_toList]

theorem ne_of_isWordChar (c d : Char) (hc : isWordChar c = true) (hd : isWordChar d = false) :
    c ≠ d := by
  rintro rfl
  rw [hc] at hd
  exact absurd hd (by decide)

theorem isBlank_of_isWordChar (c : Char) (h : isWordChar c = true) : isBlank c = false := by
  have hne := fun d => ne_of_isWordChar c d h
  simp only [isBlank, beq_eq_false_iff_ne.mpr (hne ' ' (by decide)),
    beq_eq_false_iff_ne.mpr (hne '\t' (by decide)), beq_eq_false_iff_ne.mpr (hne '\n' (by decide)),
    beq_eq_false_iff_ne.mpr (hne '\r' (by decide)), Bool.or_false]

/-- A digit starts a number, and a letter a word. -/
theorem readValue_wordChar (fuel : Nat) (c : Char) (rest : Text) (h : isWordChar c = true) :
    readValue (fuel + 1) (c :: rest) =
      if c.isDigit then readNumber 1 (c :: rest) else readWord (c :: rest) := by
  have hne := fun d => ne_of_isWordChar c d h
  rw [readValue, skip_cons c rest (isBlank_of_isWordChar c h)]
  simp only [if_neg (hne '"' (by decide)), if_neg (hne '[' (by decide)),
    if_neg (hne '{' (by decide)), if_neg (hne '-' (by decide))]

/-- A word is read to its end and looked up. -/
theorem readValue_word (fuel : Nat) (word rest : Text) (h : IsWord word)
    (hrest : ∀ c, rest.head? = some c → isWordChar c = false) :
    readValue (fuel + 1) (word ++ rest) = (words.lookup word).map (fun v => (v, rest)) := by
  have hspan := span_append isWordChar word rest h.chars hrest
  have hread : readWord (word ++ rest) = (words.lookup word).map (fun v => (v, rest)) := by
    rw [readWord, hspan.1, hspan.2]
  rw [← hread]
  cases word with
  | nil => exact absurd rfl h.ne_nil
  | cons c word =>
      rw [List.cons_append, readValue_wordChar fuel c _ (h.chars c List.mem_cons_self),
        h.start c rfl, if_neg Bool.false_ne_true]

/-- Whether a text is a word. -/
def isWord (word : Text) : Bool :=
  !word.isEmpty && word.all isWordChar && word.head?.all (fun c => !c.isDigit)

theorem isWord_spec (word : Text) (h : isWord word = true) : IsWord word := by
  rw [isWord, Bool.and_eq_true, Bool.and_eq_true, Bool.not_eq_true', List.isEmpty_eq_false_iff] at h
  rcases h with ⟨⟨hne, hchars⟩, hstart⟩
  refine ⟨hne, List.all_eq_true.mp hchars, ?_⟩
  intro c hc
  rw [hc, Option.all_some, Bool.not_eq_true'] at hstart
  exact hstart

theorem isWord_of_lookup (word : Text) (v : Json) (h : words.lookup word = some v) :
    IsWord word := by
  have hall : words.all (fun entry => isWord entry.1) = true := rfl
  exact isWord_spec word
    (List.all_eq_true.mp hall (word, v) (Hash.mem_of_lookup_eq_some word v words h))

theorem reads_word (word : Text) (v : Json) (h : words.lookup word = some v) : Reads word v := by
  intro fuel rest hfuel hstop
  cases fuel with
  | zero => exact absurd hfuel (Nat.not_lt_zero _)
  | succ fuel =>
      rw [readValue_word fuel word rest (isWord_of_lookup word v h) (fun c hc => (hstop c hc).1), h,
        Option.map_some]

/-- A number is written without a zero in front. -/
theorem head?_toDigits (n : Nat) : ¬ ((Nat.toDigits 10 n).head? = some '0' ∧
    (Nat.toDigits 10 n).length ≠ 1) := by
  induction n using Nat.strongRecOn with
  | ind n ih =>
      rintro ⟨hhead, hlength⟩
      by_cases hn : n < 10
      · rw [Nat.toDigits_of_lt_base hn] at hlength
        exact hlength rfl
      · rw [Nat.toDigits_of_base_le (by omega) (by omega),
          List.head?_append_of_ne_nil _ Nat.toDigits_ne_nil] at hhead
        -- A zero in front of the quotient is all of it, and the quotient is not zero.
        have hone : (Nat.toDigits 10 (n / 10)).length = 1 := by
          by_contra hlength
          exact ih (n / 10) (by omega) ⟨hhead, hlength⟩
        rcases List.length_eq_one_iff.mp hone with ⟨d, hd⟩
        rw [hd, List.head?_cons, Option.some.injEq] at hhead
        have hzero : n / 10 = 0 := by
          rw [← @Nat.ofDigitChars_ten_toDigits (n / 10), hd, hhead]
          decide
        omega

theorem readDigits_toDigits (n : Nat) (rest : Text)
    (hrest : ∀ c, rest.head? = some c → c.isDigit = false) :
    readDigits (Nat.toDigits 10 n ++ rest) = some (Nat.toDigits 10 n, rest) := by
  have hspan := span_toDigits n rest hrest
  have hne : (Nat.toDigits 10 n).isEmpty = false :=
    List.isEmpty_eq_false_iff.mpr Nat.toDigits_ne_nil
  rw [readDigits, hspan.1, hspan.2, hne, if_neg Bool.false_ne_true]

theorem readFraction_of_stops (rest : Text) (h : Stops rest) :
    readFraction rest = some ([], rest) := by
  unfold readFraction
  split
  · exact absurd rfl (h '.' rfl).2
  · rfl

theorem readExponent_of_stops (rest : Text) (h : Stops rest) :
    readExponent rest = some (none, rest) := by
  cases rest with
  | nil => rfl
  | cons c rest =>
      have hc : ¬ (c = 'e' ∨ c = 'E') := by
        rintro (rfl | rfl)
        · exact absurd (h 'e' rfl).1 (by decide)
        · exact absurd (h 'E' rfl).1 (by decide)
      exact if_neg hc

theorem isWordChar_of_isDigit (c : Char) (h : c.isDigit = true) : isWordChar c = true := by
  rw [isWordChar, Char.isAlphanum, h, Bool.or_true, Bool.true_or, Bool.true_or]

theorem readNumber_toDigits (n : Nat) (rest : Text) (h : Stops rest) :
    readNumber 1 (Nat.toDigits 10 n ++ rest) = some (.int n, rest) := by
  -- A digit would be a word character, and none of these follows.
  have hdigit : ∀ c, rest.head? = some c → c.isDigit = false := by
    intro c hc
    rw [← Bool.not_eq_true]
    intro hd
    exact absurd (isWordChar_of_isDigit c hd) (by rw [(h c hc).1]; exact Bool.false_ne_true)
  simp only [readNumber, readDigits_toDigits n rest hdigit, if_neg (head?_toDigits n),
    readFraction_of_stops rest h, readExponent_of_stops rest h, Option.bind_eq_bind,
    Option.bind_some, numberOf, and_self, if_true, Nat.ofDigitChars_ten_toDigits, one_mul]

theorem reads_nat (n : Nat) : Reads (Nat.toDigits 10 n) (.int n) := by
  intro fuel rest hfuel hstop
  have hread := readNumber_toDigits n rest hstop
  -- The first digit is what tells a number from a word.
  rcases Json.toDigits_eq_cons n with ⟨d, ds, hds, hd⟩
  rw [hds, List.cons_append] at hread ⊢
  cases fuel with
  | zero => exact absurd hfuel (Nat.not_lt_zero _)
  | succ fuel => rw [readValue_wordChar fuel d _ (isWordChar_of_isDigit d hd), if_pos hd, hread]

/-- What the pieces are joined with stands in front of each but the first. -/
theorem intercalate_cons (text : Text) (texts : List Text) :
    [','].intercalate (text :: texts) = text ++ texts.flatMap (fun t => ',' :: t) := by
  induction texts generalizing text with
  | nil => rw [List.intercalate_singleton, List.flatMap_nil, List.append_nil]
  | cons next texts ih =>
      rw [List.intercalate_cons_cons, ih, List.flatMap_cons, List.append_assoc,
        List.singleton_append, List.cons_append]

/-- After a piece comes a comma or the closing bracket, and neither is part of
    it. -/
theorem stops_flatMap (texts : List Text) (close : Char) (rest : Text)
    (hclose : close = ']' ∨ close = '}') :
    Stops (texts.flatMap (fun t => ',' :: t) ++ close :: rest) := by
  intro c hc
  cases texts with
  | nil =>
      rw [List.flatMap_nil, List.nil_append, List.head?_cons, Option.some.injEq] at hc
      rw [← hc]
      rcases hclose with rfl | rfl <;> decide
  | cons text texts =>
      rw [List.flatMap_cons, List.cons_append, List.cons_append, List.head?_cons,
        Option.some.injEq] at hc
      rw [← hc]
      decide

/-- Nothing that is a document starts with a closing bracket. -/
theorem skip_head?_ne (fuel : Nat) (text : Text) (p : Json × Text)
    (h : readValue fuel text = some p) : (skip text).head? ≠ some ']' := by
  intro hhead
  cases hskip : skip text with
  | nil =>
      rw [hskip] at hhead
      exact absurd hhead (by decide)
  | cons c rest =>
      rw [hskip, List.head?_cons, Option.some.injEq] at hhead
      cases fuel with
      | zero => exact absurd h (by simp only [readValue, reduceCtorEq, not_false_eq_true])
      | succ fuel =>
          have hword : readWord (']' :: rest) = none := rfl
          rw [readValue, hskip, hhead] at h
          simp only [Char.reduceEq, if_false, show Char.isDigit ']' = false by decide,
            Bool.false_eq_true, hword, reduceCtorEq] at h

/-- The items after the first, one at a time. -/
theorem readItems_flatMap (texts : List Text) (items : List Json)
    (h : List.Forall₂ Reads texts items) (fuel : Nat) (rest : Text)
    (hfuel : (texts.flatMap (fun t => ',' :: t)).length < fuel) :
    readItems fuel (texts.flatMap (fun t => ',' :: t) ++ ']' :: rest) = some (items, rest) := by
  induction h generalizing fuel with
  | nil =>
      cases fuel with
      | zero => exact absurd hfuel (Nat.not_lt_zero _)
      | succ fuel =>
          rw [List.flatMap_nil, List.nil_append, readItems, skip_cons _ _ (by decide)]
          rfl
  | @cons text v texts items hv _ ih =>
      rw [List.flatMap_cons, List.cons_append, List.length_cons, List.length_append] at hfuel
      cases fuel with
      | zero => exact absurd hfuel (Nat.not_lt_zero _)
      | succ fuel =>
          -- What follows the item is a comma or the bracket, which no item runs into.
          have hhead := hv fuel _ (by omega) (stops_flatMap texts ']' rest (Or.inl rfl))
          rw [List.flatMap_cons, List.cons_append, List.cons_append, List.append_assoc, readItems,
            skip_cons _ _ (by decide)]
          simp only [hhead, ih fuel (by omega), Option.bind_eq_bind, Option.bind_some]

/-- An array that is not empty: its first item, and the others. -/
theorem readValue_bracket (fuel : Nat) (text : Text) (h : (skip text).head? ≠ some ']') :
    readValue (fuel + 1) ('[' :: text) = (readValue fuel text).bind (fun p =>
      (readItems fuel p.2).bind (fun q => some (.arr (p.1 :: q.1), q.2))) := by
  rw [readValue, skip_cons _ _ (by decide)]
  simp only [Char.reduceEq, if_false, if_true, if_neg h, Option.bind_eq_bind]

/-- Pieces with commas between them are the items of an array. -/
theorem reads_arr (texts : List Text) (items : List Json) (h : List.Forall₂ Reads texts items) :
    Reads ('[' :: [','].intercalate texts ++ [']']) (.arr items) := by
  intro fuel rest hfuel _
  cases fuel with
  | zero => exact absurd hfuel (Nat.not_lt_zero _)
  | succ fuel =>
      cases h with
      | nil =>
          rw [List.intercalate_nil, List.singleton_append, List.cons_append, List.singleton_append,
            readValue, skip_cons _ _ (by decide)]
          simp only [skip_cons ']' rest (by decide), List.head?_cons, List.tail_cons, if_true,
            Char.reduceEq, if_false]
      | @cons text v texts items hv hitems =>
          rw [intercalate_cons] at hfuel ⊢
          simp only [List.cons_append, List.length_cons, List.length_append,
            List.length_nil] at hfuel
          have hhead := hv fuel _ (by omega) (stops_flatMap texts ']' rest (Or.inl rfl))
          have htail := readItems_flatMap texts items hitems fuel rest (by omega)
          have hne := skip_head?_ne fuel _ _ hhead
          rw [List.cons_append, List.cons_append, List.append_assoc, List.append_assoc,
            List.singleton_append, readValue_bracket fuel _ hne, hhead, Option.bind_some, htail,
            Option.bind_some]

theorem readFields_flatMap (texts : List Text) (fields : List (String × Json))
    (h : List.Forall₂ ReadsField texts fields) (fuel : Nat) (rest : Text)
    (hfuel : (texts.flatMap (fun t => ',' :: t)).length < fuel) :
    readFields fuel (texts.flatMap (fun t => ',' :: t) ++ '}' :: rest) = some (fields, rest) := by
  induction h generalizing fuel with
  | nil =>
      cases fuel with
      | zero => exact absurd hfuel (Nat.not_lt_zero _)
      | succ fuel =>
          rw [List.flatMap_nil, List.nil_append, readFields, skip_cons _ _ (by decide)]
          rfl
  | @cons text field texts fields hfield _ ih =>
      rcases hfield with ⟨key, value, hkey, hvalue, rfl⟩
      simp only [List.flatMap_cons, List.cons_append, List.append_assoc, List.length_cons,
        List.length_append] at hfuel
      cases fuel with
      | zero => exact absurd hfuel (Nat.not_lt_zero _)
      | succ fuel =>
          -- The key is read up to its colon, and the value up to a comma or the brace.
          have hhead := hvalue fuel _ (by omega) (stops_flatMap texts '}' rest (Or.inr rfl))
          rw [List.flatMap_cons, List.cons_append, List.cons_append, List.append_assoc,
            List.append_assoc, List.cons_append, readFields, skip_cons _ _ (by decide)]
          simp only [readKey_literal field.1 key hkey fuel _ (by omega), hhead, ih fuel (by omega),
            Option.bind_eq_bind, Option.bind_some]

/-- Pieces with commas between them are the fields of an object. -/
theorem reads_obj (texts : List Text) (fields : List (String × Json))
    (h : List.Forall₂ ReadsField texts fields) :
    Reads ('{' :: [','].intercalate texts ++ ['}']) (.obj fields) := by
  intro fuel rest hfuel _
  cases fuel with
  | zero => exact absurd hfuel (Nat.not_lt_zero _)
  | succ fuel =>
      cases h with
      | nil =>
          rw [List.intercalate_nil, List.singleton_append, List.cons_append, List.singleton_append,
            readValue, skip_cons _ _ (by decide)]
          simp only [skip_cons '}' rest (by decide), List.head?_cons, List.tail_cons, if_true,
            Char.reduceEq, if_false]
      | @cons text field texts fields hfield hfields =>
          rcases hfield with ⟨key, value, hkey, hvalue, rfl⟩
          rw [intercalate_cons] at hfuel ⊢
          simp only [List.cons_append, List.append_assoc, List.length_cons, List.length_append,
            List.length_nil] at hfuel
          have hhead := hvalue fuel _ (by omega) (stops_flatMap texts '}' rest (Or.inr rfl))
          have htail := readFields_flatMap texts fields hfields fuel rest (by omega)
          -- A key starts with its quote, so the object is not taken for an empty one.
          have hne : (skip (key ++ ':' :: (value ++ (texts.flatMap (fun t => ',' :: t) ++
              '}' :: rest)))).head? ≠ some '}' := by
            rcases hkey with ⟨pieces, _, rfl⟩
            rw [List.cons_append, List.cons_append, skip_cons _ _ (by decide), List.head?_cons]
            decide
          rw [List.cons_append, List.cons_append, List.append_assoc, List.append_assoc,
            List.append_assoc, List.cons_append, List.singleton_append, readValue,
            skip_cons _ _ (by decide)]
          simp only [Char.reduceEq, if_false, if_true, if_neg hne,
            readKey_literal field.1 key hkey fuel _ (by omega), hhead, htail, Option.bind_eq_bind,
            Option.bind_some]

/-- A text that is nothing but a piece. -/
theorem parse?_of_reads (text : Text) (v : Json) (h : Reads text v) : parse? text = some v := by
  have hread := h (text.length + 1) [] (Nat.lt_succ_self _) (fun c hc => absurd hc (by simp))
  rw [List.append_nil] at hread
  rw [parse?, hread]
  rfl

/-- A text that is a document was read to its end. -/
theorem readValue_of_parse? (text : Text) (v : Json) (h : parse? text = some v) :
    ∃ rest, readValue (text.length + 1) text = some (v, rest) := by
  rw [parse?] at h
  cases hread : readValue (text.length + 1) text with
  | none =>
      rw [hread] at h
      exact absurd h (by simp only [reduceCtorEq, not_false_eq_true])
  | some p =>
      simp only [hread] at h
      split at h
      · rw [← Option.some.inj h]
        exact ⟨p.2, rfl⟩
      · exact absurd h (by simp only [reduceCtorEq, not_false_eq_true])

end JsonText

end Ruby
