import Mathlib.Algebra.Order.Ring.Nat
import Mathlib.Data.List.Basic

/-!
# Hexadecimal Numerals

Unsigned integers of any size as hexadecimal text. Writing gives lower-case
digits without leading zeros. Reading takes either case, one leading plus sign
and underscores between digits, after the white space around the numeral has
been trimmed, so it accepts more than is ever written; what was written it reads
back.

## Main definitions

* `hexOfNat`: The numeral of a number.
* `natOfHex`: The number of a numeral.

## Theorems

* `natOfHex_hexOfNat`: What was written is read back.
-/

namespace Ruby

/-- `to_str_radix(16)`. -/
def hexOfNat (n : Nat) : String := String.ofList (Nat.toDigits 16 n)

/-- The value of a digit below the radix. -/
def hexDigit? (c : Char) : Option Nat :=
  if '0' ≤ c ∧ c ≤ '9' then some (c.toNat - '0'.toNat)
  else if 'a' ≤ c ∧ c ≤ 'f' then some (c.toNat - 'a'.toNat + 10)
  else if 'A' ≤ c ∧ c ≤ 'F' then some (c.toNat - 'A'.toNat + 10)
  else none

/-- The digits of a numeral, onto a number read so far. -/
def readDigits : Nat → List Char → Option Nat
  | acc, [] => some acc
  | acc, c :: rest =>
    if c = '_' then readDigits acc rest
    else
      match hexDigit? c with
      | none => none
      | some d => readDigits (acc * 16 + d) rest

/-- Unicode white space, which is what `trim` removes. -/
def isWhite (c : Char) : Bool :=
  (9 ≤ c.toNat && c.toNat ≤ 13) || c.toNat == 0x20 || c.toNat == 0x85 || c.toNat == 0xa0 ||
    c.toNat == 0x1680 || (0x2000 ≤ c.toNat && c.toNat ≤ 0x200a) || c.toNat == 0x2028 ||
    c.toNat == 0x2029 || c.toNat == 0x202f || c.toNat == 0x205f || c.toNat == 0x3000

/-- `trim`. -/
def trim (cs : List Char) : List Char :=
  ((cs.dropWhile isWhite).reverse.dropWhile isWhite).reverse

/-- A leading plus sign, unless another one follows it. -/
def stripPlus : List Char → List Char
  | '+' :: rest => if rest.head? = some '+' then '+' :: rest else rest
  | cs => cs

/-- `from_str_radix(value.trim(), 16)`. -/
def natOfHex (value : String) : Option Nat :=
  let cs := stripPlus (trim value.toList)
  if cs = [] ∨ cs.head? = some '_' then none else readDigits 0 cs

/-- The characters of numerals that are written. -/
def IsNumeral (c : Char) : Prop :=
  isWhite c = false ∧ c ≠ '+' ∧ c ≠ '_'

theorem digitChar_spec (d : Nat) (h : d < 16) :
    hexDigit? d.digitChar = some d ∧ IsNumeral d.digitChar := by
  have hall : ∀ d : Fin 16, hexDigit? (Nat.digitChar d) = some d.val ∧
      isWhite (Nat.digitChar d) = false ∧ Nat.digitChar d ≠ '+' ∧ Nat.digitChar d ≠ '_' := by
    decide
  exact hall ⟨d, h⟩

theorem readDigits_append_digit (acc n : Nat) (cs : List Char) (d : Nat) (hd : d < 16)
    (h : readDigits acc cs = some n) :
    readDigits acc (cs ++ [d.digitChar]) = some (n * 16 + d) := by
  rcases digitChar_spec d hd with ⟨hdigit, _, _, hunderscore⟩
  induction cs generalizing acc with
  | nil =>
      rw [readDigits, Option.some.injEq] at h
      simp only [List.nil_append, readDigits, if_neg hunderscore, hdigit, h]
  | cons c rest ih =>
      rw [readDigits] at h
      rw [List.cons_append, readDigits]
      by_cases hc : c = '_'
      · rw [if_pos hc] at h ⊢
        exact ih acc h
      · rw [if_neg hc] at h ⊢
        cases hval : hexDigit? c with
        | none =>
            simp only [hval] at h
            exact absurd h (by simp only [reduceCtorEq, not_false_eq_true])
        | some v =>
            simp only [hval] at h ⊢
            exact ih _ h

/-- The digits of a number read back as it, and are plain numeral characters.
    The induction follows the division by the radix. -/
theorem toDigits_spec (n : Nat) :
    readDigits 0 (Nat.toDigits 16 n) = some n ∧ ∀ c ∈ Nat.toDigits 16 n, IsNumeral c := by
  induction n using Nat.strongRecOn with
  | ind n ih =>
      by_cases hn : n < 16
      · rw [Nat.toDigits_of_lt_base hn]
        have hread := readDigits_append_digit 0 0 [] n hn rfl
        rw [List.nil_append, Nat.zero_mul, Nat.zero_add] at hread
        refine ⟨hread, ?_⟩
        rw [List.forall_mem_singleton]
        exact (digitChar_spec n hn).2
      · have hlt : n / 16 < n := by omega
        have hmod : n % 16 < 16 := by omega
        rcases ih (n / 16) hlt with ⟨hread, hplain⟩
        rw [Nat.toDigits_of_base_le (by omega) (by omega)]
        constructor
        · rw [readDigits_append_digit 0 (n / 16) _ (n % 16) hmod hread]
          congr 1
          omega
        · rw [List.forall_mem_append, List.forall_mem_singleton]
          exact ⟨hplain, (digitChar_spec (n % 16) hmod).2⟩

theorem dropWhile_isWhite_of_numeral (cs : List Char) (h : ∀ c ∈ cs, IsNumeral c) :
    cs.dropWhile isWhite = cs := by
  cases cs with
  | nil => rfl
  | cons c rest =>
      have hc := (h c List.mem_cons_self).1
      rw [List.dropWhile_cons_of_neg]
      rw [hc]
      exact Bool.false_ne_true

theorem trim_of_numeral (cs : List Char) (h : ∀ c ∈ cs, IsNumeral c) : trim cs = cs := by
  unfold trim
  rw [dropWhile_isWhite_of_numeral cs h, dropWhile_isWhite_of_numeral cs.reverse,
    List.reverse_reverse]
  intro c hc
  exact h c (List.mem_reverse.mp hc)

theorem stripPlus_of_numeral (cs : List Char) (h : ∀ c ∈ cs, IsNumeral c) : stripPlus cs = cs := by
  cases cs with
  | nil => rfl
  | cons c rest =>
      have hc : c ≠ '+' := (h c List.mem_cons_self).2.1
      unfold stripPlus
      split
      · rename_i heq
        exact absurd (List.cons.inj heq).1 hc
      · rfl

/-- What was written is read back. -/
theorem natOfHex_hexOfNat (n : Nat) : natOfHex (hexOfNat n) = some n := by
  rcases toDigits_spec n with ⟨hread, hplain⟩
  unfold natOfHex hexOfNat
  simp only [String.toList_ofList, trim_of_numeral _ hplain, stripPlus_of_numeral _ hplain]
  have hne : ¬ (Nat.toDigits 16 n = [] ∨ (Nat.toDigits 16 n).head? = some '_') := by
    intro h
    rcases h with h | h
    · exact Nat.toDigits_ne_nil h
    · exact (hplain '_' (List.mem_of_head? h)).2.2 rfl
  rw [if_neg hne]
  exact hread

end Ruby
