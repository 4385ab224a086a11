import Mathlib.Data.BitVec
import Mathlib.Logic.Function.Iterate

/-!
# Iterating a Linear Map

A map on words of `w` bits that is linear in exclusive or is known from what it
does to the words with one bit. A table of these `w` images is enough to apply
the map, and the table of the map applied twice is the table with the map applied
to its entries. So a number of iterations that could never be carried out one by
one is carried out by squaring, and the result is a value that can be computed.

## Main definitions

* `Linear`: Linear in exclusive or.
* `tableOf`, `applyTable`: The table of a map, and the map of a table.
* `powered`: So many iterations, by squaring.

## Theorems

* `applyTable_tableOf`: A linear map is the map of its table.
* `powered_eq_iterate`: Squaring computes the iterations.
-/

namespace XorLinear

variable {w : Nat}

/-- Linear in exclusive or. -/
def Linear (f : BitVec w → BitVec w) : Prop := ∀ a b, f (a ^^^ b) = f a ^^^ f b

/-- The map of a table: the entries that the bits of a word choose, combined. -/
def applyTable : List (BitVec w) → BitVec w → BitVec w
  | [], _ => 0#w
  | t :: rest, c => (if c.getLsbD 0 then t else 0#w) ^^^ applyTable rest (c >>> 1)

/-- The images of the words with one bit, the lowest bit first. -/
def tableOf (f : BitVec w → BitVec w) : List (BitVec w) :=
  (List.range' 0 w).map (fun i => f (1#w <<< i))

/-- So many iterations by squaring, for a number of at most `fuel` bits. -/
def powered : Nat → List (BitVec w) → Nat → BitVec w → BitVec w
  | 0, _, _, c => c
  | fuel + 1, table, n, c =>
      powered fuel (table.map (applyTable table)) (n / 2)
        (if n % 2 = 1 then applyTable table c else c)

theorem Linear.map_zero {f : BitVec w → BitVec w} (hf : Linear f) : f 0#w = 0#w := by
  have h := hf 0#w 0#w
  rw [BitVec.xor_self] at h
  rw [h, BitVec.xor_self]

theorem Linear.iterate {f : BitVec w → BitVec w} (hf : Linear f) (n : Nat) : Linear f^[n] := by
  intro a b
  induction n with
  | zero => rfl
  | succ n ih => rw [Function.iterate_succ_apply', ih, hf, Function.iterate_succ_apply',
      Function.iterate_succ_apply']

/-- A linear map applied to the entries is applied to the result. -/
theorem applyTable_map {f : BitVec w → BitVec w} (hf : Linear f) (table : List (BitVec w))
    (c : BitVec w) : applyTable (table.map f) c = f (applyTable table c) := by
  induction table generalizing c with
  | nil => exact hf.map_zero.symm
  | cons t rest ih =>
      rw [List.map_cons, applyTable, applyTable, ih, hf]
      by_cases hbit : c.getLsbD 0 = true
      · rw [if_pos hbit, if_pos hbit]
      · rw [if_neg hbit, if_neg hbit, hf.map_zero]

/-- The words with one bit choose themselves. -/
theorem getLsbD_applyTable_units (k n : Nat) (c : BitVec w) (i : Nat) (hi : i < w) :
    (applyTable ((List.range' k n).map (fun j => 1#w <<< j)) c).getLsbD i
      = (decide (k ≤ i ∧ i < k + n) && c.getLsbD (i - k)) := by
  induction n generalizing k c with
  | zero =>
      rw [List.range'_zero, List.map_nil, applyTable, BitVec.getLsbD_zero,
        decide_eq_false (by omega), Bool.false_and]
  | succ n ih =>
      have hunit : (1#w <<< k).getLsbD i = decide (i = k) := by
        rw [BitVec.getLsbD_shiftLeft, decide_eq_true hi, Bool.true_and, BitVec.getLsbD_one,
          decide_eq_true (show 0 < w by omega), Bool.true_and]
        by_cases hik : i = k
        · rw [hik]
          simp only [Nat.lt_irrefl, decide_false, Bool.not_false, Nat.sub_self, decide_true,
            Bool.and_self]
        · rw [decide_eq_false hik]
          by_cases hlt : i < k
          · rw [decide_eq_true hlt, Bool.not_true, Bool.false_and]
          · rw [decide_eq_false (show ¬ i - k = 0 by omega), Bool.and_false]
      rw [List.range'_succ, List.map_cons, applyTable, BitVec.getLsbD_xor, ih,
        BitVec.getLsbD_ushiftRight]
      have hchosen : (if c.getLsbD 0 = true then 1#w <<< k else 0#w).getLsbD i
          = (decide (i = k) && c.getLsbD 0) := by
        by_cases hbit : c.getLsbD 0 = true
        · rw [if_pos hbit, hunit, hbit, Bool.and_true]
        · rw [if_neg hbit, BitVec.getLsbD_zero, (Bool.not_eq_true _).mp hbit, Bool.and_false]
      rw [hchosen]
      by_cases hik : i = k
      · rw [decide_eq_true hik, decide_eq_false (show ¬ (k + 1 ≤ i ∧ i < k + 1 + n) by omega),
          decide_eq_true (show k ≤ i ∧ i < k + (n + 1) by omega), hik, Nat.sub_self,
          Bool.false_and, Bool.xor_false]
      · rw [decide_eq_false hik, Bool.false_and, Bool.false_xor]
        by_cases hin : k + 1 ≤ i ∧ i < k + 1 + n
        · rw [decide_eq_true hin, decide_eq_true (show k ≤ i ∧ i < k + (n + 1) by omega),
            show 1 + (i - (k + 1)) = i - k by omega]
        · rw [decide_eq_false hin, decide_eq_false (show ¬ (k ≤ i ∧ i < k + (n + 1)) by omega),
            Bool.false_and, Bool.false_and]

/-- A linear map is the map of its table. -/
theorem applyTable_tableOf {f : BitVec w → BitVec w} (hf : Linear f) (c : BitVec w) :
    applyTable (tableOf f) c = f c := by
  have hunits : applyTable ((List.range' 0 w).map (fun i => 1#w <<< i)) c = c := by
    apply BitVec.eq_of_getLsbD_eq
    intro i hi
    rw [getLsbD_applyTable_units 0 w c i hi, decide_eq_true (by omega), Bool.true_and, Nat.sub_zero]
  have hmap : tableOf f = ((List.range' 0 w).map (fun i => 1#w <<< i)).map f := by
    rw [List.map_map]
    rfl
  rw [hmap, applyTable_map hf, hunits]

/-- Squaring computes the iterations. -/
theorem powered_eq_iterate {f : BitVec w → BitVec w} (hf : Linear f) (fuel : Nat)
    (table : List (BitVec w)) (htable : ∀ c, applyTable table c = f c) (n : Nat)
    (hn : n < 2 ^ fuel) (c : BitVec w) : powered fuel table n c = f^[n] c := by
  induction fuel generalizing f table n c with
  | zero =>
      rw [show n = 0 by omega]
      rfl
  | succ fuel ih =>
      have hsquare : ∀ c, applyTable (table.map (applyTable table)) c = f^[2] c := by
        intro c
        rw [funext htable, applyTable_map hf, htable]
        rfl
      rw [powered, ih (hf.iterate 2) _ hsquare (n / 2) (by omega), ← Function.iterate_mul]
      by_cases hodd : n % 2 = 1
      · rw [if_pos hodd, htable]
        conv_rhs => rw [show n = 2 * (n / 2) + 1 by omega]
        rfl
      · rw [if_neg hodd]
        conv_rhs => rw [show n = 2 * (n / 2) by omega]

end XorLinear
