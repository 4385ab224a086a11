import Mathlib.Dynamics.PeriodicPts.Defs
import Mathlib.Algebra.Group.Nat.Even
import Mathlib.Data.Nat.Prime.Basic
import Confium.Lib.Crc

/-!
# Flipped Bits and the Register

What a register makes of bits flipped here and there in a message, however far
apart they are. `Crc` tells messages apart that differ in one short stretch. Here
the two messages may differ anywhere, and the bits where they do are counted.

The registers of two messages differ by a sum with one term for each flipped
bit: the bit at the top of the register, shifted once for itself and once for
every bit behind it. Whether flips go unnoticed is whether these terms cancel.

An odd number of them never does when the generator is itself odd in its number
of bits. Every shift then keeps that number odd or even, so each term is odd, and
so is their sum. Two of them cancel when the shifts between them bring the top
bit back to itself, which happens at the multiples of one number, the period of
the generator.

## Main definitions

* `spell`, `ofBits`: The bits of a digit, and a message of bits.
* `syndrome`: The difference that flipped bits make.
* `places`, `flips`: Where bits are set, and where two messages differ.
* `parity`: Whether a word has an odd number of bits.

## Theorems

* `register_eq_bits`: A message taken in bit by bit.
* `register_xor`: Registers differ by the syndrome.
* `syndrome_eq`: One term for each flipped bit.
* `register_ne_of_odd`: An odd number of flips is noticed.
* `register_eq_iff_of_two`: Two flips are not, at the multiples of the period.
* `flips_ne_nil`: Different messages have a flipped bit.
* `minimalPeriod_eq_mul`: A period that is the product of two primes.
-/

namespace Crc

variable {w d : Nat} (p : BitVec w)

/-- A bit at the top of the register, which is where bits enter it. -/
def entry : BitVec w := top 1#1

/-- The bits of a digit, the top one first. -/
def spell (b : BitVec d) : List Bool := (List.range d).map b.getMsbD

/-- A message of bits. -/
def ofBits (bits : List Bool) : List (BitVec 1) := bits.map BitVec.ofBool

/-- The difference that the set bits of a list make. -/
def syndrome : List Bool → BitVec w
  | [] => 0#w
  | b :: e => (if b then shifts p (e.length + 1) entry else 0#w) ^^^ syndrome e

/-- Where the bits of a list are set. -/
def places (e : List Bool) : List Nat := (List.range e.length).filter (fun i => e.getD i false)

/-- Where two messages differ, by the bit. -/
def flips (bs bs' : List (BitVec d)) : List Nat :=
  places (List.zipWith xor (bs.flatMap spell) (bs'.flatMap spell))

/-! ### Bit by bit -/

theorem top_ofBool (b : Bool) :
    (top (BitVec.ofBool b) : BitVec w) = if b then entry else 0#w := by
  cases b with
  | false =>
      rw [if_neg Bool.false_ne_true]
      simp [top]
  | true => rfl

theorem getLsbD_packed_ofBits (bits : List Bool) (i : Nat) (hi : i < w) :
    (packed (ofBits bits) : BitVec w).getLsbD i = bits.getD (w - 1 - i) false := by
  induction bits generalizing i with
  | nil =>
      rw [ofBits, List.map_nil, packed, BitVec.getLsbD_zero]
      rfl
  | cons b bits ih =>
      rw [ofBits, List.map_cons, packed, BitVec.getLsbD_xor, getLsbD_top _ _ (by omega),
        BitVec.getLsbD_ushiftRight]
      by_cases hlast : i = w - 1
      · rw [decide_eq_true (by omega), BitVec.getLsbD_of_ge _ (1 + i) (by omega),
          show w - 1 - i = 0 by omega, show i - (w - 1) = 0 by omega]
        cases b <;> rfl
      · have hrest := ih (1 + i) (by omega)
        rw [ofBits] at hrest
        rw [decide_eq_false (by omega), Bool.false_and, Bool.false_xor, hrest,
          show w - 1 - i = (w - 1 - (1 + i)) + 1 by omega]
        rfl

theorem getD_spell (b : BitVec d) (j : Nat) : (spell b).getD j false = b.getMsbD j := by
  rw [spell, List.getD_eq_getElem?_getD, List.getElem?_map]
  by_cases hj : j < d
  · rw [List.getElem?_range hj]
    rfl
  · rw [List.getElem?_eq_none (by rw [List.length_range]; omega), BitVec.getMsbD_eq_getLsbD,
      decide_eq_false hj, Bool.false_and]
    rfl

theorem length_spell (b : BitVec d) : (spell b).length = d := by
  rw [spell, List.length_map, List.length_range]

theorem length_flatMap_spell (bs : List (BitVec d)) :
    (bs.flatMap spell).length = bs.length * d := by
  rw [List.length_flatMap, List.map_congr_left (fun b _ => length_spell b), List.map_const',
    List.sum_replicate_nat]

/-- The bits of a digit side by side are the digit. -/
theorem packed_spell (b : BitVec d) (hd : d ≤ w) :
    (packed (ofBits (spell b)) : BitVec w) = top b := by
  apply BitVec.eq_of_getLsbD_eq
  intro i hi
  rw [getLsbD_packed_ofBits _ i hi, getD_spell, BitVec.getMsbD_eq_getLsbD, getLsbD_top _ _ hd]
  by_cases hin : w - d ≤ i
  · rw [decide_eq_true hin, decide_eq_true (show w - 1 - i < d by omega),
      show d - 1 - (w - 1 - i) = i - (w - d) by omega]
  · rw [decide_eq_false hin, decide_eq_false (show ¬ w - 1 - i < d by omega), Bool.false_and,
      Bool.false_and]

/-- A message can be taken in bit by bit. -/
theorem register_eq_bits (hd : d ≤ w) (c : BitVec w) (bs : List (BitVec d)) :
    register p c bs = register p c (ofBits (bs.flatMap spell)) := by
  induction bs generalizing c with
  | nil => rfl
  | cons b bs ih =>
      have hlen : (ofBits (spell b)).length = d := by
        rw [ofBits, List.length_map, length_spell]
      have hdigit : register p c (ofBits (spell b)) = update p c b := by
        rw [register_eq_shifts p c _ (by rw [hlen]; omega), packed_spell b hd, hlen, Nat.one_mul,
          update]
      have happend : ofBits ((b :: bs).flatMap spell)
          = ofBits (spell b) ++ ofBits (bs.flatMap spell) := by
        rw [List.flatMap_cons, ofBits, List.map_append]
        rfl
      rw [happend, register_append, hdigit, ← ih]
      rfl

/-! ### The difference that flipped bits make -/

theorem shifts_zero_word (n : Nat) : shifts p n 0#w = 0#w := by
  have h := shifts_xor p n 0#w 0#w
  rw [BitVec.xor_self] at h
  rw [h, BitVec.xor_self]

/-- Registers differ by what the registers they started from did, shifted all the
    way, and by the syndrome. -/
theorem register_xor (c c' : BitVec w) (bits bits' : List Bool)
    (hlen : bits.length = bits'.length) :
    register p c (ofBits bits) ^^^ register p c' (ofBits bits')
      = shifts p bits.length (c ^^^ c') ^^^ syndrome p (List.zipWith xor bits bits') := by
  induction bits generalizing c c' bits' with
  | nil =>
      rw [List.length_eq_zero_iff.mp hlen.symm, List.zipWith_nil_left, syndrome, BitVec.xor_zero]
      rfl
  | cons b bits ih =>
      cases bits' with
      | nil => exact absurd hlen (Nat.succ_ne_zero _)
      | cons b' bits' =>
          rw [List.length_cons, List.length_cons, Nat.succ_inj] at hlen
          have hrest := ih (update p c (BitVec.ofBool b)) (update p c' (BitVec.ofBool b'))
            bits' hlen
          -- What the first bits put in is the entry, if just one of them does.
          have hentry : (top (BitVec.ofBool b) : BitVec w) ^^^ top (BitVec.ofBool b')
              = if (b ^^ b') = true then entry else 0#w := by
            rw [top_ofBool, top_ofBool]
            cases b with
            | false =>
                rw [if_neg Bool.false_ne_true, BitVec.zero_xor, Bool.false_xor]
            | true =>
                cases b' with
                | false => exact BitVec.xor_zero
                | true => exact BitVec.xor_self
          have hfirst : update p c (BitVec.ofBool b) ^^^ update p c' (BitVec.ofBool b')
              = shifts p 1 (c ^^^ c') ^^^ shifts p 1 (if (b ^^ b') = true then entry else 0#w) := by
            rw [update, update, ← shifts_xor, ← shifts_xor, ← hentry]
            congr 1
            rw [BitVec.xor_assoc, BitVec.xor_assoc, ← BitVec.xor_assoc (top (BitVec.ofBool b)) c',
              BitVec.xor_comm (top (BitVec.ofBool b)) c', BitVec.xor_assoc c']
          have hsum : shifts p bits.length (shifts p 1 (if (b ^^ b') = true then entry else 0#w))
              = if (b ^^ b') = true then shifts p (bits.length + 1) entry else 0#w := by
            rw [← shifts_add]
            by_cases hb : (b ^^ b') = true
            · rw [if_pos hb, if_pos hb]
            · rw [if_neg hb, if_neg hb, shifts_zero_word]
          have hzip : (List.zipWith xor bits bits').length = bits.length := by
            rw [List.length_zipWith, hlen, Nat.min_self]
          rw [List.zipWith_cons_cons, syndrome, hzip, List.length_cons, shifts_add,
            ← BitVec.xor_assoc, ← hsum, ← shifts_xor, ← hfirst]
          exact hrest

theorem places_cons (b : Bool) (e : List Bool) :
    places (b :: e) = (if b then [0] else []) ++ (places e).map (· + 1) := by
  rw [places, List.length_cons, List.range_succ_eq_map, List.filter_cons, List.filter_map, places]
  cases b <;> rfl

/-- One term for each set bit: the entry, shifted past the bits behind it. -/
theorem syndrome_eq (e : List Bool) :
    syndrome p e
      = ((places e).map (fun i => shifts p (e.length - i) entry)).foldr (· ^^^ ·) 0#w := by
  induction e with
  | nil => rfl
  | cons b e ih =>
      have hshift : ((places e).map (· + 1)).map (fun i => shifts p ((b :: e).length - i) entry)
          = (places e).map (fun i => (shifts p (e.length - i) entry : BitVec w)) := by
        rw [List.map_map]
        apply List.map_congr_left
        intro i _
        rw [Function.comp_apply, List.length_cons, Nat.add_sub_add_right]
      rw [syndrome, places_cons, List.map_append, hshift, ih]
      cases b with
      | false =>
          rw [if_neg Bool.false_ne_true, if_neg Bool.false_ne_true, BitVec.zero_xor]
          rfl
      | true =>
          rw [if_pos rfl, if_pos rfl]
          rfl

/-- Flips go unnoticed when their terms cancel. -/
theorem register_eq_iff_syndrome (hd : d ≤ w) (c : BitVec w) (bs bs' : List (BitVec d))
    (hlen : bs.length = bs'.length) :
    register p c bs = register p c bs' ↔
      syndrome p (List.zipWith xor (bs.flatMap spell) (bs'.flatMap spell)) = 0#w := by
  have hx := register_xor p c c (bs.flatMap spell) (bs'.flatMap spell)
    (by rw [length_flatMap_spell, length_flatMap_spell, hlen])
  rw [BitVec.xor_self, shifts_zero_word, BitVec.zero_xor, ← register_eq_bits p hd,
    ← register_eq_bits p hd] at hx
  rw [← hx, BitVec.xor_eq_zero_iff]

/-! ### An odd number of flips -/

/-- Whether an odd number of the bits below a place are set. -/
def parityBelow (c : BitVec w) : Nat → Bool
  | 0 => false
  | n + 1 => (c.getLsbD n ^^ parityBelow c n)

/-- Whether a word has an odd number of bits. -/
def parity (c : BitVec w) : Bool := parityBelow c w

theorem parityBelow_xor (a b : BitVec w) (n : Nat) :
    parityBelow (a ^^^ b) n = (parityBelow a n ^^ parityBelow b n) := by
  induction n with
  | zero => rfl
  | succ n ih =>
      rw [parityBelow, parityBelow, parityBelow, ih, BitVec.getLsbD_xor]
      cases a.getLsbD n <;> cases b.getLsbD n <;> cases parityBelow a n <;>
        cases parityBelow b n <;> rfl

theorem parity_xor (a b : BitVec w) : parity (a ^^^ b) = (parity a ^^ parity b) :=
  parityBelow_xor a b w

theorem parityBelow_zero (n : Nat) : parityBelow 0#w n = false := by
  induction n with
  | zero => rfl
  | succ n ih => rw [parityBelow, ih, BitVec.getLsbD_zero, Bool.xor_false]

theorem parityBelow_shiftLeft (c : BitVec w) (n : Nat) (hn : n < w) :
    parityBelow (c <<< 1) (n + 1) = parityBelow c n := by
  induction n with
  | zero =>
      rw [parityBelow, parityBelow, parityBelow, BitVec.getLsbD_shiftLeft,
        decide_eq_true (show 0 < 1 by decide), Bool.not_true, Bool.and_false, Bool.false_and,
        Bool.xor_false]
  | succ n ih =>
      rw [parityBelow, ih (by omega), BitVec.getLsbD_shiftLeft, decide_eq_true hn,
        decide_eq_false (show ¬ n + 1 < 1 by omega), Bool.not_false, Bool.and_true, Bool.true_and,
        Nat.add_sub_cancel, parityBelow]

/-- A shift keeps the parity: what it loses with the bit that falls out, the
    generator gives back. -/
theorem parity_shift (hp : parity p = true) (c : BitVec w) : parity (shift p c) = parity c := by
  cases w with
  | zero =>
      rw [BitVec.eq_nil (shift p c), BitVec.eq_nil c]
  | succ n =>
      have hmove : parity (c <<< 1) = parityBelow c n :=
        parityBelow_shiftLeft c n (Nat.lt_succ_self n)
      have hsplit : parity c = (c.msb ^^ parityBelow c n) := by
        rw [parity, parityBelow, BitVec.msb_eq_getLsbD_last, Nat.add_sub_cancel]
      rw [hsplit, shift]
      by_cases hmsb : c.msb = true
      · rw [if_pos hmsb, parity_xor, hmove, hp, hmsb]
        exact Bool.xor_comm _ _
      · rw [if_neg hmsb, hmove, (Bool.not_eq_true _).mp hmsb, Bool.false_xor]

theorem parity_shifts (hp : parity p = true) (n : Nat) (c : BitVec w) :
    parity (shifts p n c) = parity c := by
  induction n with
  | zero => rfl
  | succ n ih => rw [shifts_succ, parity_shift p hp, ih]

theorem parity_entry (hw : 0 < w) : parity (entry : BitVec w) = true := by
  cases w with
  | zero => exact absurd hw (Nat.lt_irrefl 0)
  | succ n =>
      have hbit : ∀ i, (entry : BitVec (n + 1)).getLsbD i = decide (i = n) := by
        intro i
        rw [entry, getLsbD_top _ _ (by omega), BitVec.getLsbD_one]
        by_cases hi : i = n
        · rw [hi, decide_eq_true (by omega), decide_eq_true (by omega), decide_eq_true (by omega),
            decide_eq_true rfl]
          rfl
        · rw [decide_eq_false hi]
          by_cases hle : n + 1 - 1 ≤ i
          · rw [decide_eq_false (show ¬ i - (n + 1 - 1) = 0 by omega), Bool.and_false,
              Bool.and_false]
          · rw [decide_eq_false hle, Bool.false_and]
      have hbelow : ∀ m, m ≤ n → parityBelow (entry : BitVec (n + 1)) m = false := by
        intro m hm
        induction m with
        | zero => rfl
        | succ m ih =>
            rw [parityBelow, ih (by omega), hbit, decide_eq_false (show ¬ m = n by omega),
              Bool.xor_false]
      rw [parity, parityBelow, hbelow n le_rfl, hbit, decide_eq_true rfl, Bool.xor_false]

/-- The syndrome is odd when the number of flips is. -/
theorem parity_sum (hp : parity p = true) (hw : 0 < w) (n : Nat) (is : List Nat) :
    parity ((is.map (fun i => shifts p (n - i) (entry : BitVec w))).foldr (· ^^^ ·) 0#w)
      = decide (Odd is.length) := by
  induction is with
  | nil => exact parityBelow_zero w
  | cons i is ih =>
      rw [List.map_cons, List.foldr_cons, parity_xor, ih, parity_shifts p hp, parity_entry hw,
        List.length_cons, Bool.true_xor]
      by_cases hodd : Odd is.length
      · rw [decide_eq_true hodd, decide_eq_false (by rw [Nat.odd_add_one]; exact not_not.mpr hodd)]
        rfl
      · rw [decide_eq_false hodd, decide_eq_true (Nat.odd_add_one.mpr hodd)]
        rfl

/-- An odd number of flips is noticed, when the generator has an odd number of
    bits below the one that falls out. -/
theorem register_ne_of_odd (hp : parity p = true) (hw : 0 < w) (hd : d ≤ w) (c : BitVec w)
    (bs bs' : List (BitVec d)) (hlen : bs.length = bs'.length)
    (hodd : Odd (flips bs bs').length) : register p c bs ≠ register p c bs' := by
  rw [ne_eq, register_eq_iff_syndrome p hd c bs bs' hlen, syndrome_eq]
  intro hzero
  have hparity := parity_sum p hp hw
    (List.zipWith xor (bs.flatMap spell) (bs'.flatMap spell)).length (flips bs bs')
  rw [flips] at hparity
  rw [hzero, parity, parityBelow_zero] at hparity
  exact of_decide_eq_false hparity.symm hodd

/-! ### Two flips -/

theorem pairwise_places (e : List Bool) : (places e).Pairwise (· < ·) :=
  List.pairwise_lt_range.filter _

theorem lt_length_of_mem_places (e : List Bool) (i : Nat) (h : i ∈ places e) : i < e.length :=
  List.mem_range.mp (List.mem_of_mem_filter h)

/-- The first of two flips is in front of the second, and both are in the
    message. -/
theorem lt_of_flips_eq (bs bs' : List (BitVec d)) (i j : Nat) (h : flips bs bs' = [i, j]) :
    i < j ∧ j < (List.zipWith xor (bs.flatMap spell) (bs'.flatMap spell)).length := by
  rw [flips] at h
  have hpair := pairwise_places (List.zipWith xor (bs.flatMap spell) (bs'.flatMap spell))
  rw [h, List.pairwise_cons] at hpair
  refine ⟨hpair.1 j (List.mem_singleton.mpr rfl), lt_length_of_mem_places _ j ?_⟩
  rw [h]
  exact List.mem_cons_of_mem _ List.mem_cons_self

/-- Two flips go unnoticed when the shifts between them bring the entry back to
    itself. -/
theorem register_eq_iff_of_two (hodd : p.getLsbD 0 = true) (hd : d ≤ w) (c : BitVec w)
    (bs bs' : List (BitVec d)) (hlen : bs.length = bs'.length) (i j : Nat)
    (h : flips bs bs' = [i, j]) :
    register p c bs = register p c bs' ↔
      Function.IsPeriodicPt (shift p) (j - i) (entry : BitVec w) := by
  rw [register_eq_iff_syndrome p hd c bs bs' hlen, syndrome_eq]
  rcases lt_of_flips_eq bs bs' i j h with ⟨hlt, hj⟩
  rw [flips] at h
  rw [h]
  generalize (List.zipWith xor (bs.flatMap spell) (bs'.flatMap spell)).length = n at hj
  change shifts p (n - i) entry ^^^ (shifts p (n - j) entry ^^^ 0#w) = 0#w ↔ _
  rw [BitVec.xor_zero, BitVec.xor_eq_zero_iff, show n - i = (n - j) + (j - i) by omega, shifts_add]
  exact (shifts_injective p hodd (n - j)).eq_iff

/-- What differs nowhere is the same. -/
theorem eq_of_zipWith_places (xs ys : List Bool) (hlen : xs.length = ys.length)
    (h : places (List.zipWith xor xs ys) = []) : xs = ys := by
  induction xs generalizing ys with
  | nil => exact (List.length_eq_zero_iff.mp hlen.symm).symm
  | cons x xs ih =>
      cases ys with
      | nil => exact absurd hlen (Nat.succ_ne_zero _)
      | cons y ys =>
          rw [List.length_cons, List.length_cons, Nat.succ_inj] at hlen
          rw [List.zipWith_cons_cons, places_cons, List.append_eq_nil_iff, List.map_eq_nil_iff] at h
          have hxy : x = y := by
            cases x <;> cases y
            · rfl
            · exact absurd h.1 (List.cons_ne_nil _ _)
            · exact absurd h.1 (List.cons_ne_nil _ _)
            · rfl
          rw [hxy, ih ys hlen h.2]

theorem spell_injective : Function.Injective (spell : BitVec d → List Bool) := by
  intro b b' h
  apply BitVec.eq_of_getMsbD_eq
  intro i _
  rw [← getD_spell, ← getD_spell, h]

theorem flatMap_spell_injective (bs bs' : List (BitVec d)) (hlen : bs.length = bs'.length)
    (h : bs.flatMap spell = bs'.flatMap spell) : bs = bs' := by
  induction bs generalizing bs' with
  | nil => exact (List.length_eq_zero_iff.mp hlen.symm).symm
  | cons b bs ih =>
      cases bs' with
      | nil => exact absurd hlen (Nat.succ_ne_zero _)
      | cons b' bs' =>
          rw [List.length_cons, List.length_cons, Nat.succ_inj] at hlen
          rw [List.flatMap_cons, List.flatMap_cons] at h
          rcases List.append_inj h (by rw [length_spell, length_spell]) with ⟨hfirst, hrest⟩
          rw [spell_injective hfirst, ih bs' hlen hrest]

/-- Different messages have a flipped bit. -/
theorem flips_ne_nil (bs bs' : List (BitVec d)) (hlen : bs.length = bs'.length)
    (hne : bs ≠ bs') : flips bs bs' ≠ [] := by
  intro h
  apply hne
  refine flatMap_spell_injective bs bs' hlen (eq_of_zipWith_places _ _ ?_ h)
  rw [length_flatMap_spell, length_flatMap_spell, hlen]

/-- A point that comes back after a product of two primes and after neither of
    them comes back at the multiples of the product only. -/
theorem minimalPeriod_eq_mul {α : Type} (f : α → α) (x : α) (q r : Nat) (hq : q.Prime)
    (hr : r.Prime) (h : Function.IsPeriodicPt f (q * r) x) (hnq : ¬ Function.IsPeriodicPt f q x)
    (hnr : ¬ Function.IsPeriodicPt f r x) : Function.minimalPeriod f x = q * r := by
  rw [Function.isPeriodicPt_iff_minimalPeriod_dvd] at h hnq hnr
  rcases Nat.dvd_mul.mp h with ⟨a, b, ha, hb, hab⟩
  rcases (Nat.dvd_prime hq).mp ha with ha | ha
  · rw [ha, Nat.one_mul] at hab
    exact absurd (hab ▸ hb) hnr
  · rcases (Nat.dvd_prime hr).mp hb with hb | hb
    · rw [ha, hb, Nat.mul_one] at hab
      exact absurd (dvd_of_eq hab.symm) hnq
    · rw [← hab, ha, hb]

end Crc
