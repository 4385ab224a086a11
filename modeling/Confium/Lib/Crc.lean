import Mathlib.Data.BitVec
import Mathlib.Logic.Function.Iterate

/-!
# Cyclic Redundancy Registers

A register of `w` bits that takes a message in digit by digit. A digit of `d`
bits goes into the top of the register by exclusive or, and the register is then
shifted `d` times, each shift adding the generator when a bit falls out.

Everything follows from two facts about one shift. It is linear in exclusive or,
and when the generator is odd it loses nothing: the bit that fell out can be read
off the lowest bit. Linearity is what makes the digit-at-a-time table work: the
digits below the top one only move, so the shifts of the top digit alone are all
that has to be tabulated. It also says what a short message does to the register:
its digits can be put in all at once, side by side, and shifted afterwards. So
two messages that differ in a stretch no longer than the register are told
apart there, and nothing that follows brings the registers together again.

## Main definitions

* `shift`, `shifts`: One shift of the register, and several.
* `top`: A digit at the top of the register.
* `update`, `register`: Taking in one digit, and a message.
* `packed`: The digits of a short message side by side.

## Theorems

* `shifts_xor`: Shifting is linear.
* `shifts_injective`: Shifting loses nothing when the generator is odd.
* `shifts_eq_shiftLeft`: Bits that do not reach the end only move.
* `update_eq_table`: Taking in a digit by a table.
* `register_eq_shifts`: A short message can be put in all at once.
* `register_ne_of_burst`: Messages that differ in a short stretch alone have
  different registers.
-/

namespace Crc

variable {w d : Nat} (p : BitVec w)

/-- One shift, with the generator added when a bit falls out. -/
def shift (c : BitVec w) : BitVec w := if c.msb then (c <<< 1) ^^^ p else c <<< 1

/-- So many shifts. -/
def shifts (n : Nat) (c : BitVec w) : BitVec w := (shift p)^[n] c

/-- A digit at the top of the register. -/
def top (b : BitVec d) : BitVec w := (b.setWidth w) <<< (w - d)

/-- Taking in one digit. -/
def update (c : BitVec w) (b : BitVec d) : BitVec w := shifts p d (c ^^^ top b)

/-- The register after a message. -/
def register (c : BitVec w) (bs : List (BitVec d)) : BitVec w := bs.foldl (update p) c

/-- The digits of a message side by side, the first one at the top. -/
def packed : List (BitVec d) → BitVec w
  | [] => 0#w
  | b :: bs => top b ^^^ (packed bs >>> d)

theorem shift_xor (a b : BitVec w) : shift p (a ^^^ b) = shift p a ^^^ shift p b := by
  unfold shift
  rw [BitVec.msb_xor, BitVec.shiftLeft_xor_distrib]
  -- The generator is added on the left when exactly one of the two adds it.
  cases a.msb with
  | false =>
      cases b.msb with
      | false => rfl
      | true => exact BitVec.xor_assoc _ _ _
  | true =>
      cases b.msb with
      | false =>
          change a <<< 1 ^^^ b <<< 1 ^^^ p = a <<< 1 ^^^ p ^^^ b <<< 1
          rw [BitVec.xor_assoc, BitVec.xor_comm (b <<< 1) p, ← BitVec.xor_assoc]
      | true =>
          change a <<< 1 ^^^ b <<< 1 = a <<< 1 ^^^ p ^^^ (b <<< 1 ^^^ p)
          rw [BitVec.xor_comm (b <<< 1) p, BitVec.xor_assoc (a <<< 1) p, ← BitVec.xor_assoc p p,
            BitVec.xor_self, BitVec.zero_xor]

theorem shifts_zero (c : BitVec w) : shifts p 0 c = c := rfl

theorem shifts_succ (n : Nat) (c : BitVec w) : shifts p (n + 1) c = shift p (shifts p n c) :=
  Function.iterate_succ_apply' (shift p) n c

theorem shifts_add (m n : Nat) (c : BitVec w) : shifts p (m + n) c = shifts p m (shifts p n c) :=
  Function.iterate_add_apply (shift p) m n c

/-- Shifting is linear. -/
theorem shifts_xor (n : Nat) (a b : BitVec w) :
    shifts p n (a ^^^ b) = shifts p n a ^^^ shifts p n b := by
  induction n with
  | zero => rfl
  | succ n ih => rw [shifts_succ, shifts_succ, shifts_succ, ih, shift_xor]

/-- Only the empty register is shifted to nothing. The generator's lowest bit
    shows that no bit fell out, and then every bit has moved up by one. -/
theorem eq_zero_of_shift (hodd : p.getLsbD 0 = true) (c : BitVec w) (h : shift p c = 0#w) :
    c = 0#w := by
  have hw : 0 < w := BitVec.lt_of_getLsbD hodd
  have hbit : ∀ i, (shift p c).getLsbD i = false := by
    intro i
    rw [h, BitVec.getLsbD_zero]
  have hmsb : c.msb = false := by
    by_contra hc
    rw [Bool.not_eq_false] at hc
    have hlow := hbit 0
    rw [shift, if_pos hc, BitVec.getLsbD_xor, BitVec.getLsbD_shiftLeft, hodd] at hlow
    simp only [Nat.lt_one_iff, decide_true, Bool.not_true, Bool.and_false, Bool.false_and,
      Bool.false_xor, Bool.true_eq_false] at hlow
  apply BitVec.eq_of_getLsbD_eq
  intro i hi
  rw [BitVec.getLsbD_zero]
  by_cases hlast : i = w - 1
  · rw [hlast, ← BitVec.msb_eq_getLsbD_last]
    exact hmsb
  · have hnext := hbit (i + 1)
    rw [shift, if_neg (by rw [hmsb]; exact Bool.false_ne_true), BitVec.getLsbD_shiftLeft,
      decide_eq_true (show i + 1 < w by omega), decide_eq_false (show ¬ i + 1 < 1 by omega),
      Nat.add_sub_cancel] at hnext
    exact hnext

theorem shift_injective (hodd : p.getLsbD 0 = true) : Function.Injective (shift p) := by
  intro a b h
  have hzero : shift p (a ^^^ b) = 0#w := by rw [shift_xor, h, BitVec.xor_self]
  exact BitVec.xor_eq_zero_iff.mp (eq_zero_of_shift p hodd (a ^^^ b) hzero)

/-- Shifting loses nothing when the generator is odd. -/
theorem shifts_injective (hodd : p.getLsbD 0 = true) (n : Nat) :
    Function.Injective (shifts p n) :=
  (shift_injective p hodd).iterate n

/-- Bits that do not reach the end of the register only move. -/
theorem shifts_eq_shiftLeft (n : Nat) (c : BitVec w)
    (h : ∀ i, w - n ≤ i → c.getLsbD i = false) : shifts p n c = c <<< n := by
  induction n with
  | zero => rw [shifts_zero, BitVec.shiftLeft_zero]
  | succ n ih =>
      have ih' := ih (fun i hi => h i (by omega))
      have hmsb : (c <<< n).msb = false := by
        rw [BitVec.msb_eq_getLsbD_last, BitVec.getLsbD_shiftLeft]
        by_cases hn : w - 1 < n
        · rw [decide_eq_true hn, Bool.not_true, Bool.and_false, Bool.false_and]
        · rw [h (w - 1 - n) (by omega), Bool.and_false]
      rw [shifts_succ, ih', shift, if_neg (by rw [hmsb]; exact Bool.false_ne_true),
        BitVec.shiftLeft_add]

theorem getLsbD_top (b : BitVec d) (i : Nat) (h : d ≤ w) :
    (top b : BitVec w).getLsbD i = (decide (w - d ≤ i) && b.getLsbD (i - (w - d))) := by
  rw [top, BitVec.getLsbD_shiftLeft, BitVec.getLsbD_setWidth]
  by_cases hi : i < w
  · rw [decide_eq_true hi, decide_eq_true (show i - (w - d) < w by omega), Bool.true_and,
      Bool.true_and]
    by_cases hlow : i < w - d
    · rw [decide_eq_true hlow, decide_eq_false (show ¬ w - d ≤ i by omega), Bool.not_true]
    · rw [decide_eq_false hlow, decide_eq_true (show w - d ≤ i by omega), Bool.not_false]
  · rw [decide_eq_false hi, Bool.false_and, Bool.false_and,
      BitVec.getLsbD_of_ge b _ (show d ≤ i - (w - d) by omega), Bool.and_false]

/-- Taking in a digit by a table: what is below the top digit moves up, and the
    shifts of the top digit are looked up. -/
theorem update_eq_table (c : BitVec w) (b : BitVec d) (h : d ≤ w) :
    update p c b = (c <<< d) ^^^ shifts p d (top ((c >>> (w - d)).setWidth d ^^^ b)) := by
  have hsplit : c ^^^ top b
      = (c ^^^ top ((c >>> (w - d)).setWidth d)) ^^^ top ((c >>> (w - d)).setWidth d ^^^ b) := by
    apply BitVec.eq_of_getLsbD_eq
    intro i _
    simp only [BitVec.getLsbD_xor, getLsbD_top _ _ h]
    generalize ((c >>> (w - d)).setWidth d).getLsbD (i - (w - d)) = t
    generalize b.getLsbD (i - (w - d)) = u
    generalize c.getLsbD i = v
    cases decide (w - d ≤ i) <;> cases t <;> cases u <;> cases v <;> rfl
  -- The part of the register below its top digit.
  have hclear : ∀ i, w - d ≤ i →
      (c ^^^ top ((c >>> (w - d)).setWidth d)).getLsbD i = false := by
    intro i hi
    by_cases hiw : i < w
    · rw [BitVec.getLsbD_xor, getLsbD_top _ _ h, decide_eq_true hi, Bool.true_and,
        BitVec.getLsbD_setWidth, decide_eq_true (show i - (w - d) < d by omega), Bool.true_and,
        BitVec.getLsbD_ushiftRight, show w - d + (i - (w - d)) = i by omega, Bool.xor_self]
    · exact BitVec.getLsbD_of_ge _ _ (by omega)
  have hmove : (c ^^^ top ((c >>> (w - d)).setWidth d)) <<< d = c <<< d := by
    apply BitVec.eq_of_getLsbD_eq
    intro i hi
    rw [BitVec.getLsbD_shiftLeft, BitVec.getLsbD_shiftLeft]
    by_cases hlow : i < d
    · rw [decide_eq_true hlow, Bool.not_true, Bool.and_false, Bool.false_and, Bool.false_and]
    · rw [BitVec.getLsbD_xor, getLsbD_top _ _ h,
        decide_eq_false (show ¬ w - d ≤ i - d by omega), Bool.false_and, Bool.xor_false]
  rw [update, hsplit, shifts_xor, shifts_eq_shiftLeft p d _ hclear, hmove]

theorem update_injective (hodd : p.getLsbD 0 = true) (b : BitVec d) :
    Function.Injective (fun c => update p c b) := by
  intro c c' h
  exact (BitVec.xor_left_inj (top b)).mp (shifts_injective p hodd d h)

/-- Whatever message follows, different registers stay different. -/
theorem register_injective (hodd : p.getLsbD 0 = true) (bs : List (BitVec d)) :
    Function.Injective (fun c => register p c bs) := by
  induction bs with
  | nil => exact fun c c' h => h
  | cons b bs ih =>
      intro c c' h
      exact update_injective p hodd b (ih h)

theorem register_append (c : BitVec w) (bs bs' : List (BitVec d)) :
    register p c (bs ++ bs') = register p (register p c bs) bs' :=
  List.foldl_append

/-- Moving down and up again loses the bits that fell out below, if there were
    any. -/
theorem ushiftRight_shiftLeft (x : BitVec w) (n : Nat) (h : ∀ i < n, x.getLsbD i = false) :
    (x >>> n) <<< n = x := by
  apply BitVec.eq_of_getLsbD_eq
  intro i hi
  rw [BitVec.getLsbD_shiftLeft, BitVec.getLsbD_ushiftRight, decide_eq_true hi, Bool.true_and]
  by_cases hlow : i < n
  · rw [decide_eq_true hlow, Bool.not_true, Bool.false_and, h i hlow]
  · rw [decide_eq_false hlow, Bool.not_false, Bool.true_and, show n + (i - n) = i by omega]

/-- A short message leaves the bits below its digits clear. -/
theorem getLsbD_packed (bs : List (BitVec d)) (h : d * bs.length ≤ w) (i : Nat)
    (hi : i < w - d * bs.length) : (packed bs : BitVec w).getLsbD i = false := by
  induction bs generalizing i with
  | nil => rw [packed, BitVec.getLsbD_zero]
  | cons b bs ih =>
      rw [List.length_cons, Nat.mul_succ] at h hi
      have hrest := ih (by omega) (d + i) (by omega)
      rw [packed, BitVec.getLsbD_xor, getLsbD_top _ _ (by omega),
        decide_eq_false (show ¬ w - d ≤ i by omega), BitVec.getLsbD_ushiftRight, hrest]
      rfl

/-- A short message can be put in all at once. -/
theorem register_eq_shifts (c : BitVec w) (bs : List (BitVec d)) (h : d * bs.length ≤ w) :
    register p c bs = shifts p (d * bs.length) (c ^^^ packed bs) := by
  induction bs generalizing c with
  | nil =>
      rw [packed, List.length_nil, Nat.mul_zero, shifts_zero, BitVec.xor_zero]
      rfl
  | cons b bs ih =>
      rw [List.length_cons, Nat.mul_succ] at h ⊢
      -- What comes after the first digit waits below it, and its shifts bring it up.
      have hclear : ∀ i, w - d ≤ i → ((packed bs : BitVec w) >>> d).getLsbD i = false := by
        intro i hi
        rw [BitVec.getLsbD_ushiftRight]
        exact BitVec.getLsbD_of_ge _ _ (by omega)
      have hup : shifts p d ((packed bs : BitVec w) >>> d) = packed bs := by
        rw [shifts_eq_shiftLeft p d _ hclear]
        exact ushiftRight_shiftLeft _ d
          (fun i hi => getLsbD_packed bs (by omega) i (by omega))
      have hfirst : register p c (b :: bs) = register p (update p c b) bs := rfl
      rw [hfirst, ih _ (by omega), packed, shifts_add, ← BitVec.xor_assoc, shifts_xor p d, hup,
        update]

/-- The digits of a short message can be read off it. -/
theorem packed_injective (bs bs' : List (BitVec d)) (hlen : bs.length = bs'.length)
    (h : d * bs.length ≤ w) (heq : (packed bs : BitVec w) = packed bs') : bs = bs' := by
  induction bs generalizing bs' with
  | nil => exact (List.length_eq_zero_iff.mp hlen.symm).symm
  | cons b bs ih =>
      cases bs' with
      | nil => exact absurd hlen (Nat.succ_ne_zero _)
      | cons b' bs' =>
          rw [List.length_cons, Nat.mul_succ] at h
          rw [List.length_cons, List.length_cons, Nat.succ_inj] at hlen
          rw [packed, packed] at heq
          -- Only the first digit reaches the top.
          have hbit : ∀ (x : BitVec d) (xs : List (BitVec d)) (i : Nat), i < d →
              (top x ^^^ (packed xs >>> d) : BitVec w).getLsbD (w - d + i) = x.getLsbD i := by
            intro x xs i hi
            rw [BitVec.getLsbD_xor, getLsbD_top _ _ (by omega),
              decide_eq_true (show w - d ≤ w - d + i by omega), Bool.true_and,
              Nat.add_sub_cancel_left, BitVec.getLsbD_ushiftRight,
              BitVec.getLsbD_of_ge _ _ (show w ≤ d + (w - d + i) by omega), Bool.xor_false]
          have hfirst : b = b' := by
            apply BitVec.eq_of_getLsbD_eq
            intro i hi
            rw [← hbit b bs i hi, ← hbit b' bs' i hi, heq]
          rw [hfirst, BitVec.xor_right_inj] at heq
          have hlow : ∀ xs : List (BitVec d), xs.length = bs.length → ∀ i < d,
              (packed xs : BitVec w).getLsbD i = false := by
            intro xs hxs i hi
            exact getLsbD_packed xs (by rw [hxs]; omega) i (by rw [hxs]; omega)
          have hrest : (packed bs : BitVec w) = packed bs' := by
            rw [← ushiftRight_shiftLeft (packed bs) d (hlow bs rfl),
              ← ushiftRight_shiftLeft (packed bs') d (hlow bs' hlen.symm), heq]
          rw [hfirst, ih bs' hlen (by omega) hrest]

/-- Messages that differ in one stretch, no longer than the register, have
    different registers. -/
theorem register_ne_of_burst (hodd : p.getLsbD 0 = true) (c : BitVec w)
    (before mid mid' after : List (BitVec d)) (hlen : mid.length = mid'.length)
    (hshort : d * mid.length ≤ w) (hne : mid ≠ mid') :
    register p c (before ++ mid ++ after) ≠ register p c (before ++ mid' ++ after) := by
  intro h
  rw [register_append, register_append, register_append, register_append] at h
  have hmid := register_injective p hodd after h
  rw [register_eq_shifts p _ mid hshort, register_eq_shifts p _ mid' (by rw [← hlen]; exact hshort),
    ← hlen] at hmid
  have hpacked := (BitVec.xor_right_inj _).mp (shifts_injective p hodd _ hmid)
  exact hne (packed_injective mid mid' hlen hshort hpacked)

end Crc
