import Confium.Theory.Checksum

/-!
# The Checksum as the Standard Defines It

The standard gives the checksum of a block bit by bit: a byte goes into the top
eight bits of a register by exclusive or, and eight times the register is shifted
and, when a bit has fallen out of its twenty-four, reduced by the polynomial. The
source does the eight steps of a byte at once, by a table.

`Checksum` has already shown that the source keeps the register of `Crc`. Here
the standard's algorithm is shown to keep it too. Nothing is masked in that
algorithm. The bit that falls out is still there when it is looked at, and the
polynomial, which has the same bit, takes it away again, so a register of
twenty-four bits is left after every step.

## Main definitions

* `bitShift`: One step of the standard's algorithm.
* `bitUpdate`, `bitCrc24`: One byte, and the whole byte string.

## Theorems

* `bitShift_toNat`: One step is one shift of the register.
* `bitUpdate_toNat`: One byte is one digit into the register.
* `length_crc24Armor`, `isBase64_of_mem_crc24Armor`: What the checksum is written
  as.
* `table_driven_is_bitwise`: The table-driven register is the bitwise one.
-/

namespace Confium

open Ruby

namespace OpenPGP

/-- One step of the standard's algorithm. -/
def bitShift (crc : Nat) : Nat :=
  if (crc <<< 1) &&& 0x1000000 = 0 then crc <<< 1 else (crc <<< 1) ^^^ 0x1864CFB

/-- One byte: into the top eight bits, and eight steps. -/
def bitUpdate (crc : Nat) (b : UInt8) : Nat := Nat.iterate bitShift 8 (crc ^^^ (b.toNat <<< 16))

/-- The register after a byte string. -/
def bitCrc24 (bytes : Bytes) : Nat := bytes.foldl bitUpdate 0xB704CE

/-- The bit that is looked at after the shift is the top bit before it. -/
theorem and_fallen_eq_zero_iff (c : Nat) : (c <<< 1) &&& 0x1000000 = 0 ↔ c &&& 0x800000 = 0 := by
  have hafter : (c <<< 1) &&& 0x1000000 = ((c <<< 1).testBit 24).toNat * 2 ^ 24 :=
    Nat.and_two_pow (c <<< 1) 24
  have hbefore : c &&& 0x800000 = (c.testBit 23).toNat * 2 ^ 23 := Nat.and_two_pow c 23
  have hbit : (c <<< 1).testBit 24 = c.testBit 23 := by
    rw [Nat.testBit_shiftLeft]
    rfl
  rw [hafter, hbefore, hbit]
  cases c.testBit 23 <;> decide

/-- The polynomial takes away the bit that fell out. -/
theorem bitShift_lt (c : Nat) (h : c < 2 ^ 24) : bitShift c < 2 ^ 24 := by
  rw [bitShift]
  have htop : (c <<< 1) &&& 0x1000000 = ((c <<< 1).testBit 24).toNat * 2 ^ 24 :=
    Nat.and_two_pow (c <<< 1) 24
  -- Twenty-four bits shifted once reach bit twenty-four at most.
  have hwide : ∀ i, 24 < i → (c <<< 1).testBit i = false := by
    intro i hi
    rw [Nat.testBit_shiftLeft, Nat.testBit_lt_two_pow
      (lt_of_lt_of_le h (Nat.pow_le_pow_right (by decide) (show 24 ≤ i - 1 by omega))),
      Bool.and_false]
  cases hbit : (c <<< 1).testBit 24 with
  | false =>
      rw [htop, hbit, if_pos (by decide)]
      apply Nat.lt_pow_two_of_testBit
      intro i hi
      by_cases h24 : i = 24
      · rw [h24, hbit]
      · exact hwide i (by omega)
  | true =>
      -- The polynomial has bit twenty-four too, and nothing above it.
      rw [htop, hbit, if_neg (by decide)]
      apply Nat.lt_pow_two_of_testBit
      intro i hi
      rw [Nat.testBit_xor]
      by_cases h24 : i = 24
      · rw [h24, hbit]
        rfl
      · rw [hwide i (by omega), Nat.testBit_lt_two_pow
          (lt_of_lt_of_le (show 0x1864CFB < 2 ^ 25 by decide)
            (Nat.pow_le_pow_right (by decide) (show 25 ≤ i by omega)))]
        rfl

/-- One step is one shift of the register. -/
theorem bitShift_toNat (c : BitVec 24) : bitShift c.toNat = (Crc.shift generator c).toNat := by
  -- The source masks its register after the shift, where there is nothing to mask.
  have hmask : bitShift c.toNat &&& 0xFFFFFF = bitShift c.toNat := by
    rw [and_mask, Nat.mod_eq_of_lt (bitShift_lt c.toNat c.isLt)]
  rw [← crcShift_toNat, ← hmask, bitShift, crcShift]
  by_cases hbit : c.toNat &&& 0x800000 = 0
  · rw [if_pos hbit, if_pos ((and_fallen_eq_zero_iff c.toNat).mpr hbit)]
  · rw [if_neg hbit, if_neg (fun h => hbit ((and_fallen_eq_zero_iff c.toNat).mp h))]
    rfl

theorem bitShift_iterate (n : Nat) (c : BitVec 24) :
    Nat.iterate bitShift n c.toNat = (Crc.shifts generator n c).toNat := by
  induction n generalizing c with
  | zero => rfl
  | succ n ih =>
      rw [Function.iterate_succ_apply, bitShift_toNat, ih]
      rfl

/-- A byte goes into the top eight bits. -/
theorem xor_byte_toNat (c : BitVec 24) (b : UInt8) :
    c.toNat ^^^ (b.toNat <<< 16) = (c ^^^ Crc.top b.toBitVec).toNat := by
  have hlt := b.toNat_lt
  have htop : b.toNat <<< 16 = (Crc.top b.toBitVec : BitVec 24).toNat := by
    rw [Crc.top, BitVec.toNat_shiftLeft, BitVec.toNat_setWidth, UInt8.toNat_toBitVec,
      Nat.shiftLeft_eq, Nat.shiftLeft_eq]
    omega
  rw [BitVec.toNat_xor, htop]

/-- One byte is one digit into the register. -/
theorem bitUpdate_toNat (c : BitVec 24) (b : UInt8) :
    bitUpdate c.toNat b = (Crc.update generator c b.toBitVec).toNat := by
  rw [bitUpdate, xor_byte_toNat, bitShift_iterate, Crc.update]

/-- The standard's checksum is the register after the bytes. -/
theorem bitCrc24_eq_register (bytes : Bytes) :
    bitCrc24 bytes = (Crc.register generator (BitVec.ofNat 24 crcInit) (digits bytes)).toNat := by
  -- By induction on the bytes, from any register.
  have hfold : ∀ c : BitVec 24, bytes.foldl bitUpdate c.toNat
      = (Crc.register generator c (digits bytes)).toNat := by
    induction bytes with
    | nil => exact fun _ => rfl
    | cons b bytes ih =>
        intro c
        rw [List.foldl_cons, bitUpdate_toNat, ih]
        rfl
  exact hfold (BitVec.ofNat 24 crcInit)

/-- The steps within a byte stay in the register too. -/
theorem bitShift_iterate_lt (bytes : Bytes) (b : UInt8) (n : Nat) :
    Nat.iterate bitShift n (bitCrc24 bytes ^^^ (b.toNat <<< 16)) < 2 ^ 24 := by
  rw [bitCrc24_eq_register, xor_byte_toNat, bitShift_iterate]
  exact BitVec.isLt _

theorem length_crc24Armor (bytes : Bytes) : (crc24Armor bytes).length = 4 := rfl

theorem isBase64_of_mem_crc24Armor (bytes : Bytes) (c : Char) (h : c ∈ crc24Armor bytes) :
    isBase64 c = true :=
  isBase64_of_mem_encode64_three _ _ _ c h

/-- The register the table drives is the one the standard's algorithm drives bit
    by bit. Neither leaves twenty-four bits at any point of a byte string, so the
    checksum is four characters of Radix-64 and never padding. -/
theorem table_driven_is_bitwise (bytes : Bytes) :
    crc24 bytes = bitCrc24 bytes ∧
      (∀ n, crc24 (bytes.take n) = bitCrc24 (bytes.take n) ∧ crc24 (bytes.take n) < 2 ^ 24) ∧
      (∀ n k, ∀ b ∈ bytes[n]?,
        Nat.iterate bitShift k (bitCrc24 (bytes.take n) ^^^ (b.toNat <<< 16)) < 2 ^ 24) ∧
      (crc24Armor bytes).length = 4 ∧ ∀ c ∈ crc24Armor bytes, isBase64 c = true ∧ c ≠ '=' := by
  have hsame : ∀ part, crc24 part = bitCrc24 part := by
    intro part
    rw [crc24_eq_register, bitCrc24_eq_register]
  refine ⟨hsame bytes, fun n => ⟨hsame _, crc24_lt _⟩, ?_, length_crc24Armor bytes, ?_⟩
  · intro n k b _
    exact bitShift_iterate_lt (bytes.take n) b k
  · intro c hc
    have hbase := isBase64_of_mem_crc24Armor bytes c hc
    refine ⟨hbase, ?_⟩
    rintro rfl
    exact absurd hbase (by decide)

end OpenPGP

end Confium
