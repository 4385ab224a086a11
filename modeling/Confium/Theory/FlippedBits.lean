import Confium.Lib.CrcFlips
import Confium.Lib.LinearPower
import Confium.Theory.Checksum
import Mathlib.Tactic.NormNum.Prime

/-!
# The Checksum Counts Flipped Bits

What damage that is not in one place gets past the checksum of an armored block.
`Checksum` settled damage within three bytes. Here any bits of the data may be
flipped, however far apart.

The generator of the source has thirteen bits below the one that falls out, so an
odd number of flips never gets past. Two flips do at the multiples of its period,
which is computed here: `2 ^ 23 - 1`, the largest that a generator with an even
number of bits can have. A block of less than a mebibyte has no two bits so far
apart. In such a block up to three flipped bits are always noticed.

## Main definitions

* `flips`: The bits in which two byte strings differ.

## Theorems

* `period_generator`: The period of the source's polynomial.
* `dearmor_checksum`: A block is read when its data has the checksum.
* `flipped_bits_noticed`: Which flipped bits are noticed.
-/

namespace Confium

open Ruby XorLinear

namespace OpenPGP

/-- The bits in which two byte strings differ, counted from the top bit of the
    first byte. -/
def flips (data data' : Bytes) : List Nat := Crc.flips (digits data) (digits data')

theorem linear_shift : Linear (Crc.shift generator) := Crc.shift_xor generator

theorem iterate_shift (fuel n : Nat) (hn : n < 2 ^ fuel) (c : BitVec 24) :
    (Crc.shift generator)^[n] c = powered fuel (tableOf (Crc.shift generator)) n c :=
  (powered_eq_iterate linear_shift fuel _ (applyTable_tableOf linear_shift) n hn c).symm

/-- The period of the source's polynomial. The product is `2 ^ 23 - 1`. -/
theorem period_generator :
    Function.minimalPeriod (Crc.shift generator) Crc.entry = 47 * 178481 := by
  apply Crc.minimalPeriod_eq_mul
  · norm_num
  · norm_num
  · rw [Function.IsPeriodicPt, Function.IsFixedPt, iterate_shift 23 (47 * 178481) (by decide)]
    decide +kernel
  · rw [Function.IsPeriodicPt, Function.IsFixedPt, iterate_shift 6 47 (by decide)]
    decide +kernel
  · rw [Function.IsPeriodicPt, Function.IsFixedPt, iterate_shift 18 178481 (by decide)]
    decide +kernel

/-- A block with some data and the checksum of other data is read when the two
    have one register. -/
theorem dearmor_checksum (data data' : Bytes) (type : Option String) (label : String)
    (htype : labels.lookup type = some label) :
    dearmor (gsubLf (layout label.toList (dataLines data') (crc24Armor data)))
      = if Crc.register generator (BitVec.ofNat 24 crcInit) (digits data)
          = Crc.register generator (BitVec.ofNat 24 crcInit) (digits data')
        then .ok data' else .error .checksumMismatch := by
  rw [dearmor_gsubLf_layout label.toList (label_proper type label htype) (dataLines data') data'
    data (isData_of_mem_dataLines data') (flatten_dataLines data')]
  have hiff : crc24Armor data' = crc24Armor data ↔
      Crc.register generator (BitVec.ofNat 24 crcInit) (digits data)
        = Crc.register generator (BitVec.ofNat 24 crcInit) (digits data') := by
    rw [← BitVec.toNat_inj, ← crc24_eq_register, ← crc24_eq_register]
    constructor
    · intro h
      exact (crc24Armor_injective _ _ h).symm
    · intro h
      rw [crc24Armor, crc24Armor, h]
  by_cases hsame : crc24Armor data' = crc24Armor data
  · rw [if_neg (not_not.mpr hsame), if_pos (hiff.mp hsame)]
  · rw [if_pos hsame, if_neg (fun h => hsame (hiff.mpr h))]

/-- Which flipped bits are noticed. Take a block with other data of the same
    length under the checksum of what `armor` was given. If an odd number of bits
    differ, it is refused. If two do, it is refused too, except when they are a
    multiple of `2 ^ 23 - 1` apart: the other data is then returned. So a block of
    less than a mebibyte in which up to three bits differ is refused. -/
theorem flipped_bits_noticed (data data' : Bytes) (type : Option String) (label : String)
    (htype : labels.lookup type = some label) (hlen : data.length = data'.length) :
    (Odd (flips data data').length →
        dearmor (gsubLf (layout label.toList (dataLines data') (crc24Armor data)))
          = .error .checksumMismatch) ∧
      (∀ i j, flips data data' = [i, j] →
        dearmor (gsubLf (layout label.toList (dataLines data') (crc24Armor data)))
          = if 2 ^ 23 - 1 ∣ j - i then .ok data' else .error .checksumMismatch) ∧
      (data ≠ data' → (flips data data').length ≤ 3 → data.length < 2 ^ 20 →
        dearmor (gsubLf (layout label.toList (dataLines data') (crc24Armor data)))
          = .error .checksumMismatch) := by
  have hdigits : (digits data).length = (digits data').length := by
    rw [digits, digits, List.length_map, List.length_map, hlen]
  rw [dearmor_checksum data data' type label htype]
  have hodd : Odd (flips data data').length →
      Crc.register generator (BitVec.ofNat 24 crcInit) (digits data)
        ≠ Crc.register generator (BitVec.ofNat 24 crcInit) (digits data') :=
    Crc.register_ne_of_odd generator (by decide) (by decide) (by decide) _ _ _ hdigits
  have htwo : ∀ i j, flips data data' = [i, j] →
      (Crc.register generator (BitVec.ofNat 24 crcInit) (digits data)
          = Crc.register generator (BitVec.ofNat 24 crcInit) (digits data')
        ↔ 2 ^ 23 - 1 ∣ j - i) := by
    intro i j h
    rw [Crc.register_eq_iff_of_two generator (by decide) (by decide) _ _ _ hdigits i j h,
      Function.isPeriodicPt_iff_minimalPeriod_dvd, period_generator]
    rfl
  refine ⟨fun h => if_neg (hodd h), ?_, ?_⟩
  · intro i j h
    simp only [htwo i j h]
  · intro hne hthree hshort
    apply if_neg
    have hsome : flips data data' ≠ [] := Crc.flips_ne_nil _ _ hdigits (fun h =>
      hne (List.map_injective_iff.mpr (fun _ _ => UInt8.toBitVec_inj.mp) h))
    -- One and three flips are odd, and two are too close together.
    rcases h : flips data data' with _ | ⟨i, _ | ⟨j, _ | ⟨k, _ | ⟨l, rest⟩⟩⟩⟩
    · exact absurd h hsome
    · exact hodd (by rw [h]; exact odd_one)
    · rcases Crc.lt_of_flips_eq _ _ i j h with ⟨hlt, hj⟩
      rw [List.length_zipWith, Crc.length_flatMap_spell, digits, List.length_map] at hj
      rw [htwo i j h]
      intro hdvd
      have hfar := Nat.le_of_dvd (by omega) hdvd
      omega
    · exact hodd (by rw [h]; exact ⟨1, rfl⟩)
    · rw [h] at hthree
      simp only [List.length_cons] at hthree
      omega

/-- Two neighbouring bits of one byte. -/
theorem flipped_bits_noticed_in_a_byte :
    dearmor (gsubLf (layout "MESSAGE".toList (dataLines [3]) (crc24Armor [0])))
      = .error .checksumMismatch :=
  (flipped_bits_noticed [0] [3] none "MESSAGE" rfl rfl).2.2 (by decide) (by decide) (by decide)

end OpenPGP

end Confium
