import Mathlib.Data.Nat.Bitwise
import Confium.Lib.Crc
import Confium.Theory.Armor

/-!
# The Checksum Catches Short Bursts

The checksum of an armored block is a register of twenty-four bits, kept in an
unbounded integer and masked, and driven by a table of 256 entries. The first
half of this module shows that it is the register of `Crc` for its polynomial:
one shift is one shift, an entry of the table is eight of them, and a byte taken
in by the table is a byte taken in bit by bit.

The second half reads off what that is good for. The polynomial is odd and three
bytes fill the register, so two byte strings that differ within three consecutive
bytes have different checksums, whatever stands around those bytes. The four
characters of the armor determine the register, so `dearmor` refuses the one
under the checksum of the other.

## Main definitions

* `generator`: The polynomial, without the bit that falls out.
* `digits`: A byte string as digits of the register.

## Theorems

* `crcShift_toNat`: One shift of the source is one shift of the register.
* `crcUpdate_toNat`: One byte by the table is one digit into the register.
* `crc24_eq_register`: The checksum is the register after the bytes.
* `crc24Armor_injective`: The armored checksum determines the register.
* `crc24_ne_of_window`: Three bytes changed change the checksum.
* `corrupted_window_raises`: A block changed within three bytes is refused.
-/

namespace Confium

open Ruby

namespace OpenPGP

/-- The polynomial, without the bit that falls out. -/
def generator : BitVec 24 := BitVec.ofNat 24 crcPoly

/-- A byte string as digits of the register. -/
def digits (bytes : Bytes) : List (BitVec 8) := bytes.map UInt8.toBitVec

theorem and_mask (n : Nat) : n &&& 0xFFFFFF = n % 2 ^ 24 := Nat.and_two_pow_sub_one_eq_mod n 24

theorem and_byte (n : Nat) : n &&& 0xFF = n % 2 ^ 8 := Nat.and_two_pow_sub_one_eq_mod n 8

/-- The bit that falls out is the top bit of the register. -/
theorem and_top_eq_zero_iff (c : BitVec 24) : c.toNat &&& 0x800000 = 0 ↔ c.msb = false := by
  have hand : c.toNat &&& 0x800000 = (c.toNat.testBit 23).toNat * 2 ^ 23 :=
    Nat.and_two_pow c.toNat 23
  rw [hand, BitVec.msb_eq_getLsbD_last, ← BitVec.testBit_toNat]
  cases c.toNat.testBit 23 <;> decide

/-- One shift of the source is one shift of the register. -/
theorem crcShift_toNat (c : BitVec 24) : crcShift c.toNat = (Crc.shift generator c).toNat := by
  have hmove : (c.toNat <<< 1) % 2 ^ 24 = (c <<< 1).toNat := (BitVec.toNat_shiftLeft).symm
  rw [crcShift, Crc.shift, and_mask]
  by_cases hmsb : c.msb = false
  · rw [if_pos ((and_top_eq_zero_iff c).mpr hmsb), hmsb, if_neg Bool.false_ne_true, hmove]
  · rw [if_neg (fun h => hmsb ((and_top_eq_zero_iff c).mp h)),
      if_pos (Bool.eq_true_of_not_eq_false hmsb), Nat.xor_mod_two_pow, hmove, BitVec.toNat_xor]
    rfl

theorem crcShift_iterate (n : Nat) (c : BitVec 24) :
    Nat.iterate crcShift n c.toNat = (Crc.shifts generator n c).toNat := by
  induction n generalizing c with
  | zero => rfl
  | succ n ih =>
      rw [Function.iterate_succ_apply, crcShift_toNat, ih]
      rfl

/-- An entry of the table is eight shifts of its index at the top. -/
theorem crcTable_getD (b : BitVec 8) :
    crcTable.getD b.toNat 0 = (Crc.shifts generator 8 (Crc.top b)).toNat := by
  have hlt : b.toNat < 256 := b.isLt
  have htop : b.toNat <<< 16 = (Crc.top b : BitVec 24).toNat := by
    rw [Crc.top, BitVec.toNat_shiftLeft, BitVec.toNat_setWidth, Nat.shiftLeft_eq,
      Nat.shiftLeft_eq]
    omega
  rw [← crcShift_iterate, ← htop, crcTable, List.getD_eq_getElem?_getD, List.getElem?_map,
    List.getElem?_range hlt]
  rfl

/-- One byte by the table is one digit into the register. -/
theorem crcUpdate_toNat (c : BitVec 24) (b : UInt8) :
    crcUpdate c.toNat b = (Crc.update generator c b.toBitVec).toNat := by
  have hindex : ((c.toNat >>> 16) ^^^ b.toNat) &&& 0xFF
      = ((c >>> 16).setWidth 8 ^^^ b.toBitVec).toNat := by
    rw [and_byte, Nat.xor_mod_two_pow, BitVec.toNat_xor, BitVec.toNat_setWidth,
      BitVec.toNat_ushiftRight, UInt8.toNat_toBitVec, Nat.mod_eq_of_lt b.toNat_lt]
  have hmove : (c.toNat <<< 8) &&& 0xFFFFFF = (c <<< 8).toNat := by
    rw [and_mask, BitVec.toNat_shiftLeft]
  rw [crcUpdate, hindex, hmove, crcTable_getD,
    Crc.update_eq_table generator c b.toBitVec (by decide), BitVec.toNat_xor]

/-- The checksum is the register after the bytes. -/
theorem crc24_eq_register (bytes : Bytes) :
    crc24 bytes = (Crc.register generator (BitVec.ofNat 24 crcInit) (digits bytes)).toNat := by
  have hfold : ∀ c : BitVec 24, bytes.foldl crcUpdate c.toNat
      = (Crc.register generator c (digits bytes)).toNat := by
    induction bytes with
    | nil => exact fun _ => rfl
    | cons b bytes ih =>
        intro c
        rw [List.foldl_cons, crcUpdate_toNat, ih]
        rfl
  exact hfold (BitVec.ofNat 24 crcInit)

theorem crc24_lt (bytes : Bytes) : crc24 bytes < 2 ^ 24 := by
  rw [crc24_eq_register]
  exact BitVec.isLt _

/-- The armored checksum determines the register. -/
theorem crc24Armor_injective (bytes bytes' : Bytes) (h : crc24Armor bytes = crc24Armor bytes') :
    crc24 bytes = crc24 bytes' := by
  have hdec := congrArg decode64 h
  rw [crc24Armor, crc24Armor, decode64_encode64, decode64_encode64, Option.some.injEq,
    List.cons.injEq, List.cons.injEq, List.cons.injEq] at hdec
  rcases hdec with ⟨hhigh, hmid, hlow, _⟩
  have hlt := crc24_lt bytes
  have hlt' := crc24_lt bytes'
  have high := congrArg UInt8.toNat hhigh
  have mid := congrArg UInt8.toNat hmid
  have low := congrArg UInt8.toNat hlow
  rw [UInt8.toNat_ofNat', UInt8.toNat_ofNat', Nat.shiftRight_eq_div_pow,
    Nat.shiftRight_eq_div_pow] at high
  rw [UInt8.toNat_ofNat', UInt8.toNat_ofNat', and_byte, and_byte, Nat.shiftRight_eq_div_pow,
    Nat.shiftRight_eq_div_pow] at mid
  rw [UInt8.toNat_ofNat', UInt8.toNat_ofNat', and_byte, and_byte] at low
  omega

/-! ### A changed window -/

/-- Two byte strings of one length that agree outside three consecutive places. -/
def WithinWindow (data data' : Bytes) : Prop :=
  data.length = data'.length ∧ ∃ i, ∀ j, data[j]? ≠ data'[j]? → i ≤ j ∧ j < i + 3

/-- What is in front of the window, the window, and what is behind it. -/
theorem split_window (data : Bytes) (i : Nat) :
    data = data.take i ++ (data.drop i).take 3 ++ data.drop (i + 3) := by
  rw [List.append_assoc, ← List.drop_drop, List.take_append_drop, List.take_append_drop]

/-- Three bytes changed change the checksum. -/
theorem crc24_ne_of_window (data data' : Bytes) (hwindow : WithinWindow data data')
    (hne : data ≠ data') : crc24 data ≠ crc24 data' := by
  rcases hwindow with ⟨hlen, i, hi⟩
  have hagree : ∀ j, (i ≤ j → i + 3 ≤ j) → data[j]? = data'[j]? := by
    intro j hj
    by_contra hdiffer
    have hin := hi j hdiffer
    have hout := hj hin.1
    omega
  have hbefore : data.take i = data'.take i := by
    apply List.ext_getElem?
    intro j
    rw [List.getElem?_take, List.getElem?_take]
    by_cases hj : j < i
    · rw [if_pos hj, if_pos hj, hagree j (fun h => absurd h (by omega))]
    · rw [if_neg hj, if_neg hj]
  have hafter : data.drop (i + 3) = data'.drop (i + 3) := by
    apply List.ext_getElem?
    intro j
    rw [List.getElem?_drop, List.getElem?_drop, hagree (i + 3 + j) (fun _ => by omega)]
  -- So the windows differ, or the whole strings would be equal.
  have hmid : (data.drop i).take 3 ≠ (data'.drop i).take 3 := by
    intro hmid
    apply hne
    rw [split_window data i, split_window data' i, hbefore, hmid, hafter]
  have hburst := Crc.register_ne_of_burst generator (by decide) (BitVec.ofNat 24 crcInit)
    (digits (data.take i)) (digits ((data.drop i).take 3)) (digits ((data'.drop i).take 3))
    (digits (data.drop (i + 3)))
    (by simp only [digits, List.length_map, List.length_take, List.length_drop, hlen])
    (by
      simp only [digits, List.length_map, List.length_take]
      omega)
    (fun h => hmid (List.map_injective_iff.mpr (fun _ _ => UInt8.toBitVec_inj.mp) h))
  have hdigits : ∀ x : Bytes, digits (x.take i) ++ digits ((x.drop i).take 3) ++
      digits (x.drop (i + 3)) = digits x := by
    intro x
    rw [digits, digits, digits, ← List.map_append, ← List.map_append, ← split_window, digits]
  rw [hdigits data, hbefore, hafter, hdigits data'] at hburst
  intro h
  rw [crc24_eq_register, crc24_eq_register, BitVec.toNat_inj] at h
  exact hburst h

/-- A block whose data was changed within three bytes, under the checksum of what
    `armor` was given, is refused with `ParseError`. -/
theorem corrupted_window_raises (data data' : Bytes) (type : Option String) (label : String)
    (htype : labels.lookup type = some label) (hwindow : WithinWindow data data')
    (hne : data' ≠ data) :
    armor data type = .ok (gsubLf (layout label.toList (dataLines data) (crc24Armor data))) ∧
      ∃ e, dearmor (gsubLf (layout label.toList (dataLines data') (crc24Armor data))) = .error e ∧
        e.className = "Confium::ParseError" := by
  refine ⟨by simp only [armor, htype], .checksumMismatch, ?_, rfl⟩
  rw [dearmor_gsubLf_layout label.toList (label_proper type label htype) (dataLines data') data'
    data (isData_of_mem_dataLines data') (flatten_dataLines data')]
  refine if_pos (fun h => ?_)
  exact crc24_ne_of_window data data' hwindow (Ne.symm hne) (crc24Armor_injective _ _ h).symm

/-- One byte out of four changed. -/
theorem corrupted_byte_raises :
    armor [1, 2, 3, 4] none
        = .ok (gsubLf (layout "MESSAGE".toList (dataLines [1, 2, 3, 4]) (crc24Armor [1, 2, 3, 4])))
      ∧ ∃ e, dearmor (gsubLf (layout "MESSAGE".toList (dataLines [1, 2, 7, 4])
            (crc24Armor [1, 2, 3, 4]))) = .error e ∧
          e.className = "Confium::ParseError" := by
  refine corrupted_window_raises [1, 2, 3, 4] [1, 2, 7, 4] none "MESSAGE" rfl ⟨rfl, 1, ?_⟩
    (by decide)
  intro j hj
  by_contra hout
  apply hj
  rcases j with _ | _ | _ | _ | j
  · rfl
  · rfl
  · exact absurd hout (by decide)
  · rfl
  · rfl

end OpenPGP

end Confium
