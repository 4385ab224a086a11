import Confium.Lib.Value
import Mathlib.Data.List.Basic

/-!
# Hexadecimal Packing

The `H*` directives: `unpack1('H*')` writes a byte string as lower-case
hexadecimal, high nibble first, and `pack('H*')` reads one back.

The reader is permissive. It never rejects a string: a byte that is not a
hexadecimal digit still yields some nibble, by the bit arithmetic that happens
to be right for digits, and an odd length is padded with a zero nibble. So
`packHex` is total, and what it means for a string to have been read properly
has to be said from the outside.

`unpackHex_packHex_iff` says it. Writing back what was read gives the string
that was read, up to case, exactly when the string was a whole number of
hexadecimal digit pairs. In the other direction nothing is lost:
`packHex_unpackHex` reads back every byte string from its own text.

## Main definitions

* `utf8`: The bytes of a string.
* `nibble`: The nibble `pack('H*')` takes a byte for.
* `packHex`: Reading a string as hexadecimal, permissively.
* `unpackHex`: Writing bytes as hexadecimal.
* `IsHex`: A string of hexadecimal digit pairs.

## Theorems

* `packHex_unpackHex`: Reading undoes writing.
* `unpackHex_packHex_iff`: Writing undoes reading exactly on hexadecimal text.
* `length_packBytes`: Two characters make a byte, the last alone makes one.
* `packBytes_eq_self_iff`: The strings that spell their own bytes.
-/

namespace Ruby

/-- The bytes of a string. -/
def utf8 (s : String) : Bytes := s.toList.flatMap String.utf8EncodeChar

/-- The nibble `pack('H*')` takes a byte for: letters by their low three bits
    plus nine, everything else by its low four bits. -/
def nibble (b : UInt8) : Nat :=
  if (65 ≤ b.toNat ∧ b.toNat ≤ 90) ∨ (97 ≤ b.toNat ∧ b.toNat ≤ 122) then (b.toNat % 8 + 9) % 16
  else b.toNat % 16

/-- `pack('H*')` on the bytes of its argument. -/
def packBytes : Bytes → Bytes
  | [] => []
  | [a] => [UInt8.ofNat (16 * nibble a)]
  | a :: b :: rest => UInt8.ofNat (16 * nibble a + nibble b) :: packBytes rest

/-- `[s].pack('H*')`. -/
def packHex (s : String) : Bytes := packBytes (utf8 s)

/-- The two digits of a byte. -/
def hexPair (b : UInt8) : List Char := [Nat.digitChar (b.toNat / 16), Nat.digitChar (b.toNat % 16)]

/-- `bytes.unpack1('H*')`. -/
def unpackHex (bytes : Bytes) : String := String.ofList (bytes.flatMap hexPair)

/-- The hexadecimal digits of either case. -/
def hexDigits : List Char :=
  ['0', '1', '2', '3', '4', '5', '6', '7', '8', '9', 'a', 'b', 'c', 'd', 'e', 'f',
    'A', 'B', 'C', 'D', 'E', 'F']

/-- A whole number of hexadecimal digit pairs. -/
def IsHex (s : String) : Prop := s.toList.length % 2 = 0 ∧ ∀ c ∈ s.toList, c ∈ hexDigits

/-- A string with its letters in lower case. -/
def downcase (s : String) : String := String.ofList (s.toList.map Char.toLower)

-- Deciding a statement about every character would go through all of Unicode.
instance (s : String) : Decidable (IsHex s) :=
  @instDecidableAnd _ _ inferInstance (List.decidableBAll _ _)

theorem nibble_lt (b : UInt8) : nibble b < 16 := by
  rw [nibble]
  split
  · omega
  · omega

/-- A digit that is written is a single byte, and it is read back as its
    value. -/
theorem utf8EncodeChar_digitChar (n : Nat) (h : n < 16) :
    ∃ b, String.utf8EncodeChar (Nat.digitChar n) = [b] ∧ nibble b = n := by
  have hall : ∀ m < 16, (String.utf8EncodeChar (Nat.digitChar m)).map nibble = [m] := by decide
  have hm := hall n h
  rcases List.map_eq_singleton_iff.mp hm with ⟨b, hb, hn⟩
  exact ⟨b, hb, hn⟩

theorem ofNat_nibbles (b : UInt8) : UInt8.ofNat (16 * (b.toNat / 16) + b.toNat % 16) = b := by
  rw [Nat.div_add_mod]
  exact UInt8.ofNat_toNat

/-- Reading undoes writing. -/
theorem packHex_unpackHex (bytes : Bytes) : packHex (unpackHex bytes) = bytes := by
  rw [packHex, unpackHex, utf8, String.toList_ofList]
  induction bytes with
  | nil => rfl
  | cons b rest ih =>
      have hb := UInt8.toNat_lt b
      rcases utf8EncodeChar_digitChar (b.toNat / 16) (by omega) with ⟨hi, hhi, hnhi⟩
      rcases utf8EncodeChar_digitChar (b.toNat % 16) (by omega) with ⟨lo, hlo, hnlo⟩
      rw [List.flatMap_cons, hexPair, List.cons_append, List.cons_append, List.nil_append,
        List.flatMap_cons, List.flatMap_cons, hhi, hlo, List.singleton_append,
        List.singleton_append, packBytes, hnhi, hnlo, ofNat_nibbles, ih]

/-- A hexadecimal digit of either case is a single byte, and its nibble is
    written as the digit in lower case. -/
theorem utf8EncodeChar_hexDigit (c : Char) (h : c ∈ hexDigits) :
    ∃ b, String.utf8EncodeChar c = [b] ∧ Nat.digitChar (nibble b) = c.toLower := by
  have hall : hexDigits.all (fun d => decide ((String.utf8EncodeChar d).map
      (fun b => Nat.digitChar (nibble b)) = [d.toLower])) = true := by decide
  have hc := of_decide_eq_true (List.all_eq_true.mp hall c h)
  rcases List.map_eq_singleton_iff.mp hc with ⟨b, hb, hn⟩
  exact ⟨b, hb, hn⟩

theorem toLower_mem_hexDigits (c : Char) (h : c.toLower ∈ hexDigits) : c ∈ hexDigits := by
  by_cases hu : 'A' ≤ c ∧ c ≤ 'Z'
  · -- An upper-case letter: all twenty-six of them are checked.
    have hlo : 65 ≤ c.toNat := hu.1
    have hhi : c.toNat ≤ 90 := hu.2
    have hall : ∀ n < 91, (Char.ofNat n).toLower ∈ hexDigits → Char.ofNat n ∈ hexDigits := by
      decide
    have hc := hall c.toNat (by omega)
    rw [Char.ofNat_toNat] at hc
    exact hc h
  · have hid : c.toLower = c := by
      unfold Char.toLower
      split
      · next hc => exact absurd ⟨hc.1, hc.2⟩ hu
      · rfl
    rw [hid] at h
    exact h

/-- What is written is lower-case hexadecimal. -/
theorem mem_hexDigits_of_mem_hexPair (b : UInt8) (c : Char) (h : c ∈ hexPair b) :
    c ∈ hexDigits := by
  have hall : ∀ n < 16, Nat.digitChar n ∈ hexDigits := by decide
  have hb := UInt8.toNat_lt b
  simp only [hexPair, List.mem_cons, List.not_mem_nil, or_false] at h
  rcases h with h | h
  · rw [h]
    exact hall _ (by omega)
  · rw [h]
    exact hall _ (by omega)

theorem length_flatMap_hexPair (bytes : Bytes) :
    (bytes.flatMap hexPair).length = 2 * bytes.length := by
  induction bytes with
  | nil => rfl
  | cons b rest ih =>
      rw [List.flatMap_cons, List.length_append, ih, List.length_cons]
      simp only [hexPair, List.length_cons, List.length_nil]
      omega

/-- Reading a pair of digits and writing the byte gives the pair in lower
    case. -/
theorem hexPair_ofNat (m n : Nat) (hm : m < 16) (hn : n < 16) :
    hexPair (UInt8.ofNat (16 * m + n)) = [Nat.digitChar m, Nat.digitChar n] := by
  have hval : (UInt8.ofNat (16 * m + n)).toNat = 16 * m + n := by
    rw [UInt8.toNat_ofNat']
    omega
  rw [hexPair, hval, show (16 * m + n) / 16 = m by omega, show (16 * m + n) % 16 = n by omega]

/-- On hexadecimal digit pairs, writing undoes reading up to case. The
    induction takes the characters two at a time. -/
theorem flatMap_hexPair_packBytes : ∀ cs : List Char, cs.length % 2 = 0 →
    (∀ c ∈ cs, c ∈ hexDigits) →
    (packBytes (cs.flatMap String.utf8EncodeChar)).flatMap hexPair = cs.map Char.toLower
  | [], _, _ => rfl
  | [_], hlen, _ => absurd hlen (by simp only [List.length_singleton]; omega)
  | c :: d :: rest, hlen, hall => by
      have hlen' : rest.length % 2 = 0 := by
        simp only [List.length_cons] at hlen
        omega
      have ih := flatMap_hexPair_packBytes rest hlen'
        (fun e he => hall e (List.mem_cons_of_mem _ (List.mem_cons_of_mem _ he)))
      rcases utf8EncodeChar_hexDigit c (hall c List.mem_cons_self) with ⟨a, ha, hna⟩
      rcases utf8EncodeChar_hexDigit d (hall d (List.mem_cons_of_mem _ List.mem_cons_self)) with
        ⟨b, hb, hnb⟩
      rw [List.flatMap_cons, List.flatMap_cons, ha, hb, List.singleton_append,
        List.singleton_append, packBytes, List.flatMap_cons,
        hexPair_ofNat _ _ (nibble_lt a) (nibble_lt b), hna, hnb, ih]
      rfl

/-- Writing undoes reading, up to case, exactly on hexadecimal digit pairs. -/
theorem unpackHex_packHex_iff (s : String) : unpackHex (packHex s) = downcase s ↔ IsHex s := by
  constructor
  · intro h
    have hlist : (packHex s).flatMap hexPair = s.toList.map Char.toLower := by
      have := congrArg String.toList h
      rwa [unpackHex, downcase, String.toList_ofList, String.toList_ofList] at this
    constructor
    · -- What is written has two digits a byte, so an even length.
      have hlen := congrArg List.length hlist
      rw [length_flatMap_hexPair, List.length_map] at hlen
      omega
    · intro c hc
      -- Every character, in lower case, was written for some byte.
      have hmem : c.toLower ∈ (packHex s).flatMap hexPair := by
        rw [hlist]
        exact List.mem_map_of_mem hc
      rcases List.mem_flatMap.mp hmem with ⟨b, _, hb⟩
      exact toLower_mem_hexDigits c (mem_hexDigits_of_mem_hexPair b _ hb)
  · rintro ⟨hlen, hall⟩
    rw [unpackHex, packHex, utf8, flatMap_hexPair_packBytes s.toList hlen hall, downcase]

/-- Two characters make a byte, and a last one alone makes one too. -/
theorem length_packBytes : ∀ bytes : Bytes, (packBytes bytes).length = (bytes.length + 1) / 2
  | [] => rfl
  | [_] => by simp only [packBytes, List.length_singleton, Nat.reduceAdd, Nat.reduceDiv]
  | _ :: _ :: rest => by
      rw [packBytes, List.length_cons, length_packBytes rest, List.length_cons, List.length_cons]
      omega

/-- Only the empty string and a lone zero byte are hexadecimal for their own
    bytes. -/
theorem packBytes_eq_self_iff (bytes : Bytes) :
    packBytes bytes = bytes ↔ bytes = [] ∨ bytes = [0] := by
  constructor
  · intro h
    have hlen := congrArg List.length h
    rw [length_packBytes] at hlen
    match bytes, hlen, h with
    | [], _, _ => exact Or.inl rfl
    | [b], _, h =>
        -- The low nibble of what is read is zero, and so must the nibble be.
        rw [packBytes, List.singleton_inj] at h
        have hval := congrArg UInt8.toNat h
        have hlt := nibble_lt b
        rw [UInt8.toNat_ofNat', Nat.mod_eq_of_lt (by omega)] at hval
        have hzero : b.toNat = 0 := by
          rw [nibble] at hval
          split at hval
          · omega
          · omega
        refine Or.inr ?_
        rw [List.singleton_inj]
        exact UInt8.toNat_inj.mp hzero
    -- Reading halves the length, which two characters do not survive.
    | _ :: _ :: _, hlen, _ =>
        simp only [List.length_cons] at hlen
        omega
  · rintro (h | h)
    · rw [h]
      rfl
    · rw [h]
      rfl

end Ruby
