import Confium.Lib.Value
import Mathlib.Data.List.Basic

/-!
# Strict Base64

The `m0` directives: `pack('m0')` writes bytes in base64 on one line, and
`unpack1('m0')` reads it back. Unlike the hexadecimal reader this one is
strict. It rejects a length that is not a multiple of four, a character outside
the alphabet, padding anywhere but at the very end, and a last group whose
unused bits are not zero.

A group of three bytes is four sextets, most significant first, and a last
group of one or two bytes is two or three sextets with `=` for the rest. Both
directions recurse a group at a time, so the round trip is the round trip of
one group and of the two short ones.

The shape of the text matters to anything that cuts it into lines. `Padded`
records it: characters of the alphabet, then at most two `=`, in all a multiple
of four.

## Main definitions

* `Text`: A string, as its characters.
* `sextetChar`, `sextet?`: The alphabet and its inverse.
* `encode64`: `pack('m0')`.
* `decode64`: `unpack1('m0')`, `none` where it raises.
* `isBase64`: A character of the alphabet.
* `Padded`: The shape of base64 text.

## Theorems

* `decode64_encode64`: Reading undoes writing.
* `encode64_of_decode64`: Nothing is read but what could have been written.
* `encode64_padded`: What is written has the shape of base64 text.
* `encode64_eq_nil_iff`: Only the empty string is written as nothing.
* `isBase64_of_mem_encode64_three`: Three bytes are written without padding.
-/

namespace Ruby

/-- A string, as its characters. -/
abbrev Text := List Char

/-- The character of a sextet. -/
def sextetChar (n : Nat) : Char :=
  if n < 26 then Char.ofNat (65 + n)
  else if n < 52 then Char.ofNat (97 + (n - 26))
  else if n < 62 then Char.ofNat (48 + (n - 52))
  else if n = 62 then '+'
  else '/'

/-- The sextet a character stands for. -/
def sextet? (c : Char) : Option Nat :=
  if 65 ≤ c.toNat ∧ c.toNat ≤ 90 then some (c.toNat - 65)
  else if 97 ≤ c.toNat ∧ c.toNat ≤ 122 then some (c.toNat - 97 + 26)
  else if 48 ≤ c.toNat ∧ c.toNat ≤ 57 then some (c.toNat - 48 + 52)
  else if c = '+' then some 62
  else if c = '/' then some 63
  else none

/-- A character of the alphabet. -/
def isBase64 (c : Char) : Bool := (sextet? c).isSome

/-- `[bytes].pack('m0')`. -/
def encode64 : Bytes → Text
  | [] => []
  | [a] => [sextetChar (a.toNat / 4), sextetChar (a.toNat % 4 * 16), '=', '=']
  | [a, b] =>
    [sextetChar (a.toNat / 4), sextetChar (a.toNat % 4 * 16 + b.toNat / 16),
      sextetChar (b.toNat % 16 * 4), '=']
  | a :: b :: c :: rest =>
    sextetChar (a.toNat / 4) :: sextetChar (a.toNat % 4 * 16 + b.toNat / 16) ::
      sextetChar (b.toNat % 16 * 4 + c.toNat / 64) :: sextetChar (c.toNat % 64) :: encode64 rest

/-- The last group, when it is padded: two sextets or three, and no bit of the
    last one left over. -/
def decodePadded (a b c : Char) : Option Bytes := do
  let m ← sextet? a
  let n ← sextet? b
  if c = '=' then
    if n % 16 = 0 then some [UInt8.ofNat (m * 4 + n / 16)] else none
  else
    let k ← sextet? c
    if k % 4 = 0 then some [UInt8.ofNat (m * 4 + n / 16), UInt8.ofNat (n % 16 * 16 + k / 4)]
    else none

/-- A whole group. -/
def decodeGroup (a b c d : Char) : Option Bytes := do
  let m ← sextet? a
  let n ← sextet? b
  let k ← sextet? c
  let l ← sextet? d
  some [UInt8.ofNat (m * 4 + n / 16), UInt8.ofNat (n % 16 * 16 + k / 4),
    UInt8.ofNat (k % 4 * 64 + l)]

/-- `text.unpack1('m0')`, `none` where it raises `ArgumentError`. -/
def decode64 : Text → Option Bytes
  | [] => some []
  | a :: b :: c :: d :: rest =>
    if rest = [] ∧ d = '=' then decodePadded a b c
    else do
      let group ← decodeGroup a b c d
      let bytes ← decode64 rest
      some (group ++ bytes)
  | _ => none

theorem sextet?_sextetChar (n : Nat) (h : n < 64) : sextet? (sextetChar n) = some n := by
  have hall : ∀ m < 64, sextet? (sextetChar m) = some m := by decide
  exact hall n h

theorem isBase64_sextetChar (n : Nat) (h : n < 64) : isBase64 (sextetChar n) = true := by
  rw [isBase64, sextet?_sextetChar n h, Option.isSome_some]

theorem sextetChar_ne_pad (n : Nat) (h : n < 64) : sextetChar n ≠ '=' := by
  intro heq
  have hb := isBase64_sextetChar n h
  rw [heq] at hb
  exact absurd hb (by decide)

/-- The four sextets of three bytes give the three bytes back. -/
theorem decodeGroup_sextetChar (a b c : UInt8) :
    decodeGroup (sextetChar (a.toNat / 4)) (sextetChar (a.toNat % 4 * 16 + b.toNat / 16))
      (sextetChar (b.toNat % 16 * 4 + c.toNat / 64)) (sextetChar (c.toNat % 64))
      = some [a, b, c] := by
  have ha := UInt8.toNat_lt a
  have hb := UInt8.toNat_lt b
  have hc := UInt8.toNat_lt c
  -- Six and two bits, four and four, two and six: each byte straddles two sextets.
  have hfst : a.toNat / 4 * 4 + (a.toNat % 4 * 16 + b.toNat / 16) / 16 = a.toNat := by omega
  have hsnd : (a.toNat % 4 * 16 + b.toNat / 16) % 16 * 16
      + (b.toNat % 16 * 4 + c.toNat / 64) / 4 = b.toNat := by omega
  have hthd : (b.toNat % 16 * 4 + c.toNat / 64) % 4 * 64 + c.toNat % 64 = c.toNat := by omega
  simp only [decodeGroup, sextet?_sextetChar _ (show a.toNat / 4 < 64 by omega),
    sextet?_sextetChar _ (show a.toNat % 4 * 16 + b.toNat / 16 < 64 by omega),
    sextet?_sextetChar _ (show b.toNat % 16 * 4 + c.toNat / 64 < 64 by omega),
    sextet?_sextetChar _ (show c.toNat % 64 < 64 by omega), Option.bind_eq_bind, Option.bind_some,
    hfst, hsnd, hthd, UInt8.ofNat_toNat]

/-- Two bytes leave two bits over, and they are zero. -/
theorem decodePadded_two (a b : UInt8) :
    decodePadded (sextetChar (a.toNat / 4)) (sextetChar (a.toNat % 4 * 16 + b.toNat / 16))
      (sextetChar (b.toNat % 16 * 4)) = some [a, b] := by
  have ha := UInt8.toNat_lt a
  have hb := UInt8.toNat_lt b
  have hfst : a.toNat / 4 * 4 + (a.toNat % 4 * 16 + b.toNat / 16) / 16 = a.toNat := by omega
  have hsnd : (a.toNat % 4 * 16 + b.toNat / 16) % 16 * 16 + b.toNat % 16 * 4 / 4 = b.toNat := by
    omega
  simp only [decodePadded, sextet?_sextetChar _ (show a.toNat / 4 < 64 by omega),
    sextet?_sextetChar _ (show a.toNat % 4 * 16 + b.toNat / 16 < 64 by omega),
    sextet?_sextetChar _ (show b.toNat % 16 * 4 < 64 by omega),
    if_neg (sextetChar_ne_pad (b.toNat % 16 * 4) (by omega)),
    if_pos (show b.toNat % 16 * 4 % 4 = 0 by omega), Option.bind_eq_bind, Option.bind_some,
    hfst, hsnd, UInt8.ofNat_toNat]

/-- One byte leaves four bits over, and they are zero. -/
theorem decodePadded_one (a : UInt8) :
    decodePadded (sextetChar (a.toNat / 4)) (sextetChar (a.toNat % 4 * 16)) '=' = some [a] := by
  have ha := UInt8.toNat_lt a
  have hfst : a.toNat / 4 * 4 + a.toNat % 4 * 16 / 16 = a.toNat := by omega
  simp only [decodePadded, sextet?_sextetChar _ (show a.toNat / 4 < 64 by omega),
    sextet?_sextetChar _ (show a.toNat % 4 * 16 < 64 by omega),
    if_pos (show a.toNat % 4 * 16 % 16 = 0 by omega), Option.bind_eq_bind, Option.bind_some,
    if_true, hfst, UInt8.ofNat_toNat]

/-- Reading undoes writing. -/
theorem decode64_encode64 (bytes : Bytes) : decode64 (encode64 bytes) = some bytes := by
  fun_induction encode64 bytes with
  | case1 => rfl
  | case2 a =>
      rw [decode64, if_pos ⟨rfl, rfl⟩]
      exact decodePadded_one a
  | case3 a b =>
      rw [decode64, if_pos ⟨rfl, rfl⟩]
      exact decodePadded_two a b
  | case4 a b c rest ih =>
      -- The fourth character is a sextet, so the group is not taken for a padded one.
      have hlast := sextetChar_ne_pad (c.toNat % 64) (by omega)
      rw [decode64, if_neg (fun h => hlast h.2), decodeGroup_sextetChar, ih]
      rfl

/-- A character of the alphabet is the one its sextet is written as. -/
theorem sextetChar_of_sextet? (c : Char) (n : Nat) (h : sextet? c = some n) :
    n < 64 ∧ sextetChar n = c := by
  have hchar := Char.ofNat_toNat c
  unfold sextet? at h
  split at h
  · -- The letters and digits are contiguous, in three runs.
    rename_i hc
    rw [Option.some.injEq] at h
    refine ⟨by omega, ?_⟩
    rw [sextetChar, if_pos (by omega), ← hchar]
    congr 1
    omega
  · split at h
    · rename_i hc
      rw [Option.some.injEq] at h
      refine ⟨by omega, ?_⟩
      rw [sextetChar, if_neg (by omega), if_pos (by omega), ← hchar]
      congr 1
      omega
    · split at h
      · rename_i hc
        rw [Option.some.injEq] at h
        refine ⟨by omega, ?_⟩
        rw [sextetChar, if_neg (by omega), if_neg (by omega), if_pos (by omega), ← hchar]
        congr 1
        omega
      · split at h
        · rename_i hc
          rw [← Option.some.inj h, hc]
          decide
        · split at h
          · rename_i hc
            rw [← Option.some.inj h, hc]
            decide
          · exact absurd h (by simp only [reduceCtorEq, not_false_eq_true])

/-- A whole group is the one its three bytes are written as. -/
theorem encode64_of_decodeGroup (a b c d : Char) (bytes rest : Bytes)
    (h : decodeGroup a b c d = some bytes) :
    encode64 (bytes ++ rest) = a :: b :: c :: d :: encode64 rest := by
  simp only [decodeGroup, Option.bind_eq_bind, Option.bind_eq_some_iff] at h
  rcases h with ⟨m, hm, n, hn, k, hk, l, hl, h⟩
  rcases sextetChar_of_sextet? a m hm with ⟨hm64, hma⟩
  rcases sextetChar_of_sextet? b n hn with ⟨hn64, hnb⟩
  rcases sextetChar_of_sextet? c k hk with ⟨hk64, hkc⟩
  rcases sextetChar_of_sextet? d l hl with ⟨hl64, hld⟩
  rw [← Option.some.inj h, List.cons_append, List.cons_append, List.cons_append, List.nil_append,
    encode64, ← hma, ← hnb, ← hkc, ← hld]
  have hbyte : ∀ x < 256, (UInt8.ofNat x).toNat = x := fun _ hx => UInt8.toNat_ofNat_of_lt' hx
  rw [hbyte (m * 4 + n / 16) (by omega), hbyte (n % 16 * 16 + k / 4) (by omega),
    hbyte (k % 4 * 64 + l) (by omega), show (m * 4 + n / 16) / 4 = m by omega,
    show (m * 4 + n / 16) % 4 * 16 + (n % 16 * 16 + k / 4) / 16 = n by omega,
    show (n % 16 * 16 + k / 4) % 16 * 4 + (k % 4 * 64 + l) / 64 = k by omega,
    show (k % 4 * 64 + l) % 64 = l by omega]

/-- So is a padded one, whose unused bits are zero. -/
theorem encode64_of_decodePadded (a b c : Char) (bytes : Bytes)
    (h : decodePadded a b c = some bytes) : encode64 bytes = [a, b, c, '='] := by
  simp only [decodePadded, Option.bind_eq_bind, Option.bind_eq_some_iff] at h
  rcases h with ⟨m, hm, n, hn, h⟩
  rcases sextetChar_of_sextet? a m hm with ⟨hm64, hma⟩
  rcases sextetChar_of_sextet? b n hn with ⟨hn64, hnb⟩
  have hbyte : ∀ x < 256, (UInt8.ofNat x).toNat = x := fun _ hx => UInt8.toNat_ofNat_of_lt' hx
  by_cases hpad : c = '='
  · rw [if_pos hpad] at h
    by_cases hbits : n % 16 = 0
    · rw [if_pos hbits] at h
      rw [← Option.some.inj h, encode64, hbyte (m * 4 + n / 16) (by omega),
        show (m * 4 + n / 16) / 4 = m by omega, show (m * 4 + n / 16) % 4 * 16 = n by omega,
        hma, hnb, hpad]
    · rw [if_neg hbits] at h
      exact absurd h (by simp only [reduceCtorEq, not_false_eq_true])
  · rw [if_neg hpad, Option.bind_eq_some_iff] at h
    rcases h with ⟨k, hk, h⟩
    rcases sextetChar_of_sextet? c k hk with ⟨hk64, hkc⟩
    by_cases hbits : k % 4 = 0
    · rw [if_pos hbits] at h
      rw [← Option.some.inj h, encode64, hbyte (m * 4 + n / 16) (by omega),
        hbyte (n % 16 * 16 + k / 4) (by omega), show (m * 4 + n / 16) / 4 = m by omega,
        show (m * 4 + n / 16) % 4 * 16 + (n % 16 * 16 + k / 4) / 16 = n by omega,
        show (n % 16 * 16 + k / 4) % 16 * 4 = k by omega, hma, hnb, hkc]
    · rw [if_neg hbits] at h
      exact absurd h (by simp only [reduceCtorEq, not_false_eq_true])

/-- Nothing is read but what could have been written. -/
theorem encode64_of_decode64 (text : Text) (bytes : Bytes) (h : decode64 text = some bytes) :
    encode64 bytes = text := by
  fun_induction decode64 text generalizing bytes with
  | case1 =>
      rw [← Option.some.inj h]
      rfl
  | case2 a b c d rest hlast =>
      rw [hlast.1, hlast.2]
      exact encode64_of_decodePadded a b c bytes h
  | case3 a b c d rest hlast ih =>
      simp only [Option.bind_eq_bind, Option.bind_eq_some_iff] at h
      rcases h with ⟨group, hgroup, more, hmore, h⟩
      rw [← Option.some.inj h, encode64_of_decodeGroup a b c d group more hgroup, ih more hmore]
  | case4 => exact absurd h (by simp only [reduceCtorEq, not_false_eq_true])

/-- Text is read exactly when it is the base64 of something. -/
theorem decode64_eq_none_iff (text : Text) :
    decode64 text = none ↔ ∀ bytes, text ≠ encode64 bytes := by
  constructor
  · intro h bytes htext
    rw [htext, decode64_encode64] at h
    exact absurd h (by simp only [reduceCtorEq, not_false_eq_true])
  · intro h
    cases hdec : decode64 text with
    | none => rfl
    | some bytes => exact absurd (encode64_of_decode64 text bytes hdec).symm (h bytes)

/-- Three bytes are written without padding. -/
theorem isBase64_of_mem_encode64_three (a b c : UInt8) (ch : Char)
    (h : ch ∈ encode64 [a, b, c]) : isBase64 ch = true := by
  have ha := UInt8.toNat_lt a
  have hb := UInt8.toNat_lt b
  have hc := UInt8.toNat_lt c
  simp only [encode64, List.mem_cons, List.not_mem_nil, or_false] at h
  rcases h with h | h | h | h
  · rw [h]
    exact isBase64_sextetChar _ (by omega)
  · rw [h]
    exact isBase64_sextetChar _ (by omega)
  · rw [h]
    exact isBase64_sextetChar _ (by omega)
  · rw [h]
    exact isBase64_sextetChar _ (by omega)

/-- The shape of base64 text: characters of the alphabet, then at most two
    `=`, in all a multiple of four. -/
def Padded (text : Text) : Prop :=
  text.length % 4 = 0 ∧ ∃ body pad, text = body ++ pad ∧ (∀ c ∈ body, isBase64 c = true) ∧
    (pad = [] ∨ pad = ['='] ∨ pad = ['=', '='])

/-- Padding is `=` at most twice. -/
theorem pad_iff (pad : Text) :
    (pad = [] ∨ pad = ['='] ∨ pad = ['=', '=']) ↔ pad.length ≤ 2 ∧ ∀ c ∈ pad, c = '=' := by
  constructor
  · rintro (h | h | h) <;>
    · rw [h]
      simp only [List.length_nil, List.length_cons, List.not_mem_nil, List.mem_cons, or_false,
        or_self, forall_eq, false_imp_iff, implies_true, and_true]
      decide
  · rintro ⟨hlen, hall⟩
    rcases pad with _ | ⟨a, _ | ⟨b, _ | ⟨c, rest⟩⟩⟩
    · exact Or.inl rfl
    · rw [hall a List.mem_cons_self]
      exact Or.inr (Or.inl rfl)
    · rw [hall a List.mem_cons_self, hall b (List.mem_cons_of_mem a List.mem_cons_self)]
      exact Or.inr (Or.inr rfl)
    · simp only [List.length_cons] at hlen
      omega

theorem padded_nil : Padded [] :=
  ⟨rfl, [], [], rfl, fun _ h => absurd h List.not_mem_nil, Or.inl rfl⟩

/-- A whole group in front keeps the shape. -/
theorem padded_append (group text : Text) (hlen : group.length % 4 = 0)
    (hgroup : ∀ c ∈ group, isBase64 c = true) (h : Padded text) : Padded (group ++ text) := by
  rcases h with ⟨hmod, body, pad, heq, hbody, hpad⟩
  refine ⟨by rw [List.length_append]; omega, group ++ body, pad, ?_, ?_, hpad⟩
  · rw [heq, List.append_assoc]
  · intro c hc
    rcases List.mem_append.mp hc with h | h
    · exact hgroup c h
    · exact hbody c h

/-- What is written has the shape of base64 text. -/
theorem encode64_padded (bytes : Bytes) : Padded (encode64 bytes) := by
  fun_induction encode64 bytes with
  | case1 => exact padded_nil
  | case2 a =>
      have ha := UInt8.toNat_lt a
      refine ⟨by simp only [List.length_cons, List.length_nil, Nat.reduceAdd, Nat.mod_self],
        [_, _], ['=', '='], rfl, ?_, Or.inr (Or.inr rfl)⟩
      simp only [List.mem_cons, List.not_mem_nil, or_false, forall_eq_or_imp, forall_eq]
      exact ⟨isBase64_sextetChar _ (by omega), isBase64_sextetChar _ (by omega)⟩
  | case3 a b =>
      have ha := UInt8.toNat_lt a
      have hb := UInt8.toNat_lt b
      refine ⟨by simp only [List.length_cons, List.length_nil, Nat.reduceAdd, Nat.mod_self],
        [_, _, _], ['='], rfl, ?_, Or.inr (Or.inl rfl)⟩
      simp only [List.mem_cons, List.not_mem_nil, or_false, forall_eq_or_imp, forall_eq]
      exact ⟨isBase64_sextetChar _ (by omega), isBase64_sextetChar _ (by omega),
        isBase64_sextetChar _ (by omega)⟩
  | case4 a b c rest ih =>
      exact padded_append [_, _, _, _] _
        (by simp only [List.length_cons, List.length_nil, Nat.reduceAdd, Nat.mod_self])
        (isBase64_of_mem_encode64_three a b c) ih

/-- Only the empty string is written as nothing. -/
theorem encode64_eq_nil_iff (bytes : Bytes) : encode64 bytes = [] ↔ bytes = [] := by
  constructor
  · intro h
    have hdec := decode64_encode64 bytes
    rw [h, decode64, Option.some.injEq] at hdec
    exact hdec.symm
  · intro h
    rw [h, encode64]

end Ruby
