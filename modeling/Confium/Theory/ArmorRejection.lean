import Confium.Theory.ArmorReader

/-!
# What the Armor Reader Refuses

Two promises of `dearmor`, each with the texts that break it.

It promises to raise nothing but `ParseError`. Every stage in front of the base64
keeps that, and so does the checksum behind it. The base64 itself is decoded by
`unpack1('m0')`, which has an exception of its own, and the lines it is given
were only checked one at a time for their alphabet: their number of characters,
padding inside the text and the bits under the padding are first looked at
there.

It promises to verify a checksum that is present. The loop that gathers the lines
keeps one checksum, the last, and that one is verified. A block may hold several,
and those in front of the last are dropped unread.

## Main definitions

* `ReturnsOrParseError`: The reader's promise about what it raises.

## Theorems

* `raises_parseError_iff`: Which texts raise nothing but `ParseError`.
* `checksums_verified_iff`: Which accepted blocks have every checksum verified.
-/

namespace Confium

open Ruby

namespace OpenPGP

/-- The reader returns, or it raises `ParseError`. -/
def ReturnsOrParseError (text : Text) : Prop :=
  (∃ bytes, dearmor text = .ok bytes) ∨
    ∃ e, dearmor text = .error e ∧ e.className = "Confium::ParseError"

/-- On a block of recognised lines the reader raises `ParseError` at most, if
    their data is base64 of something. -/
theorem returnsOrParseError_of_encode64 (text : Text) (lines : List Text) (bytes : Bytes)
    (hlines : blockLines text = .ok lines) (hrec : ∀ line ∈ lines, Recognised line)
    (hdata : dataText lines = encode64 bytes) : ReturnsOrParseError text := by
  have hread := dearmor_eq text lines hlines hrec
  rw [hdata, decode64_encode64] at hread
  by_cases hempty : encode64 bytes = [] ∧ checksum? lines = none
  · rw [if_pos hempty] at hread
    exact Or.inr ⟨_, hread, rfl⟩
  · rw [if_neg hempty] at hread
    cases hcrc : checksum? lines with
    | none =>
        simp only [hcrc] at hread
        exact Or.inl ⟨bytes, hread⟩
    | some crc =>
        simp only [hcrc] at hread
        by_cases hmismatch : crc24Armor bytes ≠ crc
        · rw [if_pos hmismatch] at hread
          exact Or.inr ⟨_, hread, rfl⟩
        · rw [if_neg hmismatch] at hread
          exact Or.inl ⟨bytes, hread⟩

/-- On a block of recognised lines whose data is base64 of nothing, what
    `unpack1('m0')` raises goes through. -/
theorem dearmor_eq_invalidBase64 (text : Text) (lines : List Text)
    (hlines : blockLines text = .ok lines) (hrec : ∀ line ∈ lines, Recognised line)
    (hdata : ∀ bytes, dataText lines ≠ encode64 bytes) : dearmor text = .error .invalidBase64 := by
  -- No data at all would be the base64 of nothing.
  have hne : dataText lines ≠ [] := hdata []
  rw [dearmor_eq text lines hlines hrec, if_neg (fun hempty => hne hempty.1),
    (decode64_eq_none_iff _).mpr hdata]

/-- The reader raises nothing but `ParseError` exactly on the texts whose block,
    if every line of it is blank, a checksum or of the alphabet, holds base64 of
    something. -/
theorem raises_parseError_iff (text : Text) :
    ReturnsOrParseError text ↔
      ∀ lines, blockLines text = .ok lines → (∀ line ∈ lines, Recognised line) →
        ∃ bytes, dataText lines = encode64 bytes := by
  constructor
  · intro h lines hlines hrec
    by_contra hdata
    have hread := dearmor_eq_invalidBase64 text lines hlines hrec (not_exists.mp hdata)
    rw [ReturnsOrParseError, hread] at h
    rcases h with ⟨bytes, hok⟩ | ⟨e, herror, hclass⟩
    · exact absurd hok (by simp only [reduceCtorEq, not_false_eq_true])
    · rw [Except.error.injEq] at herror
      rw [← herror] at hclass
      exact absurd hclass (by decide)
  · intro h
    cases hlines : blockLines text with
    | error e =>
        rcases dearmor_of_noBlock text e hlines with ⟨hread, he | he⟩
        · exact Or.inr ⟨e, hread, by rw [he]; rfl⟩
        · exact Or.inr ⟨e, hread, by rw [he]; rfl⟩
    | ok lines =>
        by_cases hrec : ∀ line ∈ lines, Recognised line
        · rcases h lines hlines hrec with ⟨bytes, hdata⟩
          exact returnsOrParseError_of_encode64 text lines bytes hlines hrec hdata
        · push Not at hrec
          rcases dearmor_of_unrecognised text lines hlines hrec with ⟨start, hread⟩
          exact Or.inr ⟨_, hread, rfl⟩

/-- One line of the alphabet that is too short to be base64. -/
theorem short_line_raises_argumentError :
    dearmor "-----BEGIN PGP MESSAGE-----\n\nZg\n-----END PGP MESSAGE-----\n".toList
        = .error .invalidBase64 ∧
      ¬ ReturnsOrParseError
        "-----BEGIN PGP MESSAGE-----\n\nZg\n-----END PGP MESSAGE-----\n".toList := by
  have hread : dearmor "-----BEGIN PGP MESSAGE-----\n\nZg\n-----END PGP MESSAGE-----\n".toList
      = .error .invalidBase64 := by
    decide +kernel
  refine ⟨hread, ?_⟩
  rw [ReturnsOrParseError, hread]
  rintro (⟨bytes, hok⟩ | ⟨e, herror, hclass⟩)
  · exact absurd hok (by simp only [reduceCtorEq, not_false_eq_true])
  · rw [Except.error.injEq] at herror
    rw [← herror] at hclass
    exact absurd hclass (by decide)

/-! ### Several checksums -/

/-- A block with a checksum has a last one. -/
theorem checksum?_of_mem (lines : List Text) (line : Text) (hmem : line ∈ lines)
    (h : line.head? = some '=') :
    ∃ last ∈ lines, last.head? = some '=' ∧ checksum? lines = some last.tail := by
  have hfilter : line ∈ lines.filter isChecksum :=
    List.mem_filter.mpr ⟨hmem, decide_eq_true h⟩
  cases hlast : (lines.filter isChecksum).getLast? with
  | none =>
      rw [List.getLast?_eq_none_iff] at hlast
      rw [hlast] at hfilter
      exact absurd hfilter List.not_mem_nil
  | some last =>
      rcases List.mem_filter.mp (List.mem_of_getLast? hlast) with ⟨hmem, hchecksum⟩
      refine ⟨last, hmem, of_decide_eq_true hchecksum, ?_⟩
      rw [checksum?, hlast, Option.map_some]

/-- In an accepted block every checksum is the checksum of the result exactly
    when no two of them differ. -/
theorem checksums_verified_iff (text : Text) (lines : List Text) (data : Bytes)
    (hlines : blockLines text = .ok lines) (h : dearmor text = .ok data) :
    (∀ line ∈ lines, line.head? = some '=' → line = '=' :: crc24Armor data) ↔
      ∀ line ∈ lines, ∀ other ∈ lines, line.head? = some '=' → other.head? = some '=' →
        line = other := by
  rcases dataText_of_dearmor text lines data hlines h with ⟨_, _, hcrc⟩
  constructor
  · intro hall line hline other hother hq hq'
    rw [hall line hline hq, hall other hother hq']
  · intro hsame line hline hq
    -- The last one was verified, and the line is equal to it.
    rcases checksum?_of_mem lines line hline hq with ⟨last, hlast, hlq, hlastcrc⟩
    rw [hsame line hline last hlast hq hlq, ← hcrc last.tail hlastcrc]
    exact (List.cons_head?_tail hlq).symm

/-- A block with its checksum twice. -/
theorem repeated_checksum_verified :
    dearmor
        "-----BEGIN PGP MESSAGE-----\n\nfw==\n=j6tP\n=j6tP\n-----END PGP MESSAGE-----\n".toList
        = .ok [0x7f] ∧
      ∀ line ∈ ["fw==".toList, "=j6tP".toList, "=j6tP".toList], line.head? = some '=' →
        line = '=' :: crc24Armor [0x7f] := by
  have hread : dearmor
      "-----BEGIN PGP MESSAGE-----\n\nfw==\n=j6tP\n=j6tP\n-----END PGP MESSAGE-----\n".toList
      = .ok [0x7f] := by
    decide +kernel
  exact ⟨hread, (checksums_verified_iff
    "-----BEGIN PGP MESSAGE-----\n\nfw==\n=j6tP\n=j6tP\n-----END PGP MESSAGE-----\n".toList
    ["fw==".toList, "=j6tP".toList, "=j6tP".toList] [0x7f] (by decide +kernel) hread).mpr
    (by decide)⟩

/-- A wrong checksum in front of the right one. -/
theorem overwritten_checksum_accepted :
    blockLines
        "-----BEGIN PGP MESSAGE-----\n\nfw==\n=AAAA\n=j6tP\n-----END PGP MESSAGE-----\n".toList
        = .ok ["fw==".toList, "=AAAA".toList, "=j6tP".toList] ∧
      dearmor
        "-----BEGIN PGP MESSAGE-----\n\nfw==\n=AAAA\n=j6tP\n-----END PGP MESSAGE-----\n".toList
        = .ok [0x7f] ∧
      "=AAAA".toList ≠ '=' :: crc24Armor [0x7f] := by
  decide +kernel

end OpenPGP

end Confium
