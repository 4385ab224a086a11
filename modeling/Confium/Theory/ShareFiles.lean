import Confium.Core.ShareFile

/-!
# Share Files Round Trip

What a share file is for: the shares that were saved are the shares that are
loaded. The envelope is the whole of the file, so the round trip is the
envelope's. Its binary members are hexadecimal, and every byte string reads back
from its own hexadecimal text, whatever its length; the others are carried as
they are, which asks of them only that the JSON codec carries them.

The codec does, for documents without floats and within its nesting limit, and
an envelope is two levels deep. The three members that are not binary are a
String and two counts, so there is no float in it.

## Main definitions

* `IsCount`: An integer or nothing.

## Theorems

* `ShareFile.ofDocument_toDocument`: The envelope of a share file reads back as
  it, whatever its members.
* `ShareFile.plain_toDocument`: The envelope is one the codec carries.
* `ShareFile.fromJson_toJson`: The round trip.
* `ShareFile.fromKeygen_round_trips`: Every key generation can be saved and
  loaded.
-/

namespace Confium

open Ruby

/-- An integer or nothing. -/
def IsCount (v : Json) : Prop := v = .null ∨ ∃ i, v = .int i

theorem plain_of_isCount (n : Nat) (v : Json) (h : IsCount v) : Json.plain n v = true := by
  rcases h with h | ⟨i, h⟩
  · rw [h, Json.plain]
  · rw [h, Json.plain]

namespace ShareFile

/-- The shares of an envelope unpack to the shares that were packed. -/
theorem forall₂_packValue_unpackHex (shares : List Bytes) :
    List.Forall₂ (fun item share => packValue item = .ok share)
      (shares.map (fun share => Json.str (unpackHex share))) shares := by
  induction shares with
  | nil => exact List.Forall₂.nil
  | cons share rest ih =>
      refine List.Forall₂.cons ?_ ih
      rw [packValue, packHex_unpackHex]

/-- The envelope of a share file reads back as it, whatever its members. -/
theorem ofDocument_toDocument (sf : ShareFile) : ofDocument sf.toDocument = .ok sf := by
  rw [ofDocument_eq_ok_iff]
  refine ⟨.str (unpackHex sf.publicKey), .arr (sf.shares.map fun share => .str (unpackHex share)),
    sf.shares.map (fun share => .str (unpackHex share)), rfl, rfl, rfl, rfl, ?_, rfl, rfl, ?_⟩
  · rw [packValue, packHex_unpackHex]
  · exact forall₂_packValue_unpackHex sf.shares

/-- The envelope is one the codec carries: two levels, and no float. -/
theorem plain_toDocument (sf : ShareFile) (scheme : String) (hscheme : sf.scheme = .str scheme)
    (hthreshold : IsCount sf.threshold) (hcount : IsCount sf.partyCount) :
    Json.plain JsonCodec.maxNesting sf.toDocument = true := by
  have hshares : Json.plain 99 (.arr (sf.shares.map fun share => .str (unpackHex share)))
      = true := by
    refine Json.plain_arr 98 _ ?_
    intro v hv
    rcases List.mem_map.mp hv with ⟨share, _, hshare⟩
    rw [← hshare, Json.plain]
  have hkeys : (["scheme", "threshold", "party_count", "public_key", "shares"]).Nodup := by decide
  refine Json.plain_obj 99 _ hkeys ?_
  simp only [List.forall_mem_cons, List.not_mem_nil, false_imp_iff, implies_true, and_true]
  refine ⟨?_, plain_of_isCount 99 _ hthreshold, plain_of_isCount 99 _ hcount, ?_, hshares⟩
  · rw [hscheme, Json.plain]
  · rw [Json.plain]

/-- A share file whose envelope the codec carries is loaded as it was saved. -/
theorem fromJson_toJson_of_plain (codec : JsonCodec) (hcodec : codec.Lawful) (sf : ShareFile)
    (hplain : Json.plain JsonCodec.maxNesting sf.toDocument = true) :
    fromJson codec (toJson codec sf) = .ok sf := by
  unfold fromJson toJson
  rw [hcodec.parse_generate sf.toDocument hplain]
  exact ofDocument_toDocument sf

/-- A share file that is saved is loaded as it was. -/
theorem fromJson_toJson (codec : JsonCodec) (hcodec : codec.Lawful) (sf : ShareFile)
    (scheme : String) (hscheme : sf.scheme = .str scheme) (hthreshold : IsCount sf.threshold)
    (hcount : IsCount sf.partyCount) : fromJson codec (toJson codec sf) = .ok sf :=
  fromJson_toJson_of_plain codec hcodec sf (plain_toDocument sf scheme hscheme hthreshold hcount)

/-- The share file of a two-of-two key generation, saved and loaded. -/
theorem two_shares_round_trip :
    fromJson JsonCodec.compact (toJson JsonCodec.compact
        ⟨.str "CMP20-ECDSA-P256", .int 2, .int 2, [2, 255], [[0, 16], []]⟩)
      = .ok ⟨.str "CMP20-ECDSA-P256", .int 2, .int 2, [2, 255], [[0, 16], []]⟩ :=
  fromJson_toJson JsonCodec.compact JsonCodec.compact_lawful _ "CMP20-ECDSA-P256" rfl
    (Or.inr ⟨2, rfl⟩) (Or.inr ⟨2, rfl⟩)

/-- Every key generation can be saved and loaded. -/
theorem fromKeygen_round_trips (codec : JsonCodec) (hcodec : codec.Lawful) (schemeName : String)
    (publicKey : Bytes) (shares : List Bytes) :
    (fromJson codec (toJson codec (fromKeygen schemeName publicKey shares))).map ShareFile.shares
      = .ok shares := by
  have hplain := plain_toDocument (fromKeygen schemeName publicKey shares) schemeName rfl
    (Or.inl rfl) (Or.inr ⟨_, rfl⟩)
  rw [fromJson_toJson_of_plain codec hcodec _ hplain]
  rfl

end ShareFile

end Confium
