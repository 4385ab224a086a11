import Confium.Lib.Json
import Confium.Core.Fields

/-!
# Share Files

The JSON envelope key shares are saved in: a scheme, a threshold, a party count,
and the public key and the shares in hexadecimal. `scheme`, `threshold` and
`party_count` are carried as whatever the document has, and the two binary
members are unpacked on the way in and packed on the way out.

The envelope is read by fetching its members in the order the constructor's
arguments are written, so the first missing one is the one reported.

## Main definitions

* `ShareFile`: A loaded share file.
* `itemsOf`: What `d.fetch('shares').map` visits.
* `ShareFile.ofDocument`: Reading the envelope.
* `ShareFile.fromJson`: Reading the text of one.
* `ShareFile.toDocument`, `ShareFile.toJson`: Writing one.
* `ShareFile.fromKeygen`: The share file of a key generation.

## Theorems

* `ShareFile.ofDocument_eq_ok_iff`: The envelopes that are read, and as what.
-/

namespace Confium

open Ruby

/-- A loaded share file. -/
structure ShareFile where
  scheme : Json
  threshold : Json
  partyCount : Json
  publicKey : Bytes
  shares : List Bytes

/-- What `v.map` visits. A hash is visited as pairs, which are arrays. -/
def itemsOf : Json → Except (Exn Json) (List Json)
  | .arr items => .ok items
  | .obj fields => .ok (fields.map (fun entry => .arr [.str entry.1, entry.2]))
  | v => .error (.undefinedMethod "map" v)

namespace ShareFile

/-- `ShareFile.from_json`, once the text is parsed. -/
def ofDocument (d : Json) : Except (Exn Json) ShareFile := do
  let scheme ← fetchMember d "scheme"
  let threshold ← fetchMember d "threshold"
  let partyCount ← fetchMember d "party_count"
  let publicKey ← packValue (← fetchMember d "public_key")
  let items ← itemsOf (← fetchMember d "shares")
  let shares ← items.mapM packValue
  return ⟨scheme, threshold, partyCount, publicKey, shares⟩

/-- `ShareFile.from_json(json)`. -/
def fromJson (codec : JsonCodec) (json : Text) : Except (Exn Json) ShareFile :=
  match codec.parse json with
  | .error text => .error (.malformedJson text)
  | .ok d => ofDocument d

/-- The envelope of a share file. -/
def toDocument (sf : ShareFile) : Json :=
  .obj [("scheme", sf.scheme), ("threshold", sf.threshold), ("party_count", sf.partyCount),
    ("public_key", .str (unpackHex sf.publicKey)),
    ("shares", .arr (sf.shares.map (fun share => .str (unpackHex share))))]

/-- `sf.to_json`. -/
def toJson (codec : JsonCodec) (sf : ShareFile) : Text := codec.generate sf.toDocument

/-- `ShareFile.from_keygen`, of the public key and the shares of a keygen
    result. The result does not carry the threshold. -/
def fromKeygen (schemeName : String) (publicKey : Bytes) (shares : List Bytes) : ShareFile :=
  { scheme := .str schemeName, threshold := .null, partyCount := .int shares.length,
    publicKey := publicKey, shares := shares }

/-- The envelopes that are read, and as what: every member is there, the public
    key unpacks, and so does every share. -/
theorem ofDocument_eq_ok_iff (d : Json) (sf : ShareFile) :
    ofDocument d = .ok sf ↔ ∃ key shares items,
      fetchMember d "scheme" = .ok sf.scheme ∧ fetchMember d "threshold" = .ok sf.threshold ∧
      fetchMember d "party_count" = .ok sf.partyCount ∧
      fetchMember d "public_key" = .ok key ∧ packValue key = .ok sf.publicKey ∧
      fetchMember d "shares" = .ok shares ∧ itemsOf shares = .ok items ∧
      List.Forall₂ (fun item share => packValue item = .ok share) items sf.shares := by
  rcases sf with ⟨scheme, threshold, partyCount, publicKey, sfShares⟩
  simp only [ofDocument, bind_eq_ok_iff, mapM_eq_ok_iff, pure, Except.pure, Except.ok.injEq,
    ShareFile.mk.injEq]
  constructor
  · rintro ⟨_, h₁, _, h₂, _, h₃, key, hkey, _, hpk, shares, hs, items, hi, _, hall,
      rfl, rfl, rfl, rfl, rfl⟩
    exact ⟨key, shares, items, h₁, h₂, h₃, hkey, hpk, hs, hi, hall⟩
  · rintro ⟨key, shares, items, h₁, h₂, h₃, hkey, hpk, hs, hi, hall⟩
    exact ⟨_, h₁, _, h₂, _, h₃, key, hkey, _, hpk, shares, hs, items, hi, _, hall,
      rfl, rfl, rfl, rfl, rfl⟩

end ShareFile

end Confium
