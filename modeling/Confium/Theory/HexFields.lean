import Confium.Core.NetworkCoordinator
import Confium.Core.ShareFile
import Confium.Theory.Transport

/-!
# Hexadecimal Fields on the Wire

Binary data arrives in hexadecimal at several places: a public key and shares in
a share file, a public key and a signature in each component of a composite
signature, a message and submitted bytes in requests to the coordinator.
`HexField` collects them, one constructor for each reader, relating the string
that was accepted to the bytes that were taken from it.

Every reader unpacks with `pack('H*')`, which rejects nothing. So what was
accepted can be told from the bytes only when it was hexadecimal to begin with:
`reencode_iff` says that writing the bytes again gives the accepted string, up
to case, exactly when it was a whole number of hexadecimal digit pairs.

## Main definitions

* `packedBytes`: The bytes a call carries, and the field they came from.
* `HexField`: A string accepted as a hexadecimal field, with its bytes.

## Theorems

* `HexField.bytes_eq`: Every reader takes the bytes `pack('H*')` gives.
* `HexField.reencode_iff`: Which accepted strings can be told from their bytes.
* `truncated_share_file_loads`: A share file cut short, accepted as other bytes.
-/

namespace Confium

open Ruby

/-- The bytes a call carries, and the field of the request they came from. -/
def packedBytes {ρ : Type} : CoordinatorOp Json ρ → Option (String × Bytes)
  | .createSession message _ _ _ => some ("message_hex", message)
  | .call _ (.addCommitment _ bytes) => some ("bytes_hex", bytes)
  | .call _ (.addShare _ bytes) => some ("bytes_hex", bytes)
  | .call _ (.aggregate _) => none

/-- A string accepted as a hexadecimal field, with the bytes it was taken
    for. -/
inductive HexField (h : String) : Bytes → Prop where
  /-- The public key of a share file. -/
  | sharePublicKey (codec : JsonCodec) (json : Text) (d : Json) (sf : ShareFile)
      (hparse : codec.parse json = .ok d) (hload : ShareFile.fromJson codec json = .ok sf)
      (hfield : fetchMember d "public_key" = .ok (.str h)) : HexField h sf.publicKey
  /-- A share of a share file, by its position. -/
  | share (codec : JsonCodec) (json : Text) (d : Json) (sf : ShareFile) (items : List Json)
      (i : Nat) (bytes : Bytes)
      (hparse : codec.parse json = .ok d) (hload : ShareFile.fromJson codec json = .ok sf)
      (hfield : fetchMember d "shares" = .ok (.arr items)) (hitem : items[i]? = some (.str h))
      (hshare : sf.shares[i]? = some bytes) : HexField h bytes
  /-- The public key of a component of a composite signature. -/
  | componentPublicKey (codec : JsonCodec) (transcoder : Transcoder) (json : Text) (data : Json)
      (sig : Composite.Signature) (components : List Json) (i : Nat) (component : Json)
      (c : Composite.ComponentSignature)
      (hparse : codec.parse json = .ok data)
      (hload : Composite.Signature.fromJson codec transcoder json = .ok sig)
      (hcomponents : Composite.Signature.componentsOf data = .ok components)
      (hcomponent : components[i]? = some component) (hinner : sig.inner[i]? = some c)
      (hfield : Composite.Signature.fetchJson component "public_key" = .ok (.str h)) :
      HexField h c.publicKey
  /-- The signature of a component of a composite signature. -/
  | componentSignature (codec : JsonCodec) (transcoder : Transcoder) (json : Text) (data : Json)
      (sig : Composite.Signature) (components : List Json) (i : Nat) (component : Json)
      (c : Composite.ComponentSignature)
      (hparse : codec.parse json = .ok data)
      (hload : Composite.Signature.fromJson codec transcoder json = .ok sig)
      (hcomponents : Composite.Signature.componentsOf data = .ok components)
      (hcomponent : components[i]? = some component) (hinner : sig.inner[i]? = some c)
      (hfield : Composite.Signature.fetchJson component "signature" = .ok (.str h)) :
      HexField h c.signature
  /-- The message or the submitted bytes of a request. -/
  | request {ρ : Type} (fields : Fields) (r : ρ) (op : CoordinatorOp Json ρ) (key : String)
      (bytes : Bytes)
      (hcall : NetworkCoordinator.callOf (.obj fields) r = .ok op)
      (hbytes : packedBytes op = some (key, bytes))
      (hfield : Json.field? fields key = some (.str h)) : HexField h bytes

namespace ShareFile

theorem fromJson_eq_ok_iff (codec : JsonCodec) (json : Text) (d : Json) (sf : ShareFile)
    (hparse : codec.parse json = .ok d) : fromJson codec json = .ok sf ↔ ofDocument d = .ok sf := by
  rw [fromJson, hparse]

end ShareFile

namespace Composite

namespace Signature

/-- A component read off the wire has the bytes its binary members unpack
    to. -/
theorem receiveComponent_binary (transcoder : Transcoder) (component : Json)
    (c : ComponentSignature) (hc : receiveComponent transcoder component = .ok c) (h : String) :
    (fetchJson component "public_key" = .ok (.str h) → c.publicKey = packHex h) ∧
      (fetchJson component "signature" = .ok (.str h) → c.signature = packHex h) := by
  rw [receiveComponent, bind_eq_ok_iff] at hc
  rcases hc with ⟨members, hmembers, hparse⟩
  rcases (parseComponent_eq_ok_iff transcoder members c).mp hparse with
    ⟨a, p, g, _, hp, hg, _, hpk, hsig⟩
  have hmem : members
      = (entriesOf component).map (fun entry => (entry.1, decodeMember entry.1 entry.2)) := by
    simp only [decodeBinaryFields, bind_eq_ok_iff, pure, Except.pure, Except.ok.injEq] at hmembers
    rcases hmembers with ⟨_, _, _, _, hm⟩
    exact hm.symm
  -- A member that is fetched as a string is unpacked where it stands.
  have hunpacked : ∀ key ∈ binaryFields, ∀ v bytes, members.lookup key = some v →
      bytesFromValue v = .ok bytes → fetchJson component key = .ok (.str h) →
      bytes = packHex h := by
    intro key hkey v bytes hv hbytes hfetch
    have hlookup : (entriesOf component).lookup key = some (.str h) := by
      rcases (fetchJson_eq_ok_iff component key _).mp hfetch with ⟨fields, rfl, hf⟩
      exact hf
    rw [hmem, lookup_decoded, hlookup, Option.map_some, Option.some.injEq] at hv
    rw [← hv, decodeMember, if_pos hkey, bytesFromValue_str_eq_ok_iff] at hbytes
    exact hbytes.2
  exact ⟨hunpacked "public_key" (by decide) p c.publicKey hp hpk,
    hunpacked "signature" (by decide) g c.signature hg hsig⟩

/-- What is read is read component by component, in order. -/
theorem receiveComponent_of_fromJson (codec : JsonCodec) (transcoder : Transcoder) (json : Text)
    (data : Json) (sig : Signature) (components : List Json) (i : Nat) (component : Json)
    (c : ComponentSignature) (hparse : codec.parse json = .ok data)
    (hload : fromJson codec transcoder json = .ok sig)
    (hcomponents : componentsOf data = .ok components)
    (hcomponent : components[i]? = some component) (hinner : sig.inner[i]? = some c) :
    receiveComponent transcoder component = .ok c := by
  rw [fromJson, hparse] at hload
  rcases (ofDocument_eq_ok_iff transcoder json data sig).mp hload with ⟨cs, hcs, hall, _, _⟩
  rw [hcomponents, Except.ok.injEq] at hcs
  rw [← hcs, mapM_eq_ok_iff] at hall
  rcases List.getElem?_eq_some_iff.mp hcomponent with ⟨hi, hget⟩
  rcases List.getElem?_eq_some_iff.mp hinner with ⟨hj, hget'⟩
  have hat := hall.get hi hj
  rw [List.get_eq_getElem, List.get_eq_getElem, hget, hget'] at hat
  exact hat

end Signature

end Composite

namespace NetworkCoordinator

variable {ρ : Type}

/-- The bytes a call carries are what the request's field packs to. -/
theorem packValue_of_callOf (fields : Fields) (r : ρ) (op : CoordinatorOp Json ρ) (key : String)
    (bytes : Bytes) (v : Json) (hcall : callOf (.obj fields) r = .ok op)
    (hbytes : packedBytes op = some (key, bytes)) (hfield : Json.field? fields key = some v) :
    packValue v = .ok bytes := by
  rcases (callOf_eq_ok_iff_asks _ _ _).mp hcall with ⟨fields', heq, hasks⟩
  rw [Json.obj.injEq] at heq
  rw [← heq] at hasks
  -- A submission carries what its own field packs to, whichever store it is for.
  have hsubmitted : ∀ id signerId b, Submission fields id signerId b →
      some (("bytes_hex", b) : String × Bytes) = some (key, bytes) → packValue v = .ok bytes := by
    rintro id signerId b ⟨w, _, _, hw, hpack⟩ hpair
    rw [Option.some.injEq, Prod.mk.injEq] at hpair
    rw [← hpair.1, hw, Option.some.injEq] at hfield
    rw [← hfield, ← hpair.2]
    exact hpack
  cases hasks with
  | create w threshold message hop hw hpack ht =>
      rw [packedBytes, Option.some.injEq, Prod.mk.injEq] at hbytes
      rw [← hbytes.1, hw, Option.some.injEq] at hfield
      rw [← hfield, ← hbytes.2]
      exact hpack
  | commitment id signerId b hop hsub => exact hsubmitted id signerId b hsub hbytes
  | share id signerId b hop hsub => exact hsubmitted id signerId b hsub hbytes
  | aggregate id hop hid =>
      exact absurd hbytes (by simp only [packedBytes, reduceCtorEq, not_false_eq_true])

end NetworkCoordinator

namespace HexField

theorem packValue_str_eq_ok_iff (h : String) (bytes : Bytes) :
    packValue (.str h) = .ok bytes ↔ bytes = packHex h := by
  rw [packValue, Except.ok.injEq, eq_comm]

/-- Every reader takes the bytes `pack('H*')` gives. -/
theorem bytes_eq (h : String) (bytes : Bytes) (hf : HexField h bytes) : bytes = packHex h := by
  cases hf with
  | sharePublicKey codec json d sf hparse hload hfield =>
      rw [ShareFile.fromJson_eq_ok_iff codec json d sf hparse] at hload
      rcases (ShareFile.ofDocument_eq_ok_iff d sf).mp hload with
        ⟨key, _, _, _, _, _, hkey, hpack, _⟩
      rw [hfield, Except.ok.injEq] at hkey
      rw [← hkey, packValue_str_eq_ok_iff] at hpack
      exact hpack
  | share codec json d sf items i bytes hparse hload hfield hitem hshare =>
      rw [ShareFile.fromJson_eq_ok_iff codec json d sf hparse] at hload
      rcases (ShareFile.ofDocument_eq_ok_iff d sf).mp hload with
        ⟨_, shares, items', _, _, _, _, _, hshares, hitems, hall⟩
      rw [hfield, Except.ok.injEq] at hshares
      rw [← hshares, itemsOf, Except.ok.injEq] at hitems
      rw [← hitems] at hall
      rcases List.getElem?_eq_some_iff.mp hitem with ⟨hi, hget⟩
      rcases List.getElem?_eq_some_iff.mp hshare with ⟨hj, hget'⟩
      -- The shares are packed in order, so the item is where its bytes are.
      have hat := hall.get hi hj
      rw [List.get_eq_getElem, List.get_eq_getElem, hget, hget', packValue_str_eq_ok_iff] at hat
      exact hat
  | componentPublicKey codec transcoder json data sig components i component c hparse hload
      hcomponents hcomponent hinner hfield =>
      have hc := Composite.Signature.receiveComponent_of_fromJson codec transcoder json data sig
        components i component c hparse hload hcomponents hcomponent hinner
      exact (Composite.Signature.receiveComponent_binary transcoder component c hc h).1 hfield
  | componentSignature codec transcoder json data sig components i component c hparse hload
      hcomponents hcomponent hinner hfield =>
      have hc := Composite.Signature.receiveComponent_of_fromJson codec transcoder json data sig
        components i component c hparse hload hcomponents hcomponent hinner
      exact (Composite.Signature.receiveComponent_binary transcoder component c hc h).2 hfield
  | request fields r op key bytes hcall hbytes hfield =>
      have hpack := NetworkCoordinator.packValue_of_callOf fields r op key bytes (.str h) hcall
        hbytes hfield
      exact (packValue_str_eq_ok_iff h bytes).mp hpack

/-- Which accepted strings can be told from their bytes: writing the bytes again
    gives the string in lower case exactly when it was hexadecimal. -/
theorem reencode_iff (h : String) (bytes : Bytes) (hf : HexField h bytes) :
    unpackHex bytes = downcase h ↔ IsHex h := by
  rw [bytes_eq h bytes hf]
  exact unpackHex_packHex_iff h

/-- A request in upper case, read as it stands. -/
theorem upper_case_reencodes : IsHex "0A" ∧ unpackHex [0x0a] = downcase "0A" :=
  ⟨by decide, (reencode_iff "0A" [0x0a] (.request
    [("op", .str "create"), ("message_hex", .str "0A"), ("threshold", .int 2)] () _ "message_hex" _
    rfl rfl rfl)).mpr (by decide)⟩

end HexField

/-- A share file whose public key has lost its last digit and whose one share has
    been overwritten with letters. -/
def corruptShareFile : Json :=
  .obj [("scheme", .str "CMP20-ECDSA-P256"), ("threshold", .int 2), ("party_count", .int 1),
    ("public_key", .str "02a"), ("shares", .arr [.str "zz"])]

/-- It loads, with a public key and a share that nobody wrote. -/
theorem truncated_share_file_loads :
    (HexField "02a" [0x02, 0xa0] ∧ unpackHex [0x02, 0xa0] ≠ downcase "02a") ∧
      (HexField "zz" [0xbb] ∧ unpackHex [0xbb] ≠ downcase "zz") := by
  have hparse : JsonCodec.compact.parse (JsonCodec.compact.generate corruptShareFile)
      = .ok corruptShareFile := JsonCodec.compact_lawful.parse_generate corruptShareFile (by decide)
  have hload : ShareFile.fromJson JsonCodec.compact (JsonCodec.compact.generate corruptShareFile)
      = .ok ⟨.str "CMP20-ECDSA-P256", .int 2, .int 1, [0x02, 0xa0], [[0xbb]]⟩ := by
    rw [ShareFile.fromJson, hparse]
    rfl
  exact ⟨⟨.sharePublicKey JsonCodec.compact _ corruptShareFile _ hparse hload rfl, by decide⟩,
    ⟨.share JsonCodec.compact _ corruptShareFile _ [.str "zz"] 0 _ hparse hload rfl rfl rfl,
      by decide⟩⟩

end Confium
