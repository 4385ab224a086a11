import Confium.Theory.AuditTrail
import Confium.Theory.CallerVerifiers
import Confium.Theory.Transport

/-!
# Composite Signatures Verify Where They Arrive

The way of a composite signature from its signers to whoever verifies it. Each
signer makes a component with the key it has, and the components are handed
around as Hashes. Somebody builds a signature of them and writes it as JSON, the
text travels, and a signature is read from it. It may then be written and read
again, any number of times, and is verified in the end.

Everything on the way is in another module: what a signer returns, that the Hash
of a component travels, which verifier an algorithm selects. Here they meet. What
a signer returns is two binary strings and a name that is not, which is just what
travels, and the names are the two that select a verifier of the extension. So no
callback is asked, and a caller's Hash of verifiers is no part of the verdict.

## Main definitions

* `SignerCall`: A signing call of the extension.
* `componentHash`: The Hash it returns.
* `SelfVerifying`: Signers and verifiers that belong together.
* `relay`: Writing and reading again, so many times.

## Theorems

* `sign_accepted`: What a signer returns, its verifier accepts.
* `transport_componentHash`: A component that was handed out travels.
* `verifyWith_accepted`: Accepted components are verified, and no callback is
  asked.
* `signed_composite_verifies`: A signature verifies where it arrives.
-/

namespace Confium

open Ruby

namespace Composite

/-- A signing call, by its private key. -/
inductive SignerCall where
  | ed25519 (privateKey : Arg)
  | p256 (privateKey : Arg)

def SignerCall.sign (env : AuditEnv) (signing : SigningUpstream) (message : Arg) :
    SignerCall → Native ComponentSignature
  | .ed25519 privateKey => signEd25519 env signing privateKey message
  | .p256 privateKey => signP256 env signing privateKey message

/-- The Hash a signing call returns. -/
def componentHash (c : ComponentSignature) : Hash String FieldValue :=
  ⟨[("algorithm", .str (RString.ofString c.algorithm)),
    ("public_key", .str (RString.binary c.publicKey)),
    ("signature", .str (RString.binary c.signature))], by
      change ["algorithm", "public_key", "signature"].Nodup
      decide⟩

/-- A component with the name of one of the extension's own algorithms, accepted by
    the verifier of that name. -/
def Accepted (up : CompositeUpstream) (msg : Bytes) (c : ComponentSignature) : Prop :=
  (c.algorithm = "Ed25519" ∧
      up.ed25519Verifier c.algorithm c.publicKey msg c.signature = .ok ()) ∨
    (c.algorithm = "ECDSA-P256" ∧
      up.p256Verifier c.algorithm c.publicKey msg c.signature = .ok ())

/-- A component within the cap on what is converted. -/
def Fits (c : ComponentSignature) : Prop :=
  c.publicKey.length ≤ maxInputSize ∧ c.signature.length ≤ maxInputSize

/-- Signers and verifiers that belong together: what a signer makes is within the
    cap, and the verifier of its algorithm accepts it. -/
structure SelfVerifying (signing : SigningUpstream) (up : CompositeUpstream) : Prop where
  ed25519 : ∀ key msg c, signing.buildEd25519Component key msg = .ok c →
    c.algorithm = "Ed25519" ∧ Fits c ∧
      up.ed25519Verifier c.algorithm c.publicKey msg c.signature = .ok ()
  p256 : ∀ key msg signature, signing.p256TrySign key msg = .ok signature →
    Fits ⟨"ECDSA-P256", signing.p256VerifyingKey key, signature⟩ ∧
      up.p256Verifier "ECDSA-P256" (signing.p256VerifyingKey key) msg signature = .ok ()

/-- What a signer returns is accepted for the bytes of the message. -/
theorem sign_accepted (env : AuditEnv) (signing : SigningUpstream) (up : CompositeUpstream)
    (hself : SelfVerifying signing up) (message : Arg) (call : SignerCall)
    (c : ComponentSignature) (h : (call.sign env signing message).result = .ok c) :
    ∃ msg, message.bytes = .ok msg ∧ Accepted up msg c ∧ Fits c := by
  cases call with
  | ed25519 privateKey =>
      rcases (Eff.result_bind_eq_ok_iff _ _ _).mp h with ⟨⟨key, msg⟩, hargs, hsign⟩
      have hargs := (signerArgs_eq_ok_iff _ _ _ _ _).mp hargs
      rw [recorded_result, mapError_eq_ok_iff] at hsign
      rcases hself.ed25519 key msg c hsign with ⟨hname, hfits, haccept⟩
      exact ⟨msg, hargs.2.1, Or.inl ⟨hname, haccept⟩, hfits⟩
  | p256 privateKey =>
      rcases (Eff.result_bind_eq_ok_iff _ _ _).mp h with ⟨⟨key, msg⟩, hargs, hsign⟩
      rcases (Eff.result_bind_eq_ok_iff _ _ _).mp hsign with ⟨signingKey, _, hsign⟩
      rcases (Eff.result_bind_eq_ok_iff _ _ _).mp hsign with ⟨signature, htry, hreturn⟩
      have hargs := (signerArgs_eq_ok_iff _ _ _ _ _).mp hargs
      rw [recorded_result, mapError_eq_ok_iff, mapError_eq_ok_iff] at htry
      rcases hself.p256 signingKey msg signature htry with ⟨hfits, haccept⟩
      rw [← Except.ok.inj hreturn]
      exact ⟨msg, hargs.2.1, Or.inr ⟨rfl, haccept⟩, hfits⟩

section Travelling

variable (transcoder : Transcoder)

/-- A component that was handed out is taken as the same component. -/
theorem parseComponent_componentHash (c : ComponentSignature) (hfits : Fits c) :
    parseComponent transcoder (componentHash c).entries = .ok c := by
  rw [parseComponent_eq_ok_iff]
  refine ⟨_, _, _, rfl, rfl, rfl, ?_, ?_, ?_⟩
  · rw [Signature.stringFromValue_str_eq_ok_iff]
    exact toRustString_ofString transcoder c.algorithm
  · rw [Signature.bytesFromValue_str_eq_ok_iff]
    exact ⟨hfits.1, rfl⟩
  · rw [Signature.bytesFromValue_str_eq_ok_iff]
    exact ⟨hfits.2, rfl⟩

theorem transportable_componentHash (c : ComponentSignature) :
    Signature.Transportable transcoder (componentHash c).entries where
  values := by
    intro entry hentry
    simp only [componentHash, List.mem_cons, List.not_mem_nil, or_false] at hentry
    rcases hentry with rfl | rfl | rfl
    · refine ⟨_, rfl, fun _ => ?_⟩
      have htext : (RString.ofString c.algorithm).encode transcoder = some c.algorithm :=
        (decodeUtf8_eq_some_iff _ _).mpr rfl
      rw [htext]
      rfl
    · exact ⟨_, rfl, fun hb => absurd rfl hb⟩
    · exact ⟨_, rfl, fun hb => absurd rfl hb⟩
  algorithm := by
    intro s hs hb
    have hname : s = RString.ofString c.algorithm := (FieldValue.str.inj (Option.some.inj hs)).symm
    rw [hname] at hb
    cases hb
  binary := by
    intro key hkey s hs
    simp only [binaryFields, List.mem_cons, List.not_mem_nil, or_false] at hkey
    rcases hkey with rfl | rfl
    · have hkey : s = RString.binary c.publicKey := (FieldValue.str.inj (Option.some.inj hs)).symm
      rw [hkey]
      exact trivial
    · have hsig : s = RString.binary c.signature := (FieldValue.str.inj (Option.some.inj hs)).symm
      rw [hsig]
      exact trivial

/-- A component that was handed out travels. -/
theorem transport_componentHash (c : ComponentSignature) (hfits : Fits c) :
    Signature.transport transcoder (componentHash c).entries = .ok c :=
  (Signature.transport_eq_iff transcoder _ c (parseComponent_componentHash transcoder c hfits)).mpr
    (transportable_componentHash transcoder c)

/-- Components that were handed out make a signature. -/
theorem new_componentHash (cs : List ComponentSignature) (hfits : ∀ c ∈ cs, Fits c) :
    Signature.new transcoder ((cs.map componentHash).map Hash.entries)
      = .ok ⟨cs, some ((cs.map componentHash).map Hash.entries), none⟩ := by
  rw [Signature.new_eq_ok_iff]
  refine ⟨?_, rfl, rfl⟩
  rw [mapM_eq_ok_iff, List.forall₂_map_left_iff, List.forall₂_map_left_iff, List.forall₂_same]
  exact fun c hc => parseComponent_componentHash transcoder c (hfits c hc)

end Travelling

section Relaying

variable (codec : JsonCodec) (transcoder : Transcoder)

/-- Reading a signature and writing it again, so many times. -/
def relay : Nat → Text → Except CompositeExn Text
  | 0, text => .ok text
  | n + 1, text => do
    let sig ← Signature.fromJson codec transcoder text
    let text ← Signature.toJson codec transcoder sig
    relay n text

/-- What is read is written as it was. -/
theorem relay_eq (n : Nat) (text : Text) (sig : Signature)
    (h : Signature.fromJson codec transcoder text = .ok sig) :
    relay codec transcoder n text = .ok text := by
  have hwrite : Signature.toJson codec transcoder sig = .ok text := by
    rw [Signature.fromJson] at h
    cases hparse : codec.parse text with
    | error e => rw [hparse] at h; cases h
    | ok data =>
        rw [hparse] at h
        rcases (Signature.ofDocument_eq_ok_iff transcoder text data sig).mp h with
          ⟨_, _, _, _, hcached⟩
        rw [Signature.toJson, hcached]
  induction n with
  | zero => rfl
  | succ n ih =>
      rw [relay, h]
      change (Signature.toJson codec transcoder sig >>= relay codec transcoder n) = _
      rw [hwrite]
      exact ih

end Relaying

section Verifying

variable {transcoder : Transcoder} {σ : Type} (up : CompositeUpstream)

/-- The verifier an algorithm of the extension selects, with no callback asked. -/
theorem callStep_accepted (hup : up.Lawful) (callers : List (String × Callback σ)) (msg : Bytes)
    (c : ComponentSignature) (h : Accepted up msg c) (s : σ) :
    callStep (selectVerifier up callers) msg s c = (.ok (), s) := by
  rw [callStep, selectVerifier, hup.ed25519_eq, hup.ecdsaP256_eq]
  rcases h with ⟨hname, haccept⟩ | ⟨hname, haccept⟩
  · rw [if_pos hname, haccept]
  · rw [if_neg (by rw [hname]; decide), if_pos (Or.inl hname), haccept]

/-- Accepted components are verified, all of them, and no callback is asked. -/
theorem verifyWith_accepted (hup : up.Lawful) (components : List ComponentSignature)
    (hne : components ≠ []) (message : Arg) (msg : Bytes) (hmsg : message.bytes = .ok msg)
    (h : ∀ c ∈ components, Accepted up msg c) (verifiers : Option (VerifierMap transcoder σ))
    (s : σ) :
    ∃ result, verifyWith up transcoder components message
        (verifiers.map VerifierMap.entries) s = (.ok result, s) ∧ result.allVerified = true := by
  have hread : ∃ callers,
      insertCallers transcoder [] ((verifiers.map VerifierMap.entries).getD []) = .ok callers := by
    cases verifiers with
    | none => exact ⟨[], rfl⟩
    | some map =>
        rcases insertCallers_entries map with ⟨callers, hcallers, _⟩
        exact ⟨callers, hcallers⟩
  rcases hread with ⟨callers, hread⟩
  rcases hup.verify_eq σ components msg (selectVerifier up callers) s hne with
    ⟨result, hverify, hall⟩
  have hkept : Machine.run (callStep (selectVerifier up callers) msg) s components = s :=
    Machine.run_induct_of_mem _ (fun s' => s' = s) s components rfl (fun s' c hc hs' => by
      rw [callStep_accepted up hup callers msg c (h c hc) s']
      exact hs')
  refine ⟨result, ?_, ?_⟩
  · simp only [verifyWith, hmsg, hread, hverify, hkept]
  · rw [hall, List.all_eq_true, Machine.forall_trace_iff]
    intro pre c post hcomponents
    have hc : c ∈ components := by
      rw [hcomponents]
      exact List.mem_append_right _ List.mem_cons_self
    change (callStep (selectVerifier up callers) msg _ c).1.isOk = true
    rw [callStep_accepted up hup callers msg c (h c hc)]
    rfl

end Verifying

/-- A composite signature verifies where it arrives. Let any signers make a
    component each, for one message. The Hashes they return make a signature, the
    signature is written, and however often the text is read and written on its
    way, what is read at the end has the components that were made. Verifying it
    against the message succeeds, with every component verified, whatever verifiers
    the caller brings, and none of those is asked. -/
theorem signed_composite_verifies (codec : JsonCodec) (hcodec : codec.Lawful)
    (transcoder : Transcoder) (env : AuditEnv) (signing : SigningUpstream)
    (up : CompositeUpstream) (hup : up.Lawful) (hself : SelfVerifying signing up) (message : Arg)
    (calls : List SignerCall) (hne : calls ≠ []) (cs : List ComponentSignature)
    (hsigned : List.Forall₂ (fun call c => (SignerCall.sign env signing message call).result
      = .ok c) calls cs) :
    ∃ sig text, Signature.new transcoder ((cs.map componentHash).map Hash.entries) = .ok sig ∧
      Signature.toJson codec transcoder sig = .ok text ∧
      ∀ n, ∃ arrived received, relay codec transcoder n text = .ok arrived ∧
        Signature.fromJson codec transcoder arrived = .ok received ∧ received.inner = cs ∧
        ∀ (σ : Type) (verifiers : Option (VerifierMap transcoder σ)) (s : σ), ∃ result,
          verifyWith up transcoder received.inner message (verifiers.map VerifierMap.entries) s
            = (.ok result, s) ∧ result.allVerified = true := by
  have hcs : cs ≠ [] := by
    intro h
    rw [h] at hsigned
    exact hne (List.forall₂_nil_right_iff.mp hsigned)
  have hmade : ∀ c ∈ cs, ∃ msg, message.bytes = .ok msg ∧ Accepted up msg c ∧ Fits c := by
    intro c hc
    rcases List.mem_iff_get.mp hc with ⟨i, rfl⟩
    exact sign_accepted env signing up hself message _ _
      (hsigned.get (by rw [hsigned.length_eq]; exact i.isLt) i.isLt)
  -- One message was signed, so what it converts to is the same for all of them.
  rcases hmade _ (List.head_mem hcs) with ⟨msg, hmsg, _⟩
  have haccepted : ∀ c ∈ cs, Accepted up msg c := by
    intro c hc
    rcases hmade c hc with ⟨msg', hmsg', haccept, _⟩
    rw [hmsg] at hmsg'
    rw [Except.ok.inj hmsg']
    exact haccept
  have hfits : ∀ c ∈ cs, Fits c := by
    intro c hc
    rcases hmade c hc with ⟨_, _, _, hfits⟩
    exact hfits
  have hnew := new_componentHash transcoder cs hfits
  have htravel : Signature.RoundTrips codec transcoder
      ⟨cs, some ((cs.map componentHash).map Hash.entries), none⟩ := by
    rw [Signature.round_trips_iff_transport codec hcodec transcoder (cs.map componentHash)
      (fun h => hcs (List.map_eq_nil_iff.mp h)) _ hnew]
    rw [mapM_eq_ok_iff, List.forall₂_map_left_iff, List.forall₂_map_left_iff, List.forall₂_same]
    exact fun c hc => transport_componentHash transcoder c (hfits c hc)
  rcases htravel with ⟨text, received, hwrite, hread, hinner⟩
  refine ⟨_, text, hnew, hwrite, fun n => ?_⟩
  refine ⟨text, received, relay_eq codec transcoder n text received hread, hread, hinner, ?_⟩
  intro σ verifiers s
  rw [hinner]
  exact verifyWith_accepted up hup cs hcs message msg hmsg haccepted verifiers s

/-- The public keys and signatures of the signers below, of the sizes they have. -/
def stampEd25519 : ComponentSignature :=
  ⟨"Ed25519", List.replicate 32 2, List.replicate 64 1⟩

def stampP256 : ComponentSignature :=
  ⟨"ECDSA-P256", 4 :: List.replicate 64 2, List.replicate 70 1⟩

/-- Signers with one public key and one signature. -/
def stampSigning : SigningUpstream where
  ed25519 := "Ed25519"
  ecdsaP256 := "ECDSA-P256"
  P256SigningKey := Unit
  buildEd25519Component := fun _ _ => .ok stampEd25519
  p256FromBytes := fun _ => .ok ()
  p256TrySign := fun _ _ => .ok stampP256.signature
  p256VerifyingKey := fun _ => stampP256.publicKey
  ed25519Verifier := fun _ _ _ _ => .error ""
  p256Verifier := fun _ _ _ _ => .error ""
  CompositeVerdict := Unit
  verifyComposite := fun _ _ _ => .ok ()
  CmsVerdict := Unit
  verifySignedData := fun _ _ _ => .ok ()
  keystoreSign := fun _ _ _ _ _ => .ok []

/-- The verifier that knows one component. -/
def stampVerifier (c : ComponentSignature) (_ : String) (publicKey _ signature : Bytes) :
    Except String Unit :=
  if publicKey = c.publicKey ∧ signature = c.signature then .ok ()
  else .error "signature mismatch"

theorem stampVerifier_self (c : ComponentSignature) (name : String) (msg : Bytes) :
    stampVerifier c name c.publicKey msg c.signature = .ok () :=
  if_pos ⟨rfl, rfl⟩

def stampUpstream : CompositeUpstream :=
  { strictUpstream with
    ed25519Verifier := stampVerifier stampEd25519, p256Verifier := stampVerifier stampP256 }

theorem stampUpstream_lawful : stampUpstream.Lawful :=
  ⟨rfl, rfl, strictUpstream_lawful.verify_eq⟩

theorem selfVerifying_stamp : SelfVerifying stampSigning stampUpstream where
  ed25519 := by
    intro key msg c h
    rw [← Except.ok.inj h]
    exact ⟨rfl, ⟨by decide, by decide⟩, stampVerifier_self stampEd25519 "Ed25519" msg⟩
  p256 := by
    intro key msg signature h
    rw [← Except.ok.inj h]
    exact ⟨⟨show 65 ≤ maxInputSize by decide, show 70 ≤ maxInputSize by decide⟩,
      stampVerifier_self stampP256 "ECDSA-P256" msg⟩

/-- A signer of either kind, the text read and written twice, and a caller with a
    verifier under the name of a built-in algorithm. -/
theorem signed_composite_verifies_twice_relayed :
    ∃ (received : Signature) (result : VerificationResult),
      received.inner = [stampEd25519, stampP256] ∧
        verifyWith stampUpstream (fun _ _ => none) received.inner
            (.str (RString.binary [104, 105])) (some shadowing.entries) 0 = (.ok result, 0) ∧
        result.allVerified = true := by
  have h := signed_composite_verifies JsonCodec.compact JsonCodec.compact_lawful (fun _ _ => none)
    { enabled := false, now := "", sha256Hex := fun _ => "" } stampSigning stampUpstream
    stampUpstream_lawful selfVerifying_stamp (.str (RString.binary [104, 105]))
    [.ed25519 (.str (RString.binary (List.replicate 32 7))),
      .p256 (.str (RString.binary (List.replicate 32 7)))] (List.cons_ne_nil _ _)
    [stampEd25519, stampP256]
    (List.Forall₂.cons rfl (List.Forall₂.cons rfl List.Forall₂.nil))
  rcases h with ⟨_, _, _, _, hrelay⟩
  rcases hrelay 2 with ⟨_, received, _, _, hinner, hverify⟩
  rcases hverify Nat (some shadowing) 0 with ⟨result, hresult, hall⟩
  exact ⟨received, result, hinner, hresult, hall⟩

end Composite

end Confium
