import Confium.Core.Signing
import Confium.Core.Threshold

/-!
# What the Audit Sink Sees

The extension is said to fire an event on every signing, verification and
encryption. Eleven operations are meant, and `CryptoCall` is a call of one of
them with everything it is given. A call is audited when the sink receives one
record of it, saying how it went.

An event is fired by hand, in each entry point that has one, around the upstream
call. So what is proved comes from two facts about sequences. A part that leaves
no record decides nothing but whether the rest is reached, and a part that is
recorded leaves one. Walking an entry point with these gives the arguments that
get as far as the upstream call of a signer, which is exactly what the sink is
told about.

Whether upstream then signs or fails makes no difference, since both are recorded.
Whether it panics does: the event is fired after the call, and a panic does not get
that far.

## Main definitions

* `Host`: What the extension runs against.
* `CryptoCall`, `CryptoCall.run`: A call, and making it.
* `AuditedOnce`: One record, with the word for how the call went.
* `Signable`, `Collectable`: Arguments that reach the upstream signer, which does not
  panic on them.
* `CryptoCall.Recorded`: The calls that do.

## Theorems

* `auditedOnce_bind`: A part that leaves no record.
* `audited_iff_recorded`: The calls that leave one record are those of the five
  signers that reach the upstream call and come back from it.
-/

namespace Confium

open Ruby

/-- What the extension runs against. -/
structure Host where
  audit : AuditEnv
  signing : SigningUpstream
  threshold : TC.ThresholdUpstream
  verifiers : Cms.Verifiers
  transcoder : Transcoder

/-- A call of a signing, verification or encryption operation. -/
inductive CryptoCall where
  | signEd25519 (privateKey message : Arg)
  | signP256 (privateKey message : Arg)
  | verify (sig : Composite.Signature) (message verifiers : Arg)
  | frostSign (privateKey message : Arg)
  | cmp20Sign (shares threshold message : Arg)
  | gg18Sign (shares threshold message : Arg)
  | keystoreSign (keyId algorithm message : Arg)
  | encapsulate (publicKey : Arg)
  | partialDecrypt (partyIndex share ciphertext : Arg)
  | aggregatePartials (partials threshold ciphertext : Arg)
  | verifySignatures (sd : Cms.SignedData) (payload : Arg)

/-- Making a call. -/
def CryptoCall.run (host : Host) : CryptoCall → Native Unit
  | .signEd25519 privateKey message =>
    (Composite.signEd25519 host.audit host.signing privateKey message).void
  | .signP256 privateKey message =>
    (Composite.signP256 host.audit host.signing privateKey message).void
  | .verify sig message verifiers =>
    (sig.verify host.signing host.transcoder message verifiers).void
  | .frostSign privateKey message =>
    (TC.FrostP256.sign host.audit host.threshold privateKey message).void
  | .cmp20Sign shares threshold message =>
    (TC.cmp20Sign host.audit host.threshold shares threshold message).void
  | .gg18Sign shares threshold message =>
    (TC.gg18Sign host.audit host.threshold shares threshold message).void
  | .keystoreSign keyId algorithm message =>
    (Keystore.sign host.signing host.transcoder keyId algorithm message).void
  | .encapsulate publicKey => (TC.ElGamalP256.encapsulate host.threshold publicKey).void
  | .partialDecrypt partyIndex share ciphertext =>
    (TC.ElGamalP256.partialDecrypt host.threshold partyIndex share ciphertext).void
  | .aggregatePartials partials threshold ciphertext =>
    (TC.ElGamalP256.aggregate host.threshold partials threshold ciphertext).void
  | .verifySignatures sd payload =>
    (sd.verifySignatures host.signing host.verifiers payload).void

variable {α β : Type}

/-- The sink received one record, with the word for how the call went. -/
def AuditedOnce (x : Native α) : Prop :=
  ∃ record, records x.log = [record] ∧ record.result = resultWord x.result

/-- Arguments a component signer passes on: two byte strings, the first a key that
    is good for the second. -/
def Signable (good : Bytes → Bytes → Prop) (privateKey message : Arg) : Prop :=
  ∃ key msg, privateKey.bytes = .ok key ∧ message.bytes = .ok msg ∧ key.length = 32 ∧ good key msg

/-- Arguments an in-process signer passes on: byte strings, a threshold and a
    message it does not panic on. -/
def Collectable (sign : List Bytes → Nat → Bytes → Except Failure Bytes)
    (shares threshold message : Arg) : Prop :=
  ∃ items bytes n msg, threshold.unsigned 32 = .ok n ∧ shares = .arr items ∧
    List.Forall₂ (fun item share => item.bytes = .ok share) items bytes ∧
    message.bytes = .ok msg ∧ ¬ Panics (sign bytes n msg)

/-- The calls that reach the upstream call of a signer, and come back from it. -/
def CryptoCall.Recorded (host : Host) : CryptoCall → Prop
  | .signEd25519 privateKey message =>
    Signable (fun key msg => ¬ Panics (host.signing.buildEd25519Component key msg)) privateKey
      message
  | .signP256 privateKey message =>
    Signable (fun key msg => ∃ signing, host.signing.p256FromBytes key = .ok signing ∧
      ¬ Panics (host.signing.p256TrySign signing msg)) privateKey message
  | .frostSign privateKey message =>
    Signable (fun key msg => ∃ secret, host.threshold.scalarFromBytes key = some secret ∧
      ¬ Panics (host.threshold.signMessage secret msg)) privateKey message
  | .cmp20Sign shares threshold message =>
    Collectable host.threshold.cmp20Sign shares threshold message
  | .gg18Sign shares threshold message =>
    Collectable host.threshold.gg18Sign shares threshold message
  | .verify _ _ _ => False
  | .keystoreSign _ _ _ => False
  | .encapsulate _ => False
  | .partialDecrypt _ _ _ => False
  | .aggregatePartials _ _ _ => False
  | .verifySignatures _ _ => False

-- Dropping the value keeps the log and whether the call returned, which is all
-- the sink is told.
theorem auditedOnce_void_iff (x : Native α) : AuditedOnce x.void ↔ AuditedOnce x := by
  have hword : resultWord x.void.result = resultWord x.result := by
    unfold Eff.void
    cases x.result with
    | error e => rfl
    | ok a => rfl
  unfold AuditedOnce
  rw [hword]
  rfl

theorem not_auditedOnce (x : Native α) (h : records x.log = []) : ¬ AuditedOnce x := by
  intro haudited
  rcases haudited with ⟨record, hrecord, _⟩
  rw [h] at hrecord
  exact absurd hrecord (List.cons_ne_nil record []).symm

/-- A part that leaves no record decides nothing but whether the rest is
    reached. -/
theorem auditedOnce_bind (x : Native α) (f : α → Native β) (h : records x.log = []) :
    AuditedOnce (x >>= f) ↔ ∃ a, x.result = .ok a ∧ AuditedOnce (f a) := by
  cases hx : x.result with
  | error e =>
      simp only [reduceCtorEq, false_and, exists_false, iff_false]
      -- Cut off before the rest, so nothing was recorded at all.
      apply not_auditedOnce
      rw [Eff.log_bind_error x f e hx, h]
  | ok a =>
      simp only [Except.ok.injEq, exists_eq_left']
      unfold AuditedOnce
      rw [Eff.log_bind_ok x f a hx, Eff.result_bind_ok x f a hx, records_append, h,
        List.nil_append]

/-- Nor does what is made of the value afterwards. -/
theorem auditedOnce_bind_pure (x : Native α) (f : α → β) :
    AuditedOnce (x >>= fun a => pure (f a)) ↔ AuditedOnce x := by
  -- An exception cuts the rest off, which would have added nothing anyway.
  unfold AuditedOnce
  cases hx : x.result with
  | error e =>
      rw [Eff.log_bind_error x _ e hx, Eff.result_bind_error x _ e hx]
      rfl
  | ok a =>
      rw [Eff.log_bind_ok x _ a hx, Eff.result_bind_ok x _ a hx, Eff.log_pure, List.append_nil]
      rfl

theorem records_bind_nil (x : Native α) (f : α → Native β) (hx : records x.log = [])
    (hf : ∀ a, records (f a).log = []) : records (x >>= f).log = [] := by
  cases hcase : x.result with
  | error e => rw [Eff.log_bind_error x f e hcase, hx]
  | ok a => rw [Eff.log_bind_ok x f a hcase, records_append, hx, hf a, List.nil_append]

/-- Arguments and an upstream call with no event: nothing for the sink. -/
theorem delegated_not_audited {γ ε : Type} (args : Except NativeError γ) (routine : String)
    (failure : ε → NativeError) (call : γ → Except ε α) :
    ¬ AuditedOnce (Eff.ofExcept args >>= fun a => delegated routine failure (call a)).void := by
  rw [auditedOnce_void_iff]
  exact not_auditedOnce _ (records_bind_nil _ _ rfl (fun a => records_delegated _ _ _))

theorem lengthArg_eq_ok_iff (label : String) (bytes : Bytes) :
    lengthArg label bytes = .ok () ↔ bytes.length = 32 := by
  unfold lengthArg
  by_cases h : bytes.length = 32
  · simp only [h, if_true]
  · simp only [h, if_false, reduceCtorEq]

theorem signerArgs_eq_ok_iff (label : String) (privateKey message : Arg) (key msg : Bytes) :
    signerArgs label privateKey message = .ok (key, msg) ↔
      privateKey.bytes = .ok key ∧ message.bytes = .ok msg ∧ key.length = 32 := by
  simp only [signerArgs, bind_eq_ok_iff, pure, Except.pure, Except.ok.injEq,
    Prod.mk.injEq]
  constructor
  · rintro ⟨key', hkey, msg', hmsg, _, hlen, rfl, rfl⟩
    exact ⟨hkey, hmsg, (lengthArg_eq_ok_iff label _).mp hlen⟩
  · rintro ⟨hkey, hmsg, hlen⟩
    exact ⟨key, hkey, msg, hmsg, (), (lengthArg_eq_ok_iff label key).mpr hlen, rfl, rfl⟩

/-- A signer on a key and a message, when what comes after its arguments is
    recorded for the keys upstream takes. -/
theorem auditedOnce_signer_iff (label : String) (good : Bytes → Bytes → Prop)
    (f : Bytes × Bytes → Native α) (hf : ∀ key msg, AuditedOnce (f (key, msg)) ↔ good key msg)
    (privateKey message : Arg) :
    AuditedOnce (Eff.ofExcept (signerArgs label privateKey message) >>= f) ↔
      Signable good privateKey message := by
  rw [auditedOnce_bind _ _ rfl]
  constructor
  · rintro ⟨⟨key, msg⟩, hargs, haudited⟩
    rcases (signerArgs_eq_ok_iff label privateKey message key msg).mp hargs with ⟨hkey, hmsg, hlen⟩
    exact ⟨key, msg, hkey, hmsg, hlen, (hf key msg).mp haudited⟩
  · rintro ⟨key, msg, hkey, hmsg, hlen, hgood⟩
    exact ⟨(key, msg), (signerArgs_eq_ok_iff label privateKey message key msg).mpr
      ⟨hkey, hmsg, hlen⟩, (hf key msg).mpr hgood⟩

-- Only an Array has elements: `to_ary` is not modelled for anything else.
theorem items_eq_ok_iff (a : Arg) (items : List Arg) : a.items = .ok items ↔ a = .arr items := by
  cases a with
  | arr l => simp only [Arg.items, Except.ok.injEq, Arg.arr.injEq]
  | _ => simp only [Arg.items, reduceCtorEq]

/-- What an in-process signer reads is there when each part of it is. -/
theorem inprocessArgs_eq_ok_iff (shares threshold message : Arg) (bytes : List Bytes) (n : Nat)
    (msg : Bytes) :
    TC.inprocessArgs shares threshold message = .ok (bytes, n, msg) ↔
      ∃ items, threshold.unsigned 32 = .ok n ∧ shares = .arr items ∧
        List.Forall₂ (fun item share => item.bytes = .ok share) items bytes ∧
        message.bytes = .ok msg := by
  simp only [TC.inprocessArgs, bind_eq_ok_iff, items_eq_ok_iff, mapM_eq_ok_iff, pure, Except.pure,
    Except.ok.injEq, Prod.mk.injEq]
  constructor
  · rintro ⟨n', hn, items, hitems, bytes', hbytes, msg', hmsg, rfl, rfl, rfl⟩
    exact ⟨items, hn, hitems, hbytes, hmsg⟩
  · rintro ⟨items, hn, hitems, hbytes, hmsg⟩
    exact ⟨n, hn, items, hitems, bytes, hbytes, msg, hmsg, rfl, rfl, rfl⟩

theorem okOr_eq_ok_iff (message : String) (x : Option α) (a : α) :
    TC.okOr message x = .ok a ↔ x = some a := by
  cases x with
  | none => simp only [TC.okOr, reduceCtorEq]
  | some b => simp only [TC.okOr, Except.ok.injEq, Option.some.injEq]

section Signers

variable (env : AuditEnv) (henv : env.enabled = true)

include henv

theorem auditedOnce_recorded_iff (routine operation algorithm : String) (payload : Option Bytes)
    (failure : String → NativeError) (x : Except Failure α) :
    AuditedOnce (recorded env routine operation algorithm payload failure x) ↔ ¬ Panics x := by
  constructor
  · intro haudited hpanics
    exact not_auditedOnce _ (records_recorded_of_panic env routine operation algorithm payload
      failure x hpanics) haudited
  · exact records_recorded env routine operation algorithm payload failure x henv

/-- Ed25519 takes every key of the right length. -/
theorem signEd25519_auditedOnce_iff (up : SigningUpstream) (privateKey message : Arg) :
    AuditedOnce (Composite.signEd25519 env up privateKey message) ↔
      Signable (fun key msg => ¬ Panics (up.buildEd25519Component key msg)) privateKey
        message := by
  unfold Composite.signEd25519
  refine auditedOnce_signer_iff _ _ _ ?_ privateKey message
  intro key msg
  exact auditedOnce_recorded_iff env henv _ _ _ _ _ _

/-- P-256 has upstream look at the key first, without a record. -/
theorem signP256_auditedOnce_iff (up : SigningUpstream) (privateKey message : Arg) :
    AuditedOnce (Composite.signP256 env up privateKey message) ↔
      Signable (fun key msg => ∃ signing, up.p256FromBytes key = .ok signing ∧
        ¬ Panics (up.p256TrySign signing msg)) privateKey message := by
  unfold Composite.signP256
  refine auditedOnce_signer_iff _ _ _ ?_ privateKey message
  intro key msg
  -- `SigningKey::from_bytes` is an upstream call without an event.
  rw [auditedOnce_bind _ _ (records_delegated _ _ _)]
  refine exists_congr fun signing => and_congr (mapError_eq_ok_iff _ _ _) ?_
  rw [auditedOnce_bind_pure, auditedOnce_recorded_iff env henv, panics_labelled_iff]

theorem frostSign_auditedOnce_iff (up : TC.ThresholdUpstream) (privateKey message : Arg) :
    AuditedOnce (TC.FrostP256.sign env up privateKey message) ↔
      Signable (fun key msg => ∃ secret, up.scalarFromBytes key = some secret ∧
        ¬ Panics (up.signMessage secret msg)) privateKey message := by
  unfold TC.FrostP256.sign TC.scalarFromBytes
  refine auditedOnce_signer_iff _ _ _ ?_ privateKey message
  intro key msg
  -- So is `scalar_from_bytes`.
  rw [auditedOnce_bind _ _ (records_delegated _ _ _)]
  exact exists_congr fun secret => and_congr
    ((mapError_eq_ok_iff _ _ _).trans (okOr_eq_ok_iff _ _ _))
    (auditedOnce_recorded_iff env henv _ _ _ _ _ _)

theorem inprocessSign_auditedOnce_iff (routine operation algorithm caller : String)
    (sign : List Bytes → Nat → Bytes → Except Failure Bytes) (shares threshold message : Arg) :
    AuditedOnce
        (TC.inprocessSign env routine operation algorithm caller sign shares threshold message) ↔
      Collectable sign shares threshold message := by
  unfold TC.inprocessSign
  -- Nothing stands between the arguments and the recorded call.
  rw [auditedOnce_bind _ _ rfl]
  constructor
  · rintro ⟨⟨bytes, n, msg⟩, hargs, haudited⟩
    rcases (inprocessArgs_eq_ok_iff shares threshold message bytes n msg).mp hargs with
      ⟨items, hn, hitems, hbytes, hmsg⟩
    exact ⟨items, bytes, n, msg, hn, hitems, hbytes, hmsg,
      (auditedOnce_recorded_iff env henv _ _ _ _ _ _).mp haudited⟩
  · rintro ⟨items, bytes, n, msg, hn, hitems, hbytes, hmsg, hcalm⟩
    exact ⟨(bytes, n, msg), (inprocessArgs_eq_ok_iff shares threshold message bytes n msg).mpr
      ⟨items, hn, hitems, hbytes, hmsg⟩, (auditedOnce_recorded_iff env henv _ _ _ _ _ _).mpr hcalm⟩

end Signers

/-- With a sink set, the calls that leave one record with the word for how they
    went are those of the five signers whose arguments reach the upstream
    signing call, which does not panic on them, and no call of the other six
    operations is among them. -/
theorem audited_iff_recorded (host : Host) (call : CryptoCall) (h : host.audit.enabled = true) :
    AuditedOnce (call.run host) ↔ call.Recorded host := by
  cases call with
  | signEd25519 privateKey message =>
      exact (auditedOnce_void_iff _).trans (signEd25519_auditedOnce_iff host.audit h _ _ _)
  | signP256 privateKey message =>
      exact (auditedOnce_void_iff _).trans (signP256_auditedOnce_iff host.audit h _ _ _)
  | frostSign privateKey message =>
      exact (auditedOnce_void_iff _).trans (frostSign_auditedOnce_iff host.audit h _ _ _)
  | cmp20Sign shares threshold message =>
      exact (auditedOnce_void_iff _).trans
        (inprocessSign_auditedOnce_iff host.audit h _ _ _ _ _ _ _ _)
  | gg18Sign shares threshold message =>
      exact (auditedOnce_void_iff _).trans
        (inprocessSign_auditedOnce_iff host.audit h _ _ _ _ _ _ _ _)
  -- The rest call upstream without an event.
  | verify sig message verifiers => exact iff_of_false (delegated_not_audited _ _ _ _) id
  | keystoreSign keyId algorithm message => exact iff_of_false (delegated_not_audited _ _ _ _) id
  | encapsulate publicKey => exact iff_of_false (delegated_not_audited _ _ _ _) id
  | partialDecrypt partyIndex share ciphertext =>
      exact iff_of_false (delegated_not_audited _ _ _ _) id
  | aggregatePartials partials threshold ciphertext =>
      exact iff_of_false (delegated_not_audited _ _ _ _) id
  | verifySignatures sd payload => exact iff_of_false (delegated_not_audited _ _ _ _) id

/-- An upstream where every call succeeds. -/
def agreeableSigning : SigningUpstream :=
  { ed25519 := "Ed25519",
    ecdsaP256 := "ECDSA-P256",
    P256SigningKey := Bytes,
    buildEd25519Component := fun key msg => .ok ⟨"Ed25519", key, msg⟩,
    p256FromBytes := fun key => .ok key,
    p256TrySign := fun _ msg => .ok msg,
    p256VerifyingKey := fun key => key,
    ed25519Verifier := fun _ _ _ _ => .ok (),
    p256Verifier := fun _ _ _ _ => .ok (),
    CompositeVerdict := Unit,
    verifyComposite := fun _ _ _ => .ok (),
    CmsVerdict := Unit,
    verifySignedData := fun _ _ _ => .ok (),
    keystoreSign := fun _ _ _ _ msg => .ok msg }

def agreeableThreshold : TC.ThresholdUpstream :=
  { Scalar := Bytes,
    scalarFromBytes := fun bytes => some bytes,
    splitSecret := fun secret _ _ => [(1, secret)],
    recoverSecret := fun _ => .ok [],
    signMessage := fun _ msg => .ok (msg, msg),
    encapsulate := fun key => .ok (⟨key, key⟩, key),
    partialDecrypt := fun index share _ => .ok ⟨index, share⟩,
    aggregatePartials := fun _ _ _ => .ok [],
    cmp20Sign := fun _ _ msg => .ok msg,
    gg18Sign := fun _ _ msg => .ok msg,
    Session := Unit,
    createSession := fun _ => .ok (),
    roundStep := fun session _ => (.ok ([], true), session) }

/-- A host with a sink set. -/
def auditedHost : Host :=
  { audit := { enabled := true, now := "2026-07-30T22:00:00Z", sha256Hex := fun _ => "00" },
    signing := agreeableSigning,
    threshold := agreeableThreshold,
    verifiers :=
      { VerifyingKey := Unit,
        EcdsaSignature := Unit,
        ed25519Verifier := fun _ _ _ _ => .ok (),
        fromSec1Bytes := fun _ => .ok (),
        fromDer := fun _ => .ok (),
        verify := fun _ _ _ => .ok () },
    transcoder := fun _ _ => none }

def sampleKey : Arg := .str (RString.binary (List.replicate 32 7))

def sampleMessage : Arg := .str (RString.ofString "m")

/-- Signing with a key of thirty-two bytes is audited. -/
theorem signed_call_audited :
    auditedHost.audit.enabled = true ∧
      AuditedOnce (CryptoCall.run auditedHost (.signEd25519 sampleKey sampleMessage)) :=
  ⟨rfl, (audited_iff_recorded auditedHost (.signEd25519 sampleKey sampleMessage) rfl).mpr
    ⟨List.replicate 32 7, utf8 "m", by decide +kernel, by decide +kernel, rfl, by decide⟩⟩

/-- A host whose in-process signer panics on an empty list of shares. -/
def panickyHost : Host :=
  { auditedHost with
    threshold :=
      { agreeableThreshold with
        cmp20Sign := fun shares _ msg =>
          if shares = [] then .error (.panic "panic") else .ok msg } }

/-- With a sink set, a signature that verifies, a key that is encapsulated to
    and a keystore that signs leave no record, nor does a key of thirty-one
    bytes that is refused, nor a signer that panics. -/
theorem calls_without_a_record :
    auditedHost.audit.enabled = true ∧ panickyHost.audit.enabled = true ∧
      (CryptoCall.run auditedHost (.verify ⟨[], none, none⟩ sampleMessage .nil)).result = .ok () ∧
      ¬ AuditedOnce (CryptoCall.run auditedHost (.verify ⟨[], none, none⟩ sampleMessage .nil)) ∧
      ¬ AuditedOnce (CryptoCall.run auditedHost (.encapsulate sampleKey)) ∧
      ¬ AuditedOnce
          (CryptoCall.run auditedHost (.keystoreSign sampleMessage sampleMessage sampleMessage)) ∧
      ¬ AuditedOnce (CryptoCall.run auditedHost
          (.signEd25519 (.str (RString.binary (List.replicate 31 7))) sampleMessage)) ∧
      ¬ AuditedOnce (CryptoCall.run panickyHost (.cmp20Sign (.arr []) (.int 0) sampleMessage)) := by
  refine ⟨rfl, rfl, by decide +kernel, ?_, ?_, ?_, ?_, ?_⟩
  all_goals
    apply not_auditedOnce
    decide +kernel

end Confium
