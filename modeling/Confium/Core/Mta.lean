import Confium.Lib.Radix
import Confium.Core.Audit

/-!
# The Proved MtA Exchange

Multiplicative-to-additive conversion between two signers, split into three
passes so that the two can be different processes. The initiator encrypts its
nonce and sends message 1; the responder answers with message 2 and keeps its
additive share `beta`; the initiator decrypts the answer to its own share
`alpha`. A party that holds the initiator's keypair may also run the exchange by
itself. The arithmetic and its proofs are upstream's and so a parameter. What is
here is the codec: keys, proofs and messages are Hashes whose values are
hexadecimal integers, so that a round can be put on a transport as JSON.

A codec is a list of keys in a fixed order, read and written one by one. Reading
fails with an `ArgumentError` that names the field, for a missing one, one that
is no String or Hash, and one that is no hexadecimal integer.

Message 2 as upstream builds it has a `beta` of its own beside the ciphertext
and the proof, and the codec writes all three.

## Main definitions

* `PaillierPublicKey`, `PaillierPrivateKey`, `PaillierKeypair`, `CommitmentKey`,
  `RangeProof`, `RespondentProof`, `ProvedMessage1`, `ProvedMessage2`: Keys and
  messages.
* `publicFromHash`, `privateFromHash`, `commitmentKeyFromHash`,
  `respondentProofFromHash`, `msg1FromHash`, `msg2FromHash`: Reading them.
* `publicToHash`, `keypairToHash`, `commitmentKeyToHash`, `msg1ToHash`,
  `msg2ToHash`: Writing them.
* `MtaUpstream`, `MtaKeyholder`: The upstream passes and key generation.
* `reading`: Reading the arguments of a pass.
* `generateKeypair`, `generateCommitmentKey`: Making keys.
* `partyIInit`, `partyJRespond`, `partyIFinish`: The three passes.
* `full`: The exchange in one process.

## Theorems

* `msg2FromHash_msg2ToHash`: Message 2 is read back as it was written.
* `partyJRespond_result`: What the responder's pass returns.
-/

namespace Confium

open Ruby

namespace Mta

structure PaillierPublicKey where
  n : Nat
  nSquared : Nat
  g : Nat
  deriving DecidableEq

structure PaillierPrivateKey where
  lambda : Nat
  mu : Nat
  deriving DecidableEq

structure PaillierKeypair where
  publicKey : PaillierPublicKey
  privateKey : PaillierPrivateKey
  deriving DecidableEq

structure CommitmentKey where
  nTilde : Nat
  h1 : Nat
  h2 : Nat
  deriving DecidableEq

structure RangeProof where
  z : Nat
  u : Nat
  w : Nat
  s : Nat
  s1 : Nat
  s2 : Nat
  deriving DecidableEq

structure RespondentProof where
  z : Nat
  zPrime : Nat
  t : Nat
  v : Nat
  w : Nat
  s : Nat
  s1 : Nat
  s2 : Nat
  t1 : Nat
  t2 : Nat
  deriving DecidableEq

structure ProvedMessage1 where
  ciphertext : Nat
  rangeProof : RangeProof
  deriving DecidableEq

/-- What the responder's pass produces upstream. -/
structure ProvedMessage2 where
  ciphertext : Nat
  respondentProof : RespondentProof
  beta : Nat
  deriving DecidableEq

/-- `ALGORITHM`. -/
def algorithm : String := "CMP20-ECDSA-P256"

/-- `parse_hex`. -/
def parseHex (value what : String) : Except NativeError Nat :=
  match natOfHex value with
  | some n => .ok n
  | none => .error (.argument (what ++ " must be a hex integer"))

/-- `hex_string`. -/
def hexString (n : Nat) : Json := .str (hexOfNat n)

/-- `string_field`. -/
def stringField (hash : Fields) (key : String) : Except NativeError String :=
  match Json.field? hash key with
  | none => .error (.argument ("missing field \"" ++ key ++ "\""))
  | some (.str s) => .ok s
  | some _ => .error (.argument ("field \"" ++ key ++ "\" must be a String"))

/-- `hash_field`. -/
def hashField (hash : Fields) (key : String) : Except NativeError Fields :=
  match Json.field? hash key with
  | none => .error (.argument ("missing field \"" ++ key ++ "\""))
  | some (.obj fields) => .ok fields
  | some _ => .error (.argument ("field \"" ++ key ++ "\" must be a Hash"))

/-- One hexadecimal field, `what` naming the record it belongs to. -/
def hexField (hash : Fields) (what key : String) : Except NativeError Nat := do
  let value ← stringField hash key
  parseHex value (what ++ " " ++ key)

/-- `public_from_hash`. -/
def publicFromHash (hash : Fields) : Except NativeError PaillierPublicKey := do
  let n ← hexField hash "public key" "n"
  let nSquared ← hexField hash "public key" "n_squared"
  let g ← hexField hash "public key" "g"
  return ⟨n, nSquared, g⟩

/-- `private_from_hash`. -/
def privateFromHash (hash : Fields) : Except NativeError PaillierPrivateKey := do
  let lambda ← hexField hash "private key" "lambda"
  let mu ← hexField hash "private key" "mu"
  return ⟨lambda, mu⟩

/-- `public_to_hash`. -/
def publicToHash (key : PaillierPublicKey) : Fields :=
  [("n", hexString key.n), ("n_squared", hexString key.nSquared), ("g", hexString key.g)]

/-- `keypair_to_hash`: the two halves under keys of their own. -/
def keypairToHash (kp : PaillierKeypair) : Fields :=
  [("public", .obj (publicToHash kp.publicKey)),
    ("private", .obj [("lambda", hexString kp.privateKey.lambda),
      ("mu", hexString kp.privateKey.mu)])]

/-- `commitment_key_from_hash`. -/
def commitmentKeyFromHash (hash : Fields) : Except NativeError CommitmentKey := do
  let nTilde ← hexField hash "commitment key" "n_tilde"
  let h1 ← hexField hash "commitment key" "h1"
  let h2 ← hexField hash "commitment key" "h2"
  return ⟨nTilde, h1, h2⟩

/-- `commitment_key_to_hash`. -/
def commitmentKeyToHash (ck : CommitmentKey) : Fields :=
  [("n_tilde", hexString ck.nTilde), ("h1", hexString ck.h1), ("h2", hexString ck.h2)]

/-- `range_proof_from_hash`. -/
def rangeProofFromHash (hash : Fields) : Except NativeError RangeProof := do
  let z ← hexField hash "range proof" "z"
  let u ← hexField hash "range proof" "u"
  let w ← hexField hash "range proof" "w"
  let s ← hexField hash "range proof" "s"
  let s1 ← hexField hash "range proof" "s1"
  let s2 ← hexField hash "range proof" "s2"
  return ⟨z, u, w, s, s1, s2⟩

/-- `range_proof_to_hash`. -/
def rangeProofToHash (proof : RangeProof) : Fields :=
  [("z", hexString proof.z), ("u", hexString proof.u), ("w", hexString proof.w),
    ("s", hexString proof.s), ("s1", hexString proof.s1), ("s2", hexString proof.s2)]

/-- `respondent_proof_from_hash`. -/
def respondentProofFromHash (hash : Fields) : Except NativeError RespondentProof := do
  let z ← hexField hash "respondent proof" "z"
  let zPrime ← hexField hash "respondent proof" "z_prime"
  let t ← hexField hash "respondent proof" "t"
  let v ← hexField hash "respondent proof" "v"
  let w ← hexField hash "respondent proof" "w"
  let s ← hexField hash "respondent proof" "s"
  let s1 ← hexField hash "respondent proof" "s1"
  let s2 ← hexField hash "respondent proof" "s2"
  let t1 ← hexField hash "respondent proof" "t1"
  let t2 ← hexField hash "respondent proof" "t2"
  return ⟨z, zPrime, t, v, w, s, s1, s2, t1, t2⟩

/-- `respondent_proof_to_hash`. -/
def respondentProofToHash (proof : RespondentProof) : Fields :=
  [("z", hexString proof.z), ("z_prime", hexString proof.zPrime), ("t", hexString proof.t),
    ("v", hexString proof.v), ("w", hexString proof.w), ("s", hexString proof.s),
    ("s1", hexString proof.s1), ("s2", hexString proof.s2), ("t1", hexString proof.t1),
    ("t2", hexString proof.t2)]

/-- `msg1_from_hash`. -/
def msg1FromHash (hash : Fields) : Except NativeError ProvedMessage1 := do
  let ciphertext ← hexField hash "message 1" "ciphertext"
  let proof ← hashField hash "range_proof"
  let rangeProof ← rangeProofFromHash proof
  return ⟨ciphertext, rangeProof⟩

/-- `msg1_to_hash`. -/
def msg1ToHash (msg : ProvedMessage1) : Fields :=
  [("ciphertext", hexString msg.ciphertext),
    ("range_proof", .obj (rangeProofToHash msg.rangeProof))]

/-- `msg2_from_hash`. -/
def msg2FromHash (hash : Fields) : Except NativeError ProvedMessage2 := do
  let ciphertext ← hexField hash "message 2" "ciphertext"
  let proof ← hashField hash "respondent_proof"
  let respondentProof ← respondentProofFromHash proof
  let beta ← hexField hash "message 2" "beta"
  return ⟨ciphertext, respondentProof, beta⟩

/-- `msg2_to_hash`. -/
def msg2ToHash (msg : ProvedMessage2) : Fields :=
  [("ciphertext", hexString msg.ciphertext),
    ("respondent_proof", .obj (respondentProofToHash msg.respondentProof)),
    ("beta", hexString msg.beta)]

/-- The upstream passes, with the text of an `MtaProofError`, which may also
    panic. They draw random numbers, so this is what they do on one draw, and two
    calls may be calls of two of these. -/
structure MtaUpstream where
  partyIInitProved : PaillierPublicKey → CommitmentKey → Nat → Nat → Except Failure ProvedMessage1
  partyJRespondProved : PaillierPublicKey → CommitmentKey → CommitmentKey → Nat →
    ProvedMessage1 → Nat → Except Failure (ProvedMessage2 × Nat)
  partyIFinishProved : PaillierPublicKey → CommitmentKey → Nat → Nat → PaillierPrivateKey →
    ProvedMessage2 → Except Failure Nat

/-- The upstream routines of a party that makes its own keys, or that holds the
    initiator's keypair and runs the whole exchange by itself, on one draw of
    random numbers. -/
structure MtaKeyholder where
  generatePaillierKeypair : Nat → PaillierKeypair
  generateCommitmentKey : Nat → CommitmentKey
  fullMtaProved : PaillierKeypair → CommitmentKey → CommitmentKey → Nat → Nat → Nat →
    Except Failure (Nat × Nat)

/-- `check_prime_bits`. -/
def checkPrimeBits (primeBits : Int) : Except NativeError Nat :=
  if 64 ≤ primeBits ∧ primeBits ≤ 8192 then .ok primeBits.toNat
  else
    .error (.argument ("prime_bits must be between 64 and 8192, got " ++ toString primeBits))

/-- An upstream pass, recorded under its operation and raising `MtaError`. -/
def mtaRecorded {α : Type} (env : AuditEnv) (routine operation : String) (x : Except Failure α) :
    Native α :=
  recorded env routine operation algorithm none (.typed "TC::Cmp20::MtaError" · []) x

/-- `generate_keypair`. -/
def generateKeypair (env : AuditEnv) (up : MtaKeyholder) (primeBits : Int) : Native Fields := do
  let bits ← Eff.ofExcept (checkPrimeBits primeBits)
  let kp ← mtaRecorded env "generate_paillier_keypair" "tc_cmp20_mta_keypair"
    (.ok (up.generatePaillierKeypair bits))
  return keypairToHash kp

/-- `generate_commitment_key`. -/
def generateCommitmentKey (env : AuditEnv) (up : MtaKeyholder) (primeBits : Int) :
    Native Fields := do
  let bits ← Eff.ofExcept (checkPrimeBits primeBits)
  let ck ← mtaRecorded env "generate_commitment_key" "tc_cmp20_mta_commitment_key"
    (.ok (up.generateCommitmentKey bits))
  return commitmentKeyToHash ck

/-- Reading arguments that begin with a public key. The numerals go through
    upstream's parser one by one, so that has run once the first of them is there. -/
def reading {α : Type} (iPublic : Fields) (args : Except NativeError α) : Native α :=
  match stringField iPublic "n" with
  | .ok _ => Eff.perform (.upstream "BigUint::from_str_radix") args
  | .error _ => Eff.ofExcept args

/-- What the initiator's first pass reads, in the order it reads it. -/
def initArgs (iPublic ckJ : Fields) (q kI : String) :
    Except NativeError (PaillierPublicKey × CommitmentKey × Nat × Nat) := do
  let publicKey ← publicFromHash iPublic
  let ck ← commitmentKeyFromHash ckJ
  let q ← parseHex q "q"
  let kI ← parseHex kI "k_i"
  return (publicKey, ck, q, kI)

/-- `party_i_init`. -/
def partyIInit (env : AuditEnv) (up : MtaUpstream) (iPublic ckJ : Fields) (q kI : String) :
    Native Fields := do
  let (publicKey, ck, q, kI) ← reading iPublic (initArgs iPublic ckJ q kI)
  let msg ← mtaRecorded env "party_i_init_proved" "tc_cmp20_mta_init"
    (up.partyIInitProved publicKey ck q kI)
  return msg1ToHash msg

/-- What the responder's pass reads. -/
def respondArgs (iPublic ckI ckJ : Fields) (q : String) (msg1 : Fields) (xJ : String) :
    Except NativeError
      (PaillierPublicKey × CommitmentKey × CommitmentKey × Nat × ProvedMessage1 × Nat) := do
  let publicKey ← publicFromHash iPublic
  let ckI ← commitmentKeyFromHash ckI
  let ckJ ← commitmentKeyFromHash ckJ
  let q ← parseHex q "q"
  let msg1 ← msg1FromHash msg1
  let xJ ← parseHex xJ "x_j"
  return (publicKey, ckI, ckJ, q, msg1, xJ)

/-- `party_j_respond`: message 2 for the transport, and the responder's own
    share beside it. -/
def partyJRespond (env : AuditEnv) (up : MtaUpstream) (iPublic ckI ckJ : Fields) (q : String)
    (msg1 : Fields) (xJ : String) : Native (Fields × Json) := do
  let (publicKey, ckI, ckJ, q, msg1, xJ) ←
    reading iPublic (respondArgs iPublic ckI ckJ q msg1 xJ)
  let (msg2, beta) ← mtaRecorded env "party_j_respond_proved" "tc_cmp20_mta_respond"
    (up.partyJRespondProved publicKey ckI ckJ q msg1 xJ)
  return (msg2ToHash msg2, hexString beta)

/-- What the initiator's last pass reads. -/
def finishArgs (iPublic iPrivate ckI : Fields) (q msg1Ciphertext : String) (msg2 : Fields) :
    Except NativeError
      (PaillierPublicKey × PaillierPrivateKey × CommitmentKey × Nat × Nat × ProvedMessage2) := do
  let publicKey ← publicFromHash iPublic
  let privateKey ← privateFromHash iPrivate
  let ckI ← commitmentKeyFromHash ckI
  let q ← parseHex q "q"
  let ciphertext ← parseHex msg1Ciphertext "message 1 ciphertext"
  let msg2 ← msg2FromHash msg2
  return (publicKey, privateKey, ckI, q, ciphertext, msg2)

/-- `party_i_finish`. -/
def partyIFinish (env : AuditEnv) (up : MtaUpstream) (iPublic iPrivate ckI : Fields)
    (q msg1Ciphertext : String) (msg2 : Fields) : Native Json := do
  let (publicKey, privateKey, ckI, q, ciphertext, msg2) ←
    reading iPublic (finishArgs iPublic iPrivate ckI q msg1Ciphertext msg2)
  let alpha ← mtaRecorded env "party_i_finish_proved" "tc_cmp20_mta_finish"
    (up.partyIFinishProved publicKey ckI q ciphertext privateKey msg2)
  return hexString alpha

/-- What `full` reads. -/
def fullArgs (iPublic iPrivate ckI ckJ : Fields) (q kI xJ : String) :
    Except NativeError
      (PaillierPublicKey × PaillierPrivateKey × CommitmentKey × CommitmentKey × Nat × Nat × Nat)
    := do
  let publicKey ← publicFromHash iPublic
  let privateKey ← privateFromHash iPrivate
  let ckI ← commitmentKeyFromHash ckI
  let ckJ ← commitmentKeyFromHash ckJ
  let q ← parseHex q "q"
  let kI ← parseHex kI "k_i"
  let xJ ← parseHex xJ "x_j"
  return (publicKey, privateKey, ckI, ckJ, q, kI, xJ)

/-- `full`. -/
def full (env : AuditEnv) (up : MtaKeyholder) (iPublic iPrivate ckI ckJ : Fields)
    (q kI xJ : String) : Native (Json × Json) := do
  let (publicKey, privateKey, ckI, ckJ, q, kI, xJ) ←
    reading iPublic (fullArgs iPublic iPrivate ckI ckJ q kI xJ)
  let (alpha, beta) ← mtaRecorded env "full_mta_proved" "tc_cmp20_mta_full"
    (up.fullMtaProved ⟨publicKey, privateKey⟩ ckI ckJ q kI xJ)
  return (hexString alpha, hexString beta)

/-- However far it gets, reading comes to what the arguments are read as. -/
@[simp] theorem reading_result {α : Type} (iPublic : Fields) (args : Except NativeError α) :
    (reading iPublic args).result = args := by
  unfold reading
  cases stringField iPublic "n" with
  | ok n => rfl
  | error e => rfl

/-- A field that was written is read back. -/
theorem hexField_eq_ok (hash : Fields) (what key : String) (n : Nat)
    (h : Json.field? hash key = some (hexString n)) : hexField hash what key = .ok n := by
  unfold hexField stringField parseHex
  rw [h, hexString]
  simp only [bind, Except.bind, natOfHex_hexOfNat]

theorem respondentProofFromHash_respondentProofToHash (proof : RespondentProof) :
    respondentProofFromHash (respondentProofToHash proof) = .ok proof := by
  unfold respondentProofFromHash
  rw [hexField_eq_ok _ _ "z" proof.z rfl, hexField_eq_ok _ _ "z_prime" proof.zPrime rfl,
    hexField_eq_ok _ _ "t" proof.t rfl, hexField_eq_ok _ _ "v" proof.v rfl,
    hexField_eq_ok _ _ "w" proof.w rfl, hexField_eq_ok _ _ "s" proof.s rfl,
    hexField_eq_ok _ _ "s1" proof.s1 rfl, hexField_eq_ok _ _ "s2" proof.s2 rfl,
    hexField_eq_ok _ _ "t1" proof.t1 rfl, hexField_eq_ok _ _ "t2" proof.t2 rfl]
  rfl

/-- Message 2 is read back as it was written, its `beta` included. -/
theorem msg2FromHash_msg2ToHash (msg : ProvedMessage2) :
    msg2FromHash (msg2ToHash msg) = .ok msg := by
  have hproof : hashField (msg2ToHash msg) "respondent_proof"
      = .ok (respondentProofToHash msg.respondentProof) := rfl
  unfold msg2FromHash
  rw [hexField_eq_ok _ _ "ciphertext" msg.ciphertext rfl, hproof,
    hexField_eq_ok _ _ "beta" msg.beta rfl]
  simp only [bind, Except.bind, respondentProofFromHash_respondentProofToHash]
  rfl

/-- What the responder's pass returns when its arguments parse and the upstream
    pass succeeds. -/
theorem partyJRespond_result (env : AuditEnv) (up : MtaUpstream) (iPublic ckI ckJ : Fields)
    (q : String) (msg1 : Fields) (xJ : String) (publicKey : PaillierPublicKey)
    (i j : CommitmentKey) (order : Nat) (m1 : ProvedMessage1) (x : Nat) (m2 : ProvedMessage2)
    (beta : Nat)
    (hargs : respondArgs iPublic ckI ckJ q msg1 xJ = .ok (publicKey, i, j, order, m1, x))
    (hup : up.partyJRespondProved publicKey i j order m1 x = .ok (m2, beta)) :
    (partyJRespond env up iPublic ckI ckJ q msg1 xJ).result
      = .ok (msg2ToHash m2, hexString beta) := by
  unfold partyJRespond mtaRecorded recorded fireEvent
  rw [Eff.result_bind_ok _ _ _ ((reading_result iPublic _).trans hargs)]
  simp only [hup]
  cases env.enabled <;> rfl

end Mta

end Confium
