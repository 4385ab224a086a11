import Confium.Core.Mta

/-!
# Keys and Messages of the MtA Exchange on the Wire

Everything the exchange passes between its parties is written as a Hash by one
function and read from a Hash by another, with the names of the fields spelled
out in both. Here the two are compared, for each kind of key, proof and message:
reading undoes writing.

What that is for is the last theorem. The three passes, run as the parties run
them with a Hash between any two, return what the upstream passes return when
each is given the other's output as it is: the codec is not noticed. The passes
draw random numbers, and on the two sides of the comparison they draw the same. Nor is it
when the keys were generated here, since a generated key is read back as it was
made.

## Main definitions

* `runSplit`: The three passes, with Hashes between them.
* `exchangeProved`: The upstream passes, with nothing between them.

## Theorems

* `publicFromHash_publicToHash`, `commitmentKeyFromHash_commitmentKeyToHash`,
  `rangeProofFromHash_rangeProofToHash`, `msg1FromHash_msg1ToHash`: Reading
  undoes writing.
* `codecs_round_trip`: So it does for every kind.
* `generateKeypair_read_back`, `generateCommitmentKey_read_back`: A generated key
  is read back as it was made.
* `runSplit_result`, `full_result`: The codec is not noticed.
-/

namespace Confium

open Ruby

namespace Mta

theorem publicFromHash_publicToHash (key : PaillierPublicKey) :
    publicFromHash (publicToHash key) = .ok key := by
  unfold publicFromHash
  rw [hexField_eq_ok _ _ "n" key.n rfl, hexField_eq_ok _ _ "n_squared" key.nSquared rfl,
    hexField_eq_ok _ _ "g" key.g rfl]
  rfl

/-- The private half has no writer of its own: it is written with the pair. -/
theorem privateFromHash_keypairToHash (kp : PaillierKeypair) :
    (hashField (keypairToHash kp) "private" >>= privateFromHash) = .ok kp.privateKey := by
  have hhalf : hashField (keypairToHash kp) "private"
      = .ok [("lambda", hexString kp.privateKey.lambda), ("mu", hexString kp.privateKey.mu)] := rfl
  simp only [hhalf, bind, Except.bind]
  unfold privateFromHash
  rw [hexField_eq_ok _ _ "lambda" kp.privateKey.lambda rfl,
    hexField_eq_ok _ _ "mu" kp.privateKey.mu rfl]
  rfl

theorem publicFromHash_keypairToHash (kp : PaillierKeypair) :
    (hashField (keypairToHash kp) "public" >>= publicFromHash) = .ok kp.publicKey := by
  have hhalf : hashField (keypairToHash kp) "public" = .ok (publicToHash kp.publicKey) := rfl
  simp only [hhalf, bind, Except.bind]
  exact publicFromHash_publicToHash kp.publicKey

theorem commitmentKeyFromHash_commitmentKeyToHash (ck : CommitmentKey) :
    commitmentKeyFromHash (commitmentKeyToHash ck) = .ok ck := by
  unfold commitmentKeyFromHash
  rw [hexField_eq_ok _ _ "n_tilde" ck.nTilde rfl, hexField_eq_ok _ _ "h1" ck.h1 rfl,
    hexField_eq_ok _ _ "h2" ck.h2 rfl]
  rfl

theorem rangeProofFromHash_rangeProofToHash (proof : RangeProof) :
    rangeProofFromHash (rangeProofToHash proof) = .ok proof := by
  unfold rangeProofFromHash
  rw [hexField_eq_ok _ _ "z" proof.z rfl, hexField_eq_ok _ _ "u" proof.u rfl,
    hexField_eq_ok _ _ "w" proof.w rfl, hexField_eq_ok _ _ "s" proof.s rfl,
    hexField_eq_ok _ _ "s1" proof.s1 rfl, hexField_eq_ok _ _ "s2" proof.s2 rfl]
  rfl

/-- Message 1 is read back as it was written, its proof included. -/
theorem msg1FromHash_msg1ToHash (msg : ProvedMessage1) :
    msg1FromHash (msg1ToHash msg) = .ok msg := by
  have hproof : hashField (msg1ToHash msg) "range_proof"
      = .ok (rangeProofToHash msg.rangeProof) := rfl
  unfold msg1FromHash
  rw [hexField_eq_ok _ _ "ciphertext" msg.ciphertext rfl, hproof]
  simp only [bind, Except.bind, rangeProofFromHash_rangeProofToHash]
  rfl

/-- Reading undoes writing, for every kind of key, proof and message. A keypair
    is read by its halves. -/
theorem codecs_round_trip :
    (∀ key, publicFromHash (publicToHash key) = .ok key) ∧
    (∀ kp, (hashField (keypairToHash kp) "public" >>= publicFromHash) = .ok kp.publicKey ∧
      (hashField (keypairToHash kp) "private" >>= privateFromHash) = .ok kp.privateKey) ∧
    (∀ ck, commitmentKeyFromHash (commitmentKeyToHash ck) = .ok ck) ∧
    (∀ proof, rangeProofFromHash (rangeProofToHash proof) = .ok proof) ∧
    (∀ proof, respondentProofFromHash (respondentProofToHash proof) = .ok proof) ∧
    (∀ msg, msg1FromHash (msg1ToHash msg) = .ok msg) ∧
    (∀ msg, msg2FromHash (msg2ToHash msg) = .ok msg) :=
  ⟨publicFromHash_publicToHash,
    fun kp => ⟨publicFromHash_keypairToHash kp, privateFromHash_keypairToHash kp⟩,
    commitmentKeyFromHash_commitmentKeyToHash, rangeProofFromHash_rangeProofToHash,
    respondentProofFromHash_respondentProofToHash, msg1FromHash_msg1ToHash,
    msg2FromHash_msg2ToHash⟩

/-! ### The exchange -/

/-- What an upstream failure is raised as. -/
def mtaError (text : String) : NativeError := .typed "TC::Cmp20::MtaError" text []

/-- The event of a pass does not change what it returns. -/
theorem mtaRecorded_result {α : Type} (env : AuditEnv) (routine operation : String)
    (x : Except Failure α) :
    (mtaRecorded env routine operation x).result = x.mapError (Failure.raised mtaError) :=
  recorded_result env routine operation algorithm none mtaError x

/-- Nor does writing its output change how it went. -/
theorem mtaRecorded_map_result {α β : Type} (env : AuditEnv) (routine operation : String)
    (x : Except Failure α) (f : α → β) :
    (mtaRecorded env routine operation x >>= fun a => pure (f a)).result
      = (x.mapError (Failure.raised mtaError)).map f := by
  have hresult := mtaRecorded_result env routine operation x
  cases x with
  | error e =>
      rw [Eff.result_bind_error _ _ (e.raised mtaError) hresult, Except.mapError, Except.map]
  | ok a => rw [Eff.result_bind_ok _ _ a hresult, Except.mapError, Except.map, Eff.result_pure]

/-- A numeral that was written is read back. -/
theorem parseHex_hexOfNat (n : Nat) (what : String) : parseHex (hexOfNat n) what = .ok n := by
  rw [parseHex, natOfHex_hexOfNat]

/-- A size that is accepted is the size upstream is given. -/
theorem checkPrimeBits_eq_ok (primeBits : Int) (bits : Nat)
    (h : checkPrimeBits primeBits = .ok bits) : bits = primeBits.toNat := by
  rw [checkPrimeBits] at h
  by_cases hrange : 64 ≤ primeBits ∧ primeBits ≤ 8192
  · rw [if_pos hrange, Except.ok.injEq] at h
    exact h.symm
  · rw [if_neg hrange] at h
    exact absurd h (by simp only [reduceCtorEq, not_false_eq_true])

/-- A generated keypair is read back as it was made. -/
theorem generateKeypair_read_back (env : AuditEnv) (up : MtaKeyholder) (primeBits : Int)
    (hash : Fields) (h : (generateKeypair env up primeBits).result = .ok hash) :
    (hashField hash "public" >>= publicFromHash)
        = .ok (up.generatePaillierKeypair primeBits.toNat).publicKey ∧
      (hashField hash "private" >>= privateFromHash)
        = .ok (up.generatePaillierKeypair primeBits.toNat).privateKey := by
  rw [generateKeypair, Eff.result_bind_eq_ok_iff] at h
  rcases h with ⟨bits, hbits, h⟩
  rw [mtaRecorded_map_result, Except.mapError, Except.map, Except.ok.injEq] at h
  rw [← h, checkPrimeBits_eq_ok primeBits bits hbits]
  exact ⟨publicFromHash_keypairToHash _, privateFromHash_keypairToHash _⟩

/-- So is a generated commitment key. -/
theorem generateCommitmentKey_read_back (env : AuditEnv) (up : MtaKeyholder) (primeBits : Int)
    (hash : Fields) (h : (generateCommitmentKey env up primeBits).result = .ok hash) :
    commitmentKeyFromHash hash = .ok (up.generateCommitmentKey primeBits.toNat) := by
  rw [generateCommitmentKey, Eff.result_bind_eq_ok_iff] at h
  rcases h with ⟨bits, hbits, h⟩
  rw [mtaRecorded_map_result, Except.mapError, Except.map, Except.ok.injEq] at h
  rw [← h, checkPrimeBits_eq_ok primeBits bits hbits]
  exact commitmentKeyFromHash_commitmentKeyToHash _

/-- The three passes as the parties run them, each on a draw of its own and given
    the Hash the other returned. -/
def runSplit (env : AuditEnv) (upI upJ upF : MtaUpstream) (iPublic iPrivate ckI ckJ : Fields)
    (q kI xJ : String) : Native (Json × Json) := do
  let msg1 ← partyIInit env upI iPublic ckJ q kI
  let (msg2, beta) ← partyJRespond env upJ iPublic ckI ckJ q msg1 xJ
  let ciphertext ← Eff.ofExcept (stringField msg1 "ciphertext")
  let alpha ← partyIFinish env upF iPublic iPrivate ckI q ciphertext msg2
  return (alpha, beta)

/-- The upstream passes, each given the other's output as it is. -/
def exchangeProved (upI upJ upF : MtaUpstream) (kp : PaillierKeypair) (ckI ckJ : CommitmentKey)
    (q kI xJ : Nat) : Except Failure (Nat × Nat) := do
  let msg1 ← upI.partyIInitProved kp.publicKey ckJ q kI
  let (msg2, beta) ← upJ.partyJRespondProved kp.publicKey ckI ckJ q msg1 xJ
  let alpha ← upF.partyIFinishProved kp.publicKey ckI q msg1.ciphertext kp.privateKey msg2
  return (alpha, beta)

section Passes

variable (env : AuditEnv) (up upI upJ upF : MtaUpstream) (key : PaillierPublicKey)
  (ckI ckJ : CommitmentKey) (q : Nat)

theorem partyIInit_result (kI : Nat) :
    (partyIInit env up (publicToHash key) (commitmentKeyToHash ckJ) (hexOfNat q)
        (hexOfNat kI)).result
      = ((up.partyIInitProved key ckJ q kI).mapError (Failure.raised mtaError)).map msg1ToHash := by
  have hargs : initArgs (publicToHash key) (commitmentKeyToHash ckJ) (hexOfNat q) (hexOfNat kI)
      = .ok (key, ckJ, q, kI) := by
    unfold initArgs
    rw [publicFromHash_publicToHash, commitmentKeyFromHash_commitmentKeyToHash,
      parseHex_hexOfNat, parseHex_hexOfNat]
    rfl
  rw [partyIInit, Eff.result_bind_ok _ _ _ ((reading_result _ _).trans hargs),
    mtaRecorded_map_result]

theorem partyJRespond_result_of_written (msg1 : ProvedMessage1) (xJ : Nat) :
    (partyJRespond env up (publicToHash key) (commitmentKeyToHash ckI) (commitmentKeyToHash ckJ)
        (hexOfNat q) (msg1ToHash msg1) (hexOfNat xJ)).result
      = ((up.partyJRespondProved key ckI ckJ q msg1 xJ).mapError (Failure.raised mtaError)).map
          (fun answer => (msg2ToHash answer.1, hexString answer.2)) := by
  have hargs : respondArgs (publicToHash key) (commitmentKeyToHash ckI) (commitmentKeyToHash ckJ)
      (hexOfNat q) (msg1ToHash msg1) (hexOfNat xJ) = .ok (key, ckI, ckJ, q, msg1, xJ) := by
    unfold respondArgs
    rw [publicFromHash_publicToHash, commitmentKeyFromHash_commitmentKeyToHash,
      commitmentKeyFromHash_commitmentKeyToHash, parseHex_hexOfNat, msg1FromHash_msg1ToHash,
      parseHex_hexOfNat]
    rfl
  rw [partyJRespond, Eff.result_bind_ok _ _ _ ((reading_result _ _).trans hargs)]
  exact mtaRecorded_map_result env _ _ _ _

theorem partyIFinish_result (kp : PaillierKeypair) (iPrivate : Fields)
    (hprivate : privateFromHash iPrivate = .ok kp.privateKey) (ciphertext : Nat)
    (msg2 : ProvedMessage2) :
    (partyIFinish env up (publicToHash kp.publicKey) iPrivate (commitmentKeyToHash ckI)
        (hexOfNat q) (hexOfNat ciphertext) (msg2ToHash msg2)).result
      = ((up.partyIFinishProved kp.publicKey ckI q ciphertext kp.privateKey msg2).mapError
          (Failure.raised mtaError)).map hexString := by
  have hargs : finishArgs (publicToHash kp.publicKey) iPrivate (commitmentKeyToHash ckI)
      (hexOfNat q) (hexOfNat ciphertext) (msg2ToHash msg2)
      = .ok (kp.publicKey, kp.privateKey, ckI, q, ciphertext, msg2) := by
    unfold finishArgs
    rw [publicFromHash_publicToHash, hprivate, commitmentKeyFromHash_commitmentKeyToHash,
      parseHex_hexOfNat, parseHex_hexOfNat, msg2FromHash_msg2ToHash]
    rfl
  rw [partyIFinish, Eff.result_bind_ok _ _ _ ((reading_result _ _).trans hargs),
    mtaRecorded_map_result]

/-- The codec is not noticed: the three passes with Hashes between them return
    what the upstream passes do, and raise what they fail with. -/
theorem runSplit_result (kp : PaillierKeypair) (iPrivate : Fields)
    (hprivate : privateFromHash iPrivate = .ok kp.privateKey) (kI xJ : Nat) :
    (runSplit env upI upJ upF (publicToHash kp.publicKey) iPrivate (commitmentKeyToHash ckI)
        (commitmentKeyToHash ckJ) (hexOfNat q) (hexOfNat kI) (hexOfNat xJ)).result
      = ((exchangeProved upI upJ upF kp ckI ckJ q kI xJ).mapError
          (Failure.raised mtaError)).map
            (fun shares => (hexString shares.1, hexString shares.2)) := by
  -- The three passes follow one another, and the first that fails ends the exchange.
  have hinit := partyIInit_result env upI kp.publicKey ckJ q kI
  unfold runSplit exchangeProved
  cases hmsg1 : upI.partyIInitProved kp.publicKey ckJ q kI with
  | error failure =>
      rw [hmsg1] at hinit
      rw [Eff.result_bind_error _ _ (failure.raised mtaError) hinit]
      rfl
  | ok msg1 =>
      rw [hmsg1] at hinit
      have hrespond := partyJRespond_result_of_written env upJ kp.publicKey ckI ckJ q msg1 xJ
      rw [Eff.result_bind_ok _ _ (msg1ToHash msg1) hinit]
      cases hmsg2 : upJ.partyJRespondProved kp.publicKey ckI ckJ q msg1 xJ with
      | error failure =>
          rw [hmsg2] at hrespond
          rw [Eff.result_bind_error _ _ (failure.raised mtaError) hrespond]
          simp only [bind, Except.bind, hmsg2]
          rfl
      | ok answer =>
          rw [hmsg2] at hrespond
          have hciphertext : stringField (msg1ToHash msg1) "ciphertext"
              = .ok (hexOfNat msg1.ciphertext) := rfl
          -- The first party reads its own ciphertext back out of its message.
          have hfinish := partyIFinish_result env upF ckI q kp iPrivate hprivate msg1.ciphertext
            answer.1
          rw [Eff.result_bind_ok _ _ (msg2ToHash answer.1, hexString answer.2) hrespond]
          simp only [hciphertext, Eff.ofExcept_ok_bind]
          cases halpha : upF.partyIFinishProved kp.publicKey ckI q msg1.ciphertext kp.privateKey
              answer.1 with
          | error failure =>
              rw [halpha] at hfinish
              rw [Eff.result_bind_error _ _ (failure.raised mtaError) hfinish]
              simp only [bind, Except.bind, hmsg2, halpha]
              rfl
          | ok alpha =>
              rw [halpha] at hfinish
              rw [Eff.result_bind_ok _ _ (hexString alpha) hfinish]
              simp only [bind, Except.bind, hmsg2, halpha]
              rfl

/-- Nor is it when one process runs the whole exchange. -/
theorem full_result (keyholder : MtaKeyholder) (kp : PaillierKeypair) (iPrivate : Fields)
    (hprivate : privateFromHash iPrivate = .ok kp.privateKey) (kI xJ : Nat) :
    (full env keyholder (publicToHash kp.publicKey) iPrivate (commitmentKeyToHash ckI)
        (commitmentKeyToHash ckJ) (hexOfNat q) (hexOfNat kI) (hexOfNat xJ)).result
      = ((keyholder.fullMtaProved kp ckI ckJ q kI xJ).mapError (Failure.raised mtaError)).map
          (fun shares => (hexString shares.1, hexString shares.2)) := by
  have hargs : fullArgs (publicToHash kp.publicKey) iPrivate (commitmentKeyToHash ckI)
      (commitmentKeyToHash ckJ) (hexOfNat q) (hexOfNat kI) (hexOfNat xJ)
      = .ok (kp.publicKey, kp.privateKey, ckI, ckJ, q, kI, xJ) := by
    unfold fullArgs
    rw [publicFromHash_publicToHash, hprivate, commitmentKeyFromHash_commitmentKeyToHash,
      commitmentKeyFromHash_commitmentKeyToHash, parseHex_hexOfNat, parseHex_hexOfNat,
      parseHex_hexOfNat]
    rfl
  rw [full, Eff.result_bind_ok _ _ _ ((reading_result _ _).trans hargs)]
  exact mtaRecorded_map_result env _ _ _ _

end Passes

end Mta

end Confium
