import Mathlib.Data.Int.ModEq
import Confium.Theory.Leakage
import Confium.Theory.MtaCodec

/-!
# The MtA Exchange Between Two Processes

The exchange as two processes run it. Each makes its own keys, the public ones
and the messages go to the other as JSON, and each keeps what the other must not
see: the initiator its private key and `alpha`, the responder its `beta`. A
process that has all the keys can run the exchange by itself with `full`, and
that is what the two are compared with.

The passes draw random numbers, and `full` draws as many as the three of them.
When it draws the same, the two return the same shares, whatever the caller's
numerals look like, and when the numerals can be read they raise the same as
well. The shares of another draw are others, but if upstream's subtract to the
product of the secrets on every draw, as its documentation has it, those that end
up in the two processes do.

When a numeral cannot be read both raise, but not always the same: `full` reads
all three before anything else, while the responder's numeral is read when the
initiator's pass is over.

## Main definitions

* `overJson`: A Hash that was sent as JSON.
* `runOverJson`, `runInProcess`: The exchange in two processes, and in one.
* `SubtractsToProduct`: What upstream promises of the shares.

## Theorems

* `overJson_plain`: What is plain arrives.
* `runOverJson_eq_runSplit`: So the messages are what they are in one process.
* `runSplit_of_read`, `full_of_read`: A numeral is worth what it is read as.
* `runSplit_reads`, `full_reads`: All three are read by an exchange that returns.
* `result_of_read`: When they are read, either exchange is upstream's.
* `split_exchange_as_full`: Two processes do what one does.
-/

namespace Confium

open Ruby

namespace Mta

/-- A Hash that was sent as JSON: `JSON.parse(JSON.generate(hash))`. What the
    receiver raises when no Hash comes out is its own matter. -/
def overJson (codec : JsonCodec) (hash : Fields) : Except NativeError Fields :=
  match codec.parse (codec.generate (.obj hash)) with
  | .ok (.obj received) => .ok received
  | .ok _ => .error (.runtime "no Hash")
  | .error text => .error (.runtime text)

/-- The exchange in two processes, each pass on a draw of its own. The initiator
    has the pair and `ckI`, the responder `ckJ`. -/
def runOverJson (codec : JsonCodec) (env : AuditEnv) (upI upJ upF : MtaUpstream)
    (pair ckI ckJ : Fields) (q kI xJ : String) : Native (Json × Json) := do
  let iPublic ← Eff.ofExcept (hashField pair "public")
  let iPrivate ← Eff.ofExcept (hashField pair "private")
  -- Each process is sent the other's public keys before the first pass.
  let iPublicAtJ ← Eff.ofExcept (overJson codec iPublic)
  let ckIAtJ ← Eff.ofExcept (overJson codec ckI)
  let ckJAtI ← Eff.ofExcept (overJson codec ckJ)
  let msg1 ← partyIInit env upI iPublic ckJAtI q kI
  let msg1AtJ ← Eff.ofExcept (overJson codec msg1)
  let (msg2, beta) ← partyJRespond env upJ iPublicAtJ ckIAtJ ckJ q msg1AtJ xJ
  let msg2AtI ← Eff.ofExcept (overJson codec msg2)
  let ciphertext ← Eff.ofExcept (stringField msg1 "ciphertext")
  let alpha ← partyIFinish env upF iPublic iPrivate ckI q ciphertext msg2AtI
  return (alpha, beta)

/-- The exchange in one process, which has all the keys. -/
def runInProcess (env : AuditEnv) (keyholder : MtaKeyholder) (pair ckI ckJ : Fields)
    (q kI xJ : String) : Native (Json × Json) := do
  let iPublic ← Eff.ofExcept (hashField pair "public")
  let iPrivate ← Eff.ofExcept (hashField pair "private")
  full env keyholder iPublic iPrivate ckI ckJ q kI xJ

/-- The private half of a written pair. -/
def privateHalf (kp : PaillierKeypair) : Fields :=
  [("lambda", hexString kp.privateKey.lambda), ("mu", hexString kp.privateKey.mu)]

/-- What upstream promises of an exchange under a key that is large enough for
    the modulus, whatever is drawn. -/
def SubtractsToProduct {ρ : Type} (up : ρ → MtaUpstream) (kp : PaillierKeypair) (n : Nat) : Prop :=
  ∀ rI rJ rF ckI ckJ k x alpha beta,
    exchangeProved (up rI) (up rJ) (up rF) kp ckI ckJ n k x = .ok (alpha, beta) →
      (alpha : Int) - beta ≡ k * x [ZMOD n]

/-! ### What is sent -/

/-- What is plain arrives as it was sent. -/
theorem overJson_plain (codec : JsonCodec) (hcodec : codec.Lawful) (hash : Fields)
    (hplain : Json.plain JsonCodec.maxNesting (.obj hash) = true) :
    overJson codec hash = .ok hash := by
  rw [overJson, hcodec.parse_generate _ hplain]

theorem plain_publicToHash (key : PaillierPublicKey) (n : Nat) :
    Json.plain (n + 1) (.obj (publicToHash key)) = true := by
  refine Json.plain_obj n _ (show ["n", "n_squared", "g"].Nodup by decide) ?_
  simp only [publicToHash, hexString, List.forall_mem_cons, Json.plain, true_and,
    List.not_mem_nil, false_imp_iff, implies_true]

theorem plain_commitmentKeyToHash (ck : CommitmentKey) (n : Nat) :
    Json.plain (n + 1) (.obj (commitmentKeyToHash ck)) = true := by
  refine Json.plain_obj n _ (show ["n_tilde", "h1", "h2"].Nodup by decide) ?_
  simp only [commitmentKeyToHash, hexString, List.forall_mem_cons, Json.plain, true_and,
    List.not_mem_nil, false_imp_iff, implies_true]

theorem plain_rangeProofToHash (proof : RangeProof) (n : Nat) :
    Json.plain (n + 1) (.obj (rangeProofToHash proof)) = true := by
  refine Json.plain_obj n _ (show ["z", "u", "w", "s", "s1", "s2"].Nodup by decide) ?_
  simp only [rangeProofToHash, hexString, List.forall_mem_cons, Json.plain, true_and,
    List.not_mem_nil, false_imp_iff, implies_true]

theorem plain_respondentProofToHash (proof : RespondentProof) (n : Nat) :
    Json.plain (n + 1) (.obj (respondentProofToHash proof)) = true := by
  refine Json.plain_obj n _
    (show ["z", "z_prime", "t", "v", "w", "s", "s1", "s2", "t1", "t2"].Nodup by decide) ?_
  simp only [respondentProofToHash, hexString, List.forall_mem_cons, Json.plain, true_and,
    List.not_mem_nil, false_imp_iff, implies_true]

theorem plain_msg1ToHash (msg : ProvedMessage1) (n : Nat) :
    Json.plain (n + 2) (.obj (msg1ToHash msg)) = true := by
  refine Json.plain_obj (n + 1) _ (show ["ciphertext", "range_proof"].Nodup by decide) ?_
  simp only [msg1ToHash, hexString, List.forall_mem_cons, Json.plain, true_and,
    List.not_mem_nil, false_imp_iff, implies_true, and_true]
  exact plain_rangeProofToHash msg.rangeProof n

theorem plain_msg2ToHash (msg : ProvedMessage2) (n : Nat) :
    Json.plain (n + 2) (.obj (msg2ToHash msg)) = true := by
  refine Json.plain_obj (n + 1) _ (show ["ciphertext", "respondent_proof", "beta"].Nodup by decide)
    ?_
  simp only [msg2ToHash, hexString, List.forall_mem_cons, Json.plain, true_and,
    List.not_mem_nil, false_imp_iff, implies_true, and_true]
  exact plain_respondentProofToHash msg.respondentProof n

/-- What a pass returns was written by its codec. -/
theorem partyIInit_written (env : AuditEnv) (up : MtaUpstream) (iPublic ckJ : Fields)
    (q kI : String) (hash : Fields) (h : (partyIInit env up iPublic ckJ q kI).result = .ok hash) :
    ∃ msg, hash = msg1ToHash msg := by
  simp only [partyIInit, Eff.result_bind_eq_ok_iff, Eff.result_pure, Except.ok.injEq] at h
  rcases h with ⟨_, _, msg, _, hmsg⟩
  exact ⟨msg, hmsg.symm⟩

theorem partyJRespond_written (env : AuditEnv) (up : MtaUpstream) (iPublic ckI ckJ : Fields)
    (q : String) (msg1 : Fields) (xJ : String) (answer : Fields × Json)
    (h : (partyJRespond env up iPublic ckI ckJ q msg1 xJ).result = .ok answer) :
    ∃ msg, answer.1 = msg2ToHash msg := by
  simp only [partyJRespond, Eff.result_bind_eq_ok_iff, Eff.result_pure, Except.ok.injEq] at h
  rcases h with ⟨_, _, sent, _, hsent⟩
  exact ⟨sent.1, by rw [← hsent]⟩

theorem hashField_public (kp : PaillierKeypair) :
    hashField (keypairToHash kp) "public" = .ok (publicToHash kp.publicKey) :=
  rfl

theorem hashField_private (kp : PaillierKeypair) :
    hashField (keypairToHash kp) "private" = .ok (privateHalf kp) :=
  rfl

theorem privateFromHash_privateHalf (kp : PaillierKeypair) :
    privateFromHash (privateHalf kp) = .ok kp.privateKey := by
  have hread := privateFromHash_keypairToHash kp
  simpa only [hashField_private, bind, Except.bind] using hread

/-- So the messages are what they are when they never leave the process. -/
theorem runOverJson_eq_runSplit (codec : JsonCodec) (hcodec : codec.Lawful) (env : AuditEnv)
    (upI upJ upF : MtaUpstream) (kp : PaillierKeypair) (ckI ckJ : CommitmentKey)
    (q kI xJ : String) :
    (runOverJson codec env upI upJ upF (keypairToHash kp) (commitmentKeyToHash ckI)
        (commitmentKeyToHash ckJ) q kI xJ).result
      = (runSplit env upI upJ upF (publicToHash kp.publicKey) (privateHalf kp)
          (commitmentKeyToHash ckI) (commitmentKeyToHash ckJ) q kI xJ).result := by
  have hck : ∀ ck, overJson codec (commitmentKeyToHash ck) = .ok (commitmentKeyToHash ck) :=
    fun ck => overJson_plain codec hcodec _ (plain_commitmentKeyToHash ck 99)
  unfold runOverJson runSplit
  rw [hashField_public, hashField_private, Eff.ofExcept_ok_bind, Eff.ofExcept_ok_bind,
    overJson_plain codec hcodec _ (plain_publicToHash kp.publicKey 99), Eff.ofExcept_ok_bind,
    hck ckI, Eff.ofExcept_ok_bind, hck ckJ, Eff.ofExcept_ok_bind]
  refine Eff.result_bind_congr _ _ _ (fun hash hhash => ?_)
  rcases partyIInit_written _ _ _ _ _ _ _ hhash with ⟨msg1, rfl⟩
  rw [overJson_plain codec hcodec _ (plain_msg1ToHash msg1 98), Eff.ofExcept_ok_bind]
  refine Eff.result_bind_congr _ _ _ (fun answer hanswer => ?_)
  rcases partyJRespond_written _ _ _ _ _ _ _ _ _ hanswer with ⟨msg2, hmsg2⟩
  simp only [hmsg2]
  rw [overJson_plain codec hcodec _ (plain_msg2ToHash msg2 98), Eff.ofExcept_ok_bind]

/-! ### The numerals -/

theorem parseHex_of_read (s what : String) (n : Nat) (h : natOfHex s = some n) :
    parseHex s what = .ok n := by
  rw [parseHex, h]

theorem read_of_parseHex (s what : String) (n : Nat) (h : parseHex s what = .ok n) :
    natOfHex s = some n := by
  rw [parseHex] at h
  cases hs : natOfHex s with
  | none =>
      rw [hs] at h
      cases h
  | some m =>
      rw [hs, Except.ok.injEq] at h
      rw [h]

section Numerals

variable (env : AuditEnv) (upI upJ upF : MtaUpstream) (keyholder : MtaKeyholder)
  (iPublic iPrivate ckI ckJ : Fields) (q kI xJ : String)

/-- A numeral is worth what it is read as, whatever it looks like. -/
theorem runSplit_of_read (n k x : Nat) (hq : natOfHex q = some n) (hkI : natOfHex kI = some k)
    (hxJ : natOfHex xJ = some x) :
    runSplit env upI upJ upF iPublic iPrivate ckI ckJ q kI xJ
      = runSplit env upI upJ upF iPublic iPrivate ckI ckJ (hexOfNat n) (hexOfNat k)
          (hexOfNat x) := by
  unfold runSplit partyIInit initArgs partyJRespond respondArgs partyIFinish finishArgs
  simp only [parseHex_of_read q _ n hq, parseHex_of_read kI _ k hkI, parseHex_of_read xJ _ x hxJ,
    parseHex_hexOfNat]

theorem full_of_read (n k x : Nat) (hq : natOfHex q = some n) (hkI : natOfHex kI = some k)
    (hxJ : natOfHex xJ = some x) :
    full env keyholder iPublic iPrivate ckI ckJ q kI xJ
      = full env keyholder iPublic iPrivate ckI ckJ (hexOfNat n) (hexOfNat k) (hexOfNat x) := by
  unfold full fullArgs
  simp only [parseHex_of_read q _ n hq, parseHex_of_read kI _ k hkI, parseHex_of_read xJ _ x hxJ,
    parseHex_hexOfNat]

/-- An exchange that returns has read all three, the initiator's before it sent
    anything and the responder's before it answered. -/
theorem runSplit_reads (shares : Json × Json)
    (h : (runSplit env upI upJ upF iPublic iPrivate ckI ckJ q kI xJ).result = .ok shares) :
    ∃ n k x, natOfHex q = some n ∧ natOfHex kI = some k ∧ natOfHex xJ = some x := by
  rw [runSplit, Eff.result_bind_eq_ok_iff] at h
  rcases h with ⟨msg1, hinit, h⟩
  rw [Eff.result_bind_eq_ok_iff] at h
  rcases h with ⟨answer, hrespond, _⟩
  simp only [partyIInit, Eff.result_bind_eq_ok_iff, reading_result, initArgs,
    bind_eq_ok_iff] at hinit
  rcases hinit with ⟨_, ⟨_, _, _, _, n, hn, k, hk, _⟩, _⟩
  simp only [partyJRespond, Eff.result_bind_eq_ok_iff, reading_result, respondArgs,
    bind_eq_ok_iff] at hrespond
  rcases hrespond with ⟨_, ⟨_, _, _, _, _, _, _, _, _, _, x, hx, _⟩, _⟩
  exact ⟨n, k, x, read_of_parseHex q _ n hn, read_of_parseHex kI _ k hk,
    read_of_parseHex xJ _ x hx⟩

/-- The exchange in one process reads them one after another. -/
theorem full_reads (shares : Json × Json)
    (h : (full env keyholder iPublic iPrivate ckI ckJ q kI xJ).result = .ok shares) :
    ∃ n k x, natOfHex q = some n ∧ natOfHex kI = some k ∧ natOfHex xJ = some x := by
  simp only [full, Eff.result_bind_eq_ok_iff, reading_result, fullArgs, bind_eq_ok_iff] at h
  rcases h with ⟨_, ⟨_, _, _, _, _, _, _, _, n, hn, k, hk, x, hx, _⟩, _⟩
  exact ⟨n, k, x, read_of_parseHex q _ n hn, read_of_parseHex kI _ k hk,
    read_of_parseHex xJ _ x hx⟩

end Numerals

/-! ### The exchange -/

/-- A generated pair is the one upstream made, written. -/
theorem generateKeypair_written (env : AuditEnv) (keyholder : MtaKeyholder) (primeBits : Int)
    (pair : Fields) (h : (generateKeypair env keyholder primeBits).result = .ok pair) :
    pair = keypairToHash (keyholder.generatePaillierKeypair primeBits.toNat) := by
  rw [generateKeypair, Eff.result_bind_eq_ok_iff] at h
  rcases h with ⟨bits, hbits, h⟩
  rw [mtaRecorded_map_result, Except.mapError, Except.map, Except.ok.injEq] at h
  rw [← h, checkPrimeBits_eq_ok primeBits bits hbits]

theorem generateCommitmentKey_written (env : AuditEnv) (keyholder : MtaKeyholder)
    (primeBits : Int) (ck : Fields)
    (h : (generateCommitmentKey env keyholder primeBits).result = .ok ck) :
    ck = commitmentKeyToHash (keyholder.generateCommitmentKey primeBits.toNat) := by
  rw [generateCommitmentKey, Eff.result_bind_eq_ok_iff] at h
  rcases h with ⟨bits, hbits, h⟩
  rw [mtaRecorded_map_result, Except.mapError, Except.map, Except.ok.injEq] at h
  rw [← h, checkPrimeBits_eq_ok primeBits bits hbits]

/-- With all the keys at hand, there is nothing but `full`. -/
theorem runInProcess_eq_full (env : AuditEnv) (keyholder : MtaKeyholder) (kp : PaillierKeypair)
    (ckI ckJ : Fields) (q kI xJ : String) :
    runInProcess env keyholder (keypairToHash kp) ckI ckJ q kI xJ
      = full env keyholder (publicToHash kp.publicKey) (privateHalf kp) ckI ckJ q kI xJ := by
  rw [runInProcess, hashField_public, hashField_private, Eff.ofExcept_ok_bind,
    Eff.ofExcept_ok_bind]

/-- With the numerals read, either exchange is what upstream returns, written. -/
theorem result_of_read (env : AuditEnv) (upI upJ upF : MtaUpstream) (keyholder : MtaKeyholder)
    (hfull : ∀ kp ckI ckJ n k x,
      keyholder.fullMtaProved kp ckI ckJ n k x = exchangeProved upI upJ upF kp ckI ckJ n k x)
    (kp : PaillierKeypair) (ckI ckJ : CommitmentKey) (q kI xJ : String) (n k x : Nat)
    (hq : natOfHex q = some n) (hkI : natOfHex kI = some k) (hxJ : natOfHex xJ = some x) :
    (runSplit env upI upJ upF (publicToHash kp.publicKey) (privateHalf kp)
        (commitmentKeyToHash ckI) (commitmentKeyToHash ckJ) q kI xJ).result
      = ((exchangeProved upI upJ upF kp ckI ckJ n k x).mapError (Failure.raised mtaError)).map
          (fun shares => (hexString shares.1, hexString shares.2)) ∧
    (full env keyholder (publicToHash kp.publicKey) (privateHalf kp) (commitmentKeyToHash ckI)
        (commitmentKeyToHash ckJ) q kI xJ).result
      = ((exchangeProved upI upJ upF kp ckI ckJ n k x).mapError (Failure.raised mtaError)).map
          (fun shares => (hexString shares.1, hexString shares.2)) := by
  have hprivate := privateFromHash_privateHalf kp
  constructor
  · rw [runSplit_of_read _ _ _ _ _ _ _ _ _ _ _ n k x hq hkI hxJ,
      runSplit_result env upI upJ upF ckI ckJ n kp _ hprivate k x]
  · rw [full_of_read _ _ _ _ _ _ _ _ _ n k x hq hkI hxJ,
      full_result env ckI ckJ n keyholder kp _ hprivate k x, hfull]

/-- Two processes do what one does. Take keys that were made in each, on draws of
    their own, any numerals, and the public keys and messages sent as JSON. On the
    numbers `full` draws, the two processes return shares exactly when the one does,
    and the same shares, and if the numerals can be read, what is raised is the same
    too. On any other draw, the shares they return subtract to the product of the two
    secrets as well, as far as upstream's do. -/
theorem split_exchange_as_full {ρ : Type} (codec : JsonCodec) (hcodec : codec.Lawful)
    (env : AuditEnv) (up : ρ → MtaUpstream) (keyholder : ρ → MtaKeyholder)
    (draws : ρ → ρ × ρ × ρ)
    (hfull : ∀ r kp ckI ckJ n k x, (keyholder r).fullMtaProved kp ckI ckJ n k x
      = exchangeProved (up (draws r).1) (up (draws r).2.1) (up (draws r).2.2) kp ckI ckJ n k x)
    (rPair rKeyI rKeyJ : ρ) (bits bitsI bitsJ : Int) (pair ckI ckJ : Fields)
    (hpair : (generateKeypair env (keyholder rPair) bits).result = .ok pair)
    (hckI : (generateCommitmentKey env (keyholder rKeyI) bitsI).result = .ok ckI)
    (hckJ : (generateCommitmentKey env (keyholder rKeyJ) bitsJ).result = .ok ckJ)
    (q kI xJ : String) :
    (∀ r, let split := runOverJson codec env (up (draws r).1) (up (draws r).2.1) (up (draws r).2.2)
            pair ckI ckJ q kI xJ
          let whole := runInProcess env (keyholder r) pair ckI ckJ q kI xJ
      (∀ shares, split.result = .ok shares ↔ whole.result = .ok shares) ∧
      ∀ n k x, natOfHex q = some n → natOfHex kI = some k → natOfHex xJ = some x →
        split.result = whole.result) ∧
    ∀ n k x, natOfHex q = some n → natOfHex kI = some k → natOfHex xJ = some x →
      SubtractsToProduct up ((keyholder rPair).generatePaillierKeypair bits.toNat) n →
        ∀ rI rJ rF shares,
          (runOverJson codec env (up rI) (up rJ) (up rF) pair ckI ckJ q kI xJ).result
            = .ok shares →
          ∃ alpha beta, shares = (hexString alpha, hexString beta) ∧
            (alpha : Int) - beta ≡ k * x [ZMOD n] := by
  have hkp := generateKeypair_written env (keyholder rPair) bits pair hpair
  have hcI := generateCommitmentKey_written env (keyholder rKeyI) bitsI ckI hckI
  have hcJ := generateCommitmentKey_written env (keyholder rKeyJ) bitsJ ckJ hckJ
  generalize (keyholder rPair).generatePaillierKeypair bits.toNat = kp at hkp ⊢
  generalize (keyholder rKeyI).generateCommitmentKey bitsI.toNat = cI at hcI
  generalize (keyholder rKeyJ).generateCommitmentKey bitsJ.toNat = cJ at hcJ
  subst hkp hcI hcJ
  constructor
  · intro r split whole
    have hread := result_of_read env _ _ _ (keyholder r) (hfull r) kp cI cJ q kI xJ
    simp only [split, whole, runOverJson_eq_runSplit codec hcodec, runInProcess_eq_full]
    refine ⟨fun shares => ⟨fun h => ?_, fun h => ?_⟩, fun n k x hq hkI hxJ => ?_⟩
    · rcases runSplit_reads _ _ _ _ _ _ _ _ _ _ _ shares h with ⟨n, k, x, hq, hkI, hxJ⟩
      rw [(hread n k x hq hkI hxJ).2, ← (hread n k x hq hkI hxJ).1, h]
    · rcases full_reads _ _ _ _ _ _ _ _ _ shares h with ⟨n, k, x, hq, hkI, hxJ⟩
      rw [(hread n k x hq hkI hxJ).1, ← (hread n k x hq hkI hxJ).2, h]
    · rw [(hread n k x hq hkI hxJ).1, (hread n k x hq hkI hxJ).2]
  · intro n k x hq hkI hxJ hproduct rI rJ rF shares h
    rw [runOverJson_eq_runSplit codec hcodec, runSplit_of_read _ _ _ _ _ _ _ _ _ _ _ n k x hq hkI
      hxJ, runSplit_result env _ _ _ cI cJ n kp _ (privateFromHash_privateHalf kp) k x] at h
    cases hexchange : exchangeProved (up rI) (up rJ) (up rF) kp cI cJ n k x with
    | error failure =>
        rw [hexchange] at h
        cases h
    | ok made =>
        rw [hexchange] at h
        cases h
        exact ⟨made.1, made.2, rfl, hproduct rI rJ rF cI cJ k x made.1 made.2 hexchange⟩

/-- An upstream whose ciphertexts are in the clear, and whose responder takes the
    share it draws. -/
def clearUpstream (r : Nat) : MtaUpstream where
  partyIInitProved := fun _ _ _ k => .ok ⟨k, ⟨r, 0, 0, 0, 0, 0⟩⟩
  partyJRespondProved := fun _ _ _ _ msg x =>
    .ok (⟨msg.ciphertext * x + r, ⟨r, 0, 0, 0, 0, 0, 0, 0, 0, 0⟩, r⟩, r)
  partyIFinishProved := fun _ _ _ _ _ msg => .ok msg.ciphertext

/-- What a draw is to the three passes. -/
def clearDraws (r : Nat) : Nat × Nat × Nat := (r, r + 1, r + 2)

def clearKeyholder (r : Nat) : MtaKeyholder where
  generatePaillierKeypair := fun bits => ⟨⟨bits + r, (bits + r) ^ 2, bits + r + 1⟩, ⟨bits + r, 1⟩⟩
  generateCommitmentKey := fun bits => ⟨bits + r, r, 1⟩
  fullMtaProved :=
    exchangeProved (clearUpstream (clearDraws r).1) (clearUpstream (clearDraws r).2.1)
      (clearUpstream (clearDraws r).2.2)

theorem clearUpstream_subtracts (kp : PaillierKeypair) (n : Nat) :
    SubtractsToProduct clearUpstream kp n := by
  intro rI rJ rF ckI ckJ k x alpha beta h
  have hshares : k * x + rJ = alpha ∧ rJ = beta := by
    simpa only [exchangeProved, clearUpstream, bind, Except.bind, pure, Except.pure,
      Except.ok.injEq, Prod.mk.injEq] using h
  rcases hshares with ⟨rfl, rfl⟩
  push_cast
  rw [add_sub_cancel_right]

/-- Two commitment keys of one size on two draws, numerals written in any way that
    is read, and the exchange on the draw that has the responder take 5. -/
theorem split_exchange_as_full_of_numerals :
    ∃ shares, (runOverJson JsonCodec.compact noSink (clearUpstream 4) (clearUpstream 5)
        (clearUpstream 6) (keypairToHash ((clearKeyholder 1).generatePaillierKeypair 642))
        (commitmentKeyToHash ((clearKeyholder 2).generateCommitmentKey 64))
        (commitmentKeyToHash ((clearKeyholder 3).generateCommitmentKey 64)) "fb" " 2A"
        "1b3").result = .ok shares ∧
      ∃ alpha beta, shares = (hexString alpha, hexString beta) ∧
        (alpha : Int) - beta ≡ 42 * 435 [ZMOD 251] := by
  have hq : natOfHex "fb" = some 251 := by decide
  have hkI : natOfHex " 2A" = some 42 := by decide
  have hxJ : natOfHex "1b3" = some 435 := by decide
  have hsplit := split_exchange_as_full JsonCodec.compact JsonCodec.compact_lawful noSink
    clearUpstream clearKeyholder clearDraws (fun _ _ _ _ _ _ _ => rfl) 1 2 3 642 64 64 _ _ _ rfl
    rfl rfl "fb" " 2A" "1b3"
  have hwhole : (runInProcess noSink (clearKeyholder 4)
      (keypairToHash ((clearKeyholder 1).generatePaillierKeypair 642))
      (commitmentKeyToHash ((clearKeyholder 2).generateCommitmentKey 64))
      (commitmentKeyToHash ((clearKeyholder 3).generateCommitmentKey 64)) "fb" " 2A" "1b3").result
        = .ok (hexString 18275, hexString 5) := by
    rw [runInProcess_eq_full, (result_of_read noSink _ _ _ (clearKeyholder 4)
      (fun _ _ _ _ _ _ => rfl) _ _ _ "fb" " 2A" "1b3" 251 42 435 hq hkI hxJ).2]
    rfl
  have hresult := ((hsplit.1 4).1 _).mpr hwhole
  exact ⟨_, hresult, hsplit.2 251 42 435 hq hkI hxJ (clearUpstream_subtracts _ _) 4 5 6 _ hresult⟩

end Mta

end Confium
