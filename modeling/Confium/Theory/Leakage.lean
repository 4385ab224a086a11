import Confium.Core.Mta

/-!
# What the Responder's Message Reveals

Whether message 2 of the MtA exchange depends on the responder's share. The
exchange leaves `alpha` with the initiator and `beta` with the responder, and
the two together give the product that neither side is to learn, so `beta` must
not be in what the responder sends.

It is. Message 2 carries a field for it, and the hexadecimal numeral of a number
determines the number, so two responses with one ciphertext and one proof are
sent as the same Hash exactly when their `beta` is the same. `beta_is_read_back`
is the other end: parsing what was sent gives the initiator the share.

## Main definitions

* `messageSent`: The Hash the responder's pass returns for the transport.

## Theorems

* `msg2ToHash_eq_iff`: When two responses are sent as one Hash.
* `message_independent_iff`: The message is independent of `beta` only where
  `beta` does not vary.
* `beta_is_read_back`: The initiator reads the responder's share off the
  message.
* `beta_on_the_wire`: Two responses that differ in `beta` alone are told apart.
-/

namespace Confium

open Ruby

namespace Mta

/-- Two responses of one ciphertext and one proof are sent as one Hash exactly
    when they have one `beta`. -/
theorem msg2ToHash_eq_iff (m m' : ProvedMessage2) (hciphertext : m.ciphertext = m'.ciphertext)
    (hproof : m.respondentProof = m'.respondentProof) :
    msg2ToHash m = msg2ToHash m' ↔ m.beta = m'.beta := by
  constructor
  · intro h
    -- Parsing is a left inverse of writing, so it tells the two apart.
    have hread := congrArg msg2FromHash h
    rw [msg2FromHash_msg2ToHash, msg2FromHash_msg2ToHash] at hread
    exact congrArg ProvedMessage2.beta (Except.ok.inj hread)
  · intro h
    unfold msg2ToHash
    rw [hciphertext, hproof, h]

/-- The Hash the responder's pass returns for the transport. -/
def messageSent (env : AuditEnv) (up : MtaUpstream) (iPublic ckI ckJ : Fields) (q : String)
    (msg1 : Fields) (xJ : String) : Except NativeError Fields :=
  (partyJRespond env up iPublic ckI ckJ q msg1 xJ).result.map Prod.fst

/-- Of two runs of the responder's pass on the same arguments, whose upstream
    outputs agree on the ciphertext and on the proof, the messages sent are the
    same exactly when the outputs agree on `beta` too. -/
theorem message_independent_iff (env : AuditEnv) (up up' : MtaUpstream) (iPublic ckI ckJ : Fields)
    (q : String) (msg1 : Fields) (xJ : String) (publicKey : PaillierPublicKey)
    (i j : CommitmentKey) (order : Nat) (m1 : ProvedMessage1) (x : Nat)
    (m m' : ProvedMessage2) (beta beta' : Nat)
    (hargs : respondArgs iPublic ckI ckJ q msg1 xJ = .ok (publicKey, i, j, order, m1, x))
    (hup : up.partyJRespondProved publicKey i j order m1 x = .ok (m, beta))
    (hup' : up'.partyJRespondProved publicKey i j order m1 x = .ok (m', beta'))
    (hciphertext : m.ciphertext = m'.ciphertext)
    (hproof : m.respondentProof = m'.respondentProof) :
    messageSent env up iPublic ckI ckJ q msg1 xJ = messageSent env up' iPublic ckI ckJ q msg1 xJ ↔
      m.beta = m'.beta := by
  have hsent : ∀ (up : MtaUpstream) (m : ProvedMessage2) (beta : Nat),
      up.partyJRespondProved publicKey i j order m1 x = .ok (m, beta) →
        messageSent env up iPublic ckI ckJ q msg1 xJ = .ok (msg2ToHash m) := by
    intro up m beta h
    unfold messageSent
    rw [partyJRespond_result env up iPublic ckI ckJ q msg1 xJ publicKey i j order m1 x m beta
      hargs h]
    rfl
  rw [hsent up m beta hup, hsent up' m' beta' hup', Except.ok.injEq]
  exact msg2ToHash_eq_iff m m' hciphertext hproof

/-- Whoever receives the message has the responder's share, `beta` being the
    value also returned beside it. -/
theorem beta_is_read_back (env : AuditEnv) (up : MtaUpstream) (iPublic ckI ckJ : Fields)
    (q : String) (msg1 : Fields) (xJ : String) (publicKey : PaillierPublicKey)
    (i j : CommitmentKey) (order : Nat) (m1 : ProvedMessage1) (x : Nat) (m : ProvedMessage2)
    (beta : Nat)
    (hargs : respondArgs iPublic ckI ckJ q msg1 xJ = .ok (publicKey, i, j, order, m1, x))
    (hup : up.partyJRespondProved publicKey i j order m1 x = .ok (m, beta))
    (hbeta : m.beta = beta) :
    ∃ sent, (partyJRespond env up iPublic ckI ckJ q msg1 xJ).result = .ok (sent, hexString beta) ∧
      (msg2FromHash sent).map ProvedMessage2.beta = .ok beta := by
  refine ⟨msg2ToHash m, partyJRespond_result env up iPublic ckI ckJ q msg1 xJ publicKey i j order
    m1 x m beta hargs hup, ?_⟩
  rw [msg2FromHash_msg2ToHash, ← hbeta]
  rfl

/-- An upstream that answers every response with one ciphertext and proof and
    the share it is given. -/
def respondsWith (beta : Nat) : MtaUpstream :=
  { partyIInitProved := fun _ _ _ _ => .error (.error "not an initiator"),
    partyJRespondProved := fun _ _ _ _ _ _ =>
      .ok (⟨5, ⟨1, 1, 1, 1, 1, 1, 1, 1, 1, 1⟩, beta⟩, beta),
    partyIFinishProved := fun _ _ _ _ _ _ => .error (.error "not an initiator") }

/-- No sink set. -/
def noSink : AuditEnv := { enabled := false, now := "", sha256Hex := fun _ => "" }

def samplePublic : Fields :=
  [("n", .str "23"), ("n_squared", .str "4c9"), ("g", .str "24")]

def sampleCommitmentKey : Fields := [("n_tilde", .str "23"), ("h1", .str "4"), ("h2", .str "9")]

def sampleMessage1 : Fields :=
  msg1ToHash ⟨6, ⟨1, 1, 1, 1, 1, 1⟩⟩

theorem sampleArgs_parse :
    respondArgs samplePublic sampleCommitmentKey sampleCommitmentKey "7" sampleMessage1 "2"
      = .ok (⟨35, 1225, 36⟩, ⟨35, 4, 9⟩, ⟨35, 4, 9⟩, 7, ⟨6, ⟨1, 1, 1, 1, 1, 1⟩⟩, 2) := by
  decide +kernel

/-- The responses with the shares one and two are sent alike just if one is two. -/
theorem equal_beta_sent_alike :
    (messageSent noSink (respondsWith 1) samplePublic sampleCommitmentKey sampleCommitmentKey "7"
        sampleMessage1 "2"
      = messageSent noSink (respondsWith 2) samplePublic sampleCommitmentKey sampleCommitmentKey
          "7" sampleMessage1 "2") ↔ (1 : Nat) = 2 :=
  message_independent_iff noSink (respondsWith 1) (respondsWith 2) samplePublic
    sampleCommitmentKey sampleCommitmentKey "7" sampleMessage1 "2" _ _ _ _ _ _ _ _ 1 2
    sampleArgs_parse rfl rfl rfl rfl

/-- Two responses that differ in `beta` alone are sent as different messages. -/
theorem beta_on_the_wire :
    messageSent noSink (respondsWith 1) samplePublic sampleCommitmentKey sampleCommitmentKey "7"
        sampleMessage1 "2"
      ≠ messageSent noSink (respondsWith 2) samplePublic sampleCommitmentKey sampleCommitmentKey
          "7" sampleMessage1 "2" := by
  decide +kernel

end Mta

end Confium
