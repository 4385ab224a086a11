import Confium.Core.CalendarClient
import Confium.Core.MerkleTree

/-!
# Entry Points That Take Digests

Evidence records, the log and the calendar client, as entry points whose calls of
the libraries underneath can be seen. What the log and the calendar do over time is
modelled elsewhere, with their state. Here each is one call, and SHA-256 is a
library like any other.

An evidence record is built for a digest, and renewed for another, with the name of
a timestamping authority and the token it gave. Both of these may be left out.

## Main definitions

* `ERS.recordArgs`, `ERS.buildInitial`, `ERS.renew`: Evidence records.
* `Transparency.hashing`: Hashing as calls of a library.
* `Transparency.appendCall`, `Transparency.verifyConsistencyCall`: Calls of a log.
* `OTS.clientNew`, `OTS.stampCall`: Calls of a calendar client.

## Theorems

* `appendCall_result`, `verifyConsistencyCall_result`, `stampCall_result`: They
  return what the models with a state do.
-/

namespace Confium

open Ruby Composite

namespace ERS

/-- The upstream evidence records. -/
structure EvidenceUpstream where
  EvidenceRecord : Type
  buildInitialEvidenceRecord : Digest → String → Bytes → EvidenceRecord
  renewEvidenceRecord : EvidenceRecord → Digest → String → Bytes → EvidenceRecord

variable (up : EvidenceUpstream) (transcoder : Transcoder)

/-- What `build_initial` and `renew` read: a digest, and as much of the rest as
    they are given. -/
def recordArgs (name : String) : List Arg → Except NativeError (Digest × String × Bytes)
  | [] => .error (.argument (name ++ " required"))
  | first :: rest => do
    let hash ← Transparency.hashArg name first.field
    let tsaId ←
      match rest[0]? with
      | some v => v.text transcoder
      | none => .ok ""
    let token ←
      match rest[1]? with
      | some v => v.bytes
      | none => .ok []
    return (hash, tsaId, token)

/-- `EvidenceRecord.build_initial`. -/
def buildInitial (args : List Arg) : Native up.EvidenceRecord := do
  let (hash, tsaId, token) ← Eff.ofExcept (recordArgs transcoder "data_hash" args)
  Eff.perform (.upstream "build_initial_evidence_record")
    (.ok (up.buildInitialEvidenceRecord hash tsaId token))

/-- `EvidenceRecord#renew`, of a copy. -/
def renew (record : up.EvidenceRecord) (args : List Arg) : Native up.EvidenceRecord := do
  let (hash, tsaId, token) ← Eff.ofExcept (recordArgs transcoder "new_hash" args)
  Eff.perform (.upstream "renew_evidence_record")
    (.ok (up.renewEvidenceRecord record hash tsaId token))

end ERS

namespace Transparency

/-- A computation that hashes, as an entry point that calls a library for it. -/
def hashing {α : Type} (x : Hashing α) : Native α :=
  ⟨x.log.map (fun _ => .upstream "Sha256::digest"), x.result⟩

variable (up : LogUpstream)

/-- `append`. -/
def appendCall (t : up.Tree) (now : String) (artifactHash : FieldValue) : Native Nat := do
  let d ← Eff.ofExcept (digestArg "artifact_hash" artifactHash)
  Eff.perform (.upstream "MerkleTree::append") (.ok (up.append t now d).1)

theorem appendCall_result (t : up.Tree) (now : String) (artifactHash : FieldValue) :
    (appendCall up t now artifactHash).result = (appendEntry up t now artifactHash).1 := by
  unfold appendCall appendEntry
  cases digestArg "artifact_hash" artifactHash with
  | error e => rfl
  | ok d => rfl

/-- What `verify_consistency` reads. -/
def verifyConsistencyArgs (oldRoot newRoot : FieldValue) (oldSize newSize : Int)
    (proof : List FieldValue) :
    Except NativeError (Nat × Nat × Digest × Digest × List Digest) := do
  let oldSize ← wordArg oldSize
  let newSize ← wordArg newSize
  let oldRoot ← hashArg "old_root" oldRoot
  let newRoot ← hashArg "new_root" newRoot
  let proof ← proof.mapM (hashArg "proof entries")
  return (oldSize, newSize, oldRoot, newRoot, proof)

/-- `verify_consistency`. -/
def verifyConsistencyCall (t : up.Tree) (oldRoot newRoot : FieldValue) (oldSize newSize : Int)
    (proof : List FieldValue) : Native Bool := do
  let (oldSize, newSize, oldRoot, newRoot, proof) ←
    Eff.ofExcept (verifyConsistencyArgs oldRoot newRoot oldSize newSize proof)
  delegated "MerkleTree::verify_consistency" (verificationError "MerkleTree.verify_consistency")
    ((up.verifyConsistency t oldRoot newRoot oldSize newSize proof).map (fun _ => true))

theorem verifyConsistencyCall_result (t : up.Tree) (oldRoot newRoot : FieldValue)
    (oldSize newSize : Int) (proof : List FieldValue) :
    (verifyConsistencyCall up t oldRoot newRoot oldSize newSize proof).result
      = verifyConsistency up t oldRoot newRoot oldSize newSize proof := by
  have hcall : (verifyConsistencyCall up t oldRoot newRoot oldSize newSize proof).result
      = verifyConsistencyArgs oldRoot newRoot oldSize newSize proof >>= fun args =>
        ((up.verifyConsistency t args.2.2.1 args.2.2.2.1 args.1 args.2.1 args.2.2.2.2).map
          (fun _ => true)).mapError (verificationError "MerkleTree.verify_consistency") := by
    unfold verifyConsistencyCall
    cases verifyConsistencyArgs oldRoot newRoot oldSize newSize proof with
    | error e => rfl
    | ok args => rfl
  rw [hcall]
  unfold verifyConsistencyArgs verifyConsistency
  simp only [bind_assoc, pure_bind]
  refine bind_congr fun n => bind_congr fun m => bind_congr fun old => bind_congr fun new =>
    bind_congr fun hashes => ?_
  cases up.verifyConsistency t old new n m hashes with
  | error text => rfl
  | ok u => rfl

end Transparency

namespace OTS

variable (up : ParserUpstream) (calendar : CalendarUpstream up.OtsFile) (transcoder : Transcoder)

/-- A `Vec<String>`. -/
def serversArg (servers : Arg) : Except NativeError (List String) := do
  let items ← servers.items
  items.mapM (Arg.text transcoder)

/-- `Client.new`. -/
def clientNew (servers : Arg) : Native calendar.Client := do
  let servers ← Eff.ofExcept (serversArg transcoder servers)
  Eff.perform (.upstream "OtsClient::with_servers") (.ok (calendar.withServers servers))

/-- `Client#stamp`, with nobody else about. -/
def stampCall (client : calendar.Client) (net : calendar.Net) (digest : Arg) :
    Native OtsProof := do
  let r ← Eff.ofExcept (request up (.stamp digest))
  Eff.perform (.upstream "OtsClient::stamp_wire")
    (conclude up calendar r (roundTrip up calendar client net r).1)

theorem stampCall_result (client : calendar.Client) (net : calendar.Net) (digest : Arg) :
    (stampCall up calendar client net digest).result
      = (Client.perform up calendar client (.stamp digest, net)).1 := by
  unfold stampCall Client.perform
  cases hrequest : request up (.stamp digest) with
  | error e => rfl
  | ok r => rfl

end OTS

end Confium
