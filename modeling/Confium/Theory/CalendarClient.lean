import Confium.Lib.Simulation
import Confium.Core.CalendarClient

/-!
# Calls of One Calendar Client Take Turns

Threads that call one calendar client while others are in their round trips. The
client lets go of the interpreter's lock for a round trip, so nothing but its
borrow keeps two of them apart. It does: of any interleaving of calls, the ones
that made a round trip could have been made one after another, by a program with
one thread, and would have been answered the same.

The others never reached the upstream client. They got their argument wrong, or
they found the client busy and raised `fatal`. That is what keeps them apart, and
no more than that: a call does not wait. A call that returns or raises by itself
leaves the client free for the next one.

A call that is interrupted does not. Nothing ends its borrow, so from then on
every call raises and the client stays as it is. One `Timeout` that fires while a
round trip is under way makes the client useless.

What comes back from a round trip is under the digest of the call, or of the
proof that was to be upgraded. If the upstream client's own files read back, then
no proof a call has returned is refused as malformed by `verify` or `upgrade`.

## Main definitions

* `TakenTurns`: The invariant.
* `ReadsBack`: The upstream client's files read back.
* `CalendarCall.digest?`: The digest a call is about.

## Theorems

* `takenTurns_step`: Every event keeps the invariant.
* `stuck_step`: A client whose borrow nobody can end stays as it is.
* `calls_take_turns`: Interleaved calls are calls made one after another.
* `returned_proofs_read_back`: The proofs that calls return.
-/

namespace Confium

namespace OTS

open Ruby Machine

variable (up : ParserUpstream) (calendar : CalendarUpstream up.OtsFile)

/-- The calls behind the round trips that ended, in order. -/
def Calendar.turns (s : Calendar up calendar) : List (CalendarCall × calendar.Net) :=
  s.finished.map (fun f => (f.call, f.net))

/-- One round trip at a time, none once one was interrupted, and the ones that
    ended made one after another. -/
structure TakenTurns (servers : List String) (s : Calendar up calendar) : Prop where
  alone : s.inFlight.length ≤ 1
  borrowed : s.borrowed = true ↔ s.inFlight ≠ [] ∨ s.interrupted = true
  left : s.interrupted = true → s.inFlight = []
  read : ∀ f ∈ s.inFlight, request up f.call = .ok f.request
  inner : s.interrupted = false → s.inner
    = run (Client.perform up calendar) (calendar.withServers servers) (s.turns up calendar)
  answered : s.finished.map Finished.answer
    = answers (Client.perform up calendar) (calendar.withServers servers) (s.turns up calendar)

/-- A call from start to end, once its argument is read. -/
theorem perform_of_request (client : calendar.Client) (c : CalendarCall) (net : calendar.Net)
    (r : Request up.OtsFile) (h : request up c = .ok r) :
    Client.perform up calendar client (c, net)
      = (conclude up calendar r (roundTrip up calendar client net r).1,
        (roundTrip up calendar client net r).2) := by
  simp only [Client.perform, h]

theorem mem_of_ofThread (s : Calendar up calendar) (thread : Nat) (f : InFlight up.OtsFile)
    (h : s.ofThread up calendar thread = some f) : f ∈ s.inFlight :=
  List.mem_of_find?_eq_some h

variable {up calendar}

theorem TakenTurns.new (servers : List String) :
    TakenTurns up calendar servers (Calendar.new up calendar servers) where
  alone := Nat.zero_le 1
  borrowed := by
    constructor
    · intro h
      exact absurd h Bool.false_ne_true
    · rintro (h | h)
      · exact absurd rfl h
      · exact absurd h Bool.false_ne_true
  left := fun _ => rfl
  read := fun _ h => absurd h List.not_mem_nil
  inner := fun _ => rfl
  answered := rfl

/-- A call leaves the client as it was, or is let in because nobody else is. -/
theorem TakenTurns.call {servers : List String} {s : Calendar up calendar}
    (h : TakenTurns up calendar servers s) (thread : Nat) (c : CalendarCall) :
    TakenTurns up calendar servers (s.call up calendar thread c).2 := by
  rw [Calendar.call]
  cases hread : request up c with
  | error e => exact h
  | ok r =>
      dsimp only
      by_cases hborrowed : s.borrowed = true
      · rw [if_pos hborrowed]
        exact h
      · rw [if_neg hborrowed]
        rw [h.borrowed, not_or, not_not] at hborrowed
        constructor
        · rw [hborrowed.1]
          exact Nat.le_refl 1
        · exact ⟨fun _ => .inl (List.cons_ne_nil _ _), fun _ => rfl⟩
        · exact fun hleft => absurd hleft hborrowed.2
        · rw [hborrowed.1, List.forall_mem_singleton]
          exact hread
        · exact h.inner
        · exact h.answered

/-- A thread in its round trip is the only one, and was not interrupted. -/
theorem TakenTurns.only {servers : List String} {s : Calendar up calendar}
    (h : TakenTurns up calendar servers s) (f : InFlight up.OtsFile) (hf : f ∈ s.inFlight) :
    s.inFlight = [f] ∧ s.interrupted = false := by
  refine ⟨?_, Bool.eq_false_iff.mpr fun hleft => List.ne_nil_of_mem hf (h.left hleft)⟩
  have hlen := h.alone
  match hs : s.inFlight with
  | [] => rw [hs] at hf; exact absurd hf List.not_mem_nil
  | [g] => rw [hs, List.mem_singleton] at hf; rw [hf]
  | _ :: _ :: _ => rw [hs] at hlen; simp only [List.length_cons] at hlen; omega

theorem filter_only (f : InFlight up.OtsFile) :
    [f].filter (fun g => g.thread ≠ f.thread) = [] :=
  List.filter_cons_of_neg (by simp only [ne_eq, not_true_eq_false, decide_false,
    Bool.false_eq_true, not_false_eq_true])

/-- The end of a round trip adds a call to the ones made one after another. -/
theorem TakenTurns.finish {servers : List String} {s : Calendar up calendar}
    (h : TakenTurns up calendar servers s) (f : InFlight up.OtsFile) (hf : f ∈ s.inFlight)
    (net : calendar.Net) : TakenTurns up calendar servers (s.finish up calendar f net).2 := by
  rcases h.only f hf with ⟨honly, hgoing⟩
  have hnone : (s.finish up calendar f net).2.inFlight = [] := by
    change s.inFlight.filter (fun g => g.thread ≠ f.thread) = []
    rw [honly]
    exact filter_only f
  have hturns : (s.finish up calendar f net).2.turns up calendar
      = s.turns up calendar ++ [(f.call, net)] := by
    change (s.finished ++ [_]).map _ = _
    rw [List.map_append]
    rfl
  have hperform := perform_of_request up calendar s.inner f.call net f.request (h.read f hf)
  constructor
  · rw [hnone]
    exact Nat.zero_le 1
  · rw [hnone]
    exact ⟨fun h => absurd h Bool.false_ne_true, fun h => h.elim (absurd rfl)
      fun h => absurd (hgoing.symm.trans h) Bool.false_ne_true⟩
  · exact fun _ => hnone
  · rw [hnone]
    exact fun _ h => absurd h List.not_mem_nil
  · intro _
    rw [hturns, run_snoc, ← h.inner hgoing, hperform]
    rfl
  · rw [hturns, answers_append, ← h.inner hgoing]
    change (s.finished ++ [_]).map Finished.answer = _
    rw [List.map_append, h.answered]
    change _ = _ ++ [(Client.perform up calendar s.inner (f.call, net)).1]
    rw [hperform]
    rfl

/-- A call that is interrupted leaves nobody in a round trip, and the client
    borrowed. -/
theorem TakenTurns.interrupt {servers : List String} {s : Calendar up calendar}
    (h : TakenTurns up calendar servers s) (f : InFlight up.OtsFile) (hf : f ∈ s.inFlight)
    (net : Option calendar.Net) :
    TakenTurns up calendar servers (s.interrupt up calendar f net) := by
  rcases h.only f hf with ⟨honly, -⟩
  have hnone : (s.interrupt up calendar f net).inFlight = [] := by
    change s.inFlight.filter (fun g => g.thread ≠ f.thread) = []
    rw [honly]
    exact filter_only f
  constructor
  · rw [hnone]
    exact Nat.zero_le 1
  · exact ⟨fun _ => .inr rfl, fun _ => h.borrowed.mpr (.inl (List.ne_nil_of_mem hf))⟩
  · exact fun _ => hnone
  · rw [hnone]
    exact fun _ h => absurd h List.not_mem_nil
  · exact fun h => absurd h.symm Bool.false_ne_true
  · exact h.answered

/-- Every event keeps the invariant. -/
theorem takenTurns_step (servers : List String) (s : Calendar up calendar)
    (event : Event calendar.Net) (h : TakenTurns up calendar servers s) :
    TakenTurns up calendar servers (step up calendar s event).2 := by
  cases event with
  | call thread c =>
      rw [step]
      cases s.ofThread up calendar thread with
      | some f => exact h
      | none => exact h.call thread c
  | finish thread net =>
      rw [step]
      cases hthread : s.ofThread up calendar thread with
      | none => exact h
      | some f => exact h.finish f (mem_of_ofThread up calendar s thread f hthread) net
  | interrupt thread net =>
      rw [step]
      cases hthread : s.ofThread up calendar thread with
      | none => exact h
      | some f => exact h.interrupt f (mem_of_ofThread up calendar s thread f hthread) net

theorem takenTurns_run (servers : List String) (events : List (Event calendar.Net)) :
    TakenTurns up calendar servers
      (run (step up calendar) (Calendar.new up calendar servers) events) :=
  run_induct (step up calendar) _ _ events (TakenTurns.new servers) (takenTurns_step servers)

variable (up calendar)

theorem ofThread_of_nil (s : Calendar up calendar) (thread : Nat) (h : s.inFlight = []) :
    s.ofThread up calendar thread = none := by
  rw [Calendar.ofThread, h]
  rfl

/-- A client whose borrow nobody can end stays as it is, and a call of it
    raises. -/
theorem stuck_step (s : Calendar up calendar) (hborrowed : s.borrowed = true)
    (hnil : s.inFlight = []) (event : Event calendar.Net) :
    (step up calendar s event).2 = s ∧
      ∀ thread c, event = .call thread c →
        ∃ e, (step up calendar s event).1 = some (.error e) := by
  cases event with
  | call thread c =>
      rw [step, ofThread_of_nil up calendar s thread hnil, Calendar.call]
      cases request up c with
      | error e => exact ⟨rfl, fun _ _ _ => ⟨.native e, rfl⟩⟩
      | ok r =>
          dsimp only
          rw [if_pos hborrowed]
          exact ⟨rfl, fun _ _ _ => ⟨.fatal, rfl⟩⟩
  | finish thread net =>
      rw [step, ofThread_of_nil up calendar s thread hnil]
      exact ⟨rfl, fun _ _ h => by cases h⟩
  | interrupt thread net =>
      rw [step, ofThread_of_nil up calendar s thread hnil]
      exact ⟨rfl, fun _ _ h => by cases h⟩

/-- Calls of one client take turns. After any interleaving of calls, ends of round
    trips and interrupts, at most one thread is in its round trip, and the round
    trips that ended were answered as if their calls had been made one after
    another. A call that is made while another thread is in its round trip raises
    `fatal`, if its argument can be read, and changes nothing. As long as no call
    was interrupted, the client is borrowed exactly while a thread is in its round
    trip, the upstream client is what the calls made one after another leave, and a
    call whose argument can be read is let in if nobody else is. Once a call was
    interrupted, nothing that happens changes the client any more, and every call of
    it raises. -/
theorem calls_take_turns (servers : List String) (events : List (Event calendar.Net)) :
    let s := run (step up calendar) (Calendar.new up calendar servers) events
    s.inFlight.length ≤ 1 ∧
      s.finished.map Finished.answer = answers (Client.perform up calendar)
        (calendar.withServers servers) (s.turns up calendar) ∧
      (∀ thread c r, request up c = .ok r → s.ofThread up calendar thread = none →
        s.inFlight ≠ [] → step up calendar s (.call thread c) = (some (.error .fatal), s)) ∧
      (s.interrupted = false →
        (s.borrowed = true ↔ s.inFlight ≠ []) ∧
        s.inner = run (Client.perform up calendar) (calendar.withServers servers)
          (s.turns up calendar) ∧
        ∀ thread c r, request up c = .ok r → s.inFlight = [] →
          (step up calendar s (.call thread c)).1 = none ∧
            (step up calendar s (.call thread c)).2.inFlight = [⟨thread, c, r⟩]) ∧
      (s.interrupted = true → ∀ more : List (Event calendar.Net),
        run (step up calendar) s more = s ∧
          ∀ thread c, ∃ e, (step up calendar s (.call thread c)).1 = some (.error e)) := by
  intro s
  have h : TakenTurns up calendar servers s := takenTurns_run servers events
  refine ⟨h.alone, h.answered, ?_, ?_, ?_⟩
  · intro thread c r hread hthread hne
    rw [step, hthread]
    dsimp only
    rw [Calendar.call, hread]
    exact if_pos (h.borrowed.mpr (.inl hne))
  · intro hgoing
    have hborrowed : s.borrowed = true ↔ s.inFlight ≠ [] := by
      rw [h.borrowed, hgoing]
      exact or_iff_left Bool.false_ne_true
    refine ⟨hborrowed, h.inner hgoing, ?_⟩
    intro thread c r hread hnil
    rw [step, ofThread_of_nil up calendar s thread hnil]
    dsimp only
    rw [Calendar.call, hread]
    dsimp only
    rw [if_neg fun hb => hborrowed.mp hb hnil, hnil]
    exact ⟨rfl, rfl⟩
  · intro hleft more
    have hnil := h.left hleft
    have hborrowed := h.borrowed.mpr (.inr hleft)
    refine ⟨?_, fun thread c => (stuck_step up calendar s hborrowed hnil _).2 thread c rfl⟩
    refine run_induct (step up calendar) (fun t => t = s) s more rfl ?_
    intro t event ht
    rw [ht]
    exact (stuck_step up calendar s hborrowed hnil event).1

/-- The files of the upstream client read back under the digest they are for, from
    what it serializes them as. -/
structure ReadsBack : Prop where
  stamp : ∀ client client' digest net file bytes,
    calendar.stampWire client digest net = (.ok file, client') →
      calendar.serialize file = .ok bytes → up.otsParse digest bytes = .ok file
  upgrade : ∀ client client' digest bytes bytes' net file file',
    up.otsParse digest bytes = .ok file → calendar.upgrade client file net = (.ok file', client') →
      calendar.serialize file' = .ok bytes' → up.otsParse digest bytes' = .ok file'

/-- The digest that a call is about: the argument's bytes, or the proof's. -/
def CalendarCall.digest? : CalendarCall → Option Bytes
  | .stamp digest => (OtsProof.rstringArg digest).toOption
  | .upgrade proof => some proof.digest

theorem conclude_eq_ok_iff (r : Request up.OtsFile) (result : Except String up.OtsFile)
    (proof : OtsProof) : conclude up calendar r result = .ok proof ↔
      ∃ file bytes, result = .ok file ∧ calendar.serialize file = .ok bytes ∧
        proof = ⟨r.digest, bytes⟩ := by
  simp only [conclude, bind_eq_ok_iff, mapError_eq_ok_iff, pure, Except.pure, Except.ok.injEq]
  constructor
  · rintro ⟨file, hfile, bytes, hbytes, hproof⟩
    exact ⟨file, bytes, hfile, hbytes, hproof.symm⟩
  · rintro ⟨file, bytes, hfile, hbytes, hproof⟩
    exact ⟨file, hfile, bytes, hbytes, hproof.symm⟩

/-- A proof that a call returns is under the digest of the call, and reads back. -/
theorem perform_reads_back (hback : ReadsBack up calendar) (client : calendar.Client)
    (c : CalendarCall) (net : calendar.Net) (proof : OtsProof)
    (h : (Client.perform up calendar client (c, net)).1 = .ok proof) :
    c.digest? = some proof.digest ∧ ∃ file, up.otsParse proof.digest proof.bytes = .ok file := by
  cases hread : request up c with
  | error e =>
      simp only [Client.perform, hread, reduceCtorEq] at h
  | ok r =>
      rw [perform_of_request up calendar client c net r hread, conclude_eq_ok_iff] at h
      rcases h with ⟨file, bytes, hfile, hbytes, hproof⟩
      rw [hproof]
      cases c with
      | stamp digest =>
          simp only [request, bind_eq_ok_iff] at hread
          rcases hread with ⟨d, hd, hr⟩
          by_cases hlen : d.length = 32
          · rw [if_pos hlen] at hr
            rw [← Except.ok.inj hr] at hfile ⊢
            refine ⟨?_, file, hback.stamp client _ d net file bytes (Prod.ext hfile rfl) hbytes⟩
            rw [CalendarCall.digest?, hd]
            rfl
          · rw [if_neg hlen] at hr
            cases hr
      | upgrade old =>
          simp only [request, bind_eq_ok_iff, mapError_eq_ok_iff] at hread
          rcases hread with ⟨oldFile, hold, hr⟩
          rw [← Except.ok.inj hr] at hfile ⊢
          exact ⟨rfl, file, hback.upgrade client _ old.digest old.bytes bytes net oldFile file hold
            (Prod.ext hfile rfl) hbytes⟩

/-- The proofs that calls return read back. Whatever the interleaving, a proof that
    a finished call returned is under the digest the call was about, `upgrade` takes
    it, and `verify` raises no more than replaying its file does. -/
theorem returned_proofs_read_back (hback : ReadsBack up calendar) (servers : List String)
    (events : List (Event calendar.Net)) :
    ∀ f ∈ (run (step up calendar) (Calendar.new up calendar servers) events).finished,
      ∀ proof, f.answer = .ok proof →
        f.call.digest? = some proof.digest ∧
          ∃ file, request up (.upgrade proof) = .ok (.upgrade proof.digest file) ∧
            (proof.verify up).result
              = ((up.otsVerify file).mapError (fun e => .runtime ("replay failed: " ++ e))).map
                  (fun found => (found, !found.bitcoin.isEmpty || !found.litecoin.isEmpty)) := by
  intro f hf proof hproof
  have hturns : TakenTurns up calendar servers
      (run (step up calendar) (Calendar.new up calendar servers) events) :=
    takenTurns_run servers events
  rcases exists_step_of_answers _ _ _ _ _ hturns.answered f hf with ⟨client, hclient⟩
  rw [hproof] at hclient
  rcases perform_reads_back up calendar hback client f.call f.net proof hclient.symm
    with ⟨hdigest, file, hfile⟩
  refine ⟨hdigest, file, ?_, ?_⟩
  · rw [request, hfile]
    rfl
  · rw [OtsProof.verify, hfile, Eff.result_bind_ok _ _ file rfl]
    cases up.otsVerify file with
    | error e => rfl
    | ok found => rfl

/-- What a timestamp file begins with: the magic, the version, and the operation
    that made its digest. -/
def otsHeader : Bytes :=
  [0x00, 0x4f, 0x70, 0x65, 0x6e, 0x54, 0x69, 0x6d, 0x65, 0x73, 0x74, 0x61, 0x6d, 0x70, 0x73, 0x00,
    0x00, 0x50, 0x72, 0x6f, 0x6f, 0x66, 0x00, 0xbf, 0x89, 0xe2, 0xe8, 0x84, 0xe8, 0x92, 0x94, 0x01,
    0x08]

/-- Reading a file under a digest: the digest, and what follows the header. -/
def otsRead (digest bytes : Bytes) : Except String (Bytes × Bytes) :=
  if otsHeader.isPrefixOf bytes then .ok (digest, bytes.drop otsHeader.length)
  else .error "bad magic"

theorem otsRead_header (digest rest : Bytes) :
    otsRead digest (otsHeader ++ rest) = .ok (digest, rest) := by
  rw [otsRead, if_pos (List.isPrefixOf_iff_prefix.mpr (List.prefix_append _ _)), List.drop_left]

theorem otsRead_digest (digest bytes : Bytes) (file : Bytes × Bytes)
    (h : otsRead digest bytes = .ok file) : file.1 = digest := by
  unfold otsRead at h
  split at h
  · rw [← Except.ok.inj h]
  · cases h

/-- Parsers of timestamp files alone. -/
def fileParsers : ParserUpstream where
  Certificate := Unit
  certificateFromDer := fun _ => .error ("", none)
  certificateFromPem := fun _ => .error ""
  Time := Unit
  utcNow := ()
  parseFromRfc3339 := fun _ => .error ""
  isWithinValidity := fun _ _ => false
  PathVerdict := Unit
  validatePath := fun _ _ _ _ => ()
  Csr := Unit
  csrFromDer := fun _ => .error ("", none)
  csrFromPem := fun _ => .error ""
  SignedData := Unit
  signedDataFromStr := fun _ => .error ""
  buildDetachedSignature := fun _ _ _ => .error ""
  canonicalize := .error
  canonicalizeExclusive := .error
  Actor := Unit
  actorFromStr := fun _ => .error ""
  Manifest := Unit
  parseManifest := fun _ => .error ""
  Predicate := Unit
  dslParse := fun _ => .error ""
  OtsFile := Bytes × Bytes
  otsParse := otsRead
  otsVerify := fun _ => .ok ⟨["http://127.0.0.1:9/cal"], [], []⟩

/-- The attestation that a calendar has yet to anchor a digest. -/
def pendingTag : Bytes := [0x00, 0x83, 0xdf, 0xe3, 0x0d, 0x2e, 0xf9, 0x0c, 0x8e, 0x00]

/-- A calendar that answers a stamp with a pending attestation, and adds another
    at each upgrade. What the network does is be there or not. -/
def stubCalendar : CalendarUpstream (Bytes × Bytes) where
  Client := Nat
  Net := Bool
  withServers := List.length
  stampWire := fun trips digest up =>
    (if up then .ok (digest, pendingTag) else .error "unreachable", trips + 1)
  upgrade := fun trips file up =>
    (if up then .ok (file.1, file.2 ++ pendingTag) else .error "unreachable", trips + 1)
  serialize := fun file => .ok (otsHeader ++ file.2)

theorem readsBack_stubCalendar : ReadsBack fileParsers stubCalendar where
  stamp := by
    intro client client' digest net file bytes hstamp hbytes
    cases net with
    | false =>
        have hfailed : Except.error "unreachable" = Except.ok file := (Prod.mk.inj hstamp).1
        cases hfailed
    | true =>
        rw [← Except.ok.inj (Prod.mk.inj hstamp).1] at hbytes ⊢
        rw [← Except.ok.inj hbytes]
        exact otsRead_header _ _
  upgrade := by
    intro client client' digest bytes bytes' net file file' hfile hupgrade hbytes
    cases net with
    | false =>
        have hfailed : Except.error "unreachable" = Except.ok file' := (Prod.mk.inj hupgrade).1
        cases hfailed
    | true =>
        rw [← Except.ok.inj (Prod.mk.inj hupgrade).1] at hbytes ⊢
        rw [← Except.ok.inj hbytes, otsRead_digest digest bytes file hfile]
        exact otsRead_header _ _

/-- Two threads stamp a digest at once. The second finds the client busy, and the
    first returns a proof that `upgrade` takes. -/
theorem returned_proofs_read_back_of_two_threads :
    ∃ file, request fileParsers (.upgrade ⟨List.replicate 32 7, otsHeader ++ pendingTag⟩)
      = .ok (.upgrade (List.replicate 32 7) file) := by
  have h := returned_proofs_read_back fileParsers stubCalendar readsBack_stubCalendar []
    [.call 1 (.stamp (.str (RString.binary (List.replicate 32 7)))),
      .call 2 (.stamp (.str (RString.binary (List.replicate 32 7)))), .finish 1 true]
    ⟨.stamp (.str (RString.binary (List.replicate 32 7))), true,
      .ok ⟨List.replicate 32 7, otsHeader ++ pendingTag⟩⟩ List.mem_cons_self
    ⟨List.replicate 32 7, otsHeader ++ pendingTag⟩ rfl
  rcases h.2 with ⟨file, hfile, -⟩
  exact ⟨file, hfile⟩

end OTS

end Confium
