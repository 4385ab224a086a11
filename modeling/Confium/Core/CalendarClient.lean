import Confium.Lib.Run
import Confium.Core.Parsers

/-!
# The Calendar Client

`Confium::Transparency::OTS::Client`, which anchors digests at a calendar server.
A round trip takes seconds, so the extension lets go of the interpreter's lock
for it, and other Ruby threads run meanwhile. They may call the same client.

The upstream client is in a `RefCell`, and a call holds the mutable borrow of it
from before its round trip until it returns. A second call finds the cell
borrowed and panics, which Ruby sees as `fatal`. Arguments are read before the
borrow is taken, so a call that gets them wrong raises what it raises in either
case.

Letting go of the lock and taking it again are both points where Ruby raises what
another thread or a signal has in store for this one: `Timeout`, `Thread#raise`,
an interrupt from the keyboard. It leaves the call by a jump that passes over the
borrow, so the cell stays borrowed and nobody is there to give it back.

Whatever happens between letting go of the lock and taking it again is one event
here, and so is whatever happens while it is held. What the network did during a
round trip is part of the event that ends it.

`finished` and `interrupted` are not state of the program. They record the round
trips in the order they ended, so that a run can be compared with the calls made
one after another, and whether one was left by a jump.

## Main definitions

* `CalendarUpstream`: The upstream client.
* `CalendarCall`, `Request`: A call, and what is left of it once it is read.
* `Client.perform`: A call from start to end, with nobody else about.
* `Calendar`, `Event`: The client between events, and what can happen next.
* `Calendar.call`, `Calendar.finish`, `Calendar.interrupt`: How a call gets to its
  round trip, and the ways out of it.
* `step`: The client as a machine.
-/

namespace Confium

open Ruby

namespace OTS

/-- The upstream client, with the text of an error where it can fail. What comes
    back depends on the network. -/
structure CalendarUpstream (File : Type) where
  Client : Type
  Net : Type
  withServers : List String → Client
  stampWire : Client → Bytes → Net → Except String File × Client
  upgrade : Client → File → Net → Except String File × Client
  serialize : File → Except String Bytes

/-- A call of the client. -/
inductive CalendarCall where
  | stamp (digest : Arg)
  | upgrade (proof : OtsProof)

/-- A call whose argument has been read. -/
inductive Request (File : Type) where
  | stamp (digest : Bytes)
  | upgrade (digest : Bytes) (file : File)

/-- The digest a request is about. -/
def Request.digest {File : Type} : Request File → Bytes
  | .stamp digest => digest
  | .upgrade digest _ => digest

/-- What a call raises. -/
inductive CallExn where
  | native (e : NativeError)
  /-- `fatal`: the panic of a cell that is already borrowed. -/
  | fatal
  /-- What another thread or a signal had in store. -/
  | interrupt
  deriving DecidableEq

variable (up : ParserUpstream) (calendar : CalendarUpstream up.OtsFile)

/-- What a call reads before it takes the borrow. -/
def request : CalendarCall → Except NativeError (Request up.OtsFile)
  | .stamp digest => do
    let digest ← OtsProof.rstringArg digest
    if digest.length = 32 then return .stamp digest
    else .error (.argument "digest must be exactly 32 bytes")
  | .upgrade proof => do
    let file ← (up.otsParse proof.digest proof.bytes).mapError
      (fun e => .typed "Transparency::OTS::ParseError" ("invalid OTS proof: " ++ e) [])
    return .upgrade proof.digest file

/-- The round trip, without the interpreter's lock. -/
def roundTrip (client : calendar.Client) (net : calendar.Net) :
    Request up.OtsFile → Except String up.OtsFile × calendar.Client
  | .stamp digest => calendar.stampWire client digest net
  | .upgrade _ file => calendar.upgrade client file net

/-- The label of a failed round trip. -/
def failureLabel {File : Type} : Request File → String
  | .stamp _ => "calendar stamp failed: "
  | .upgrade _ _ => "calendar upgrade failed: "

/-- What a call makes of what came back, with the lock again. -/
def conclude (r : Request up.OtsFile) (result : Except String up.OtsFile) :
    Except NativeError OtsProof := do
  let file ← result.mapError (fun e => .io (failureLabel r ++ e))
  let bytes ← (calendar.serialize file).mapError
    (fun e => .runtime ("calendar returned an unserializable proof: " ++ e))
  return ⟨r.digest, bytes⟩

/-- `Client#stamp` and `Client#upgrade`, from start to end with nobody else
    about. -/
def Client.perform : Machine.Step calendar.Client (CalendarCall × calendar.Net)
    (Except NativeError OtsProof) := fun client call =>
  match request up call.1 with
  | .error e => (.error e, client)
  | .ok r =>
    (conclude up calendar r (roundTrip up calendar client call.2 r).1,
      (roundTrip up calendar client call.2 r).2)

/-- A thread in its round trip. -/
structure InFlight (File : Type) where
  thread : Nat
  call : CalendarCall
  request : Request File

/-- A round trip that ended, and what its call answered. -/
structure Finished (Net : Type) where
  call : CalendarCall
  net : Net
  answer : Except NativeError OtsProof

/-- The client between events: the cell, whether it is borrowed, and the threads
    in their round trips. -/
structure Calendar where
  inner : calendar.Client
  borrowed : Bool
  inFlight : List (InFlight up.OtsFile)
  finished : List (Finished calendar.Net)
  interrupted : Bool

/-- What can happen next. -/
inductive Event (Net : Type) where
  /-- A thread calls the client. -/
  | call (thread : Nat) (c : CalendarCall)
  /-- A thread's round trip ends, and its call returns or raises. -/
  | finish (thread : Nat) (net : Net)
  /-- A thread is interrupted where it lets go of the lock, or where it takes it
      again after its round trip. -/
  | interrupt (thread : Nat) (net : Option Net)

/-- `Client.new`. -/
def Calendar.new (servers : List String) : Calendar up calendar :=
  ⟨calendar.withServers servers, false, [], [], false⟩

/-- The round trip of a thread, if it is in one. -/
def Calendar.ofThread (s : Calendar up calendar) (thread : Nat) : Option (InFlight up.OtsFile) :=
  s.inFlight.find? (fun f => f.thread = thread)

/-- A call up to its round trip, or to its end. -/
def Calendar.call (s : Calendar up calendar) (thread : Nat) (c : CalendarCall) :
    Option (Except CallExn OtsProof) × Calendar up calendar :=
  match request up c with
  | .error e => (some (.error (.native e)), s)
  | .ok r =>
    -- `borrow_mut`.
    if s.borrowed then (some (.error .fatal), s)
    else (none, { s with borrowed := true, inFlight := ⟨thread, c, r⟩ :: s.inFlight })

/-- A call from the end of its round trip. The borrow ends with it. -/
def Calendar.finish (s : Calendar up calendar) (f : InFlight up.OtsFile) (net : calendar.Net) :
    Except NativeError OtsProof × Calendar up calendar :=
  (conclude up calendar f.request (roundTrip up calendar s.inner net f.request).1,
    { s with
      inner := (roundTrip up calendar s.inner net f.request).2
      borrowed := false
      inFlight := s.inFlight.filter (fun g => g.thread ≠ f.thread)
      finished := s.finished ++ [⟨f.call, net,
        conclude up calendar f.request (roundTrip up calendar s.inner net f.request).1⟩] })

/-- A call that is left by a jump, before its round trip or after it. The borrow
    does not end. -/
def Calendar.interrupt (s : Calendar up calendar) (f : InFlight up.OtsFile)
    (net : Option calendar.Net) : Calendar up calendar :=
  { s with
    inner :=
      match net with
      | none => s.inner
      | some net => (roundTrip up calendar s.inner net f.request).2
    inFlight := s.inFlight.filter (fun g => g.thread ≠ f.thread)
    interrupted := true }

/-- The client as a machine, with what the event's thread returns from its call,
    if it does. -/
def step : Machine.Step (Calendar up calendar) (Event calendar.Net)
    (Option (Except CallExn OtsProof)) := fun s event =>
  match event with
  | .call thread c =>
    match s.ofThread up calendar thread with
    -- A thread in a round trip cannot call anything.
    | some _ => (none, s)
    | none => s.call up calendar thread c
  | .finish thread net =>
    match s.ofThread up calendar thread with
    | none => (none, s)
    | some f => (some ((s.finish up calendar f net).1.mapError .native),
        (s.finish up calendar f net).2)
  | .interrupt thread net =>
    match s.ofThread up calendar thread with
    | none => (none, s)
    | some f => (some (.error .interrupt), s.interrupt up calendar f net)

end OTS

end Confium
