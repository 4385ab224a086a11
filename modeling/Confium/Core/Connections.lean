import Confium.Lib.Run
import Confium.Core.SignerClient

/-!
# Concurrent Connections

The coordinator service with any number of clients at work. Every client call
opens a connection of its own, and the server gives every connection a thread of
its own, so at any moment there are many connections, each somewhere between the
client's request and its return. The one thing the threads share is the
coordinator, and a thread holds the mutex while it dispatches.

A connection moves through five phases: the request is on its way, the thread
has parsed it, the thread has dispatched it, the answer is on its way, the call
has returned. The answer to an exception that is no `StandardError` is the empty
stream: the thread ends, and all it does is close the socket. An event moves one
connection by one phase, or opens a new one, and a run is any list of events at all:
whatever the network and the scheduler do, they do it in some order. An event whose
connection is not in the phase it wants does nothing.

`order` is not state of the program. It records the connections as they take the
mutex, so that a run can be compared with the calls made one after another.

## Main definitions

* `Phase`, `Connection`: A connection and how far it is.
* `Dispatched`: A connection that took the mutex.
* `Service`: The coordinator, its connections, and the order of dispatch.
* `Event`: What can happen next.
* `answer`: What a dispatched request is answered with.
* `step`: The service as a machine.
-/

namespace Confium

open Ruby

namespace Connections

open SignerClient

/-- How far a connection is. -/
inductive Phase where
  | sent (stream : Text)
  | parsed (request : Json)
  | dispatched (response : Except (Exn Json) Json)
  | answered (stream : Text)
  | returned (result : Except ClientExn ClientValue)
  deriving DecidableEq

/-- A client call on its connection. -/
structure Connection where
  call : ClientCall
  phase : Phase

/-- A connection that took the mutex, with the randomness its combine drew. -/
structure Dispatched (ρ : Type) where
  connection : Nat
  call : ClientCall
  randomness : ρ

/-- The direct call it stands for. -/
def Dispatched.op {ρ : Type} (d : Dispatched ρ) : CoordinatorOp Json ρ :=
  directOp d.call d.randomness

/-- The service: the shared coordinator, every connection opened so far, and the
    order in which they took the mutex. -/
structure Service (ρ : Type) where
  coordinator : Coordinator Json
  connections : List Connection
  order : List (Dispatched ρ)

/-- What can happen next. -/
inductive Event (ρ : Type) where
  /-- A client opens a connection and writes its request. -/
  | connect (call : ClientCall)
  /-- The serving thread reads the line and parses it. -/
  | read (i : Nat)
  /-- The serving thread takes the mutex and dispatches. -/
  | dispatch (i : Nat) (r : ρ)
  /-- The serving thread writes the answer. -/
  | respond (i : Nat)
  /-- The client reads the answer and returns from its call. -/
  | receive (i : Nat)

variable {ρ : Type}

/-- A service with no connections yet. -/
def start (c : Coordinator Json) : Service ρ := ⟨c, [], []⟩

/-- What a dispatched request is answered with. -/
def answer (codec : JsonCodec) (toS describe : Json → String) :
    Except (Exn Json) Json → Text
  | .ok response => line codec response
  | .error e =>
    if e.isStandardError then line codec (NetworkCoordinator.errorObject toS describe e)
    -- No `rescue` clause takes it, and the socket is closed with nothing written.
    else []

/-- The line a request that does not parse is answered with. -/
def malformed (codec : JsonCodec) (text : String) : Text :=
  line codec (.obj [("error", .str "RequestError"), ("message", .str ("malformed JSON: " ++ text))])

/-- Reading: the first line of the request, parsed. -/
def readPhase (codec : JsonCodec) (conn : Connection) : Option Phase :=
  match conn.phase with
  | .sent stream =>
    match codec.parse (firstLine stream) with
    | .ok request => some (.parsed request)
    -- Answered without taking the mutex.
    | .error text => some (.answered (malformed codec text))
  | _ => none

/-- Answering. -/
def respondPhase (codec : JsonCodec) (toS describe : Json → String) (conn : Connection) :
    Option Phase :=
  match conn.phase with
  | .dispatched response => some (.answered (answer codec toS describe response))
  | _ => none

/-- Returning. -/
def receivePhase (codec : JsonCodec) (conn : Connection) : Option Phase :=
  match conn.phase with
  | .answered stream => some (.returned (receive codec conn.call stream))
  | _ => none

/-- Move one connection, if it is in the right phase. -/
def Service.advance (s : Service ρ) (i : Nat) (next : Connection → Option Phase) : Service ρ :=
  match s.connections[i]? with
  | none => s
  | some conn =>
    match next conn with
    | none => s
    | some phase => { s with connections := s.connections.set i ⟨conn.call, phase⟩ }

/-- Dispatch one connection's request under the mutex, if it is parsed. -/
def Service.dispatch (native : Natives Json ρ) (s : Service ρ) (i : Nat) (r : ρ) : Service ρ :=
  match s.connections[i]? with
  | none => s
  | some conn =>
    match conn.phase with
    | .parsed request =>
      -- The mutex is held from here to the end of the step: dispatching is one event.
      let (response, coordinator) := NetworkCoordinator.dispatch native s.coordinator request r
      { coordinator := coordinator
        connections := s.connections.set i ⟨conn.call, .dispatched response⟩
        order := s.order ++ [⟨i, conn.call, r⟩] }
    | _ => s

/-- The service as a machine. -/
def step (codec : JsonCodec) (toS describe : Json → String) (native : Natives Json ρ) :
    Machine.Step (Service ρ) (Event ρ) Unit
  | s, .connect call =>
    ((), { s with connections := s.connections ++ [⟨call, .sent (line codec (request call))⟩] })
  | s, .read i => ((), s.advance i (readPhase codec))
  | s, .dispatch i r => ((), s.dispatch native i r)
  | s, .respond i => ((), s.advance i (respondPhase codec toS describe))
  | s, .receive i => ((), s.advance i (receivePhase codec))

end Connections

end Confium
