import Confium.Core.Connections

/-!
# Serving a Connection

The loop of the thread that serves one connection. Each line of the stream is
parsed and dispatched, and its response is written back as a line. The `rescue`
clauses stand outside the loop, so the first exception ends it: a `StandardError`
is answered with an error object, and the rest of the stream is never looked at.
Any other exception passes the clauses by and is answered with nothing. The socket
is closed whichever way the loop was left.

`Connections` follows clients that send one request each. Here a stream may carry
any number of requests and any text at all, and other connections may do what
they like to the coordinator before each line, which is what `others` says.

## Main definitions

* `Round`: A line, and what happens around it.
* `lineStep`: Handling one line, as a step of a machine.
* `rescued`: What an exception is answered with, if it is.
* `SocketEvent`, `Served`: What is done to the socket, and how it ends.
* `serve`: Serving a stream.
-/

namespace Confium

open Ruby

namespace NetworkCoordinator

open SignerClient Connections

variable {ρ : Type}

/-- A line, what the other connections do to the coordinator before it is handled,
    and the randomness an aggregation would draw. -/
structure Round (ρ : Type) where
  line : Text
  others : Coordinator Json → Coordinator Json
  randomness : ρ

/-- The block of the loop, up to the response. -/
def lineStep (codec : JsonCodec) (native : Natives Json ρ) :
    Machine.Step (Coordinator Json) (Round ρ) (Except (Exn Json) Json) :=
  fun c round =>
    match codec.parse round.line with
    -- The mutex is not taken for a line that does not parse.
    | .error text => (.error (.malformedJson text), round.others c)
    | .ok request => dispatch native (round.others c) request round.randomness

/-- The `rescue` clauses: the line an exception is answered with. What no clause
    takes is answered with none. -/
def rescued (codec : JsonCodec) (toS describe : Json → String) : Exn Json → Option Text
  | .malformedJson text => some (malformed codec text)
  | e => if e.isStandardError then some (line codec (errorObject toS describe e)) else none

/-- What is done to the socket. -/
inductive SocketEvent where
  | write (text : Text)
  | close
  deriving DecidableEq

/-- What is done to the socket, in order, and the coordinator as it is left. -/
structure Served where
  events : List SocketEvent
  coordinator : Coordinator Json

/-- The loop over the rounds, and what is around it. -/
def serveRounds (codec : JsonCodec) (toS describe : Json → String) (native : Natives Json ρ) :
    Coordinator Json → List (Round ρ) → Served
  | c, [] => ⟨[.close], c⟩
  | c, round :: rest =>
    match lineStep codec native c round with
    | (.error e, c') =>
      -- The `ensure` clause closes the socket after either.
      ⟨(rescued codec toS describe e).toList.map .write ++ [.close], c'⟩
    | (.ok response, c') =>
      let served := serveRounds codec toS describe native c' rest
      ⟨.write (line codec response) :: served.events, served.coordinator⟩

/-- The rounds of a stream. -/
def rounds (stream : Text) (others : Nat → Coordinator Json → Coordinator Json)
    (randomness : Nat → ρ) : List (Round ρ) :=
  (eachLine stream).mapIdx (fun i line => ⟨line, others i, randomness i⟩)

/-- `serve`. -/
def serve (codec : JsonCodec) (toS describe : Json → String) (native : Natives Json ρ)
    (c : Coordinator Json) (stream : Text) (others : Nat → Coordinator Json → Coordinator Json)
    (randomness : Nat → ρ) : Served :=
  serveRounds codec toS describe native c (rounds stream others randomness)

end NetworkCoordinator

end Confium
