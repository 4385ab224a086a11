import Mathlib.Data.PNat.Notation
import Mathlib.Data.PNat.Defs
import Confium.Lib.Run

/-!
# The Accept Loop

`start`, `stop` and `accept_loop` of the networked coordinator, between the
threads that run them. One thread controls the service: it calls `start` and
`stop`. Each `start` makes an accept thread, which takes connections off the
listener and gives each a serving thread. All they share is the instance
variables, and nothing guards those, so the other threads may run between any two
lines of a method. What is one event here is one line that reads or writes
something shared.

An accept thread reads `@server` afresh in every round. One that is still there
when the service is stopped and started again, because `join` gave up on it, goes
on with the new listener.

The system decides how its calls end. `TCPServer.new` raises or gives a port that
is never zero. `accept` waits while nobody connects, raises an `IOError` once the
listener is closed, and may raise at any time, one of the three errors that are
rescued or another, which ends the thread. So does its `Thread.new` when it raises.
The one in `start` is taken to succeed.

`connected`, `served` and `dropped` are not state of the program. They record the
connections that were made, the ones that got a serving thread and the ones that
never will.

## Main definitions

* `Listener`, `Acceptor`, `Control`: A listening socket, an accept thread, and
  where the controlling thread is.
* `State`: The service.
* `Syscall`, `Event`, `Answer`: What can happen, and what the program is told.
* `step`: The service as a machine.
* `State.pending`, `State.held`: Connections that wait.
* `Moves`: Everything an event can do.

## Theorems

* `step_moves`: Every event does one of these things.
-/

namespace Confium

namespace AcceptLoop

/-- A `TCPServer`: its port, whether it is open, and the connections that were
    made to it and not accepted yet, oldest first. -/
structure Listener where
  port : Nat
  listening : Bool
  backlog : List Nat
  deriving DecidableEq

/-- An accept thread, by the line it is about to run. -/
inductive Acceptor where
  /-- `server = @server`. -/
  | reading
  /-- `socket = server.accept`. -/
  | accepting (listener : Nat)
  /-- `Thread.new(socket)`. -/
  | starting (connection : Nat)
  /-- Past the loop, or ended by an exception. -/
  | ended (raised : Bool)
  deriving DecidableEq

/-- The controlling thread, by the line it is about to run. -/
inductive Control where
  | idle
  /-- In `start`: `TCPServer.new`. -/
  | binding
  /-- In `start`: `@server =`. -/
  | assigning (listener : Nat)
  /-- In `start`: `@port = @server.addr[1]`. -/
  | naming
  /-- In `start`: `@accept_thread = Thread.new`. -/
  | spawning
  /-- In `stop`: `@server = nil`. -/
  | clearing (listener : Nat)
  /-- In `stop`: `server.close`. -/
  | closing (listener : Nat)
  /-- In `stop`: `@accept_thread&.join(5)`. -/
  | joining
  deriving DecidableEq

/-- The service: the instance variables, the listeners and accept threads there
    ever were, and where the controlling thread is. -/
structure State where
  server : Option Nat
  port : Nat
  acceptThread : Option Nat
  listeners : List Listener
  acceptors : List Acceptor
  control : Control
  connected : Nat
  served : List Nat
  dropped : List Nat

/-- `NetworkCoordinator.new`, with the port it is given, zero for any. -/
def State.new (port : Nat) : State :=
  { server := none, port := port, acceptThread := none, listeners := [], acceptors := [],
    control := .idle, connected := 0, served := [], dropped := [] }

/-- `running?`. -/
def State.running (s : State) : Bool := s.server.isSome

/-- How a call of an accept thread ends: it does what it is for, it raises one of
    the errors that are rescued, or it raises another one. -/
inductive Syscall where
  | done
  | rescued
  | raised
  deriving DecidableEq

/-- What can happen next. -/
inductive Event where
  /-- The program calls `start` or `stop`. -/
  | start
  | stop
  /-- `TCPServer.new` raises, or binds, to this port if any will do. -/
  | bind (port : Option ℕ+)
  /-- The controlling thread runs its next line. -/
  | proceed
  /-- `join` returns, if the thread has ended or the time is up. -/
  | join (timeout : Bool)
  /-- A client connects to a port. -/
  | connect (port : Nat)
  /-- An accept thread runs its next line. -/
  | acceptor (t : Nat) (call : Syscall)
  deriving DecidableEq

/-- What the program is told. -/
inductive Answer where
  /-- Nothing yet. -/
  | none
  | returned
  /-- `RuntimeError`: `already started`. -/
  | alreadyStarted
  /-- What `TCPServer.new` raised, a `SystemCallError` or a `SocketError`, or, by
      way of `join`, what ended an accept thread, which may be a `ThreadError` as
      well. -/
  | systemCallError
  deriving DecidableEq

namespace State

/-- Whether a connection would reach a listener. -/
def reaches (port : Nat) (l : Listener) : Bool := l.listening && l.port == port

/-- Connections that were made and not accepted. -/
def pending (s : State) : List Nat := s.listeners.flatMap Listener.backlog

/-- The connection an accept thread has taken. -/
def heldBy : Acceptor → Option Nat
  | .starting c => some c
  | _ => none

/-- Connections that were accepted and have no serving thread yet. -/
def held (s : State) : List Nat := s.acceptors.filterMap heldBy

/-- Close a listener. Whoever was waiting is turned away. -/
def close (s : State) (l : Nat) (listener : Listener) : State :=
  { s with
    listeners := s.listeners.set l { listener with listening := false, backlog := [] }
    dropped := s.dropped ++ listener.backlog
    control := .joining }

/-- An accept thread goes to its next line. -/
def moveTo (s : State) (t : Nat) (a : Acceptor) : State :=
  { s with acceptors := s.acceptors.set t a }

/-- An accept thread takes the oldest connection of a listener. -/
def take (s : State) (t l : Nat) (listener : Listener) (c : Nat) (rest : List Nat) : State :=
  { s with
    listeners := s.listeners.set l { listener with backlog := rest }
    acceptors := s.acceptors.set t (.starting c) }

/-- `accept`, on a listener. -/
def accept (s : State) (t l : Nat) (listener : Listener) (call : Syscall) : State :=
  if listener.listening then
    match call, listener.backlog with
    | .rescued, _ => s.moveTo t (.ended false)
    | .raised, _ => s.moveTo t (.ended true)
    -- Nobody has connected: the thread waits.
    | .done, [] => s
    | .done, c :: rest => s.take t l listener c rest
  else s.moveTo t (.ended false)

/-- `Thread.new`. No error of this one is rescued. -/
def serve (s : State) (t c : Nat) (call : Syscall) : State :=
  match call with
  | .done => { s.moveTo t .reading with served := s.served ++ [c] }
  | _ => { s.moveTo t (.ended true) with dropped := s.dropped ++ [c] }

/-- The next line of an accept thread. -/
def runAcceptor (s : State) (t : Nat) (call : Syscall) : State :=
  match s.acceptors[t]? with
  | some .reading =>
    match s.server with
    | none => s.moveTo t (.ended false)
    | some l => s.moveTo t (.accepting l)
  | some (.accepting l) =>
    match s.listeners[l]? with
    | none => s
    | some listener => s.accept t l listener call
  | some (.starting c) => s.serve t c call
  | _ => s

/-- The next line of the controlling thread, where the system has no say. -/
def runControl (s : State) : Answer × State :=
  match s.control with
  | .assigning l => (.none, { s with server := some l, control := .naming })
  | .naming =>
    match s.server.bind (fun l => s.listeners[l]?) with
    | none => (.none, s)
    | some listener => (.none, { s with port := listener.port, control := .spawning })
  | .spawning =>
    (.returned, { s with
      acceptors := s.acceptors ++ [.reading]
      acceptThread := some s.acceptors.length
      control := .idle })
  | .clearing l => (.none, { s with server := none, control := .closing l })
  | .closing l =>
    match s.listeners[l]? with
    | none => (.none, s)
    | some listener => (.none, s.close l listener)
  | _ => (.none, s)

end State

/-- The service as a machine. -/
def step : Machine.Step State Event Answer
  | s, .start =>
    if s.control = .idle then
      if s.server.isSome then (.alreadyStarted, s) else (.none, { s with control := .binding })
    else (.none, s)
  | s, .stop =>
    if s.control = .idle then
      match s.server with
      | none => (.returned, s)
      | some l => (.none, { s with control := .clearing l })
    else (.none, s)
  | s, .bind port =>
    if s.control = .binding then
      match port with
      | none => (.systemCallError, { s with control := .idle })
      | some any =>
        -- The port of an earlier start, or of the constructor, is asked for again.
        let port := if s.port = 0 then (any : Nat) else s.port
        (.none, { s with
          listeners := s.listeners ++ [⟨port, true, []⟩]
          control := .assigning s.listeners.length })
    else (.none, s)
  | s, .proceed => s.runControl
  | s, .join timeout =>
    if s.control = .joining then
      match s.acceptThread.bind (fun t => s.acceptors[t]?) with
      | none => (.returned, { s with control := .idle })
      -- `join` raises what ended the thread.
      | some (.ended true) => (.systemCallError, { s with control := .idle })
      | some (.ended false) => (.returned, { s with control := .idle })
      | some _ => if timeout then (.returned, { s with control := .idle }) else (.none, s)
    else (.none, s)
  | s, .connect port =>
    -- At most one listener is open, so there is only one that could be meant.
    let l := s.listeners.findIdx (State.reaches port)
    match s.listeners[l]? with
    -- Refused.
    | none => (.none, s)
    | some listener =>
      (.none, { s with
        listeners := s.listeners.set l
          { listener with backlog := listener.backlog ++ [s.connected] }
        connected := s.connected + 1 })
  | s, .acceptor t call => (.none, s.runAcceptor t call)

/-- Everything an event can do, and when. -/
inductive Moves (s : State) : Event → State → Prop where
  | stays (e : Event) : Moves s e s
  | begins (hc : s.control = .idle) (hs : s.server = none) :
      Moves s .start { s with control := .binding }
  | fails (hc : s.control = .binding) : Moves s (.bind none) { s with control := .idle }
  | binds (any : ℕ+) (hc : s.control = .binding) :
      Moves s (.bind (some any)) { s with
        listeners := s.listeners ++ [⟨if s.port = 0 then (any : Nat) else s.port, true, []⟩]
        control := .assigning s.listeners.length }
  | assigns (l : Nat) (hc : s.control = .assigning l) :
      Moves s .proceed { s with server := some l, control := .naming }
  | names (l : Nat) (listener : Listener) (hc : s.control = .naming) (hs : s.server = some l)
      (hl : s.listeners[l]? = some listener) :
      Moves s .proceed { s with port := listener.port, control := .spawning }
  | spawns (hc : s.control = .spawning) :
      Moves s .proceed { s with
        acceptors := s.acceptors ++ [.reading]
        acceptThread := some s.acceptors.length
        control := .idle }
  | ends (l : Nat) (hc : s.control = .idle) (hs : s.server = some l) :
      Moves s .stop { s with control := .clearing l }
  | clears (l : Nat) (hc : s.control = .clearing l) :
      Moves s .proceed { s with server := none, control := .closing l }
  | closes (l : Nat) (listener : Listener) (hc : s.control = .closing l)
      (hl : s.listeners[l]? = some listener) : Moves s .proceed (s.close l listener)
  | joins (timeout : Bool) (hc : s.control = .joining) :
      Moves s (.join timeout) { s with control := .idle }
  | connects (port l : Nat) (listener : Listener) (hl : s.listeners[l]? = some listener)
      (hopen : listener.listening = true) :
      Moves s (.connect port) { s with
        listeners := s.listeners.set l
          { listener with backlog := listener.backlog ++ [s.connected] }
        connected := s.connected + 1 }
  | reads (t l : Nat) (call : Syscall) (ha : s.acceptors[t]? = some .reading)
      (hs : s.server = some l) : Moves s (.acceptor t call) (s.moveTo t (.accepting l))
  /-- An accept thread that has no connection ends. If no call of its own failed,
      the service was stopped. -/
  | leaves (t : Nat) (call : Syscall) (a : Acceptor) (raised : Bool)
      (ha : s.acceptors[t]? = some a) (hheld : State.heldBy a = none)
      (hwhy : call = .done → a = .reading ∧ s.server = none ∨
        ∃ l listener, a = .accepting l ∧ s.listeners[l]? = some listener ∧
          listener.listening = false) :
      Moves s (.acceptor t call) (s.moveTo t (.ended raised))
  | takes (t l : Nat) (listener : Listener) (c : Nat) (rest : List Nat)
      (ha : s.acceptors[t]? = some (.accepting l)) (hl : s.listeners[l]? = some listener)
      (hopen : listener.listening = true) (hbacklog : listener.backlog = c :: rest) :
      Moves s (.acceptor t .done) (s.take t l listener c rest)
  | serves (t c : Nat) (ha : s.acceptors[t]? = some (.starting c)) :
      Moves s (.acceptor t .done) { s.moveTo t .reading with served := s.served ++ [c] }
  | drops (t c : Nat) (call : Syscall) (ha : s.acceptors[t]? = some (.starting c))
      (hcall : call ≠ .done) :
      Moves s (.acceptor t call) { s.moveTo t (.ended true) with dropped := s.dropped ++ [c] }

/-- The lines of an accept thread. -/
theorem runAcceptor_moves (s : State) (t : Nat) (call : Syscall) :
    Moves s (.acceptor t call) (s.runAcceptor t call) := by
  unfold State.runAcceptor
  cases ha : s.acceptors[t]? with
  | none => exact .stays _
  | some a =>
      cases a with
      | reading =>
          cases hs : s.server with
          | none => exact .leaves t call _ false ha rfl (fun _ => Or.inl ⟨rfl, hs⟩)
          | some l => exact .reads t l call ha hs
      | accepting l =>
          dsimp only
          cases hl : s.listeners[l]? with
          | none => exact .stays _
          | some listener =>
              dsimp only [State.accept]
              by_cases hopen : listener.listening = true
              · rw [if_pos hopen]
                cases call with
                | rescued => exact .leaves t _ _ false ha rfl (fun h => by cases h)
                | raised => exact .leaves t _ _ true ha rfl (fun h => by cases h)
                | done =>
                    cases hbacklog : listener.backlog with
                    | nil => exact .stays _
                    | cons c rest => exact .takes t l listener c rest ha hl hopen hbacklog
              · rw [if_neg hopen]
                exact .leaves t call _ false ha rfl
                  (fun _ => Or.inr ⟨l, listener, rfl, hl, Bool.eq_false_iff.mpr hopen⟩)
      | starting c =>
          cases call with
          | done => exact .serves t c ha
          | rescued => exact .drops t c _ ha (by decide)
          | raised => exact .drops t c _ ha (by decide)
      | ended raised => exact .stays _

/-- The lines of the controlling thread. -/
theorem runControl_moves (s : State) : Moves s .proceed s.runControl.2 := by
  unfold State.runControl
  cases hc : s.control with
  | assigning l => exact .assigns l hc
  | naming =>
      dsimp only
      split
      · exact .stays _
      · next listener hl =>
          rcases Option.bind_eq_some_iff.mp hl with ⟨l, hs, hl⟩
          exact .names l listener hc hs hl
  | spawning => exact .spawns hc
  | clearing l => exact .clears l hc
  | closing l =>
      dsimp only
      cases hl : s.listeners[l]? with
      | none => exact .stays _
      | some listener => exact .closes l listener hc hl
  | _ => exact .stays _

/-- Every event does one of these things. -/
theorem step_moves (s : State) (e : Event) : Moves s e (step s e).2 := by
  cases e with
  | start =>
      simp only [step]
      by_cases hc : s.control = .idle
      · rw [if_pos hc]
        by_cases hs : s.server.isSome = true
        · rw [if_pos hs]
          exact .stays _
        · rw [if_neg hs]
          exact .begins hc (Option.not_isSome_iff_eq_none.mp hs)
      · rw [if_neg hc]
        exact .stays _
  | stop =>
      simp only [step]
      by_cases hc : s.control = .idle
      · rw [if_pos hc]
        split
        · exact .stays _
        · next l hs => exact .ends l hc hs
      · rw [if_neg hc]
        exact .stays _
  | bind port =>
      simp only [step]
      by_cases hc : s.control = .binding
      · rw [if_pos hc]
        cases port with
        | none => exact .fails hc
        | some any => exact .binds any hc
      · rw [if_neg hc]
        exact .stays _
  | proceed => exact runControl_moves s
  | join timeout =>
      simp only [step]
      by_cases hc : s.control = .joining
      · rw [if_pos hc]
        cases s.acceptThread.bind (fun t => s.acceptors[t]?) with
        | none => exact .joins timeout hc
        | some a =>
            cases a with
            | ended raised => cases raised <;> exact .joins timeout hc
            | _ =>
                cases timeout with
                | true => exact .joins true hc
                | false => exact .stays _
      · rw [if_neg hc]
        exact .stays _
  | connect port =>
      simp only [step]
      split
      · exact .stays _
      · next listener hl =>
          have hreaches := List.findIdx_getElem (w := (List.getElem?_eq_some_iff.mp hl).1)
          rw [(List.getElem?_eq_some_iff.mp hl).2] at hreaches
          exact .connects port _ listener hl (Bool.and_eq_true_iff.mp hreaches).1
  | acceptor t call => exact runAcceptor_moves s t call

end AcceptLoop

end Confium
