import Confium.Lib.Effect
import Confium.Core.Native

/-!
# Audit Events of the Native Extension

What a native entry point does that the caller does not see in its result: it
calls into an upstream library, and it tells the audit sink. `Native` logs both,
in order, beside the result.

`fire_event` is best effort. Without a sink it does nothing, and an exception of
the sink is reported on stderr and goes no further, so firing an event never
changes what the entry point returns. The record carries the time, the
operation, its result, the hex digest of what was signed, and the algorithm and
the error where there are any.

Most entry points that fire events do it around one upstream call: an event
after it whether it returned or failed, and then the result or the exception.
`recorded` is that pattern. `delegated` is the other one, an upstream call with
no event.

There is a third way for an upstream call to end. A panic unwinds past the entry
point, and past the line that fires the event, to the bindings, which raise it
as `fatal`.

## Main definitions

* `AuditRecord`: What a sink receives.
* `NativeEvent`, `Native`: What an entry point does, and an entry point.
* `Failure`: How an upstream call ends that does not return.
* `AuditEnv`: The sink, the clock and the digest `fire_event` finds.
* `fireEvent`: `fire_event`.
* `recorded`, `delegated`: An upstream call, with and without an event.
* `records`, `upstreamCalls`: The two parts of a log.

## Theorems

* `records_recorded`, `records_recorded_of_panic`, `records_delegated`: What the
  sink receives of each.
-/

namespace Confium

open Ruby

/-- What a sink receives. -/
structure AuditRecord where
  timestamp : String
  operation : String
  result : String
  payloadHash : String
  algorithm : Option String
  error : Option String
  deriving DecidableEq

/-- What an entry point does besides returning. -/
inductive NativeEvent where
  /-- A call into an upstream library. -/
  | upstream (routine : String)
  /-- A record handed to the sink. -/
  | audit (record : AuditRecord)
  deriving DecidableEq

/-- A native entry point: its events and its result. -/
abbrev Native := Eff NativeEvent NativeError

/-- What `fire_event` finds: whether a sink is set, the time, and SHA-256 in
    hexadecimal. -/
structure AuditEnv where
  enabled : Bool
  now : String
  sha256Hex : Bytes → String

/-- `fire_event`. -/
def fireEvent (env : AuditEnv) (operation result : String) (algorithm : Option String)
    (payload : Option Bytes) (error : Option String) : Native Unit :=
  if env.enabled then
    -- Whatever the sink raises is swallowed, so receiving is all that shows.
    Eff.emit (.audit ⟨env.now, operation, result, (payload.map env.sha256Hex).getD "", algorithm,
      error⟩)
  else pure ()

/-- How an upstream call ends that does not return. -/
inductive Failure where
  /-- It returns an error, by its text. -/
  | error (text : String)
  /-- It panics. -/
  | panic (text : String)
  deriving DecidableEq

/-- What is raised of it. -/
def Failure.raised (failure : String → NativeError) : Failure → NativeError
  | .error text => failure text
  | .panic text => .fatal text

/-- An error with a label in front. -/
def Failure.labelled (label : String) : Failure → Failure
  | .error text => .error (label ++ text)
  | .panic text => .panic text

variable {α β : Type}

/-- The call panics. -/
def Panics (x : Except Failure α) : Prop := ∃ text, x = .error (.panic text)

instance (x : Except Failure α) : Decidable (Panics x) :=
  match x with
  | .ok _ => isFalse (fun ⟨_, h⟩ => nomatch h)
  | .error (.error _) => isFalse (fun ⟨_, h⟩ => nomatch h)
  | .error (.panic text) => isTrue ⟨text, rfl⟩

/-- A label changes nothing about that. -/
theorem panics_labelled_iff (label : String) (x : Except Failure α) :
    Panics (x.mapError (Failure.labelled label)) ↔ Panics x := by
  cases x with
  | ok a => exact iff_of_false (fun ⟨_, h⟩ => nomatch h) (fun ⟨_, h⟩ => nomatch h)
  | error e =>
      cases e with
      | error text => exact iff_of_false (fun ⟨_, h⟩ => nomatch h) (fun ⟨_, h⟩ => nomatch h)
      | panic text => exact iff_of_true ⟨text, rfl⟩ ⟨text, rfl⟩

/-- An upstream call with an event after it, if it gets there. -/
def recorded (env : AuditEnv) (routine operation algorithm : String) (payload : Option Bytes)
    (failure : String → NativeError) (x : Except Failure α) : Native α := do
  Eff.emit (.upstream routine)
  match x with
  | .ok a =>
    fireEvent env operation "success" (some algorithm) payload none
    return a
  | .error (.error text) =>
    fireEvent env operation "failure" (some algorithm) payload (some text)
    Eff.raise (failure text)
  -- Unwinding takes neither branch, so no event is fired.
  | .error (.panic text) => Eff.raise (.fatal text)

/-- An upstream call with no event. -/
def delegated {ε : Type} (routine : String) (failure : ε → NativeError) (x : Except ε α) :
    Native α :=
  Eff.perform (.upstream routine) (x.mapError failure)

/-- The records a sink received. -/
def records (log : List NativeEvent) : List AuditRecord :=
  log.filterMap fun
    | .audit record => some record
    | .upstream _ => none

/-- The upstream routines that were called. -/
def upstreamCalls (log : List NativeEvent) : List String :=
  log.filterMap fun
    | .upstream routine => some routine
    | .audit _ => none

/-- The word a record has for how a call went. -/
def resultWord : Except NativeError α → String
  | .ok _ => "success"
  | .error _ => "failure"

theorem records_append (l l' : List NativeEvent) : records (l ++ l') = records l ++ records l' :=
  List.filterMap_append

/-- An upstream call that is recorded leaves one record, with the word for how
    it went. -/
theorem records_recorded (env : AuditEnv) (routine operation algorithm : String)
    (payload : Option Bytes) (failure : String → NativeError) (x : Except Failure α)
    (henv : env.enabled = true) (hx : ¬ Panics x) :
    ∃ record,
      records (recorded env routine operation algorithm payload failure x).log = [record] ∧
        record.result
          = resultWord (recorded env routine operation algorithm payload failure x).result := by
  unfold recorded fireEvent
  cases x with
  | ok a =>
      simp only [henv, if_true]
      exact ⟨_, rfl, rfl⟩
  | error e =>
      cases e with
      | error text =>
          simp only [henv, if_true]
          exact ⟨_, rfl, rfl⟩
      | panic text => exact absurd ⟨text, rfl⟩ hx

/-- One that panics leaves none. -/
theorem records_recorded_of_panic (env : AuditEnv) (routine operation algorithm : String)
    (payload : Option Bytes) (failure : String → NativeError) (x : Except Failure α)
    (hx : Panics x) :
    records (recorded env routine operation algorithm payload failure x).log = [] := by
  rcases hx with ⟨text, rfl⟩
  rfl

/-- A recorded call returns what upstream did. -/
theorem recorded_result (env : AuditEnv) (routine operation algorithm : String)
    (payload : Option Bytes) (failure : String → NativeError) (x : Except Failure α) :
    (recorded env routine operation algorithm payload failure x).result
      = x.mapError (Failure.raised failure) := by
  unfold recorded fireEvent
  cases x with
  | ok a => cases env.enabled <;> rfl
  | error e =>
      cases e with
      | error text => cases env.enabled <;> rfl
      | panic text => rfl

/-- An upstream call that is not recorded leaves none. -/
theorem records_delegated {ε : Type} (routine : String) (failure : ε → NativeError)
    (x : Except ε α) : records (delegated routine failure x).log = [] := rfl

end Confium
