import Confium.Core.SigningSession

/-!
# The In-Process Coordinator

The session registry behind both adapters. `createSession` names a session
after the size of the registry and stores it; every other entry point fetches a
session by id and delegates to it.

`withSession` is the delegation. The registry holds sessions by reference, so
whatever a session operation did to its session is visible in the registry
afterwards, raising or not, and an id the registry does not hold raises before
any session is touched.

The registry's own keys are Strings, and a value is `eql?` to a String only if it
is that String, so looking an id up compares values.

Ids are not tracked anywhere else. The next id is read off the number of
sessions, and the assignment into the registry does not check whether the id is
taken, so nothing here says that two sessions cannot share one.

## Main definitions

* `Coordinator`: The session registry.
* `sessionId`: The id of the n-th session.
* `Coordinator.createSession`: Registering a new session.
* `Coordinator.withSession`: Fetching a session and delegating to it.
* `Coordinator.submitCommitment`, `Coordinator.submitShare`,
  `Coordinator.aggregate`: The delegating entry points.
* `CoordinatorOp`, `Coordinator.step`: The entry points as steps of a machine.
* `Coordinator.after`, `Coordinator.history`: A run from a new coordinator.
* `Coordinator.Panics`: A call that is about to reach a combine that panics.

## Theorems

* `sessionId_injective`: Different numbers give different ids.
* `createSession_of_unknown`, `createSession_of_known`: The two outcomes of a
  creation.
* `step_call_of_unknown`, `step_call_of_known`: The two outcomes of a
  delegation.
* `step_fatal_iff`: Which calls raise `fatal`.
-/

namespace Confium

open Ruby

/-- The registry: sessions by id. -/
@[ext] structure Coordinator (V : Type) where
  sessions : Hash V (SigningSession V)
  deriving DecidableEq

/-- The calls a coordinator serves. Everything but creation goes to one
    session. -/
inductive CoordinatorOp (V ρ : Type) where
  | createSession (message : Bytes) (threshold unlockWindow scheme : V)
  | call (sessionId : V) (op : SessionOp V ρ)

/-- The id of the `n`-th session, `"session-#{n}"`. -/
def sessionId (n : Nat) : String := "session-" ++ toString n

theorem sessionId_injective : Function.Injective sessionId := by
  intro m n h
  have hrepr : m.repr = n.repr := (String.append_right_inj "session-").mp h
  -- The decimal digits read back as the number they were written from.
  have hdigits : Nat.toDigits 10 m = Nat.toDigits 10 n := by
    rw [← Nat.toList_repr, ← Nat.toList_repr, hrepr]
  rw [← Nat.ofDigitChars_ten_toDigits (n := m), hdigits, Nat.ofDigitChars_ten_toDigits]

namespace Coordinator

variable {V ρ : Type} [DecidableEq V] [Object V]

omit [DecidableEq V] [Object V] in
/-- A coordinator with no sessions. -/
def new : Coordinator V := ⟨Hash.empty⟩

def createSession (c : Coordinator V) (message : Bytes) (threshold unlockWindow scheme : V) :
    Outcome V × Coordinator V :=
  -- The session is built before it is assigned, so a failed build registers nothing.
  let id : V := Object.str (sessionId (c.sessions.length + 1))
  match SigningSession.new message threshold unlockWindow scheme with
  | .error e => (.raise e, c)
  | .ok session => (.reply (.sessionId id), ⟨c.sessions.set id session⟩)

omit [Object V] in
/-- Fetch a session and run an operation on it. -/
def withSession (c : Coordinator V) (id : V)
    (f : SigningSession V → Outcome V × SigningSession V) : Outcome V × Coordinator V :=
  match c.sessions.get? id with
  | none => (.raise (.unknownSession id), c)
  | some session => ((f session).1, ⟨c.sessions.set id (f session).2⟩)

def submitCommitment (c : Coordinator V) (id signerId : V) (bytes : Bytes) :
    Outcome V × Coordinator V :=
  c.withSession id (fun session => session.addCommitment signerId bytes)

omit [Object V] in
def submitShare (c : Coordinator V) (id signerId : V) (bytes : Bytes) :
    Outcome V × Coordinator V :=
  c.withSession id (fun session => session.addShare signerId bytes)

def aggregate (native : Natives V ρ) (c : Coordinator V) (id : V) (r : ρ) :
    Outcome V × Coordinator V :=
  c.withSession id (fun session => session.aggregate native r)

omit [Object V] in
/-- `session_state`, which raises on an id the registry does not hold. -/
def sessionState (c : Coordinator V) (id : V) : Except (Exn V) SessionState :=
  match c.sessions.get? id with
  | none => .error (.unknownSession id)
  | some session => .ok session.state

/-- A coordinator as a machine. -/
def step (native : Natives V ρ) : Machine.Step (Coordinator V) (CoordinatorOp V ρ) (Outcome V)
  | c, .createSession message threshold unlockWindow scheme =>
      c.createSession message threshold unlockWindow scheme
  | c, .call id (.addCommitment signerId bytes) => c.submitCommitment id signerId bytes
  | c, .call id (.addShare signerId bytes) => c.submitShare id signerId bytes
  | c, .call id (.aggregate r) => c.aggregate native id r

/-- The registry a list of calls on a new coordinator leads to. -/
def after (native : Natives V ρ) (ops : List (CoordinatorOp V ρ)) : Coordinator V :=
  Machine.run (step native) new ops

/-- Everything those calls did, in order. -/
def history (native : Natives V ρ) (ops : List (CoordinatorOp V ρ)) :
    List (Machine.Transition (Coordinator V) (CoordinatorOp V ρ) (Outcome V)) :=
  Machine.trace (step native) new ops

/-- Delegating entry points delegate: each is the session's own step. -/
theorem step_call (native : Natives V ρ) (c : Coordinator V) (id : V) (op : SessionOp V ρ) :
    step native c (.call id op) = c.withSession id (fun s => SigningSession.step native s op) := by
  cases op <;> rfl

theorem step_call_of_unknown (native : Natives V ρ) (c : Coordinator V) (id : V)
    (op : SessionOp V ρ) (h : c.sessions.get? id = none) :
    step native c (.call id op) = (.raise (.unknownSession id), c) := by
  rw [step_call, withSession, h]

theorem step_call_of_known (native : Natives V ρ) (c : Coordinator V) (id : V)
    (op : SessionOp V ρ) (s : SigningSession V) (h : c.sessions.get? id = some s) :
    step native c (.call id op) = ((SigningSession.step native s op).1,
      ⟨c.sessions.set id (SigningSession.step native s op).2⟩) := by
  rw [step_call, withSession, h]

theorem createSession_of_unknown (native : Natives V ρ) (c : Coordinator V) (message : Bytes)
    (threshold unlockWindow scheme : V) (h : Scheme.ofValue? scheme = none) :
    step native c (.createSession message threshold unlockWindow scheme)
      = (.raise (.unknownScheme scheme), c) := by
  simp only [step, createSession, SigningSession.new, h]

theorem createSession_of_known (native : Natives V ρ) (c : Coordinator V) (message : Bytes)
    (threshold unlockWindow scheme : V) (k : Scheme) (h : Scheme.ofValue? scheme = some k) :
    step native c (.createSession message threshold unlockWindow scheme)
      = (.reply (.sessionId (Object.str (sessionId (c.sessions.length + 1)))),
        ⟨c.sessions.set (Object.str (sessionId (c.sessions.length + 1)))
          (SigningSession.fresh message threshold unlockWindow k)⟩) := by
  simp only [step, createSession, SigningSession.new, h]

/-- A call that is about to reach a combine that panics: an aggregation in a
    session that has its shares. -/
def Panics (native : Natives V ρ) (c : Coordinator V) (op : CoordinatorOp V ρ) : Prop :=
  ∃ id r s text, op = .call id (.aggregate r) ∧ c.sessions.get? id = some s ∧
    s.thresholdMet = some true ∧ native.combine s.combineCall r = .error (.fatal text)

/-- These are the calls that raise `fatal`. -/
theorem step_fatal_iff (native : Natives V ρ) (c : Coordinator V) (op : CoordinatorOp V ρ) :
    (∃ text, (step native c op).1.result = .error (.fatal text)) ↔ Panics native c op := by
  constructor
  · rintro ⟨text, h⟩
    cases op with
    | createSession message threshold unlockWindow scheme =>
        cases hk : Scheme.ofValue? scheme with
        | none =>
            rw [createSession_of_unknown native c message threshold unlockWindow scheme hk] at h
            exact nomatch h
        | some k =>
            rw [createSession_of_known native c message threshold unlockWindow scheme k hk] at h
            exact nomatch h
    | call id op =>
        cases hget : c.sessions.get? id with
        | none =>
            rw [step_call_of_unknown native c id op hget] at h
            exact nomatch h
        | some s =>
            rw [step_call_of_known native c id op s hget] at h
            have hdoes := SigningSession.step_does native s op
            generalize SigningSession.step native s op = after at hdoes h
            -- Only the combine's own exception can be one.
            cases hdoes with
            | combineRaised r e hmet hcombine =>
                exact ⟨id, r, s, text, rfl, hget, hmet, by rw [hcombine, Except.error.inj h]⟩
            | _ => exact nomatch h
  · rintro ⟨id, r, s, text, rfl, hget, hmet, hcombine⟩
    refine ⟨text, ?_⟩
    rw [step_call_of_known native c id _ s hget]
    simp only [SigningSession.step, SigningSession.aggregate, hmet, hcombine]

end Coordinator

end Confium
