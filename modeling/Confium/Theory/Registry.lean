import Confium.Core.Coordinator

/-!
# The Session Registry

Sessions do not collide and do not interfere. Neither is checked anywhere:
`createSession` assigns into the registry under an id computed from the
registry's size, and overwriting an existing session would go unnoticed.

What rules it out is that the registry is only ever grown by `createSession`
itself, one session at a time. `Numbered` is that fact as an invariant: the ids
in the registry are those of the first sessions, in order, and there are as
many of them as there are sessions. The next id is then the one number not yet
used. Failing creations have to leave the size alone for this to survive, and
every other call has to leave the keys alone, which it does because fetching
finds the session before it is written back.

## Main definitions

* `Numbered`: The registry's ids are the first session ids, in order.

## Theorems

* `numbered_run`: Every run keeps the registry numbered.
* `get?_nextId`: A numbered registry does not hold the next id.
* `get?_step_call_ne`: A call to one session leaves the others alone.
* `sessions_isolated`: Creations never collide and calls never interfere.
-/

namespace Confium

open Ruby

namespace Coordinator

variable {V ρ : Type} [DecidableEq V] [Object V]

/-- The id `createSession` would give out next. -/
def nextId (c : Coordinator V) : V := Object.str (sessionId (c.sessions.length + 1))

/-- The ids of the first `n` sessions, oldest first. -/
def firstIds (n : Nat) : List V := (List.range n).map (fun i => Object.str (sessionId (i + 1)))

/-- The registry holds the first session ids and no others. -/
def Numbered (c : Coordinator V) : Prop := c.sessions.keys = firstIds c.sessions.length

omit [DecidableEq V] in
theorem numbered_new : Numbered (new : Coordinator V) := rfl

/-- The next id is not among the ids given out so far, the decimal rendering
    of a number being injective. -/
theorem get?_nextId (c : Coordinator V) (h : Numbered c) : c.sessions.get? c.nextId = none := by
  rw [Hash.get?_eq_none_iff, h, firstIds]
  intro hmem
  rcases List.mem_map.mp hmem with ⟨i, hi, heq⟩
  have hnum := sessionId_injective (Object.str_injective heq)
  rw [List.mem_range] at hi
  omega

/-- The two things a creation can do. -/
theorem createSession_cases (native : Natives V ρ) (c : Coordinator V) (message : Bytes)
    (threshold unlockWindow scheme : V) :
    (Scheme.ofValue? scheme = none ∧
      step native c (.createSession message threshold unlockWindow scheme)
        = (.raise (.unknownScheme scheme), c)) ∨
    (∃ k, Scheme.ofValue? scheme = some k ∧
      step native c (.createSession message threshold unlockWindow scheme)
        = (.reply (.sessionId c.nextId), ⟨c.sessions.set c.nextId
          (SigningSession.fresh message threshold unlockWindow k)⟩)) := by
  cases h : Scheme.ofValue? scheme with
  | none =>
      exact Or.inl ⟨rfl, createSession_of_unknown native c message threshold unlockWindow scheme h⟩
  | some k =>
      exact Or.inr ⟨k, rfl,
        createSession_of_known native c message threshold unlockWindow scheme k h⟩

theorem keys_step_call (native : Natives V ρ) (c : Coordinator V) (id : V) (op : SessionOp V ρ) :
    (step native c (.call id op)).2.sessions.keys = c.sessions.keys := by
  cases h : c.sessions.get? id with
  | none => rw [step_call_of_unknown native c id op h]
  | some s =>
      rw [step_call_of_known native c id op s h]
      exact Hash.keys_set_of_get?_eq_some c.sessions id _ s h

theorem numbered_step (native : Natives V ρ) (c : Coordinator V) (op : CoordinatorOp V ρ)
    (h : Numbered c) : Numbered (step native c op).2 := by
  cases op with
  | createSession message threshold unlockWindow scheme =>
      rcases createSession_cases native c message threshold unlockWindow scheme with
        ⟨_, hstep⟩ | ⟨k, _, hstep⟩
      · rw [hstep]
        exact h
      · rw [hstep]
        have hnew := get?_nextId c h
        -- One more session and one more id, both at the end.
        rw [Numbered, Hash.length_set_of_get?_eq_none _ _ _ hnew, Hash.keys,
          Hash.entries_set_of_get?_eq_none _ _ _ hnew, List.map_append, firstIds,
          List.range_succ, List.map_append]
        change c.sessions.keys ++ _ = _
        rw [h]
        rfl
  | call id sop =>
      -- A call writes back under the id it fetched, so the keys stay.
      have hkeys := keys_step_call native c id sop
      rw [Numbered, ← Hash.length_keys, hkeys, Hash.length_keys]
      exact h

/-- Every run keeps the registry numbered. -/
theorem numbered_run (native : Natives V ρ) (ops : List (CoordinatorOp V ρ)) :
    Numbered (after native ops) :=
  Machine.run_induct (step native) Numbered new ops numbered_new (numbered_step native)

/-- A call to one session leaves every other session as it was. -/
theorem get?_step_call_ne (native : Natives V ρ) (c : Coordinator V) (id id' : V)
    (op : SessionOp V ρ) (hne : id' ≠ id) :
    (step native c (.call id op)).2.sessions.get? id' = c.sessions.get? id' := by
  cases h : c.sessions.get? id with
  | none => rw [step_call_of_unknown native c id op h]
  | some s =>
      rw [step_call_of_known native c id op s h]
      exact Hash.get?_set_ne c.sessions id id' _ hne

/-- A session the registry holds is still there after any operation, as its
    own step left it. -/
theorem get?_step_call_self (native : Natives V ρ) (c : Coordinator V) (id : V)
    (op : SessionOp V ρ) (s : SigningSession V) (h : c.sessions.get? id = some s) :
    (step native c (.call id op)).2.sessions.get? id
      = some (SigningSession.step native s op).2 := by
  rw [step_call_of_known native c id op s h]
  exact Hash.get?_set_self c.sessions id _

/-- A creation leaves the sessions already there alone. -/
theorem get?_step_create (native : Natives V ρ) (c : Coordinator V) (message : Bytes)
    (threshold unlockWindow scheme id : V) (s : SigningSession V) (hn : Numbered c)
    (h : c.sessions.get? id = some s) :
    (step native c (.createSession message threshold unlockWindow scheme)).2.sessions.get? id
      = some s := by
  rcases createSession_cases native c message threshold unlockWindow scheme with
    ⟨_, hstep⟩ | ⟨k, _, hstep⟩
  · rw [hstep]
    exact h
  · rw [hstep]
    -- The session that is there is not the one being created.
    have hne : id ≠ c.nextId := by
      intro hc
      rw [hc, get?_nextId c hn] at h
      exact absurd h (by simp only [reduceCtorEq, not_false_eq_true])
    rw [Hash.get?_set_ne c.sessions c.nextId id _ hne, h]

/-- From any state a run can reach: a successful creation gives out an id the
    registry did not hold and leaves every session as it was, a failed one
    changes nothing, and an operation on one session leaves every other
    session as it was. -/
theorem sessions_isolated (native : Natives V ρ) (ops : List (CoordinatorOp V ρ)) :
    (∀ message threshold unlockWindow scheme id,
      (step native (after native ops)
        (.createSession message threshold unlockWindow scheme)).1.result = .ok (.sessionId id) →
      (after native ops).sessions.get? id = none ∧
        ∀ id' s, (after native ops).sessions.get? id' = some s →
          (step native (after native ops)
            (.createSession message threshold unlockWindow scheme)).2.sessions.get? id' = some s) ∧
    (∀ message threshold unlockWindow scheme e,
      (step native (after native ops)
        (.createSession message threshold unlockWindow scheme)).1.result = .error e →
      (step native (after native ops)
        (.createSession message threshold unlockWindow scheme)).2 = after native ops) ∧
    (∀ id op id', id' ≠ id →
      (step native (after native ops) (.call id op)).2.sessions.get? id'
        = (after native ops).sessions.get? id') := by
  -- No session has the next number yet, after any run.
  have hn := numbered_run native ops
  refine ⟨?_, ?_, fun id op id' hne => get?_step_call_ne native _ id id' op hne⟩
  · intro message threshold unlockWindow scheme id hok
    refine ⟨?_, fun id' s hs => get?_step_create native _ message threshold unlockWindow scheme
      id' s hn hs⟩
    rcases createSession_cases native (after native ops) message threshold unlockWindow scheme
      with ⟨_, hstep⟩ | ⟨k, _, hstep⟩
    · rw [hstep] at hok
      exact absurd hok (by simp only [Outcome.raise, reduceCtorEq, not_false_eq_true])
    · rw [hstep] at hok
      simp only [Outcome.reply, Except.ok.injEq, Reply.sessionId.injEq] at hok
      rw [← hok]
      exact get?_nextId _ hn
  · intro message threshold unlockWindow scheme e herr
    rcases createSession_cases native (after native ops) message threshold unlockWindow scheme
      with ⟨_, hstep⟩ | ⟨k, _, hstep⟩
    · rw [hstep]
    · rw [hstep] at herr
      exact absurd herr (by simp only [Outcome.reply, reduceCtorEq, not_false_eq_true])

end Coordinator

end Confium
