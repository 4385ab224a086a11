import Confium.Theory.Lifecycle
import Confium.Theory.Registry

/-!
# Quorum Safety

What the share stores hold, and what the combine is given. The abstract account
of a session is its ledger: the shares accepted on it so far, in the order they
were accepted. `acceptedShares` reads the ledger off the history of a run,
looking only at the calls that were made and whether they raised, and never at
a store.

`Accounted` ties the two together. Every session's share store is its ledger,
entry for entry and in order; a session the registry does not hold has an empty
one; and every session was created, by a call in the history, with the message
and threshold it has now. The invariant has to mention the absent sessions
because `createSession` starts a store off empty, and the ledger of the id it
gives out must already be empty then.

Everything else follows. A store has distinct keys, so the ledger has distinct
signers. The ledger only ever grows at its end, so an accepted share is neither
changed nor removed. And `aggregate` passes the store's values, so what reaches
the combine is the ledger.

The last part is about aggregating twice. The share list passed is the ledger
at that moment, so two successful aggregations pass the same list exactly when
no new signer's share arrived between them.

## Main definitions

* `acceptedShares`: A session's ledger, read off a history.
* `CreatedWith`: A history created a session with a message and threshold.
* `Accounted`: Stores are ledgers and sessions are as created.
* `NewShare`: A share from a signer the session has none from.
* `Resigning`: Two successful aggregations of one session in a run.

## Theorems

* `accounted_run`: Every run is accounted for.
* `shares_prefix_run`: A share store only grows, and only at its end.
* `quorum_safety`: Stores hold what was accepted and combines get a quorum.
* `acceptedShare?_isSome_iff`: A share is accepted exactly when its signer is new.
* `resigned_same_shares_iff`: Signatures of a session are over the same shares
  exactly when no new share came between them.
* `late_share_changes_the_quorum`: A session that signs over two shares and then
  over three.
-/

namespace Confium

open Ruby

namespace Coordinator

variable {V ρ : Type} [DecidableEq V] [Object V]

/-- One recorded call of a coordinator. -/
abbrev Event (V ρ : Type) := Machine.Transition (Coordinator V) (CoordinatorOp V ρ) (Outcome V)

/-- The share a call has accepted on session `id`, if it has. -/
def acceptedShare? (id : V) (e : Event V ρ) : Option (V × Bytes) :=
  match e.op with
  | .createSession _ _ _ _ => none
  | .call id' op => if id' = id then SigningSession.accepted? op e.out else none

/-- The ledger of session `id`: the shares accepted on it, oldest first. -/
def acceptedShares (id : V) (h : List (Event V ρ)) : List (V × Bytes) :=
  h.filterMap (acceptedShare? id)

/-- Some call of the history created session `id` with this message and
    threshold. -/
def CreatedWith (h : List (Event V ρ)) (id : V) (message : Bytes) (threshold : V) : Prop :=
  ∃ e ∈ h, ∃ unlockWindow scheme,
    e.op = .createSession message threshold unlockWindow scheme ∧
      e.out.result = .ok (.sessionId id)

theorem acceptedShares_snoc (id : V) (h : List (Event V ρ)) (e : Event V ρ) :
    acceptedShares id (h ++ [e]) = acceptedShares id h ++ (acceptedShare? id e).toList := by
  rw [acceptedShares, List.filterMap_append, ← acceptedShares]
  cases hacc : acceptedShare? id e with
  | none => simp only [List.filterMap_cons, hacc, List.filterMap_nil, Option.toList_none]
  | some p => simp only [List.filterMap_cons, hacc, List.filterMap_nil, Option.toList_some]

/-- The registry agrees with the history that led to it. -/
structure Accounted (h : List (Event V ρ)) (c : Coordinator V) : Prop where
  numbered : Numbered c
  store : ∀ id s, c.sessions.get? id = some s → s.shares.entries = acceptedShares id h
  absent : ∀ id, c.sessions.get? id = none → acceptedShares id h = []
  created : ∀ id s, c.sessions.get? id = some s → CreatedWith h id s.message s.threshold

omit [DecidableEq V] [Object V] in
theorem CreatedWith.snoc {h : List (Event V ρ)} {id : V} {message : Bytes} {threshold : V}
    (hc : CreatedWith h id message threshold) (e : Event V ρ) :
    CreatedWith (h ++ [e]) id message threshold := by
  rcases hc with ⟨d, hd, w, k, hop, hres⟩
  exact ⟨d, List.mem_append_left _ hd, w, k, hop, hres⟩

/-- A call that accepts no share and moves nothing keeps the accounts. -/
theorem Accounted.snoc_same {h : List (Event V ρ)} {c : Coordinator V} (ha : Accounted h c)
    (e : Event V ρ) (hnone : ∀ id, acceptedShare? id e = none) : Accounted (h ++ [e]) c := by
  have hledger : ∀ id, acceptedShares id (h ++ [e]) = acceptedShares id h := by
    intro id
    rw [acceptedShares_snoc, hnone id, Option.toList_none, List.append_nil]
  refine ⟨ha.numbered, ?_, ?_, ?_⟩
  · intro id s hs
    rw [hledger]
    exact ha.store id s hs
  · intro id hs
    rw [hledger]
    exact ha.absent id hs
  · intro id s hs
    exact (ha.created id s hs).snoc e

/-- A creation keeps the accounts. The session it adds is under an id the
    registry did not hold, so the ledger it starts from is empty. -/
theorem accounted_create (native : Natives V ρ) (h : List (Event V ρ)) (c : Coordinator V)
    (message : Bytes) (threshold unlockWindow scheme : V) (ha : Accounted h c) :
    Accounted (h ++ [(step native).transition c
        (.createSession message threshold unlockWindow scheme)])
      (step native c (.createSession message threshold unlockWindow scheme)).2 := by
  have hledger : ∀ id, acceptedShares id (h ++ [(step native).transition c
      (.createSession message threshold unlockWindow scheme)]) = acceptedShares id h := by
    intro id
    rw [acceptedShares_snoc]
    exact List.append_nil _
  rcases createSession_cases native c message threshold unlockWindow scheme with
    ⟨_, hstep⟩ | ⟨k, _, hstep⟩
  · -- An unknown scheme raises before the registry is written.
    have hsame : (step native c (.createSession message threshold unlockWindow scheme)).2 = c := by
      rw [hstep]
    rw [hsame]
    exact ha.snoc_same _ (fun _ => rfl)
  · have hnew := get?_nextId c ha.numbered
    have hafter : (step native c (.createSession message threshold unlockWindow scheme)).2.sessions
        = c.sessions.set c.nextId (SigningSession.fresh message threshold unlockWindow k) := by
      rw [hstep]
    refine ⟨numbered_step native c _ ha.numbered, ?_, ?_, ?_⟩
    · intro id s hs
      rw [hledger]
      rw [hafter] at hs
      by_cases hid : id = c.nextId
      · rw [hid, Hash.get?_set_self, Option.some.injEq] at hs
        rw [← hs, hid, ha.absent c.nextId hnew]
        rfl
      · rw [Hash.get?_set_ne _ _ _ _ hid] at hs
        exact ha.store id s hs
    · intro id hs
      rw [hledger]
      rw [hafter] at hs
      by_cases hid : id = c.nextId
      · rw [hid, Hash.get?_set_self] at hs
        exact absurd hs (by simp only [reduceCtorEq, not_false_eq_true])
      · rw [Hash.get?_set_ne _ _ _ _ hid] at hs
        exact ha.absent id hs
    · intro id s hs
      rw [hafter] at hs
      by_cases hid : id = c.nextId
      · rw [hid, Hash.get?_set_self, Option.some.injEq] at hs
        -- This very call is the creation to point at.
        refine ⟨_, List.mem_append_right _ (List.mem_singleton_self _), unlockWindow, scheme, ?_,
          ?_⟩
        · rw [← hs]
          rfl
        · change (step native c _).1.result = _
          rw [hstep, hid]
          rfl
      · rw [Hash.get?_set_ne _ _ _ _ hid] at hs
        exact (ha.created id s hs).snoc _

/-- A call to a session keeps the accounts: its store and its ledger grow by
    the same share, and the others by nothing. -/
theorem accounted_call (native : Natives V ρ) (h : List (Event V ρ)) (c : Coordinator V)
    (id : V) (op : SessionOp V ρ) (ha : Accounted h c) :
    Accounted (h ++ [(step native).transition c (.call id op)])
      (step native c (.call id op)).2 := by
  have hother : ∀ id', id' ≠ id → acceptedShares id' (h ++ [(step native).transition c
      (.call id op)]) = acceptedShares id' h := by
    intro id' hne
    rw [acceptedShares_snoc]
    simp only [acceptedShare?, Machine.Step.transition, if_neg (Ne.symm hne), Option.toList_none,
      List.append_nil]
  cases hget : c.sessions.get? id with
  | none =>
      -- The call raises, so nothing is accepted and nothing moves.
      have hstep := step_call_of_unknown native c id op hget
      have hsame : (step native c (.call id op)).2 = c := by rw [hstep]
      rw [hsame]
      refine ha.snoc_same _ (fun id' => ?_)
      simp only [acceptedShare?, Machine.Step.transition, hstep]
      split
      · cases op <;> rfl
      · rfl
  | some s =>
      have hself : acceptedShares id (h ++ [(step native).transition c (.call id op)])
          = acceptedShares id h
            ++ (SigningSession.accepted? op (SigningSession.step native s op).1).toList := by
        rw [acceptedShares_snoc]
        simp only [acceptedShare?, Machine.Step.transition, if_true,
          step_call_of_known native c id op s hget]
      -- No session operation touches the message or the threshold.
      have hfixed := SigningSession.step_fixed native s op
      refine ⟨numbered_step native c _ ha.numbered, ?_, ?_, ?_⟩
      · intro id' s' hs'
        by_cases hid : id' = id
        · rw [hid, get?_step_call_self native c id op s hget, Option.some.injEq] at hs'
          rw [hid, hself, ← hs', SigningSession.step_shares, ha.store id s hget]
        · rw [get?_step_call_ne native c id id' op hid] at hs'
          rw [hother id' hid]
          exact ha.store id' s' hs'
      · intro id' hs'
        by_cases hid : id' = id
        · rw [hid, get?_step_call_self native c id op s hget] at hs'
          exact absurd hs' (by simp only [reduceCtorEq, not_false_eq_true])
        · rw [get?_step_call_ne native c id id' op hid] at hs'
          rw [hother id' hid]
          exact ha.absent id' hs'
      · intro id' s' hs'
        by_cases hid : id' = id
        · rw [hid, get?_step_call_self native c id op s hget, Option.some.injEq] at hs'
          rw [hid, ← hs', hfixed.1, hfixed.2.1]
          exact (ha.created id s hget).snoc _
        · rw [get?_step_call_ne native c id id' op hid] at hs'
          exact (ha.created id' s' hs').snoc _

/-- Every run is accounted for. -/
theorem accounted_run (native : Natives V ρ) (ops : List (CoordinatorOp V ρ)) :
    Accounted (history native ops) (after native ops) := by
  refine Machine.history_induct (step native) Accounted new ops ?_ ?_
  · refine ⟨numbered_new, ?_, fun id _ => rfl, ?_⟩
    · intro id s hs
      exact absurd hs (by simp only [new, Hash.get?_empty, reduceCtorEq, not_false_eq_true])
    · intro id s hs
      exact absurd hs (by simp only [new, Hash.get?_empty, reduceCtorEq, not_false_eq_true])
  · intro h c op ha
    cases op with
    | createSession message threshold unlockWindow scheme =>
        exact accounted_create native h c message threshold unlockWindow scheme ha
    | call id op => exact accounted_call native h c id op ha

/-- A session keeps its place in the registry and its share store only grows,
    at its end. -/
theorem shares_prefix_run (native : Natives V ρ) (c : Coordinator V) (hn : Numbered c)
    (ops : List (CoordinatorOp V ρ)) (id : V) (s : SigningSession V)
    (h : c.sessions.get? id = some s) :
    ∃ s', (Machine.run (step native) c ops).sessions.get? id = some s' ∧
      s.shares.entries <+: s'.shares.entries := by
  have hinv := Machine.run_induct (step native)
    (fun c => Numbered c ∧ ∃ s', c.sessions.get? id = some s' ∧
      s.shares.entries <+: s'.shares.entries) c ops ⟨hn, s, h, List.prefix_refl _⟩ ?_
  · exact hinv.2
  · rintro d op ⟨hnd, s', hs', hpre⟩
    refine ⟨numbered_step native d op hnd, ?_⟩
    cases op with
    -- A creation writes under a new id, and a call under its own.
    | createSession message threshold unlockWindow scheme =>
        exact ⟨s', get?_step_create native d message threshold unlockWindow scheme id s' hnd hs',
          hpre⟩
    | call id' op =>
        by_cases hid : id = id'
        · rw [← hid]
          refine ⟨_, get?_step_call_self native d id op s' hs', hpre.trans ?_⟩
          rw [SigningSession.step_shares]
          exact List.prefix_append _ _
        · exact ⟨s', by rw [get?_step_call_ne native d id' id op hid]; exact hs', hpre⟩

/-- Reaching the combine takes an aggregation on a session the registry holds,
    with its threshold met. -/
theorem step_combined (native : Natives V ρ) (c : Coordinator V) (op : CoordinatorOp V ρ)
    (call : CombineCall V) (h : (step native c op).1.combined = some call) :
    ∃ id r s, op = .call id (.aggregate r) ∧ c.sessions.get? id = some s ∧
      s.thresholdMet = some true ∧ call = s.combineCall := by
  cases op with
  | createSession message threshold unlockWindow scheme =>
      rcases createSession_cases native c message threshold unlockWindow scheme with
        ⟨_, hstep⟩ | ⟨k, _, hstep⟩ <;>
      · rw [hstep] at h
        exact absurd h (by simp only [Outcome.raise, Outcome.reply, reduceCtorEq,
          not_false_eq_true])
  | call id op =>
      cases hget : c.sessions.get? id with
      | none =>
          rw [step_call_of_unknown native c id op hget] at h
          exact absurd h (by simp only [Outcome.raise, reduceCtorEq, not_false_eq_true])
      | some s =>
          rw [step_call_of_known native c id op s hget] at h
          rcases SigningSession.step_combined native s op call h with ⟨⟨r, hr⟩, hmet, hcall⟩
          exact ⟨id, r, s, by rw [hr], hget, hmet, hcall⟩

/-- In every state a run can reach, a session's share store is its ledger, the
    ledger names each signer once, and whatever happens next the store stays a
    prefix of what it becomes. Whenever a call reaches the combine, it is an
    aggregation, and the combine is given the ledger's bytes in order, at least
    as many as the threshold asks for, together with the threshold and message
    the session was created with. -/
theorem quorum_safety (native : Natives V ρ) (ops later : List (CoordinatorOp V ρ)) :
    (∀ id s, (after native ops).sessions.get? id = some s →
      s.shares.entries = acceptedShares id (history native ops) ∧
      ((acceptedShares id (history native ops)).map Prod.fst).Nodup ∧
      ∃ s', (after native (ops ++ later)).sessions.get? id = some s' ∧
        s.shares.entries <+: s'.shares.entries) ∧
    (∀ op call, (step native (after native ops) op).1.combined = some call →
      ∃ id r s, op = .call id (.aggregate r) ∧ (after native ops).sessions.get? id = some s ∧
        call.shares = (acceptedShares id (history native ops)).map Prod.snd ∧
        ((acceptedShares id (history native ops)).map Prod.fst).Nodup ∧
        (∀ t, s.threshold = Object.int t → t ≤ (call.shares.length : Int)) ∧
        call.scheme = s.scheme ∧ call.threshold = s.threshold ∧ call.message = s.message ∧
        CreatedWith (history native ops) id call.message call.threshold) := by
  have ha := accounted_run native ops
  have hnodup : ∀ id s, (after native ops).sessions.get? id = some s →
      ((acceptedShares id (history native ops)).map Prod.fst).Nodup := by
    intro id s hs
    rw [← ha.store id s hs]
    exact s.shares.nodup
  constructor
  · intro id s hs
    refine ⟨ha.store id s hs, hnodup id s hs, ?_⟩
    rw [after, Machine.run_append]
    exact shares_prefix_run native _ ha.numbered later id s hs
  · intro op call hcall
    rcases step_combined native _ op call hcall with ⟨id, r, s, hop, hs, hmet, hc⟩
    -- The combine is given the store, and the store is the ledger.
    have hshares : call.shares = (acceptedShares id (history native ops)).map Prod.snd := by
      rw [hc, ← ha.store id s hs]
      rfl
    refine ⟨id, r, s, hop, hs, hshares, hnodup id s hs, ?_, by rw [hc]; rfl, by rw [hc]; rfl,
      by rw [hc]; rfl, ?_⟩
    · intro t ht
      rw [SigningSession.thresholdMet, ht, Object.ge_int, Option.some.injEq, decide_eq_true_eq]
        at hmet
      rw [hc]
      change t ≤ (s.shares.values.length : Int)
      rw [Hash.length_values]
      exact hmet
    · rw [hc]
      exact ha.created id s hs

/-- A share for session `id` from a signer the session has none from yet. -/
def NewShare (id : V) (c : Coordinator V) (op : CoordinatorOp V ρ) : Prop :=
  ∃ signerId bytes s, op = .call id (.addShare signerId bytes) ∧
    c.sessions.get? id = some s ∧ s.shares.get? (Object.key signerId) = none

/-- A call accepts a share exactly when its signer is new. -/
theorem acceptedShare?_isSome_iff (native : Natives V ρ) (id : V) (c : Coordinator V)
    (op : CoordinatorOp V ρ) :
    acceptedShare? id ((step native).transition c op) ≠ none ↔ NewShare id c op := by
  constructor
  · intro h
    cases op with
    | createSession message threshold unlockWindow scheme => exact absurd rfl h
    | call id' op =>
        simp only [acceptedShare?, Machine.Step.transition] at h
        by_cases hid : id' = id
        · rw [if_pos hid, hid] at h
          cases hget : c.sessions.get? id with
          | none =>
              rw [step_call_of_unknown native c id op hget] at h
              cases op <;> exact absurd rfl h
          | some s =>
              rw [step_call_of_known native c id op s hget] at h
              -- The session itself decides: a share is kept from a signer with none.
              have hdoes := SigningSession.step_does native s op
              simp only at h
              generalize SigningSession.step native s op = after at hdoes h
              cases hdoes with
              | shareStored signerId bytes hsh => exact ⟨signerId, bytes, s, by rw [hid], hget, hsh⟩
              | _ => exact absurd rfl h
        · rw [if_neg hid] at h
          exact absurd rfl h
  · rintro ⟨signerId, bytes, s, hop, hget, hsh⟩
    rw [hop]
    simp only [acceptedShare?, Machine.Step.transition, if_true,
      step_call_of_known native c id _ s hget,
      SigningSession.step_addShare_new native s signerId bytes hsh, SigningSession.accepted?,
      Outcome.reply, ne_eq, reduceCtorEq, not_false_eq_true]

/-- The shares an aggregation of session `id` passes to the combine after the
    calls `ops`, if it gets that far. -/
def passedShares (native : Natives V ρ) (ops : List (CoordinatorOp V ρ)) (id : V) (r : ρ) :
    Option (List Bytes) :=
  (step native (after native ops) (.call id (.aggregate r))).1.combined.map CombineCall.shares

/-- Two successful aggregations of session `id` among the calls `ops`, with
    what came before, between and after them. -/
structure Resigning (native : Natives V ρ) (id : V) (ops : List (CoordinatorOp V ρ)) where
  pre : List (CoordinatorOp V ρ)
  r₁ : ρ
  mid : List (CoordinatorOp V ρ)
  r₂ : ρ
  post : List (CoordinatorOp V ρ)
  split : ops = pre ++ .call id (.aggregate r₁) :: mid ++ .call id (.aggregate r₂) :: post
  first : ∃ a, (step native (after native pre) (.call id (.aggregate r₁))).1.result = .ok a
  second : ∃ a, (step native (after native (pre ++ .call id (.aggregate r₁) :: mid))
    (.call id (.aggregate r₂))).1.result = .ok a

/-- The calls between the two aggregations, as they happened. -/
def Resigning.between {native : Natives V ρ} {id : V} {ops : List (CoordinatorOp V ρ)}
    (p : Resigning native id ops) : List (Event V ρ) :=
  Machine.trace (step native) (after native (p.pre ++ [.call id (.aggregate p.r₁)])) p.mid

/-- A successful aggregation passes the ledger's bytes. -/
theorem passedShares_of_ok (native : Natives V ρ) (ops : List (CoordinatorOp V ρ)) (id : V)
    (r : ρ) (h : ∃ a, (step native (after native ops) (.call id (.aggregate r))).1.result = .ok a) :
    passedShares native ops id r
      = some ((acceptedShares id (history native ops)).map Prod.snd) := by
  rcases h with ⟨a, ha⟩
  rw [passedShares]
  cases hget : (after native ops).sessions.get? id with
  | none =>
      rw [step_call_of_unknown native _ id _ hget] at ha
      exact absurd ha (by simp only [Outcome.raise, reduceCtorEq, not_false_eq_true])
  | some s =>
      rw [step_call_of_known native _ id _ s hget] at ha ⊢
      simp only [SigningSession.step_aggregate_ok native s r a ha, Option.map_some]
      rw [← (accounted_run native ops).store id s hget]
      rfl

/-- The ledger at the second aggregation is the ledger at the first with what
    was accepted between them at its end: an aggregation accepts nothing. -/
theorem Resigning.acceptedShares_second {native : Natives V ρ} {id : V}
    {ops : List (CoordinatorOp V ρ)} (p : Resigning native id ops) :
    acceptedShares id (history native (p.pre ++ .call id (.aggregate p.r₁) :: p.mid))
      = acceptedShares id (history native p.pre) ++ acceptedShares id p.between := by
  have hsplit : p.pre ++ .call id (.aggregate p.r₁) :: p.mid
      = (p.pre ++ [.call id (.aggregate p.r₁)]) ++ p.mid := by
    rw [List.append_assoc, List.singleton_append]
  have hagg : ∀ e : Event V ρ, e.op = .call id (.aggregate p.r₁) →
      acceptedShare? id e = none := by
    intro e he
    simp only [acceptedShare?, he, if_true, SigningSession.accepted?]
  rw [hsplit, history, Machine.trace_append, acceptedShares, List.filterMap_append,
    ← acceptedShares, ← acceptedShares, Machine.trace_snoc, acceptedShares_snoc,
    hagg _ rfl, Option.toList_none, List.append_nil]
  rfl

/-- The two aggregations pass the same shares exactly when nothing was
    accepted between them. -/
theorem Resigning.same_iff {native : Natives V ρ} {id : V} {ops : List (CoordinatorOp V ρ)}
    (p : Resigning native id ops) :
    passedShares native (p.pre ++ .call id (.aggregate p.r₁) :: p.mid) id p.r₂
        = passedShares native p.pre id p.r₁ ↔
      ∀ e ∈ p.between, ¬ NewShare id e.before e.op := by
  rw [passedShares_of_ok native _ id p.r₂ p.second, passedShares_of_ok native _ id p.r₁ p.first,
    p.acceptedShares_second, Option.some.injEq, List.map_append, List.append_right_eq_self,
    List.map_eq_nil_iff, acceptedShares, List.filterMap_eq_nil_iff]
  -- Nothing in the ledger between them, call by call.
  rw [Resigning.between, Machine.forall_trace_iff, Machine.forall_trace_iff]
  refine forall_congr' fun a => forall_congr' fun op => forall_congr' fun b =>
    imp_congr_right fun _ => ?_
  rw [← not_ne_iff]
  exact not_congr (acceptedShare?_isSome_iff native id _ op)

/-- All successful aggregations of a session pass the same shares exactly when
    no new signer's share arrives between two of them. -/
theorem resigned_same_shares_iff (native : Natives V ρ) (id : V)
    (ops : List (CoordinatorOp V ρ)) :
    (∀ p : Resigning native id ops,
      passedShares native (p.pre ++ .call id (.aggregate p.r₁) :: p.mid) id p.r₂
        = passedShares native p.pre id p.r₁) ↔
      ∀ p : Resigning native id ops, ∀ e ∈ p.between, ¬ NewShare id e.before e.op :=
  forall_congr' fun p => p.same_iff

end Coordinator

/-- A two-of-three session completed over two shares: the third signer's share
    is still accepted, and the retried aggregation signs over all three. -/
theorem late_share_changes_the_quorum :
    ¬ ∀ p : Coordinator.Resigning signAnything (Json.str "session-1")
        [.createSession [1] (.int 2) (.int 14400) (.str "CMP20-ECDSA-P256"),
          .call (.str "session-1") (.addShare (.str "a") [10]),
          .call (.str "session-1") (.addShare (.str "b") [11]),
          .call (.str "session-1") (.aggregate ()),
          .call (.str "session-1") (.addShare (.str "c") [12]),
          .call (.str "session-1") (.aggregate ())],
      Coordinator.passedShares signAnything
          (p.pre ++ .call (.str "session-1") (.aggregate p.r₁) :: p.mid) (.str "session-1") p.r₂
        = Coordinator.passedShares signAnything p.pre (.str "session-1") p.r₁ := by
  intro h
  have hlists := h ⟨[.createSession [1] (.int 2) (.int 14400) (.str "CMP20-ECDSA-P256"),
      .call (.str "session-1") (.addShare (.str "a") [10]),
      .call (.str "session-1") (.addShare (.str "b") [11])], (),
    [.call (.str "session-1") (.addShare (.str "c") [12])], (), [], rfl,
    ⟨_, rfl⟩, ⟨_, rfl⟩⟩
  exact absurd hlists (by decide)

end Confium
