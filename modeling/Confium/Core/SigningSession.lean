import Confium.Lib.Hash
import Confium.Lib.Run
import Confium.Core.Errors
import Mathlib.Order.Defs.LinearOrder

/-!
# Signing Sessions

One threshold-signing session: the state machine and the combine behind both
coordinator surfaces. Signers submit commitments and shares, each keyed by
signer id, and `aggregate` hands the collected shares to the scheme's combine
once there are enough of them.

An operation answers with an `Outcome` and a next session, and the two are
independent. A Ruby method that raises keeps whatever it had already written,
so a failing operation returns the session as it stood when the exception left
it. `addCommitment` is where this shows: the store is written before the count
is compared with the threshold, and a threshold that is not a number makes the
comparison raise.

The combine is the native extension's, so it is a parameter, one function per
scheme. It draws a fresh nonce on every call, which is the extra randomness
argument. An outcome records the call that was made, if one was, because what
reaches the combine is the thing worth stating properties of.

Threshold, unlock window and signer ids are whatever the caller passed. Two ids
that are one key of a Ruby hash are one signer, so a store goes by the key of an
id. The scheme is not anything: construction rejects names `SCHEMES` does not list, so a session
carries one of the listed schemes and looking it up again cannot fail.

## Main definitions

* `Scheme`: The threshold schemes a session can combine with.
* `SessionState`: `pending`, `commitments_collected` and `completed`.
* `Natives`: The native combines.
* `SigningSession`: A session's fields.
* `SigningSession.new`: Construction, rejecting unknown schemes.
* `SigningSession.addCommitment`, `SigningSession.addShare`,
  `SigningSession.aggregate`: The operations.
* `SessionOp`, `SigningSession.step`: The operations as steps of a machine.
* `SigningSession.Does`: Everything one operation can do, and when.

## Theorems

* `step_does`: Every step does one of these things.
* `step_fixed`: No operation changes what the session was created with.
* `record_of_get?_eq_none`, `record_of_get?_eq_some`: Recording a submission.
* `step_shares`: What one operation does to the share store.
* `step_combined`: When one operation reaches the combine, and with what.
* `step_aggregate_ok`: An aggregation that succeeds reached the combine.
* `step_replies`: What an operation that returns has returned.
-/

namespace Confium

open Ruby

/-- The keys of `SCHEMES`. -/
inductive Scheme where
  | cmp20
  | gg18
  deriving DecidableEq

/-- The name a scheme is listed under. -/
def Scheme.name : Scheme → String
  | .cmp20 => "CMP20-ECDSA-P256"
  | .gg18 => "GG18-ECDSA-P256"

/-- Looking a value up among the keys of `SCHEMES`. -/
def Scheme.ofValue? {V : Type} [DecidableEq V] [Object V] (scheme : V) : Option Scheme :=
  if scheme = Object.str Scheme.cmp20.name then some .cmp20
  else if scheme = Object.str Scheme.gg18.name then some .gg18
  else none

/-- The lifecycle of a session. -/
inductive SessionState where
  | pending
  | commitmentsCollected
  | completed
  deriving DecidableEq

namespace SessionState

/-- How far along the lifecycle a state is. -/
def rank : SessionState → Nat
  | .pending => 0
  | .commitmentsCollected => 1
  | .completed => 2

theorem rank_injective : Function.Injective rank := by
  intro a b h
  cases a <;> cases b <;> simp_all only [rank, reduceCtorEq, Nat.reduceEqDiff]

/-- The order `pending < commitments_collected < completed`. -/
instance : LinearOrder SessionState := LinearOrder.lift' rank rank_injective

theorem le_completed (s : SessionState) : s ≤ .completed := by
  cases s <;> decide

end SessionState

/-- What a combine is called with. -/
structure CombineCall (V : Type) where
  scheme : Scheme
  shares : List Bytes
  threshold : V
  message : Bytes
  deriving DecidableEq

/-- The native combines. Each call takes the shares, the threshold, the
    message and the randomness it draws. -/
structure Natives (V ρ : Type) where
  cmp20Sign : List Bytes → V → Bytes → ρ → Except (Exn V) Bytes
  gg18Sign : List Bytes → V → Bytes → ρ → Except (Exn V) Bytes

/-- `SCHEMES.fetch(scheme).call(...)`. -/
def Natives.combine {V ρ : Type} (native : Natives V ρ) (call : CombineCall V) (r : ρ) :
    Except (Exn V) Bytes :=
  match call.scheme with
  | .cmp20 => native.cmp20Sign call.shares call.threshold call.message r
  | .gg18 => native.gg18Sign call.shares call.threshold call.message r

/-- What a successful call returns: a session id, the session itself, or a
    signature. -/
inductive Reply (V : Type) where
  | sessionId (id : V)
  | self
  | signature (bytes : Bytes)
  deriving DecidableEq

/-- What a call did besides moving the state: its result, and the combine it
    called on the way, if it got that far. -/
structure Outcome (V : Type) where
  result : Except (Exn V) (Reply V)
  combined : Option (CombineCall V)

namespace Outcome

variable {V : Type}

def reply (r : Reply V) : Outcome V := ⟨.ok r, none⟩

def raise (e : Exn V) : Outcome V := ⟨.error e, none⟩

end Outcome

/-- A session. -/
structure SigningSession (V : Type) where
  message : Bytes
  threshold : V
  unlockWindow : V
  scheme : Scheme
  state : SessionState
  commitments : Hash V Bytes
  shares : Hash V Bytes
  deriving DecidableEq

/-- The operations of a session, each with its arguments. -/
inductive SessionOp (V ρ : Type) where
  | addCommitment (signerId : V) (bytes : Bytes)
  | addShare (signerId : V) (bytes : Bytes)
  | aggregate (r : ρ)

namespace SigningSession

variable {V ρ : Type} [DecidableEq V] [Object V]

/-- `DEFAULT_UNLOCK_WINDOW`. -/
def defaultUnlockWindow : V := Object.int 14400

/-- A freshly built session of a listed scheme. -/
def fresh (message : Bytes) (threshold unlockWindow : V) (scheme : Scheme) : SigningSession V :=
  { message := message, threshold := threshold, unlockWindow := unlockWindow, scheme := scheme,
    state := .pending, commitments := Hash.empty, shares := Hash.empty }

def new (message : Bytes) (threshold unlockWindow scheme : V) :
    Except (Exn V) (SigningSession V) :=
  match Scheme.ofValue? scheme with
  | none => .error (.unknownScheme scheme)
  | some s => .ok (fresh message threshold unlockWindow s)

/-- One submission per signer: a second one raises. -/
def record (store : Hash V Bytes) (signerId : V) (bytes : Bytes) :
    Except (Exn V) (Hash V Bytes) :=
  if store.hasKey (Object.key signerId) then .error (.duplicateSubmission signerId)
  else .ok (store.set (Object.key signerId) bytes)

def addCommitment (s : SigningSession V) (signerId : V) (bytes : Bytes) :
    Outcome V × SigningSession V :=
  match record s.commitments signerId bytes with
  | .error e => (.raise e, s)
  | .ok store =>
    -- The store is written by now; an incomparable threshold raises past it.
    let s := { s with commitments := store }
    match Object.ge store.length s.threshold with
    | none => (.raise (.comparison s.threshold), s)
    | some true => (.reply .self, { s with state := .commitmentsCollected })
    | some false => (.reply .self, s)

def addShare (s : SigningSession V) (signerId : V) (bytes : Bytes) :
    Outcome V × SigningSession V :=
  match record s.shares signerId bytes with
  | .error e => (.raise e, s)
  | .ok store => (.reply .self, { s with shares := store })

/-- `threshold_met?`, `none` when the comparison raises. -/
def thresholdMet (s : SigningSession V) : Option Bool := Object.ge s.shares.length s.threshold

/-- The call `aggregate` makes once the threshold is met. -/
def combineCall (s : SigningSession V) : CombineCall V :=
  { scheme := s.scheme, shares := s.shares.values, threshold := s.threshold,
    message := s.message }

def aggregate (native : Natives V ρ) (s : SigningSession V) (r : ρ) :
    Outcome V × SigningSession V :=
  match s.thresholdMet with
  | none => (.raise (.comparison s.threshold), s)
  | some false => (.raise (.thresholdNotMet s.shares.length s.threshold), s)
  | some true =>
    match native.combine s.combineCall r with
    | .error e => (⟨.error e, some s.combineCall⟩, s)
    | .ok signature =>
      (⟨.ok (.signature signature), some s.combineCall⟩, { s with state := .completed })

/-- A session as a machine. -/
def step (native : Natives V ρ) : Machine.Step (SigningSession V) (SessionOp V ρ) (Outcome V)
  | s, .addCommitment signerId bytes => s.addCommitment signerId bytes
  | s, .addShare signerId bytes => s.addShare signerId bytes
  | s, .aggregate r => s.aggregate native r

theorem record_of_get?_eq_none (store : Hash V Bytes) (signerId : V) (bytes : Bytes)
    (h : store.get? (Object.key signerId) = none) :
    record store signerId bytes = .ok (store.set (Object.key signerId) bytes) := by
  rw [record, (Hash.hasKey_eq_false_iff store _).mpr h, if_neg Bool.false_ne_true]

theorem record_of_get?_eq_some (store : Hash V Bytes) (signerId : V) (bytes b : Bytes)
    (h : store.get? (Object.key signerId) = some b) :
    record store signerId bytes = .error (.duplicateSubmission signerId) := by
  rw [record, Hash.hasKey, h, Option.isSome_some, if_pos rfl]

/-- Everything one operation can do, and when: the answer and the session after
    it, for each way through the three methods. -/
inductive Does (native : Natives V ρ) (s : SigningSession V) :
    SessionOp V ρ → Outcome V × SigningSession V → Prop where
  | commitmentDuplicate (signerId : V) (bytes b : Bytes)
      (hget : s.commitments.get? (Object.key signerId) = some b) :
      Does native s (.addCommitment signerId bytes) (.raise (.duplicateSubmission signerId), s)
  | commitmentIncomparable (signerId : V) (bytes : Bytes)
      (hget : s.commitments.get? (Object.key signerId) = none)
      (hge : Object.ge (s.commitments.length + 1) s.threshold = none) :
      Does native s (.addCommitment signerId bytes) (.raise (.comparison s.threshold),
        { s with commitments := s.commitments.set (Object.key signerId) bytes })
  | commitmentCounted (signerId : V) (bytes : Bytes)
      (hget : s.commitments.get? (Object.key signerId) = none)
      (hge : Object.ge (s.commitments.length + 1) s.threshold = some false) :
      Does native s (.addCommitment signerId bytes) (.reply .self,
        { s with commitments := s.commitments.set (Object.key signerId) bytes })
  | commitmentsReached (signerId : V) (bytes : Bytes)
      (hget : s.commitments.get? (Object.key signerId) = none)
      (hge : Object.ge (s.commitments.length + 1) s.threshold = some true) :
      Does native s (.addCommitment signerId bytes) (.reply .self,
        { s with
          commitments := s.commitments.set (Object.key signerId) bytes
          state := .commitmentsCollected })
  | shareDuplicate (signerId : V) (bytes b : Bytes)
      (hget : s.shares.get? (Object.key signerId) = some b) :
      Does native s (.addShare signerId bytes) (.raise (.duplicateSubmission signerId), s)
  | shareStored (signerId : V) (bytes : Bytes)
      (hget : s.shares.get? (Object.key signerId) = none) :
      Does native s (.addShare signerId bytes) (.reply .self,
        { s with shares := s.shares.set (Object.key signerId) bytes })
  | aggregateIncomparable (r : ρ) (hmet : s.thresholdMet = none) :
      Does native s (.aggregate r) (.raise (.comparison s.threshold), s)
  | aggregateEarly (r : ρ) (hmet : s.thresholdMet = some false) :
      Does native s (.aggregate r) (.raise (.thresholdNotMet s.shares.length s.threshold), s)
  | combineRaised (r : ρ) (e : Exn V) (hmet : s.thresholdMet = some true)
      (hcombine : native.combine s.combineCall r = .error e) :
      Does native s (.aggregate r) (⟨.error e, some s.combineCall⟩, s)
  | combineReturned (r : ρ) (signature : Bytes) (hmet : s.thresholdMet = some true)
      (hcombine : native.combine s.combineCall r = .ok signature) :
      Does native s (.aggregate r) (⟨.ok (.signature signature), some s.combineCall⟩,
        { s with state := .completed })

/-- Every step is one of these. -/
theorem step_does (native : Natives V ρ) (s : SigningSession V) (op : SessionOp V ρ) :
    Does native s op (step native s op) := by
  cases op with
  | addCommitment signerId bytes =>
      simp only [step, addCommitment]
      cases hget : s.commitments.get? (Object.key signerId) with
      | some b =>
          rw [record_of_get?_eq_some s.commitments signerId bytes b hget]
          exact .commitmentDuplicate signerId bytes b hget
      | none =>
          -- The count that is compared has the new commitment in it.
          have hlen := Hash.length_set_of_get?_eq_none s.commitments _ bytes hget
          simp only [record_of_get?_eq_none s.commitments signerId bytes hget, hlen]
          cases hge : Object.ge (s.commitments.length + 1) s.threshold with
          | none => exact .commitmentIncomparable signerId bytes hget hge
          | some met =>
              cases met with
              | false => exact .commitmentCounted signerId bytes hget hge
              | true => exact .commitmentsReached signerId bytes hget hge
  | addShare signerId bytes =>
      simp only [step, addShare]
      cases hget : s.shares.get? (Object.key signerId) with
      | some b =>
          rw [record_of_get?_eq_some s.shares signerId bytes b hget]
          exact .shareDuplicate signerId bytes b hget
      | none =>
          rw [record_of_get?_eq_none s.shares signerId bytes hget]
          exact .shareStored signerId bytes hget
  | aggregate r =>
      simp only [step, aggregate]
      cases hmet : s.thresholdMet with
      | none => exact .aggregateIncomparable r hmet
      | some met =>
          cases met with
          | false => exact .aggregateEarly r hmet
          | true =>
              -- The threshold is met, and it is up to the combine.
              cases hcombine : native.combine s.combineCall r with
              | error e => exact .combineRaised r e hmet hcombine
              | ok signature => exact .combineReturned r signature hmet hcombine

/-- What a session was created with. -/
def Fixed (s s' : SigningSession V) : Prop :=
  s'.message = s.message ∧ s'.threshold = s.threshold ∧
    s'.unlockWindow = s.unlockWindow ∧ s'.scheme = s.scheme

/-- No operation changes what the session was created with. -/
theorem step_fixed (native : Natives V ρ) (s : SigningSession V) (op : SessionOp V ρ) :
    Fixed s (step native s op).2 := by
  have hdoes := step_does native s op
  generalize step native s op = after at hdoes ⊢
  cases hdoes <;> exact ⟨rfl, rfl, rfl, rfl⟩

/-- A share from a signer who has none yet is stored and answered. -/
theorem step_addShare_new (native : Natives V ρ) (s : SigningSession V) (signerId : V)
    (bytes : Bytes) (h : s.shares.get? (Object.key signerId) = none) :
    step native s (.addShare signerId bytes)
      = (.reply .self, { s with shares := s.shares.set (Object.key signerId) bytes }) := by
  simp only [step, addShare, record_of_get?_eq_none s.shares signerId bytes h]

/-- The share an operation has accepted, if it is one and was, under the key of
    its signer. -/
def accepted? (op : SessionOp V ρ) (out : Outcome V) : Option (V × Bytes) :=
  match op, out.result with
  | .addShare signerId bytes, .ok _ => some (Object.key signerId, bytes)
  | _, _ => none

/-- The share store grows by exactly what was accepted. -/
theorem step_shares (native : Natives V ρ) (s : SigningSession V) (op : SessionOp V ρ) :
    (step native s op).2.shares.entries
      = s.shares.entries ++ (accepted? op (step native s op).1).toList := by
  have hdoes := step_does native s op
  generalize step native s op = after at hdoes ⊢
  cases hdoes with
  | shareStored signerId bytes hget =>
      exact Hash.entries_set_of_get?_eq_none s.shares _ bytes hget
  | _ => exact (List.append_nil _).symm

/-- Only an aggregation reaches the combine, only once the threshold compares
    as met, and always with the session's own call. -/
theorem step_combined (native : Natives V ρ) (s : SigningSession V) (op : SessionOp V ρ)
    (call : CombineCall V) (h : (step native s op).1.combined = some call) :
    (∃ r, op = .aggregate r) ∧ s.thresholdMet = some true ∧ call = s.combineCall := by
  have hdoes := step_does native s op
  generalize step native s op = after at hdoes h
  cases hdoes with
  | combineRaised r e hmet hcombine => exact ⟨⟨r, rfl⟩, hmet, (Option.some.inj h).symm⟩
  | combineReturned r signature hmet hcombine => exact ⟨⟨r, rfl⟩, hmet, (Option.some.inj h).symm⟩
  | _ => exact absurd h (by simp only [Outcome.raise, Outcome.reply, reduceCtorEq,
      not_false_eq_true])

/-- An aggregation that returns a signature reached the combine. -/
theorem step_aggregate_ok (native : Natives V ρ) (s : SigningSession V) (r : ρ) (a : Reply V)
    (h : (step native s (.aggregate r)).1.result = .ok a) :
    (step native s (.aggregate r)).1.combined = some s.combineCall := by
  have hdoes := step_does native s (.aggregate r)
  generalize step native s (.aggregate r) = after at hdoes h ⊢
  cases hdoes with
  | combineReturned _ signature hmet hcombine => rfl
  | _ => exact absurd h (by simp only [Outcome.raise, reduceCtorEq, not_false_eq_true])

/-- The replies an operation can get: a submission returns the session, an
    aggregation a signature. -/
def Replies (op : SessionOp V ρ) (a : Reply V) : Prop :=
  match op with
  | .addCommitment _ _ => a = .self
  | .addShare _ _ => a = .self
  | .aggregate _ => ∃ bytes, a = .signature bytes

theorem step_replies (native : Natives V ρ) (s : SigningSession V) (op : SessionOp V ρ)
    (a : Reply V) (h : (step native s op).1.result = .ok a) : Replies op a := by
  have hdoes := step_does native s op
  generalize step native s op = after at hdoes h
  cases hdoes with
  | commitmentCounted signerId bytes hget hge => exact (Except.ok.inj h).symm
  | commitmentsReached signerId bytes hget hge => exact (Except.ok.inj h).symm
  | shareStored signerId bytes hget => exact (Except.ok.inj h).symm
  | combineReturned r signature hmet hcombine => exact ⟨signature, (Except.ok.inj h).symm⟩
  | _ => exact absurd h (by simp only [Outcome.raise, reduceCtorEq, not_false_eq_true])

end SigningSession

end Confium
