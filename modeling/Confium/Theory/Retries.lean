import Confium.Theory.Delivery

/-!
# Which Failures Are Retried

The sink is said to retry a failed delivery and to drop the record after the
final failure. So a write should post until a 2xx response comes back or the
retries are used up, and count the record as dropped if none came back.

A failure has two shapes. A response that is not 2xx is retried, and an exception
of the transport is not: it leaves the loop from the attempt it hit. Such an
attempt makes no difference when it is the last one anyway, or when a 2xx
response came before it. Everywhere else, `EarlyError`, a retry is left out that
should have been made.

## Main definitions

* `succeeded`: An attempt got a 2xx response.
* `attemptsDue`: How many attempts there should be.
* `EarlyError`: An attempt that is reached raises, and is not the last.
* `RetriesFailures`: A write makes the attempts it should and drops the record
  if all of them fail.

## Theorems

* `attemptsDue_succ`: The attempts due, one attempt on.
* `deliverFrom_of_no_early_error`: The loop without such an attempt.
* `posts_lt_of_early_error`: The loop with one.
* `retriesFailures_iff`: Which writes retry as they should.
-/

namespace Confium

open Ruby

namespace OtlpSink

/-- An attempt got a 2xx response. -/
def succeeded : Except Raised Response → Bool
  | .ok response => response.isSuccess
  | .error _ => false

/-- How many of `n` attempts from `first` on there should be: up to the first that
    gets a 2xx response, or all of them. -/
def attemptsDue (outcome : Nat → Except Raised Response) (first n : Nat) : Nat :=
  min ((List.range' first n).findIdx (fun i => succeeded (outcome i)) + 1) n

/-- An attempt that is reached raises, and is not the last: `more` are still to
    come after the first. -/
def EarlyError (outcome : Nat → Except Raised Response) (first more : Nat) : Prop :=
  ∃ i e, first ≤ i ∧ i < first + more ∧
    (∀ j, first ≤ j → j < i → succeeded (outcome j) = false) ∧ outcome i = .error e

/-- What the collector does with a payload, attempt by attempt. -/
def outcome (sink : OtlpSink) (world : World) (body : String) (i : Nat) :
    Except Raised Response :=
  world.post i (sink.request body)

theorem attemptsDue_succ (outcome : Nat → Except Raised Response) (first n : Nat) :
    attemptsDue outcome first (n + 1) =
      if succeeded (outcome first) then 1 else attemptsDue outcome (first + 1) n + 1 := by
  unfold attemptsDue
  rw [List.range'_succ, List.findIdx_cons]
  cases succeeded (outcome first) with
  | true =>
      rw [if_pos rfl, cond_true]
      omega
  | false =>
      rw [if_neg Bool.false_ne_true, cond_false]
      omega

theorem attemptsDue_zero (outcome : Nat → Except Raised Response) (first : Nat) :
    attemptsDue outcome first 0 = 0 := Nat.min_zero _

/-- An early error is at the first attempt, or the first attempt fails and it
    comes later. -/
theorem earlyError_succ (outcome : Nat → Except Raised Response) (first more : Nat) :
    EarlyError outcome first (more + 1) ↔
      (∃ e, outcome first = .error e) ∨
        (succeeded (outcome first) = false ∧ EarlyError outcome (first + 1) more) := by
  constructor
  · rintro ⟨i, e, hle, hlt, hbefore, herror⟩
    by_cases hi : i = first
    · rw [hi] at herror
      exact Or.inl ⟨e, herror⟩
    · refine Or.inr ⟨hbefore first (le_refl first) (by omega), i, e, by omega, by omega, ?_, herror⟩
      intro j hj hji
      exact hbefore j (by omega) hji
  · rintro (⟨e, herror⟩ | ⟨hfirst, i, e, hle, hlt, hbefore, herror⟩)
    · exact ⟨first, e, le_refl first, by omega, fun j hj hji => absurd hji (by omega), herror⟩
    · refine ⟨i, e, by omega, by omega, ?_, herror⟩
      intro j hj hji
      by_cases hjf : j = first
      · rw [hjf]
        exact hfirst
      · exact hbefore j (by omega) hji

/-- There is an attempt to come after an early error. -/
theorem pos_of_earlyError (outcome : Nat → Except Raised Response) (first more : Nat)
    (h : EarlyError outcome first more) : 0 < more := by
  rcases h with ⟨i, e, hle, hlt, _⟩
  omega

/-- The first attempt fails when there is one. -/
theorem failed_of_earlyError (outcome : Nat → Except Raised Response) (first more : Nat)
    (h : EarlyError outcome first more) : succeeded (outcome first) = false := by
  rcases h with ⟨i, e, hle, hlt, hbefore, herror⟩
  by_cases hi : i = first
  · rw [← hi, herror, succeeded]
  · exact hbefore first (le_refl first) (by omega)

section Loop

variable (sink : OtlpSink) (world : World) (body : String)

theorem succeeded_of_error (attempt : Nat) (e : Raised)
    (hpost : world.post attempt (sink.request body) = .error e) :
    succeeded (sink.outcome world body attempt) = false := by
  rw [outcome, hpost, succeeded]

theorem succeeded_of_ok (attempt : Nat) (response : Response)
    (hpost : world.post attempt (sink.request body) = .ok response) :
    succeeded (sink.outcome world body attempt) = response.isSuccess := by
  rw [outcome, hpost, succeeded]

/-- Without an early error the loop makes the attempts that are due, and returns
    exactly when one of them gets a 2xx response. -/
theorem deliverFrom_of_no_early_error (more attempt : Nat)
    (h : (attempt : Int) + more = sink.retries)
    (hno : ¬ EarlyError (sink.outcome world body) attempt more) :
    (sink.deliverFrom world body (more + 1) attempt).posts.length
        = attemptsDue (sink.outcome world body) attempt (more + 1) ∧
      if (List.range' attempt (more + 1)).any (fun i => succeeded (sink.outcome world body i)) then
        ∃ r, (sink.deliverFrom world body (more + 1) attempt).result = .ok (some r)
      else ∃ e, (sink.deliverFrom world body (more + 1) attempt).result = .error e := by
  refine deliverFrom_induct sink world body (fun more attempt delivery =>
    ¬ EarlyError (sink.outcome world body) attempt more →
      delivery.posts.length = attemptsDue (sink.outcome world body) attempt (more + 1) ∧
        if (List.range' attempt (more + 1)).any
            (fun i => succeeded (sink.outcome world body i)) then
          ∃ r, delivery.result = .ok (some r)
        else ∃ e, delivery.result = .error e) ?_ ?_ ?_ ?_ more attempt h hno
  · intro more attempt e hpost hno
    cases more with
    | zero =>
        -- The last attempt may fail in either way.
        rw [attemptsDue_succ, attemptsDue_zero, List.range'_succ, List.range'_zero, List.any_cons,
          List.any_nil, Bool.or_false, succeeded_of_error sink world body attempt e hpost,
          if_neg Bool.false_ne_true, if_neg Bool.false_ne_true]
        exact ⟨rfl, e, rfl⟩
    | succ more => exact absurd ((earlyError_succ _ _ _).mpr (Or.inl ⟨e, hpost⟩)) hno
  · intro more attempt response hpost hs hno
    rw [attemptsDue_succ, List.range'_succ, List.any_cons,
      succeeded_of_ok sink world body attempt response hpost, hs, if_pos rfl, Bool.true_or,
      if_pos rfl]
    exact ⟨rfl, response, rfl⟩
  · intro attempt response e hpost hs hno
    rw [attemptsDue_succ, attemptsDue_zero, List.range'_succ, List.range'_zero, List.any_cons,
      List.any_nil, Bool.or_false, succeeded_of_ok sink world body attempt response hpost, hs,
      if_neg Bool.false_ne_true, if_neg Bool.false_ne_true]
    exact ⟨rfl, e, rfl⟩
  · intro more attempt response rest hpost hs ih hno
    have hfailed := succeeded_of_ok sink world body attempt response hpost
    rw [hs] at hfailed
    rw [earlyError_succ, not_or] at hno
    rcases ih (fun hearly => hno.2 ⟨hfailed, hearly⟩) with ⟨hposts, hresult⟩
    rw [attemptsDue_succ, List.range'_succ, List.any_cons, hfailed, if_neg Bool.false_ne_true,
      Bool.false_or, List.length_cons, hposts]
    exact ⟨rfl, hresult⟩

/-- With an early error it makes fewer. -/
theorem posts_lt_of_early_error (more attempt : Nat) (h : (attempt : Int) + more = sink.retries)
    (hearly : EarlyError (sink.outcome world body) attempt more) :
    (sink.deliverFrom world body (more + 1) attempt).posts.length
      < attemptsDue (sink.outcome world body) attempt (more + 1) := by
  refine deliverFrom_induct sink world body (fun more attempt delivery =>
    EarlyError (sink.outcome world body) attempt more →
      delivery.posts.length < attemptsDue (sink.outcome world body) attempt (more + 1))
    ?_ ?_ ?_ ?_ more attempt h hearly
  · intro more attempt e hpost hearly
    -- One attempt was made, and at least one more was due.
    have hmore := pos_of_earlyError _ _ _ hearly
    have hdue : 0 < attemptsDue (sink.outcome world body) (attempt + 1) more := by
      unfold attemptsDue
      omega
    rw [attemptsDue_succ, succeeded_of_error sink world body attempt e hpost,
      if_neg Bool.false_ne_true, List.length_singleton]
    omega
  · intro more attempt response hpost hs hearly
    -- Nothing after a 2xx response is reached.
    have hfailed := failed_of_earlyError _ _ _ hearly
    rw [succeeded_of_ok sink world body attempt response hpost, hs] at hfailed
    exact absurd hfailed (by simp only [Bool.true_eq_false, not_false_eq_true])
  · intro attempt response e hpost hs hearly
    exact absurd (pos_of_earlyError _ _ _ hearly) (lt_irrefl 0)
  · intro more attempt response rest hpost hs ih hearly
    have hfailed := succeeded_of_ok sink world body attempt response hpost
    rw [hs] at hfailed
    rcases (earlyError_succ _ _ _).mp hearly with ⟨e, herror⟩ | ⟨_, hrest⟩
    · rw [outcome, hpost] at herror
      exact absurd herror (by simp only [reduceCtorEq, not_false_eq_true])
    · have hlt := ih hrest
      rw [attemptsDue_succ, hfailed, if_neg Bool.false_ne_true, List.length_cons]
      omega

end Loop

/-- A write makes the attempts that are due, and counts the record as dropped
    exactly when all of them fail. -/
structure RetriesFailures (sink : OtlpSink) (world : World) (record : Json) (body : String) :
    Prop where
  attempts : (sink.write world record).1.posts.length
    = min ((List.range (sink.retries.toNat + 1)).findIdx
        (fun i => succeeded (sink.outcome world body i)) + 1) (sink.retries.toNat + 1)
  dropped : (sink.write world record).2.dropped
    = sink.dropped + if ∃ i ≤ sink.retries.toNat, succeeded (sink.outcome world body i) = true
        then 0 else 1

/-- What a write comes to when its payload is built. -/
theorem write_of_body (sink : OtlpSink) (world : World) (record payload : Json) (body : String)
    (henv : sink.envelope world record = .ok payload) (hgen : world.generate payload = .ok body) :
    (sink.write world record).1.posts = (sink.deliver world body).posts ∧
      (∀ r, (sink.deliver world body).result = .ok r →
        (sink.write world record).2.dropped = sink.dropped) ∧
      ∀ e, (sink.deliver world body).result = .error e → e.standard = true →
        (sink.write world record).2.dropped = sink.dropped + 1 := by
  have hattempt : sink.attempt world record = sink.deliver world body := by
    simp only [attempt, henv, hgen]
  simp only [write, hattempt]
  cases hresult : (sink.deliver world body).result with
  | ok r => exact ⟨rfl, fun _ _ => rfl, fun e he => absurd he (by simp only [reduceCtorEq,
      not_false_eq_true])⟩
  | error e =>
      cases hstd : e.standard with
      | true =>
          simp only [hstd, if_true]
          refine ⟨trivial, fun r hr => absurd hr (by simp only [reduceCtorEq,
            not_false_eq_true]), ?_⟩
          exact fun _ _ _ => trivial
      | false =>
          simp only [hstd, Bool.false_eq_true, if_false]
          refine ⟨trivial, fun r _ => trivial, fun e' he hstd' => ?_⟩
          rw [Except.error.injEq] at he
          rw [← he, hstd] at hstd'
          exact absurd hstd' Bool.false_ne_true

/-- No attempt that is reached raises, but for the last. -/
theorem not_earlyError_iff (outcome : Nat → Except Raised Response) (more : Nat) :
    ¬ EarlyError outcome 0 more ↔
      ∀ i < more, (∀ j < i, succeeded (outcome j) = false) → ∀ e, outcome i ≠ .error e := by
  constructor
  · intro hno i hi hbefore e herror
    exact hno ⟨i, e, Nat.zero_le i, by omega, fun j _ hj => hbefore j hj, herror⟩
  · rintro h ⟨i, e, _, hi, hbefore, herror⟩
    exact h i (by omega) (fun j hj => hbefore j (Nat.zero_le j) hj) e herror

/-- A write whose payload is built retries as it should exactly when no attempt
    raises that is reached and is not the last. -/
theorem retriesFailures_iff (sink : OtlpSink) (world : World) (record payload : Json)
    (body : String) (hretries : 0 ≤ sink.retries)
    (henv : sink.envelope world record = .ok payload) (hgen : world.generate payload = .ok body)
    (hstandard : ∀ i, OnlyRaises (fun e => e.standard = true) (sink.outcome world body i)) :
    RetriesFailures sink world record body ↔
      ∀ i < sink.retries.toNat, (∀ j < i, succeeded (sink.outcome world body j) = false) →
        ∀ e, sink.outcome world body i ≠ .error e := by
  rw [← not_earlyError_iff]
  rcases write_of_body sink world record payload body henv hgen with ⟨hposts, hok, herror⟩
  have hcount : (sink.retries + 1).toNat = sink.retries.toNat + 1 := by omega
  have hdeliver : sink.deliver world body
      = sink.deliverFrom world body (sink.retries.toNat + 1) 0 := by rw [deliver, hcount]
  have hlast : ((0 : Nat) : Int) + sink.retries.toNat = sink.retries := by omega
  constructor
  · intro h hearly
    -- An early error ends the loop before the attempts that are due.
    have hlt := posts_lt_of_early_error sink world body sink.retries.toNat 0 hlast hearly
    have hattempts := h.attempts
    rw [hposts, hdeliver, List.range_eq_range'] at hattempts
    rw [hattempts] at hlt
    exact absurd hlt (lt_irrefl _)
  · intro hno
    rcases deliverFrom_of_no_early_error sink world body sink.retries.toNat 0 hlast hno with
      ⟨hlength, hresult⟩
    rw [← hdeliver] at hlength hresult
    refine ⟨by rw [hposts, hlength, List.range_eq_range', attemptsDue], ?_⟩
    have hany : (List.range' 0 (sink.retries.toNat + 1)).any
          (fun i => succeeded (sink.outcome world body i)) = true ↔
        ∃ i ≤ sink.retries.toNat, succeeded (sink.outcome world body i) = true := by
      simp only [← List.range_eq_range', List.any_eq_true, List.mem_range, Nat.lt_succ_iff]
    by_cases hsome : ∃ i ≤ sink.retries.toNat, succeeded (sink.outcome world body i) = true
    · rw [if_pos (hany.mpr hsome)] at hresult
      rcases hresult with ⟨r, hr⟩
      rw [if_pos hsome, hok _ hr]
      rfl
    · rw [if_neg (fun h => hsome (hany.mp h))] at hresult
      rcases hresult with ⟨e, he⟩
      -- The last failure is rescued only because it is a `StandardError`.
      have hstd : e.standard = true :=
        deliverFrom_onlyRaises sink world body _ 0 hstandard e he
      rw [if_neg hsome, herror e he hstd]

/-- A server error, then a 2xx response, then a refused connection that is never
    met. -/
theorem server_error_retried :
    RetriesFailures (new "" Hash.empty "confium" 2 0)
      (scripted [.ok ⟨500⟩, .ok ⟨200⟩]) (.obj []) "payload" := by
  refine (retriesFailures_iff (new "" Hash.empty "confium" 2 0)
    (scripted [.ok ⟨500⟩, .ok ⟨200⟩]) (.obj []) _ "payload" (by decide) rfl rfl ?_).mpr ?_
  · intro i
    exact (scripted_standardOnly [.ok ⟨500⟩, .ok ⟨200⟩] (by
      simp only [List.forall_mem_cons, List.not_mem_nil, false_imp_iff, implies_true, and_true,
        onlyRaises_ok])).post i _
  · intro i hi hbefore e
    have hi' : i < 2 := hi
    rcases i with _ | _ | i
    · exact fun h => absurd h (by simp [outcome, scripted])
    · exact fun h => absurd h (by simp [outcome, scripted])
    · exact absurd hi' (by omega)

/-- A collector that refuses a connection and would have answered the next. -/
def refusesOnce : World :=
  scripted [.error ⟨"Errno::ECONNREFUSED", "refused", true⟩, .ok ⟨200⟩]

/-- One attempt is made of the two that were due, and the record is dropped. -/
theorem refused_connection_not_retried :
    (write (new "" Hash.empty "confium" 2 0) refusesOnce (.obj [])).1.posts.length = 1 ∧
      (write (new "" Hash.empty "confium" 2 0) refusesOnce (.obj [])).2.dropped = 1 ∧
      ¬ RetriesFailures (new "" Hash.empty "confium" 2 0) refusesOnce (.obj []) "payload" := by
  refine ⟨rfl, rfl, fun h => ?_⟩
  exact absurd h.dropped (by decide +kernel)

end OtlpSink

end Confium
