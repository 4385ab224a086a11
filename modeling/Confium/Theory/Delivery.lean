import Confium.Lib.Raises
import Confium.Core.OtlpSink

/-!
# Accounting for Audit Records

No record handed to the OTLP sink disappears without a count. A write either
got a 2xx response or added one to `dropped`, never both and never neither, so
over any run the writes are the deliveries and the drops.

The two sides of the count are read off different things. A delivery is a 2xx
response among those that came back during the write. A drop is the `rescue` of
the write having run. What ties them together is the retry loop: it returns
exactly when a 2xx response came back, which is `deliver_result`, and a payload
that could not be built never reaches it.

The `rescue` takes `StandardError` only, so the worlds here raise nothing else.
Every way the payload can fail is a rule of `OnlyRaises`, walked construct by
construct over `envelope`.

## Main definitions

* `World.StandardOnly`: A world whose exceptions are all `StandardError`s.
* `Written.delivered`: The write got a 2xx response.

## Theorems

* `envelope_onlyRaises`: Building a payload raises only what the world does.
* `write_accounts`: One write returns, and is either delivered or dropped.
* `writes_accounted`: So the writes of a run are the deliveries and the drops.
* `negative_retries_lose`: With a negative number of retries a write is neither.
-/

namespace Confium

open Ruby

/-- Every exception of the world is a `StandardError`. -/
structure World.StandardOnly (world : World) : Prop where
  parseTime : ∀ s, OnlyRaises (fun e => e.standard = true) (world.parseTime s)
  nanos : ∀ t, OnlyRaises (fun e => e.standard = true) (world.nanos t)
  toS : ∀ v, OnlyRaises (fun e => e.standard = true) (world.toS v)
  notAHash : ∀ v, (world.notAHash v).standard = true
  generate : ∀ v, OnlyRaises (fun e => e.standard = true) (world.generate v)
  post : ∀ n p, OnlyRaises (fun e => e.standard = true) (world.post n p)

/-- The write got a 2xx response. -/
def Written.delivered (w : Written) : Bool := w.responses.any Response.isSuccess

namespace OtlpSink

theorem logRecord_onlyRaises (world : World) (record : Json) (h : world.StandardOnly) :
    OnlyRaises (fun e => e.standard = true) (logRecord world record) := by
  cases record with
  | obj fields =>
      refine onlyRaises_bind _ _ _ ?_ fun time _ => ?_
      · -- A timestamp that is not a String never reaches the parser.
        unfold parseTime
        split
        · exact onlyRaises_map _ _ _ (h.parseTime _)
        · exact onlyRaises_ok _ _
      refine onlyRaises_bind _ _ _ (h.nanos time) fun nanos _ => ?_
      refine onlyRaises_bind _ _ _ (h.toS _) fun operation _ => ?_
      refine onlyRaises_bind _ _ _ (h.toS _) fun result _ => ?_
      refine onlyRaises_bind _ _ _ ?_ fun attributes _ => onlyRaises_ok _ _
      refine onlyRaises_mapM _ _ _ fun field _ => ?_
      exact onlyRaises_bind _ _ _ (h.toS _) fun value _ => onlyRaises_ok _ _
  | _ => exact onlyRaises_error _ _ (h.notAHash _)

/-- Building a payload raises only what the world does. -/
theorem envelope_onlyRaises (sink : OtlpSink) (world : World) (record : Json)
    (h : world.StandardOnly) :
    OnlyRaises (fun e => e.standard = true) (sink.envelope world record) :=
  onlyRaises_bind _ _ _ (logRecord_onlyRaises world record h) fun _ _ => onlyRaises_ok _ _

theorem deliverFrom_onlyRaises (sink : OtlpSink) (world : World) (body : String)
    (more attempt : Nat)
    (h : ∀ n, OnlyRaises (fun e => e.standard = true) (world.post n (sink.request body))) :
    OnlyRaises (fun e => e.standard = true)
      (sink.deliverFrom world body more attempt).result := by
  induction more generalizing attempt with
  | zero => exact onlyRaises_ok _ none
  | succ more ih =>
      have hround := deliverFrom_round sink world body more attempt
      generalize sink.deliverFrom world body (more + 1) attempt = delivery at hround ⊢
      cases hround with
      | raised e hpost => exact onlyRaises_error _ e (h attempt e hpost)
      | answered response hpost hs => exact onlyRaises_ok _ (some response)
      | refused response hpost hs hlast => exact onlyRaises_error _ _ rfl
      | retried response hpost hs hlast => exact ih (attempt + 1)

/-- The body of a write returns a response exactly when a 2xx one came back, and
    otherwise raises a `StandardError`. -/
theorem attempt_result (sink : OtlpSink) (world : World) (record : Json)
    (hretries : 0 ≤ sink.retries) (h : world.StandardOnly) :
    (∃ r, (sink.attempt world record).result = .ok (some r) ∧
        (sink.attempt world record).responses.any Response.isSuccess = true) ∨
      ∃ e, (sink.attempt world record).result = .error e ∧ e.standard = true ∧
        (sink.attempt world record).responses.any Response.isSuccess = false := by
  unfold attempt
  cases henv : sink.envelope world record with
  | error e => exact Or.inr ⟨e, rfl, envelope_onlyRaises sink world record h e henv, rfl⟩
  | ok payload =>
      cases hgen : world.generate payload with
      | error e =>
          simp only [hgen]
          exact Or.inr ⟨e, rfl, h.generate payload e hgen, rfl⟩
      | ok body =>
          simp only [hgen]
          rcases deliver_result sink world body hretries with hok | ⟨e, he, hnone⟩
          · exact Or.inl hok
          · exact Or.inr ⟨e, he, deliverFrom_onlyRaises sink world body _ 0
              (fun n => h.post n _) e he, hnone⟩

/-- A write returns, and either it was delivered and nothing was dropped, or it
    was not and one record was. -/
theorem write_accounts (sink : OtlpSink) (w : Write) (hretries : 0 ≤ sink.retries)
    (h : w.world.StandardOnly) :
    (∃ a, (step sink w).1.result = .ok a) ∧ (step sink w).2.retries = sink.retries ∧
      (step sink w).2.dropped = sink.dropped + (if (step sink w).1.delivered then 0 else 1) := by
  unfold step write Written.delivered
  rcases attempt_result sink w.world w.record hretries h with ⟨r, hok, hany⟩ | ⟨e, he, hstd, hany⟩
  · simp only [hok, hany]
    exact ⟨⟨some r, rfl⟩, trivial, rfl⟩
  · simp only [he, hstd, if_true, hany]
    exact ⟨⟨none, rfl⟩, trivial, rfl⟩

/-- The same over a run, from a sink that has dropped some already. -/
theorem run_accounts (sink : OtlpSink) (writes : List Write) (hretries : 0 ≤ sink.retries)
    (h : ∀ w ∈ writes, w.world.StandardOnly) :
    (∀ t ∈ Machine.trace step sink writes, ∃ a, t.out.result = .ok a) ∧
      sink.dropped + writes.length
        = (Machine.trace step sink writes).countP (fun t => t.out.delivered)
          + (Machine.run step sink writes).dropped := by
  induction writes generalizing sink with
  | nil =>
      refine ⟨fun t ht => absurd ht List.not_mem_nil, ?_⟩
      rw [Machine.trace, Machine.run, List.countP_nil, List.length_nil]
      omega
  | cons w rest ih =>
      rw [List.forall_mem_cons] at h
      rcases write_accounts sink w hretries h.1 with ⟨hreturns, hkept, hdropped⟩
      rcases ih (step sink w).2 (by rw [hkept]; exact hretries) h.2 with ⟨hrest, hcount⟩
      rw [Machine.trace, Machine.run, List.forall_mem_cons, List.countP_cons, List.length_cons]
      refine ⟨⟨hreturns, hrest⟩, ?_⟩
      -- What this write adds to one side of the count it adds to the other.
      have hout : (Machine.Step.transition step sink w).out = (step sink w).1 := rfl
      rw [hout]
      cases hdel : (step sink w).1.delivered with
      | true =>
          rw [hdel, if_pos rfl] at hdropped
          rw [if_pos rfl]
          omega
      | false =>
          rw [hdel, if_neg Bool.false_ne_true] at hdropped
          rw [if_neg Bool.false_ne_true]
          omega

/-- No record is lost unaccounted: from a new sink no write of a run raises, and
    the writes are those that got a 2xx response and those that were dropped. -/
theorem writes_accounted (uri : String) (headers : Hash String String) (serviceName : String)
    (retries : Int) (retryBase : ℚ) (writes : List Write) (hretries : 0 ≤ retries)
    (h : ∀ w ∈ writes, w.world.StandardOnly) :
    (∀ t ∈ Machine.trace step (new uri headers serviceName retries retryBase) writes,
        ∃ a, t.out.result = .ok a) ∧
      writes.length
        = (Machine.trace step (new uri headers serviceName retries retryBase) writes).countP
            (fun t => t.out.delivered)
          + (Machine.run step (new uri headers serviceName retries retryBase) writes).dropped := by
  have hrun := run_accounts (new uri headers serviceName retries retryBase) writes hretries h
  refine ⟨hrun.1, ?_⟩
  have hzero : (new uri headers serviceName retries retryBase).dropped = 0 := rfl
  have hcount := hrun.2
  rw [hzero] at hcount
  omega

/-- A world in which the collector answers the attempts of a write as listed,
    and refuses the connection past the list. -/
def scripted (replies : List (Except Raised Response)) : World :=
  { now := .finite 0, parseTime := fun _ => .ok none, nanos := fun _ => .ok "0",
    toS := fun _ => .ok "", notAHash := fun _ => ⟨"NoMethodError", "undefined method", true⟩,
    generate := fun _ => .ok "payload",
    post := fun n _ => replies.getD n (.error ⟨"Errno::ECONNREFUSED", "refused", true⟩) }

theorem scripted_standardOnly (replies : List (Except Raised Response))
    (h : ∀ x ∈ replies, OnlyRaises (fun e => e.standard = true) x) :
    (scripted replies).StandardOnly where
  parseTime := fun _ => onlyRaises_ok _ _
  nanos := fun _ => onlyRaises_ok _ _
  toS := fun _ => onlyRaises_ok _ _
  notAHash := fun _ => rfl
  generate := fun _ => onlyRaises_ok _ _
  post := by
    intro n p
    unfold scripted
    simp only [List.getD_eq_getElem?_getD]
    cases hget : replies[n]? with
    | none => exact onlyRaises_error _ _ rfl
    | some x => exact h x (List.mem_of_getElem? hget)

/-- Three writes, one delivered on its second attempt, one failing twice, one of
    a record that is no Hash. -/
def threeWrites : List Write :=
  [⟨scripted [.ok ⟨500⟩, .ok ⟨200⟩], .obj []⟩, ⟨scripted [.ok ⟨500⟩, .ok ⟨503⟩], .obj []⟩,
    ⟨scripted [], .null⟩]

theorem threeWrites_standardOnly : ∀ w ∈ threeWrites, w.world.StandardOnly := by
  intro w hw
  simp only [threeWrites, List.mem_cons, List.not_mem_nil, or_false] at hw
  rcases hw with hw | hw | hw <;> rw [hw] <;> refine scripted_standardOnly _ ?_ <;>
    simp only [List.forall_mem_cons, List.not_mem_nil, false_imp_iff, implies_true, and_true,
      onlyRaises_ok]

/-- One of the three writes is delivered and the other two are dropped. -/
theorem threeWrites_accounted :
    (∀ t ∈ Machine.trace step (new "" Hash.empty "confium" 1 0) threeWrites,
        ∃ a, t.out.result = .ok a) ∧
      threeWrites.length
        = (Machine.trace step (new "" Hash.empty "confium" 1 0) threeWrites).countP
            (fun t => t.out.delivered)
          + (Machine.run step (new "" Hash.empty "confium" 1 0) threeWrites).dropped ∧
      (Machine.run step (new "" Hash.empty "confium" 1 0) threeWrites).dropped = 2 := by
  have h := writes_accounted "" Hash.empty "confium" 1 0 threeWrites (by decide)
    threeWrites_standardOnly
  exact ⟨h.1, h.2, rfl⟩

/-- With a negative number of retries a write that builds its payload is neither
    delivered nor dropped. -/
theorem negative_retries_lose (sink : OtlpSink) (w : Write) (payload : Json) (body : String)
    (hretries : sink.retries < 0) (henv : sink.envelope w.world w.record = .ok payload)
    (hgen : w.world.generate payload = .ok body) :
    (step sink w).1.delivered = false ∧ (step sink w).2 = sink := by
  have hattempt : sink.attempt w.world w.record = ⟨[], [], [], .ok none⟩ := by
    simp only [attempt, henv, hgen]
    exact deliver_of_neg sink w.world body hretries
  simp only [step, write, hattempt, Written.delivered, List.any_nil, and_self]

end OtlpSink

end Confium
