import Confium.Core.Connections
import Confium.Theory.Lifecycle

/-!
# The Wire Path and the In-Process Path

Signers that reach the coordinator over the wire see what they would have seen
calling it directly, one after another, in the order in which their requests took
the mutex. One kind of call is different. A combine that panics raises `fatal`,
which none of the server's `rescue` clauses takes, so a direct call raises it and a
client is told nothing at all: its connection is closed. The wire path refines the
in-process path exactly when no client was left like that.

Two things have to line up. One call by itself has to come through its two
adapters unchanged: `dispatch_request` says that dispatching the request of a
call is the direct call, and `receive_answer_iff` that what the client makes of the
answer is what the direct call returned, or a `RemoteError` with the class of
what it raised, unless the call panics. And the connections must not get in each
other's way. `Serialised` is the invariant for that: the registry is what the direct
calls made of it, and every connection is where the direct call it stands for says
it should be. No event but dispatching touches the registry, so it is enough that
each event keeps one connection in step and leaves the others alone.

## Main definitions

* `Agrees`: A client result that is what the direct call returned or raised.
* `directTrace`: The direct calls, one after another.
* `response`: What dispatching a call gives, read off the direct call.
* `Waiting`, `Settled`: Where a connection is before and after dispatch.
* `Serialised`: The invariant of the service.
* `Refines`: What a client can tell.
* `Reached`: A connection that is at least so far along.

## Theorems

* `dispatch_request`: Dispatching a request is the direct call.
* `receive_answer_iff`: When the client returns what the direct call did.
* `serialised_step`, `serialised_run`: The invariant, along every run.
* `refines_iff`: When a service refines the direct calls.
* `wire_refines_in_process_iff`: And so for every run.
* `aggregate_without_answer`: A client that is not told.
* `call_returns`: Every call gets to return, so there is something to refine.
-/

namespace Confium

open Ruby

namespace Connections

open SignerClient NetworkCoordinator

variable {ρ : Type}

/-- A client result that is what the direct call returned, or a remote error of
    the class it raised. -/
def Agrees (direct : Except (Exn Json) (Reply Json)) (result : Except ClientExn ClientValue) :
    Prop :=
  match direct with
  | .ok (.sessionId id) => result = .ok (.value id)
  | .ok .self => result = .ok (.value (.bool true))
  | .ok (.signature bytes) => result = .ok (.bytes bytes)
  | .error e => ∃ message, result = .error (.remoteError (.str e.className) message)

/-- The direct calls, one after another. -/
def directTrace (native : Natives Json ρ) (c : Coordinator Json) (order : List (Dispatched ρ)) :
    List (Machine.Transition (Coordinator Json) (CoordinatorOp Json ρ) (Outcome Json)) :=
  Machine.trace (Coordinator.step native) c (order.map Dispatched.op)

/-- What dispatching a call gives, read off the direct call. -/
def response (call : ClientCall)
    (t : Machine.Transition (Coordinator Json) (CoordinatorOp Json ρ) (Outcome Json)) :
    Except (Exn Json) Json :=
  match t.out.result with
  | .error e => .error e
  | .ok a => (handler call : Handler ρ).response (fields call) a t.after

/-- Dispatching the request of a call is the direct call. -/
theorem dispatch_request (native : Natives Json ρ) (c : Coordinator Json) (call : ClientCall)
    (r : ρ) :
    NetworkCoordinator.dispatch native c (request call) r
      = (response call (Machine.Step.transition (Coordinator.step native) c (directOp call r)),
        (Coordinator.step native c (directOp call r)).2) := by
  rcases dispatch_of_call native c (request call) r _ (callOf_request call r) with
    ⟨h, f, hh, _, hd⟩
  rw [handlerOf_request, Except.ok.injEq, Prod.mk.injEq] at hh
  rw [hd, ← hh.1, ← hh.2]
  rfl

/-- A call that raised a `StandardError` comes back as a remote error of the same
    class. -/
theorem receive_error (codec : JsonCodec) (hcodec : codec.Lawful) (toS describe : Json → String)
    (call : ClientCall) (e : Exn Json) (he : e.isStandardError = true) :
    receive codec call (answer codec toS describe (.error e))
      = .error (.remoteError (.str e.className) (.str (e.message toS describe))) := by
  rw [answer, if_pos he, receive_line codec hcodec call _ rfl]
  rfl

/-- A call that panicked does not come back. -/
theorem receive_fatal (codec : JsonCodec) (toS describe : Json → String) (call : ClientCall)
    (text : String) :
    receive codec call (answer codec toS describe (.error (.fatal text)))
      = .error (.own .endOfFile) := receive_nil codec call

/-- A call that was delegated and returned: the session was there, it replied,
    and it is still there. -/
theorem step_call_ok (native : Natives Json ρ) (c : Coordinator Json) (id : Json)
    (op : SessionOp Json ρ) (a : Reply Json)
    (h : (Coordinator.step native c (.call id op)).1.result = .ok a) :
    SigningSession.Replies op a ∧
      ∃ s, (Coordinator.step native c (.call id op)).2.sessions.get? id = some s := by
  cases hget : c.sessions.get? id with
  | none =>
      rw [Coordinator.step_call_of_unknown native c id op hget] at h
      exact absurd h (by simp only [Outcome.raise, reduceCtorEq, not_false_eq_true])
  | some s =>
      rw [Coordinator.step_call_of_known native c id op s hget] at h ⊢
      exact ⟨SigningSession.step_replies native s op a h, _, Hash.get?_set_self _ _ _⟩

/-- The client returns what the direct call returned, and raises what it raised,
    by class, unless that is a panic. -/
theorem receive_answer_iff (codec : JsonCodec) (hcodec : codec.Lawful)
    (toS describe : Json → String) (native : Natives Json ρ) (c : Coordinator Json)
    (call : ClientCall) (r : ρ) :
    Agrees (Coordinator.step native c (directOp call r)).1.result
      (receive codec call (answer codec toS describe (response call
        (Machine.Step.transition (Coordinator.step native) c (directOp call r))))) ↔
      ¬ Coordinator.Panics native c (directOp call r) := by
  rw [← Coordinator.step_fatal_iff]
  cases hres : (Coordinator.step native c (directOp call r)).1.result with
  | error e =>
      have hresp : response call
          (Machine.Step.transition (Coordinator.step native) c (directOp call r)) = .error e := by
        simp only [response, Machine.Step.transition, hres]
      rw [hresp]
      cases hstandard : e.isStandardError with
      | true =>
          refine iff_of_true ⟨_, receive_error codec hcodec toS describe call e hstandard⟩ ?_
          rintro ⟨text, htext⟩
          rw [Except.error.inj htext] at hstandard
          exact nomatch hstandard
      | false =>
          rcases (Exn.isStandardError_eq_false_iff e).mp hstandard with ⟨text, rfl⟩
          refine iff_of_false ?_ (fun h => h ⟨text, rfl⟩)
          rintro ⟨message, h⟩
          rw [receive_fatal] at h
          exact nomatch h
  | ok a =>
      have hresp : response call
          (Machine.Step.transition (Coordinator.step native) c (directOp call r))
          = (handler call : Handler ρ).response (fields call) a
            (Coordinator.step native c (directOp call r)).2 := by
        simp only [response, Machine.Step.transition, hres]
      rw [hresp]
      refine iff_of_true ?_ (fun ⟨_, h⟩ => nomatch h)
      cases call with
      | createSession message threshold scheme =>
          rw [directOp] at hres
          cases hk : Scheme.ofValue? (Json.str scheme) with
          | none =>
              rw [Coordinator.createSession_of_unknown native c message _ _ _ hk] at hres
              exact absurd hres (by simp only [Outcome.raise, reduceCtorEq, not_false_eq_true])
          | some k =>
              rw [Coordinator.createSession_of_known native c message _ _ _ k hk] at hres
              rw [← Except.ok.inj hres]
              exact receive_line codec hcodec _ (.obj [("session_id", .str _)]) rfl
      | submitCommitment sessionId signerId bytes =>
          rcases step_call_ok native c (.str sessionId) _ a hres with ⟨hself, s, hs⟩
          rw [show a = .self from hself]
          have hstate := commitment_response_eq (ρ := ρ)
            (fields (.submitCommitment sessionId signerId bytes)) .self _ (.str sessionId) s rfl hs
          rw [show (handler (.submitCommitment sessionId signerId bytes) : Handler ρ) = commitment
            from rfl, directOp, hstate]
          exact receive_line codec hcodec _ (.obj [("ok", .bool true), ("state", .str _)]) rfl
      | submitShare sessionId signerId bytes =>
          rcases step_call_ok native c (.str sessionId) _ a hres with ⟨hself, _⟩
          rw [show a = .self from hself]
          exact receive_line codec hcodec _ (.obj [("ok", .bool true)]) rfl
      | aggregate sessionId =>
          rcases step_call_ok native c (.str sessionId) _ a hres with ⟨⟨sig, hsig⟩, _⟩
          rw [hsig]
          have hline := receive_line codec hcodec (.aggregate sessionId)
            (.obj [("signature_hex", .str (unpackHex sig))]) rfl
          -- The signature goes out in hexadecimal and is unpacked on arrival.
          have hpack : packValue (.str (unpackHex sig)) = .ok sig := by
            rw [packValue, packHex_unpackHex]
          exact hline.trans (congrArg (fun x => ownError (x >>= fun b => .ok (ClientValue.bytes b)))
            hpack)

/-- A connection that has not been dispatched: its own request is on its way, or
    parsed. -/
def Waiting (codec : JsonCodec) (conn : Connection) : Prop :=
  conn.phase = .sent (line codec (request conn.call)) ∨ conn.phase = .parsed (request conn.call)

/-- A connection that has been: the response is known, and with it everything
    that comes after. -/
def Settled (codec : JsonCodec) (toS describe : Json → String) (call : ClientCall)
    (response : Except (Exn Json) Json) (phase : Phase) : Prop :=
  phase = .dispatched response ∨ phase = .answered (answer codec toS describe response) ∨
    phase = .returned (receive codec call (answer codec toS describe response))

/-- The invariant: the registry is what the direct calls made of it, no
    connection was dispatched twice, and every connection is where it should be,
    by what its direct call did if it has been dispatched. -/
structure Serialised (codec : JsonCodec) (toS describe : Json → String) (native : Natives Json ρ)
    (c₀ : Coordinator Json) (s : Service ρ) : Prop where
  registry : s.coordinator
    = Machine.run (Coordinator.step native) c₀ (s.order.map Dispatched.op)
  once : (s.order.map Dispatched.connection).Nodup
  calls : ∀ d ∈ s.order, ∃ conn, s.connections[d.connection]? = some conn ∧ conn.call = d.call
  waiting : ∀ i conn, s.connections[i]? = some conn →
    i ∉ s.order.map Dispatched.connection → Waiting codec conn
  settled : ∀ p ∈ s.order.zip (directTrace native c₀ s.order), ∀ conn,
    s.connections[p.1.connection]? = some conn →
    Settled codec toS describe p.1.call (response p.1.call p.2) conn.phase

theorem length_directTrace (native : Natives Json ρ) (c₀ : Coordinator Json)
    (order : List (Dispatched ρ)) : (directTrace native c₀ order).length = order.length := by
  rw [directTrace, Machine.length_trace, List.length_map]

/-- One more direct call, made where the ones before it ended. -/
theorem zip_directTrace_snoc (native : Natives Json ρ) (c₀ : Coordinator Json)
    (order : List (Dispatched ρ)) (d : Dispatched ρ) :
    (order ++ [d]).zip (directTrace native c₀ (order ++ [d]))
      = order.zip (directTrace native c₀ order) ++ [(d, Machine.Step.transition
        (Coordinator.step native) (Machine.run (Coordinator.step native) c₀
          (order.map Dispatched.op)) d.op)] := by
  have hsnoc : directTrace native c₀ (order ++ [d]) = directTrace native c₀ order
      ++ [Machine.Step.transition (Coordinator.step native)
        (Machine.run (Coordinator.step native) c₀ (order.map Dispatched.op)) d.op] := by
    rw [directTrace, List.map_append, List.map_singleton, Machine.trace_snoc, directTrace]
  rw [hsnoc, List.zip_append (length_directTrace native c₀ order).symm]
  rfl

/-- Every dispatched connection has its direct call. -/
theorem exists_mem_zip (native : Natives Json ρ) (c₀ : Coordinator Json)
    (order : List (Dispatched ρ)) (d : Dispatched ρ) (h : d ∈ order) :
    ∃ t, (d, t) ∈ order.zip (directTrace native c₀ order) := by
  rcases List.mem_iff_getElem.mp h with ⟨k, hk, rfl⟩
  have hlen := length_directTrace native c₀ order
  exact ⟨(directTrace native c₀ order)[k], List.mem_iff_getElem.mpr
    ⟨k, by rw [List.length_zip, hlen, Nat.min_self]; exact hk, List.getElem_zip⟩⟩

section Invariant

variable {codec : JsonCodec} {toS describe : Json → String} {native : Natives Json ρ}
  {c₀ : Coordinator Json} {s : Service ρ}

/-- Moving one connection keeps the invariant if it keeps that connection where
    it should be. -/
theorem serialised_advance (hs : Serialised codec toS describe native c₀ s) (i : Nat)
    (next : Connection → Option Phase)
    (hwaiting : ∀ conn phase, next conn = some phase → Waiting codec conn →
      Waiting codec ⟨conn.call, phase⟩)
    (hsettled : ∀ conn phase response, next conn = some phase →
      Settled codec toS describe conn.call response conn.phase →
      Settled codec toS describe conn.call response phase) :
    Serialised codec toS describe native c₀ (s.advance i next) := by
  unfold Service.advance
  cases hi : s.connections[i]? with
  | none => exact hs
  | some conn =>
      cases hn : next conn with
      | none => simpa only [hn] using hs
      | some phase =>
          simp only [hn]
          have hlt : i < s.connections.length := (List.getElem?_eq_some_iff.mp hi).1
          -- Looking a connection up now: the one that moved, or one that did not.
          have hlook : ∀ j conn', (s.connections.set i ⟨conn.call, phase⟩)[j]? = some conn' →
              (j = i ∧ conn' = ⟨conn.call, phase⟩) ∨ s.connections[j]? = some conn' := by
            intro j conn' hj
            by_cases hij : i = j
            · rw [← hij, List.getElem?_set_self hlt, Option.some.injEq] at hj
              exact Or.inl ⟨hij.symm, hj.symm⟩
            · rw [List.getElem?_set_ne hij] at hj
              exact Or.inr hj
          refine ⟨hs.registry, hs.once, ?_, ?_, ?_⟩
          · intro d hd
            rcases hs.calls d hd with ⟨conn', hc, hcall⟩
            by_cases hij : i = d.connection
            · rw [← hij, hi, Option.some.injEq] at hc
              refine ⟨⟨conn.call, phase⟩, ?_, by rw [hc]; exact hcall⟩
              simp only [← hij, List.getElem?_set_self hlt]
            · refine ⟨conn', ?_, hcall⟩
              simp only [List.getElem?_set_ne hij, hc]
          · intro j conn' hj hnot
            rcases hlook j conn' hj with ⟨rfl, rfl⟩ | hj'
            · exact hwaiting conn phase hn (hs.waiting j conn hi hnot)
            · exact hs.waiting j conn' hj' hnot
          · intro p hp conn' hj
            rcases hlook _ conn' hj with ⟨hpi, rfl⟩ | hj'
            · rw [← hpi] at hi
              have hcall : conn.call = p.1.call := by
                rcases hs.calls p.1 (List.of_mem_zip hp).1 with ⟨conn'', hc, hcall⟩
                rw [hi, Option.some.injEq] at hc
                rw [hc]
                exact hcall
              have hold := hs.settled p hp conn hi
              rw [← hcall] at hold ⊢
              exact hsettled conn phase _ hn hold
            · exact hs.settled p hp conn' hj'

/-- A new connection is waiting and leaves the others alone. -/
theorem serialised_connect (hs : Serialised codec toS describe native c₀ s) (call : ClientCall) :
    Serialised codec toS describe native c₀
      { s with connections := s.connections ++ [⟨call, .sent (line codec (request call))⟩] } := by
  have hold : ∀ d ∈ s.order, d.connection < s.connections.length := by
    intro d hd
    rcases hs.calls d hd with ⟨conn, hc, _⟩
    exact (List.getElem?_eq_some_iff.mp hc).1
  refine ⟨hs.registry, hs.once, ?_, ?_, ?_⟩
  · intro d hd
    rcases hs.calls d hd with ⟨conn, hc, hcall⟩
    exact ⟨conn, by simp only [List.getElem?_append_left (hold d hd), hc], hcall⟩
  · intro i conn hi hnot
    by_cases hlt : i < s.connections.length
    · simp only [List.getElem?_append_left hlt] at hi
      exact hs.waiting i conn hi hnot
    · simp only [List.getElem?_append_right (Nat.le_of_not_lt hlt)] at hi
      rw [List.mem_singleton.mp (List.mem_of_getElem? hi)]
      exact Or.inl rfl
  · intro p hp conn hc
    have hlt := hold p.1 (List.of_mem_zip hp).1
    simp only [List.getElem?_append_left hlt] at hc
    exact hs.settled p hp conn hc

/-- A parsed request is its own call's, and has not been dispatched. -/
theorem waiting_of_parsed (hs : Serialised codec toS describe native c₀ s) (i : Nat)
    (call : ClientCall) (req : Json) (hi : s.connections[i]? = some ⟨call, .parsed req⟩) :
    req = request call ∧ i ∉ s.order.map Dispatched.connection := by
  have hnot : i ∉ s.order.map Dispatched.connection := by
    intro hmem
    rcases List.mem_map.mp hmem with ⟨d, hd, rfl⟩
    rcases exists_mem_zip native c₀ s.order d hd with ⟨t, ht⟩
    rcases hs.settled _ ht _ hi with h | h | h <;>
      exact absurd h (by simp only [reduceCtorEq, not_false_eq_true])
  refine ⟨?_, hnot⟩
  rcases hs.waiting i _ hi hnot with h | h
  · exact absurd h (by simp only [reduceCtorEq, not_false_eq_true])
  · exact Phase.parsed.inj h

/-- Dispatching a parsed request appends the direct call it stands for. -/
theorem serialised_dispatch_parsed (hs : Serialised codec toS describe native c₀ s) (i : Nat)
    (r : ρ) (call : ClientCall) (req : Json)
    (hi : s.connections[i]? = some ⟨call, .parsed req⟩) :
    Serialised codec toS describe native c₀ (s.dispatch native i r) := by
  have hlt : i < s.connections.length := (List.getElem?_eq_some_iff.mp hi).1
  rcases waiting_of_parsed hs i call req hi with ⟨hreq, hnot⟩
  -- The state afterwards, in terms of the direct call.
  have hdispatch : s.dispatch native i r =
      { coordinator := (Coordinator.step native s.coordinator (directOp call r)).2
        connections := s.connections.set i ⟨call, .dispatched (response call
          (Machine.Step.transition (Coordinator.step native) s.coordinator (directOp call r)))⟩
        order := s.order ++ [⟨i, call, r⟩] } := by
    simp only [Service.dispatch, hi, hreq, dispatch_request]
  have hmap : (s.order ++ [(⟨i, call, r⟩ : Dispatched ρ)]).map Dispatched.op
      = s.order.map Dispatched.op ++ [directOp call r] := by
    rw [List.map_append]
    rfl
  rw [hdispatch]
  refine ⟨?_, ?_, ?_, ?_, ?_⟩
  · simp only [hmap, Machine.run_snoc, ← hs.registry]
  · rw [List.map_append, List.nodup_append]
    refine ⟨hs.once, List.nodup_singleton _, ?_⟩
    intro a ha b hb hab
    rw [hab, List.mem_singleton.mp hb] at ha
    exact hnot ha
  · intro d hd
    rcases List.mem_append.mp hd with hd | hd
    · have hne : i ≠ d.connection := fun h => hnot (h ▸ List.mem_map_of_mem hd)
      rcases hs.calls d hd with ⟨conn', hc, hcall⟩
      exact ⟨conn', by simp only [List.getElem?_set_ne hne, hc], hcall⟩
    · rw [List.mem_singleton.mp hd]
      exact ⟨_, List.getElem?_set_self hlt, rfl⟩
  · intro j conn' hj hjnot
    rw [List.map_append, List.mem_append, not_or] at hjnot
    have hne : i ≠ j := fun h => hjnot.2 (List.mem_singleton.mpr h.symm)
    simp only [List.getElem?_set_ne hne] at hj
    exact hs.waiting j conn' hj hjnot.1
  · intro p hp conn' hj
    simp only [zip_directTrace_snoc, ← hs.registry, List.mem_append] at hp
    rcases hp with hp | hp
    · have hne : i ≠ p.1.connection :=
        fun h => hnot (h ▸ List.mem_map_of_mem (List.of_mem_zip hp).1)
      simp only [List.getElem?_set_ne hne] at hj
      exact hs.settled p hp conn' hj
    · -- The connection just dispatched has the response of its own direct call.
      rw [List.mem_singleton.mp hp] at hj ⊢
      simp only [List.getElem?_set_self hlt, Option.some.injEq] at hj
      rw [← hj]
      exact Or.inl rfl

theorem serialised_dispatch (hs : Serialised codec toS describe native c₀ s) (i : Nat) (r : ρ) :
    Serialised codec toS describe native c₀ (s.dispatch native i r) := by
  rcases hi : s.connections[i]? with _ | ⟨call, phase⟩
  · simpa only [Service.dispatch, hi] using hs
  · cases phase with
    | parsed req => exact serialised_dispatch_parsed hs i r call req hi
    | _ => simpa only [Service.dispatch, hi] using hs

/-- The invariant, one event at a time. -/
theorem serialised_step (hcodec : codec.Lawful) (hs : Serialised codec toS describe native c₀ s)
    (e : Event ρ) : Serialised codec toS describe native c₀
      (step codec toS describe native s e).2 := by
  cases e with
  | connect call => exact serialised_connect hs call
  | dispatch i r => exact serialised_dispatch hs i r
  | read i =>
      refine serialised_advance hs i _ ?_ ?_
      · -- The line that was written is the line that is read.
        intro conn phase hnext hw
        rcases hw with hw | hw
        · have hplain := plain_request conn.call
          have hline : firstLine (line codec (request conn.call))
              = line codec (request conn.call) :=
            firstLine_append _ [] (hcodec.newline_not_mem _ hplain)
          simp only [readPhase, hw, hline] at hnext
          rw [line, hcodec.parse_line _ hplain] at hnext
          exact Or.inr (Option.some.inj hnext).symm
        · simp only [readPhase, hw, reduceCtorEq] at hnext
      · intro conn phase response hnext hset
        rcases hset with hset | hset | hset <;>
          simp only [readPhase, hset, reduceCtorEq] at hnext
  -- Answering and receiving pass on a response that is already there.
  | respond i =>
      refine serialised_advance hs i _ ?_ ?_
      · intro conn phase hnext hw
        rcases hw with hw | hw <;> simp only [respondPhase, hw, reduceCtorEq] at hnext
      · intro conn phase response hnext hset
        rcases hset with hset | hset | hset
        · simp only [respondPhase, hset] at hnext
          exact Or.inr (Or.inl (Option.some.inj hnext).symm)
        · simp only [respondPhase, hset, reduceCtorEq] at hnext
        · simp only [respondPhase, hset, reduceCtorEq] at hnext
  | receive i =>
      refine serialised_advance hs i _ ?_ ?_
      · intro conn phase hnext hw
        rcases hw with hw | hw <;> simp only [receivePhase, hw, reduceCtorEq] at hnext
      · intro conn phase response hnext hset
        rcases hset with hset | hset | hset
        · simp only [receivePhase, hset, reduceCtorEq] at hnext
        · simp only [receivePhase, hset] at hnext
          exact Or.inr (Or.inr (Option.some.inj hnext).symm)
        · simp only [receivePhase, hset, reduceCtorEq] at hnext

end Invariant

/-- The invariant, along every run from a service with no connections. -/
theorem serialised_run (codec : JsonCodec) (hcodec : codec.Lawful) (toS describe : Json → String)
    (native : Natives Json ρ) (c₀ : Coordinator Json) (events : List (Event ρ)) :
    Serialised codec toS describe native c₀
      (Machine.run (step codec toS describe native) (start c₀) events) := by
  refine Machine.run_induct _ _ _ events ?_ (fun s e hs => serialised_step hcodec hs e)
  refine ⟨rfl, List.nodup_nil, ?_, ?_, ?_⟩
  · intro d hd
    exact absurd hd List.not_mem_nil
  · intro i conn hi
    exact absurd hi (by simp only [start, List.getElem?_nil, reduceCtorEq, not_false_eq_true])
  · intro p hp
    exact absurd hp List.not_mem_nil

/-- How many of its four moves a connection has made. -/
def Phase.rank : Phase → Nat
  | .sent _ => 0
  | .parsed _ => 1
  | .dispatched _ => 2
  | .answered _ => 3
  | .returned _ => 4

/-- A connection with its call, at least so far along. -/
def Reached (s : Service ρ) (i : Nat) (call : ClientCall) (k : Nat) : Prop :=
  ∃ phase, s.connections[i]? = some ⟨call, phase⟩ ∧ k ≤ phase.rank

/-- Moving a connection takes it as far as its next phase, or it was that far
    already. -/
theorem reached_advance (s : Service ρ) (i : Nat) (call : ClientCall) (k : Nat)
    (next : Connection → Option Phase) (h : Reached s i call k)
    (hnext : ∀ phase, k ≤ phase.rank → k < ((next ⟨call, phase⟩).getD phase).rank) :
    Reached (s.advance i next) i call (k + 1) := by
  rcases h with ⟨phase, hi, hk⟩
  have hlt : i < s.connections.length := (List.getElem?_eq_some_iff.mp hi).1
  have hrank := hnext phase hk
  unfold Service.advance
  rw [hi]
  cases hn : next ⟨call, phase⟩ with
  | none =>
      rw [hn] at hrank
      exact ⟨phase, by simpa only [hn] using hi, hrank⟩
  | some phase' =>
      rw [hn] at hrank
      exact ⟨phase', by simp only [hn, List.getElem?_set_self hlt], hrank⟩

/-- Dispatching takes a connection past its request. -/
theorem reached_dispatch (native : Natives Json ρ) (s : Service ρ) (i : Nat) (call : ClientCall)
    (r : ρ) (h : Reached s i call 1) : Reached (s.dispatch native i r) i call 2 := by
  rcases h with ⟨phase, hi, hk⟩
  have hlt : i < s.connections.length := (List.getElem?_eq_some_iff.mp hi).1
  cases phase with
  | sent stream => exact absurd hk (by simp only [Phase.rank]; omega)
  | parsed req =>
      refine ⟨.dispatched (NetworkCoordinator.dispatch native s.coordinator req r).1, ?_, le_refl _⟩
      simp only [Service.dispatch, hi, List.getElem?_set_self hlt]
  | dispatched res =>
      refine ⟨.dispatched res, ?_, le_refl _⟩
      simp only [Service.dispatch, hi]
  | answered stream =>
      refine ⟨.answered stream, ?_, by simp only [Phase.rank]; omega⟩
      simp only [Service.dispatch, hi]
  | returned result =>
      refine ⟨.returned result, ?_, by simp only [Phase.rank]; omega⟩
      simp only [Service.dispatch, hi]

/-- Every call gets to return: wherever its connection is, its own four events
    take it to the end. -/
theorem call_returns (codec : JsonCodec) (toS describe : Json → String) (native : Natives Json ρ)
    (s : Service ρ) (i : Nat) (r : ρ) (conn : Connection) (hi : s.connections[i]? = some conn) :
    ∃ result, (Machine.run (step codec toS describe native) s
      [.read i, .dispatch i r, .respond i, .receive i]).connections[i]?
        = some ⟨conn.call, .returned result⟩ := by
  have hread : Reached (s.advance i (readPhase codec)) i conn.call 1 := by
    refine reached_advance s i conn.call 0 _ ⟨conn.phase, hi, Nat.zero_le _⟩ ?_
    intro phase _
    cases phase with
    | sent stream =>
        simp only [readPhase]
        cases codec.parse (firstLine stream) <;>
          simp only [Option.getD_some, Phase.rank, Nat.zero_lt_succ]
    | _ => simp only [readPhase, Option.getD_none, Phase.rank, Nat.zero_lt_succ]
  have hdispatch := reached_dispatch native _ i conn.call r hread
  have hrespond := reached_advance _ i conn.call 2 (respondPhase codec toS describe) hdispatch (by
    intro phase hk
    cases phase <;> simp only [respondPhase, Option.getD_some, Option.getD_none, Phase.rank] at hk ⊢
      <;> omega)
  have hreceive := reached_advance _ i conn.call 3 (receivePhase codec) hrespond (by
    intro phase hk
    cases phase <;> simp only [receivePhase, Option.getD_some, Option.getD_none, Phase.rank] at hk ⊢
      <;> omega)
  rcases hreceive with ⟨phase, hphase, hk⟩
  cases phase with
  | returned result => exact ⟨result, hphase⟩
  | _ => exact absurd hk (by simp only [Phase.rank]; omega)

/-- What the clients can tell: `order` is a sequential order of their calls, each
    in it at most once and in it if it has returned, such that the direct calls
    in that order end in the same registry and each has the result its client
    saw. -/
structure Refines (native : Natives Json ρ) (c₀ : Coordinator Json) (s : Service ρ) : Prop where
  once : (s.order.map Dispatched.connection).Nodup
  calls : ∀ d ∈ s.order, ∃ conn, s.connections[d.connection]? = some conn ∧ conn.call = d.call
  complete : ∀ i conn result, s.connections[i]? = some conn → conn.phase = .returned result →
    i ∈ s.order.map Dispatched.connection
  registry : s.coordinator
    = Machine.run (Coordinator.step native) c₀ (s.order.map Dispatched.op)
  results : ∀ p ∈ s.order.zip (directTrace native c₀ s.order), ∀ conn result,
    s.connections[p.1.connection]? = some conn → conn.phase = .returned result →
    Agrees p.2.out.result result

/-- Of the two, only the results can come apart, and they do where a call panics
    whose client has returned. -/
theorem refines_iff {codec : JsonCodec} (hcodec : codec.Lawful) {toS describe : Json → String}
    {native : Natives Json ρ} {c₀ : Coordinator Json} {s : Service ρ}
    (hs : Serialised codec toS describe native c₀ s) :
    Refines native c₀ s ↔
      ∀ p ∈ s.order.zip (directTrace native c₀ s.order), ∀ conn result,
        s.connections[p.1.connection]? = some conn → conn.phase = .returned result →
        ¬ Coordinator.Panics native p.2.before p.2.op := by
  have hagrees : ∀ p ∈ s.order.zip (directTrace native c₀ s.order), ∀ conn result,
      s.connections[p.1.connection]? = some conn → conn.phase = .returned result →
      (Agrees p.2.out.result result ↔ ¬ Coordinator.Panics native p.2.before p.2.op) := by
    intro p hp conn result hi hret
    have hstep := Machine.eq_transition_of_mem_zip (Coordinator.step native) Dispatched.op c₀ _ p hp
    have hsettled := hs.settled p hp conn hi
    rw [hret] at hsettled
    rcases hsettled with h | h | h
    · exact absurd h (by simp only [reduceCtorEq, not_false_eq_true])
    · exact absurd h (by simp only [reduceCtorEq, not_false_eq_true])
    · -- Only the last phase has a result, and it is what the answer was read as.
      rw [Phase.returned.inj h, hstep]
      exact receive_answer_iff codec hcodec toS describe native _ p.1.call p.1.randomness
  constructor
  · intro h p hp conn result hi hret
    exact (hagrees p hp conn result hi hret).mp (h.results p hp conn result hi hret)
  · intro h
    refine ⟨hs.once, hs.calls, ?_, hs.registry, ?_⟩
    · intro i conn result hi hret
      by_contra hnot
      rcases hs.waiting i conn hi hnot with hphase | hphase <;>
      · rw [hret] at hphase
        exact absurd hphase (by simp only [reduceCtorEq, not_false_eq_true])
    · intro p hp conn result hi hret
      exact (hagrees p hp conn result hi hret).mpr (h p hp conn result hi hret)

/-- When the wire path refines the in-process path. Whatever the calls, and whatever
    order the network and the threads take them in, the order of dispatch is a
    sequential order of the direct calls with the same registry and the same
    results, as long as no client has returned from a call whose combine panics. -/
theorem wire_refines_in_process_iff (codec : JsonCodec) (hcodec : codec.Lawful)
    (toS describe : Json → String) (native : Natives Json ρ) (c₀ : Coordinator Json)
    (events : List (Event ρ)) :
    let s := Machine.run (step codec toS describe native) (start c₀) events
    Refines native c₀ s ↔
      ∀ p ∈ s.order.zip (directTrace native c₀ s.order), ∀ conn result,
        s.connections[p.1.connection]? = some conn → conn.phase = .returned result →
        ¬ Coordinator.Panics native p.2.before p.2.op :=
  refines_iff hcodec (serialised_run codec hcodec toS describe native c₀ events)

/-- Four calls on two overlapping pairs of connections. The first aggregation
    takes the mutex before the session is there. -/
def overlapping : List (Event Unit) :=
  [.connect (.createSession [104, 105] 1 "CMP20-ECDSA-P256"), .connect (.aggregate "session-1"),
    .read 0, .read 1, .dispatch 1 (), .dispatch 0 (), .respond 0, .receive 0,
    .connect (.submitShare "session-1" "a" [0, 255]), .connect (.aggregate "session-1"),
    .read 3, .read 2, .dispatch 2 (), .respond 1, .dispatch 3 (), .respond 3, .receive 3,
    .receive 1, .respond 2, .receive 2]

/-- A string's own text. -/
def textOf : Json → String
  | .str s => s
  | _ => ""

/-- All four return, the first three with what is listed and the last with what its
    direct call signed, and no combine has panicked. -/
theorem overlapping_refines :
    let s := Machine.run (step .compact textOf textOf signAnything) (start Coordinator.new)
      overlapping
    Refines signAnything Coordinator.new s ∧
      s.order.map Dispatched.connection = [1, 0, 2, 3] ∧
      s.connections.map (fun conn => conn.phase.rank) = [4, 4, 4, 4] ∧
      (s.connections.take 3).map Connection.phase =
        [.returned (.ok (.value (.str "session-1"))),
          .returned (.error (.remoteError (.str "Confium::NotFoundError")
            (.str "Unknown session: session-1"))),
          .returned (.ok (.value (.bool true)))] ∧
      (directTrace signAnything Coordinator.new s.order).map (fun t => t.out.result) =
        [.error (.unknownSession (.str "session-1")), .ok (.sessionId (.str "session-1")),
          .ok .self, .ok (.signature (List.replicate 64 0))] := by
  refine ⟨(wire_refines_in_process_iff .compact JsonCodec.compact_lawful textOf textOf
    signAnything _ overlapping).mpr ?_, by decide +kernel, by decide +kernel, by decide +kernel,
    by decide +kernel⟩
  intro p _ conn result _ _
  rintro ⟨_, r, s, text, _, _, _, h⟩
  -- These combines sign whatever they are given.
  cases hscheme : s.scheme <;>
  · rw [Natives.combine, SigningSession.combineCall, hscheme] at h
    exact nomatch h

/-- Combines that sign anything but an empty list of shares, which they panic on. -/
def panicOnNoShare : Natives Json Unit :=
  { cmp20Sign := fun shares _ _ _ =>
      if shares = [] then .error (.fatal "panic") else .ok (List.replicate 64 0),
    gg18Sign := fun shares _ _ _ =>
      if shares = [] then .error (.fatal "panic") else .ok (List.replicate 64 0) }

/-- A session with threshold zero, and a signature asked of it at once. -/
def askedAtOnce : List (Event Unit) :=
  [.connect (.createSession [104, 105] 0 "CMP20-ECDSA-P256"), .read 0, .dispatch 0 (),
    .respond 0, .receive 0, .connect (.aggregate "session-1"), .read 1, .dispatch 1 (),
    .respond 1, .receive 1]

/-- The direct call raises `fatal`, and the client finds its connection closed. -/
theorem aggregate_without_answer :
    let s := Machine.run (step .compact textOf textOf panicOnNoShare) (start Coordinator.new)
      askedAtOnce
    s.connections.map Connection.phase =
        [.returned (.ok (.value (.str "session-1"))), .returned (.error (.own .endOfFile))] ∧
      (directTrace panicOnNoShare Coordinator.new s.order).map (fun t => t.out.result) =
        [.ok (.sessionId (.str "session-1")), .error (.fatal "panic")] ∧
      ¬ Refines panicOnNoShare Coordinator.new s := by
  intro s
  have hdirect : ∃ p ∈ s.order.zip (directTrace panicOnNoShare Coordinator.new s.order),
      p.1.connection = 1 ∧ p.2.out.result = .error (.fatal "panic") := by decide +kernel
  have hclient : s.connections[1]?.map Connection.phase
      = some (.returned (.error (.own .endOfFile))) := by decide +kernel
  refine ⟨by decide +kernel, by decide +kernel, fun h => ?_⟩
  rcases hdirect with ⟨p, hp, hconnection, hfatal⟩
  rcases Option.map_eq_some_iff.mp hclient with ⟨conn, hi, hret⟩
  rw [← hconnection] at hi
  have hagrees := h.results p hp conn _ hi hret
  rw [hfatal] at hagrees
  rcases hagrees with ⟨message, hresult⟩
  exact nomatch hresult

end Connections

end Confium
