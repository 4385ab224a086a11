import Confium.Core.Serve
import Confium.Lib.Raises
import Confium.Theory.Atomicity
import Confium.Theory.WirePath

/-!
# The Framing of a Connection

What a client that sends many lines at once can rely on. The server handles the
lines in order, up to and including the first that fails, and answers each of
these with exactly one line: a result for those before the failing one, an error
for the failing one. Nothing after it reaches the coordinator, and the connection
is closed. Where no line fails, each has its result.

A line fails when handling it raises, so a line that does not raise holds an object
that asks for one of the operations and has every field the operation needs.

The `rescue` clauses take any `StandardError`, and the one exception here that is
none is `fatal`. A line that asks for a signature raises it if the combine panics,
and that line is not answered. A connection is framed exactly when none of the
lines handled on it is such a line.

## Main definitions

* `failed`: A line that raised.
* `firstFailure`, `handled`: The first line that fails, and the lines up to it.
* `errorLine`, `answerTo`: The line an outcome is to be answered with.
* `answered`: The one it is answered with, if it is.
* `LinePanics`: A line that asks for a signature and has the combine panic.
* `Framed`: What a client can rely on.

## Theorems

* `serveRounds_eq`: What the loop comes to.
* `response_is_result`: What a line that does not fail is answered with.
* `errorLine_is_error`: What a line that fails is to be answered with.
* `answered_eq`: Which outcomes are answered.
* `lineStep_fatal_iff`: Which lines raise `fatal`.
* `framed_iff`, `connection_framed_iff`: Which connections are framed.
* `line_without_answer`: One that is not.
-/

namespace Confium

open Ruby

namespace NetworkCoordinator

open SignerClient Connections

variable {ρ : Type} (codec : JsonCodec) (toS describe : Json → String) (native : Natives Json ρ)

/-- A line that raised. -/
def failed : Except (Exn Json) Json → Bool
  | .ok _ => false
  | .error _ => true

/-- The line an exception is to be answered with. -/
def errorLine : Exn Json → Text
  | .malformedJson text => malformed codec text
  | e => line codec (errorObject toS describe e)

/-- The line an outcome is to be answered with. -/
def answerTo : Except (Exn Json) Json → Text
  | .ok response => line codec response
  | .error e => errorLine codec toS describe e

/-- The line it is answered with, if it is. -/
def answered : Except (Exn Json) Json → Option Text
  | .ok response => some (line codec response)
  | .error e => rescued codec toS describe e

/-- How many lines do not fail before the first that does, when every line is
    handled after the ones before it. -/
def firstFailure (c : Coordinator Json) (rs : List (Round ρ)) : Nat :=
  (Machine.trace (lineStep codec native) c rs).findIdx (fun t => failed t.out)

/-- The lines up to the first that fails, and that one. -/
def handled (c : Coordinator Json) (rs : List (Round ρ)) : List (Round ρ) :=
  rs.take (firstFailure codec native c rs + 1)

theorem failed_eq_false_iff (out : Except (Exn Json) Json) :
    failed out = false ↔ ∃ response, out = .ok response := by
  cases out with
  | ok response => exact iff_of_true rfl ⟨response, rfl⟩
  | error e => exact iff_of_false (fun h => nomatch h) (fun ⟨_, h⟩ => nomatch h)

theorem handled_cons (c : Coordinator Json) (round : Round ρ) (rest : List (Round ρ)) :
    handled codec native c (round :: rest) =
      if failed (lineStep codec native c round).1 then [round]
      else round :: handled codec native (lineStep codec native c round).2 rest := by
  rw [handled, firstFailure, Machine.trace, List.findIdx_cons]
  cases hfailed : failed (lineStep codec native c round).1 with
  | true =>
      -- It is the first that fails, so it is the last that is handled.
      simp only [Machine.Step.transition, hfailed, cond_true, if_true]
      rfl
  | false =>
      simp only [Machine.Step.transition, hfailed, cond_false, Bool.false_eq_true, if_false]
      rw [List.take_succ_cons]
      rfl

/-- Every outcome is answered as it is to be, but for `fatal`. -/
theorem answered_eq (out : Except (Exn Json) Json)
    (h : ¬ ∃ text, out = .error (.fatal text)) :
    answered codec toS describe out = some (answerTo codec toS describe out) := by
  cases out with
  | ok response => rfl
  | error e =>
      cases e with
      | fatal text => exact absurd ⟨text, rfl⟩ h
      | _ => rfl

theorem answered_fatal (text : String) :
    answered codec toS describe (.error (.fatal text)) = none := rfl

/-- What the loop comes to: the answers of the handled lines, the close, and the
    coordinator they lead to. -/
theorem serveRounds_eq (c : Coordinator Json) (rs : List (Round ρ)) :
    serveRounds codec toS describe native c rs =
      ⟨((Machine.trace (lineStep codec native) c (handled codec native c rs)).filterMap
          (fun t => answered codec toS describe t.out)).map SocketEvent.write ++ [.close],
        Machine.run (lineStep codec native) c (handled codec native c rs)⟩ := by
  induction rs generalizing c with
  | nil => rfl
  | cons round rest ih =>
      -- One round either ends the loop or leaves it with the rest and the new state.
      rw [handled_cons, serveRounds]
      rcases hstep : lineStep codec native c round with ⟨out, c'⟩
      cases out with
      | error e =>
          simp only [failed, if_true, Machine.trace, Machine.run, Machine.Step.transition, hstep,
            List.filterMap_cons, List.filterMap_nil, answered]
          cases rescued codec toS describe e <;> rfl
      | ok response =>
          simp only [failed, Bool.false_eq_true, if_false, Machine.trace, Machine.run,
            Machine.Step.transition, hstep, List.filterMap_cons, List.map_cons, List.cons_append,
            answered, ih c']

/-- A handler answers with an object that carries no error. -/
theorem response_is_object (name : Json) (handler : Handler ρ) (fields : Fields) (a : Reply Json)
    (c : Coordinator Json) (v : Json) (hserved : handlers name = some handler)
    (h : handler.response fields a c = .ok v) :
    ∃ result, v = .obj result ∧ Json.field? result "error" = none := by
  rcases (handlers_eq_some_iff name handler).mp hserved with
    ⟨_, rfl⟩ | ⟨_, rfl⟩ | ⟨_, rfl⟩ | ⟨_, rfl⟩
  · cases a with
    | sessionId id => exact ⟨[("session_id", id)], (Except.ok.inj h).symm, rfl⟩
    | _ => exact ⟨[], (Except.ok.inj h).symm, rfl⟩
  · -- The state is read back, and may be missing only if the session is.
    simp only [commitment, bind_eq_ok_iff, pure, Except.pure, Except.ok.injEq] at h
    rcases h with ⟨id, _, state, _, hv⟩
    exact ⟨[("ok", .bool true), ("state", .str (stateName state))], hv.symm, rfl⟩
  · exact ⟨[("ok", .bool true)], (Except.ok.inj h).symm, rfl⟩
  · cases a with
    | signature bytes =>
        exact ⟨[("signature_hex", .str (unpackHex bytes))], (Except.ok.inj h).symm, rfl⟩
    | _ => exact ⟨[], (Except.ok.inj h).symm, rfl⟩

/-- What a line that does not fail holds and is answered with: it asks for an
    operation with every field that needs, and the answer is a result. -/
theorem response_is_result (c : Coordinator Json) (round : Round ρ) (v : Json)
    (h : (lineStep codec native c round).1 = .ok v) :
    (∃ fields call, codec.parse round.line = .ok (.obj fields) ∧
        Asks fields round.randomness call) ∧
      ∃ result, v = .obj result ∧ Json.field? result "error" = none := by
  rw [lineStep] at h
  cases hparse : codec.parse round.line with
  | error text =>
      rw [hparse] at h
      exact absurd h (by simp only [reduceCtorEq, not_false_eq_true])
  | ok request =>
      simp only [hparse] at h
      cases hcall : callOf request round.randomness with
      | error e =>
          rw [dispatch_of_error native _ request _ e hcall] at h
          exact absurd h (by simp only [reduceCtorEq, not_false_eq_true])
      | ok op =>
          rcases (callOf_eq_ok_iff_asks request round.randomness op).mp hcall with
            ⟨fields, hrequest, hasks⟩
          refine ⟨⟨fields, op, by rw [hrequest], hasks⟩, ?_⟩
          rcases dispatch_of_call native (round.others c) request round.randomness op hcall with
            ⟨handler, fields', hhandler, _, hdispatch⟩
          rcases (handlerOf_eq_ok_iff request handler fields').mp hhandler with
            ⟨_, name, _, hserved⟩
          rw [hdispatch] at h
          -- The request was well formed, so only the coordinator can still refuse.
          cases hresult : (Coordinator.step native (round.others c) op).1.result with
          | error e =>
              simp only [hresult] at h
              exact absurd h (by simp only [reduceCtorEq, not_false_eq_true])
          | ok a =>
              simp only [hresult] at h
              exact response_is_object name handler fields' a _ v hserved h

/-- What a line that fails is to be answered with: an object with the name of the
    class and the message. -/
theorem errorLine_is_error (e : Exn Json) : ∃ className message, errorLine codec toS describe e
    = line codec (.obj [("error", .str className), ("message", .str message)]) := by
  cases e with
  | malformedJson text => exact ⟨"RequestError", "malformed JSON: " ++ text, rfl⟩
  | _ => exact ⟨_, _, rfl⟩

/-- An outcome is to be answered with one line. -/
theorem answerTo_is_line (hline : ∀ v, '\n' ∉ codec.generate v) (out : Except (Exn Json) Json) :
    ∃ text, answerTo codec toS describe out = text ++ ['\n'] ∧ '\n' ∉ text := by
  cases out with
  | ok response => exact ⟨codec.generate response, rfl, hline response⟩
  | error e =>
      rcases errorLine_is_error codec toS describe e with ⟨className, message, heq⟩
      exact ⟨_, heq, hline _⟩

/-- What was written to a socket. -/
def written (events : List SocketEvent) : Text :=
  events.flatMap (fun event => match event with
    | .write text => text
    | .close => [])

/-- What a client can rely on, of a stream and how it was served. -/
structure Framed (c : Coordinator Json) (rs : List (Round ρ)) (served : Served) : Prop where
  /-- The lines that are handled are answered in order, and the connection is
      closed. -/
  events : served.events =
    (Machine.trace (lineStep codec native) c (handled codec native c rs)).map
      (fun t => SocketEvent.write (answerTo codec toS describe t.out)) ++ [.close]
  /-- Only they reach the coordinator. -/
  coordinator : served.coordinator
    = Machine.run (lineStep codec native) c (handled codec native c rs)
  /-- What the client reads is one line for each of them. -/
  lines : eachLine (written served.events)
    = (Machine.trace (lineStep codec native) c (handled codec native c rs)).map
        (fun t => answerTo codec toS describe t.out)
  /-- Those before the first that fails are answered with a result. -/
  results : ∀ t ∈ (Machine.trace (lineStep codec native) c rs).take
      (firstFailure codec native c rs),
    ∃ fields call result, codec.parse t.op.line = .ok (.obj fields) ∧
      Asks fields t.op.randomness call ∧
      answerTo codec toS describe t.out = line codec (.obj result) ∧
      Json.field? result "error" = none
  /-- The first that fails is answered with an error. -/
  failure : ∀ t, (Machine.trace (lineStep codec native) c rs)[firstFailure codec native c rs]?
      = some t →
    (∃ e, t.out = .error e) ∧ ∃ className message, answerTo codec toS describe t.out
      = line codec (.obj [("error", .str className), ("message", .str message)])
  /-- Where none fails, all are handled. -/
  complete : (∀ t ∈ Machine.trace (lineStep codec native) c rs, ∃ v, t.out = .ok v) →
    handled codec native c rs = rs ∧ firstFailure codec native c rs = rs.length

theorem written_append (events events' : List SocketEvent) :
    written (events ++ events') = written events ++ written events' := List.flatMap_append

theorem written_answers (answers : List Text) :
    written (answers.map SocketEvent.write ++ [.close]) = answers.flatten := by
  rw [written_append]
  induction answers with
  | nil => rfl
  | cons text answers ih =>
      rw [List.map_cons, List.flatten_cons, ← ih]
      exact List.append_assoc _ _ _

/-- Indexing raises nothing but a `StandardError`. -/
theorem index_onlyRaises (doc : Json) (key : String) :
    OnlyRaises (fun e => e.isStandardError = true) (index doc key) := by
  cases doc with
  | obj fields => exact onlyRaises_ok _ _
  | str s => exact onlyRaises_ok _ _
  | _ => exact onlyRaises_error _ _ rfl

theorem fetch_onlyRaises (req : Fields) (key : String) :
    OnlyRaises (fun e => e.isStandardError = true) (fetch req key) := by
  rw [fetch]
  cases Json.field? req key with
  | none => exact onlyRaises_error _ _ rfl
  | some v => exact onlyRaises_ok _ v

theorem packValue_onlyRaises (v : Json) :
    OnlyRaises (fun e => e.isStandardError = true) (packValue v) := by
  cases v with
  | str s => exact onlyRaises_ok _ _
  | null => exact onlyRaises_ok _ _
  | _ => exact onlyRaises_error _ _ rfl

/-- A submission raises nothing else while its fields are read. -/
theorem submission_onlyRaises (req : Fields) (f : Json → Json → Bytes → CoordinatorOp Json ρ) :
    OnlyRaises (fun e => e.isStandardError = true) (do
      let id ← fetch req "session_id"
      let signerId ← fetch req "signer_id"
      let bytes ← packValue (← fetch req "bytes_hex")
      return f id signerId bytes) := by
  refine onlyRaises_bind _ _ _ (fetch_onlyRaises req _) (fun id _ => ?_)
  refine onlyRaises_bind _ _ _ (fetch_onlyRaises req _) (fun signerId _ => ?_)
  refine onlyRaises_bind _ _ _ (fetch_onlyRaises req _) (fun v _ => ?_)
  exact onlyRaises_bind _ _ _ (packValue_onlyRaises v) (fun bytes _ => onlyRaises_ok _ _)

/-- A request that does not amount to a call fails with a `StandardError`. -/
theorem callOf_onlyRaises (request : Json) (r : ρ) :
    OnlyRaises (fun e => e.isStandardError = true) (callOf request r) := by
  refine onlyRaises_bind _ _ _ ?_ ?_
  · refine onlyRaises_bind _ _ _ (index_onlyRaises request _) (fun op _ => ?_)
    split
    · split
      · exact onlyRaises_ok _ _
      · exact onlyRaises_error _ _ rfl
    · exact onlyRaises_error _ _ rfl
  · rintro ⟨handler, fields⟩ hhandler
    rcases (handlerOf_eq_ok_iff request handler fields).mp hhandler with ⟨_, name, _, hserved⟩
    rcases (handlers_eq_some_iff name handler).mp hserved with
      ⟨_, rfl⟩ | ⟨_, rfl⟩ | ⟨_, rfl⟩ | ⟨_, rfl⟩
    · refine onlyRaises_bind _ _ _ (fetch_onlyRaises fields _) (fun v _ => ?_)
      refine onlyRaises_bind _ _ _ (packValue_onlyRaises v) (fun message _ => ?_)
      exact onlyRaises_bind _ _ _ (fetch_onlyRaises fields _) (fun t _ => onlyRaises_ok _ _)
    · exact submission_onlyRaises fields (fun id signerId b => .call id (.addCommitment signerId b))
    · exact submission_onlyRaises fields (fun id signerId b => .call id (.addShare signerId b))
    · exact onlyRaises_bind _ _ _ (fetch_onlyRaises fields _) (fun id _ => onlyRaises_ok _ _)

/-- A line that asks for a signature and has the combine panic, as the coordinator
    is when it is handled. -/
def LinePanics (c : Coordinator Json) (round : Round ρ) : Prop :=
  ∃ fields call, codec.parse round.line = .ok (.obj fields) ∧ Asks fields round.randomness call ∧
    Coordinator.Panics native (round.others c) call

/-- These are the lines that raise `fatal`. -/
theorem lineStep_fatal_iff (c : Coordinator Json) (round : Round ρ) :
    (∃ text, (lineStep codec native c round).1 = .error (.fatal text)) ↔
      LinePanics codec native c round := by
  constructor
  · rintro ⟨text, h⟩
    rw [lineStep] at h
    cases hparse : codec.parse round.line with
    | error text' =>
        simp only [hparse] at h
        exact nomatch h
    | ok request =>
        simp only [hparse] at h
        cases hcall : callOf request round.randomness with
        | error e =>
            rw [dispatch_of_error native _ request _ e hcall] at h
            have hstandard := callOf_onlyRaises request round.randomness e hcall
            rw [Except.error.inj h] at hstandard
            exact nomatch hstandard
        | ok op =>
            rcases (callOf_eq_ok_iff_asks request round.randomness op).mp hcall with
              ⟨fields, hrequest, hasks⟩
            refine ⟨fields, op, by rw [hparse, hrequest], hasks, ?_⟩
            rcases dispatch_of_call native (round.others c) request round.randomness op hcall with
              ⟨handler, fields', hhandler, hmakes, hdispatch⟩
            rw [hdispatch] at h
            cases hresult : (Coordinator.step native (round.others c) op).1.result with
            | error e =>
                simp only [hresult] at h
                rw [← Coordinator.step_fatal_iff, hresult]
                exact ⟨text, congrArg Except.error (Except.error.inj h)⟩
            | ok a =>
                -- What the call returned is answered.
                rcases response_eq_ok native (round.others c) request round.randomness handler
                  fields' op a hhandler hmakes hresult with ⟨response, hresponse⟩
                simp only [hresult, hresponse] at h
                exact nomatch h
  · rintro ⟨fields, call, hparse, hasks, hpanics⟩
    rcases (Coordinator.step_fatal_iff native _ call).mpr hpanics with ⟨text, hresult⟩
    have hcall := (callOf_eq_ok_iff_asks (.obj fields) round.randomness call).mpr
      ⟨fields, rfl, hasks⟩
    rcases dispatch_of_call native (round.others c) _ round.randomness call hcall with
      ⟨_, _, _, _, hdispatch⟩
    refine ⟨text, ?_⟩
    simp only [lineStep, hparse, hdispatch, hresult]

/-- The lines that are handled are all answered when none of them has the combine
    panic. -/
theorem answers_eq_iff (c : Coordinator Json) (rs : List (Round ρ)) :
    ((Machine.trace (lineStep codec native) c rs).filterMap
        (fun t => answered codec toS describe t.out)).map SocketEvent.write
      = (Machine.trace (lineStep codec native) c rs).map
        (fun t => SocketEvent.write (answerTo codec toS describe t.out)) ↔
      ∀ t ∈ Machine.trace (lineStep codec native) c rs,
        ¬ LinePanics codec native t.before t.op := by
  constructor
  · intro h t ht hpanics
    have hlength := congrArg List.length h
    rw [List.length_map, List.length_map, List.filterMap_length_eq_length] at hlength
    have hsome := hlength t ht
    rcases (Machine.mem_trace_iff _ c rs t).mp ht with ⟨pre, round, _, _, rfl⟩
    rcases (lineStep_fatal_iff codec native _ round).mpr hpanics with ⟨text, htext⟩
    simp only [Machine.Step.transition] at htext hsome
    rw [htext] at hsome
    cases hsome
  · intro h
    have hanswers : (Machine.trace (lineStep codec native) c rs).filterMap
        (fun t => answered codec toS describe t.out)
        = (Machine.trace (lineStep codec native) c rs).map
          (fun t => answerTo codec toS describe t.out) := by
      rw [← List.filterMap_eq_map]
      refine List.filterMap_congr (fun t ht => answered_eq codec toS describe t.out ?_)
      intro hfatal
      refine h t ht ?_
      rcases (Machine.mem_trace_iff _ c rs t).mp ht with ⟨pre, round, _, _, rfl⟩
      exact (lineStep_fatal_iff codec native _ round).mp hfatal
    rw [hanswers, List.map_map]
    rfl

/-- The loop frames what it is given when no line it handles has the combine
    panic. -/
theorem framed_iff (hline : ∀ v, '\n' ∉ codec.generate v) (c : Coordinator Json)
    (rs : List (Round ρ)) :
    Framed codec toS describe native c rs (serveRounds codec toS describe native c rs) ↔
      ∀ t ∈ Machine.trace (lineStep codec native) c (handled codec native c rs),
        ¬ LinePanics codec native t.before t.op := by
  have hserved := serveRounds_eq codec toS describe native c rs
  rw [← answers_eq_iff codec toS describe]
  constructor
  · intro h
    have hevents := h.events
    rw [hserved] at hevents
    exact List.append_cancel_right hevents
  · intro hanswers
    rw [hanswers] at hserved
    rw [hserved]
    refine ⟨rfl, rfl, ?_, ?_, ?_, ?_⟩
    · have hmap : (Machine.trace (lineStep codec native) c (handled codec native c rs)).map
            (fun t => SocketEvent.write (answerTo codec toS describe t.out))
          = ((Machine.trace (lineStep codec native) c (handled codec native c rs)).map
            (fun t => answerTo codec toS describe t.out)).map SocketEvent.write := by
        rw [List.map_map]
        rfl
      rw [hmap, written_answers]
      refine eachLine_flatten _ ?_
      intro text htext
      rcases List.mem_map.mp htext with ⟨t, _, rfl⟩
      exact answerTo_is_line codec toS describe hline t.out
    · intro t ht
      rcases List.mem_take_iff_getElem.mp ht with ⟨i, hi, hget⟩
      -- Before the first failure no line has failed.
      have hfailed := List.not_of_lt_findIdx (Nat.lt_of_lt_of_le hi (Nat.min_le_left _ _))
      rw [hget, failed_eq_false_iff] at hfailed
      rcases hfailed with ⟨v, hv⟩
      rcases (Machine.mem_trace_iff _ c rs t).mp (List.mem_of_mem_take ht) with
        ⟨pre, round, _, _, rfl⟩
      rcases response_is_result codec native _ round v hv with
        ⟨⟨fields, call, hparse, hasks⟩, result, hresult, herror⟩
      refine ⟨fields, call, result, hparse, hasks, ?_, herror⟩
      rw [hv, hresult, answerTo]
    · intro t ht
      rw [firstFailure] at ht
      -- At the first failure the line has.
      have hfailed := List.findIdx_of_getElem?_eq_some ht
      cases hout : t.out with
      | ok v =>
          rw [hout] at hfailed
          exact absurd hfailed Bool.false_ne_true
      | error e => exact ⟨⟨e, rfl⟩, errorLine_is_error codec toS describe e⟩
    · intro hall
      have hlength : firstFailure codec native c rs = rs.length := by
        rw [firstFailure, List.findIdx_eq_length_of_false
          (fun t ht => (failed_eq_false_iff t.out).mpr (hall t ht)), Machine.length_trace]
      refine ⟨?_, hlength⟩
      rw [handled, hlength, List.take_of_length_le (Nat.le_succ _)]

/-- Which connections are framed, whatever is sent on them and whatever the other
    connections do. The lines are handled in order up to and including the first
    that fails, each of these is answered with one line, no other line reaches the
    coordinator, and the connection is closed, exactly when none of these lines has
    the combine panic. -/
theorem connection_framed_iff (hline : ∀ v, '\n' ∉ codec.generate v) (c : Coordinator Json)
    (stream : Text) (others : Nat → Coordinator Json → Coordinator Json) (randomness : Nat → ρ) :
    (rounds stream others randomness).map Round.line = eachLine stream ∧
      (Framed codec toS describe native c (rounds stream others randomness)
          (serve codec toS describe native c stream others randomness) ↔
        ∀ t ∈ Machine.trace (lineStep codec native) c
            (handled codec native c (rounds stream others randomness)),
          ¬ LinePanics codec native t.before t.op) := by
  refine ⟨?_, framed_iff codec toS describe native hline c _⟩
  apply List.ext_getElem?
  intro i
  rw [rounds, List.getElem?_map, List.getElem?_mapIdx, Option.map_map]
  cases (eachLine stream)[i]? <;> rfl

/-- Three requests at once, the second of them malformed. -/
def pipelined : Text :=
  line JsonCodec.compact (request (.createSession [1, 2] 2 "CMP20-ECDSA-P256"))
    ++ "\x7b\n".toList
    ++ line JsonCodec.compact (request (.createSession [3] 2 "CMP20-ECDSA-P256"))

/-- Combines that refuse. -/
def refuseAll : Natives Json Unit :=
  { cmp20Sign := fun _ _ _ _ => .error (.native "RuntimeError" "refused"),
    gg18Sign := fun _ _ _ _ => .error (.native "RuntimeError" "refused") }

/-- The second request is answered with an error, and the third not at all. -/
theorem pipelined_framed :
    Framed JsonCodec.compact (fun _ => "") (fun _ => "") refuseAll Coordinator.new
      (rounds pipelined (fun _ c => c) (fun _ => ()))
      (serve JsonCodec.compact (fun _ => "") (fun _ => "") refuseAll Coordinator.new pipelined
        (fun _ c => c) (fun _ => ())) := by
  refine (connection_framed_iff JsonCodec.compact (fun _ => "") (fun _ => "") refuseAll
    Json.newline_not_mem_write Coordinator.new pipelined (fun _ c => c) (fun _ => ())).2.mpr ?_
  rintro t _ ⟨_, _, _, _, _, _, s, text, _, _, _, h⟩
  -- A refusal is no panic.
  cases hscheme : s.scheme <;>
  · rw [Natives.combine, SigningSession.combineCall, hscheme] at h
    cases h

/-- A session with threshold zero, and a signature asked of it in the next line. -/
def askedInNextLine : Text :=
  line JsonCodec.compact (request (.createSession [104, 105] 0 "CMP20-ECDSA-P256"))
    ++ line JsonCodec.compact (request (.aggregate "session-1"))

/-- The second line is handled, and the connection is closed with no answer to it. -/
theorem line_without_answer :
    let rs := rounds askedInNextLine (fun _ c => c) (fun _ => ())
    let served := serve JsonCodec.compact (fun _ => "") (fun _ => "") panicOnNoShare
      Coordinator.new askedInNextLine (fun _ c => c) (fun _ => ())
    (handled JsonCodec.compact panicOnNoShare Coordinator.new rs).length = 2 ∧
      served.events = [.write (line JsonCodec.compact
        (.obj [("session_id", .str "session-1")])), .close] ∧
      ¬ Framed JsonCodec.compact (fun _ => "") (fun _ => "") panicOnNoShare Coordinator.new rs
        served := by
  intro rs served
  have hhandled : (handled JsonCodec.compact panicOnNoShare Coordinator.new rs).length = 2 := by
    decide +kernel
  have hevents : served.events = [.write (line JsonCodec.compact
      (.obj [("session_id", .str "session-1")])), .close] := by decide +kernel
  refine ⟨hhandled, hevents, fun h => ?_⟩
  -- Two lines would have two answers.
  have hlength := congrArg List.length (hevents.symm.trans h.events)
  rw [List.length_append, List.length_map, Machine.length_trace, hhandled] at hlength
  exact absurd hlength (by decide)

end NetworkCoordinator

end Confium
