import Confium.Lib.Hash
import Confium.Lib.Run
import Confium.Lib.Value

/-!
# The OTLP Audit Sink

The audit sink that exports every record to a collector over HTTP. One `write`
builds the log envelope of a record, serialises it and posts it, up to
`retries + 1` times with a growing delay between attempts. Whatever goes wrong,
the record is counted as dropped and reported, and the caller goes on.

A write leaves the retry loop by three exits. A 2xx response returns from it. A
response that is not 2xx goes round again, and raises on the last attempt. An
exception from the transport goes straight out of the loop from whichever
attempt it hit, so it is never retried. All three reach the same `rescue`, which
takes `StandardError` and its descendants and lets every other exception pass.

What the sink does not decide is a `World`: the clock and the parser of
timestamps, `to_s` of the record's values, the JSON generator, and the
collector. Each write carries the world it ran in, so one run may meet any
sequence of them. A `Delivery` keeps the posts that were made, the responses that
came back and the delays that were slept, beside the result.

## Main definitions

* `Raised`: An exception, and whether it is a `StandardError`.
* `Response`: What a post was answered with.
* `World`: Everything around one write.
* `OtlpSink`: The sink's configuration and its count of dropped records.
* `OtlpSink.envelope`: The payload of a record.
* `OtlpSink.deliver`: The retry loop.
* `OtlpSink.write`, `OtlpSink.step`: Writing a record, as a step of a machine.
* `OtlpSink.Round`: Everything one round of the loop can come to, and when.

## Theorems

* `OtlpSink.deliverFrom_round`: Every round comes to one of these.
* `OtlpSink.deliverFrom_induct`: Induction over the rounds.
* `OtlpSink.deliver_result`: A delivery returns exactly when a 2xx response came
  back.
* `OtlpSink.length_posts_deliver_le`: A delivery posts at most once and once
  more for each retry.
* `OtlpSink.deliver_of_neg`: A negative number of retries never posts.
-/

namespace Confium

open Ruby

/-- An exception. `standard` says whether its class descends from
    `StandardError`, which is what a `rescue` of it catches. -/
structure Raised where
  className : String
  message : String
  standard : Bool
  deriving DecidableEq

/-- A response of the collector, by its status code. -/
structure Response where
  code : Nat
  deriving DecidableEq

/-- `response.is_a?(Net::HTTPSuccess)`: the class of every 2xx response. -/
def Response.isSuccess (r : Response) : Bool := r.code / 100 == 2

/-- One `Net::HTTP.post`. -/
structure Post where
  uri : String
  body : String
  headers : Hash String String

/-- Everything around one write that the sink does not decide. -/
structure World where
  /-- `Time.now.to_f`. -/
  now : Double
  /-- `Time.parse(timestamp).to_f`, `none` where it raises an `ArgumentError`. -/
  parseTime : String → Except Raised (Option Double)
  /-- `(time * 1_000_000_000).to_i.to_s`. -/
  nanos : Double → Except Raised String
  /-- `value.to_s` of a value in the record. -/
  toS : Json → Except Raised String
  /-- What indexing a record that is not a Hash raises. -/
  notAHash : Json → Raised
  /-- `JSON.generate`. -/
  generate : Json → Except Raised String
  /-- What the collector does with the post of each attempt. -/
  post : Nat → Post → Except Raised Response

/-- `Confium::VERSION`. -/
def version : String := "0.8.0"

/-- The sink. -/
structure OtlpSink where
  uri : String
  headers : Hash String String
  serviceName : String
  retries : Int
  retryBase : ℚ
  dropped : Nat

/-- What a delivery did: the posts it made, the responses that came back and the
    delays slept, in order, and how it ended. -/
structure Delivery where
  posts : List Post
  responses : List Response
  delays : List ℚ
  result : Except Raised (Option Response)

/-- What a write did. The result is the response, or nothing once the failure
    has been reported. -/
structure Written where
  posts : List Post
  responses : List Response
  delays : List ℚ
  warning : Option String
  result : Except Raised (Option Response)

namespace OtlpSink

/-- A new sink, at the parsed endpoint. -/
def new (uri : String) (headers : Hash String String) (serviceName : String) (retries : Int)
    (retryBase : ℚ) : OtlpSink :=
  { uri := uri, headers := headers, serviceName := serviceName, retries := retries,
    retryBase := retryBase, dropped := 0 }

/-- `SEVERITY.fetch(result, 9)`. -/
def severity (result : Json) : Int :=
  if result = .str "success" then 9
  else if result = .str "failure" then 17
  else if result = .str "error" then 17
  else 9

/-- The characters `strip` removes at both ends. -/
def isStripped (c : Char) : Bool := c.toNat == 0 || (9 ≤ c.toNat && c.toNat ≤ 13) || c == ' '

/-- `String#strip`. -/
def strip (s : String) : String :=
  String.ofList ((s.toList.dropWhile isStripped).reverse.dropWhile isStripped).reverse

/-- `parse_time`: a timestamp that is no String, or does not parse, is now. -/
def parseTime (world : World) (timestamp : Json) : Except Raised Double :=
  match timestamp with
  | .str s => (world.parseTime s).map (fun time => time.getD world.now)
  | _ => .ok world.now

/-- An attribute of the log record. -/
def keyValue (key value : String) : Json :=
  .obj [("key", .str key), ("value", .obj [("stringValue", .str value)])]

/-- `attributes_for`. -/
def attributesFor (world : World) (fields : List (String × Json)) : Except Raised (List Json) :=
  (fields.filter (fun field => field.1 != "timestamp")).mapM (fun field => do
    let value ← world.toS field.2
    return keyValue field.1 value)

/-- `record[key]`, `nil` when the record has no such key. -/
def fieldOf (fields : List (String × Json)) (key : String) : Json :=
  (Json.field? fields key).getD .null

/-- `log_record`. -/
def logRecord (world : World) (record : Json) : Except Raised Json :=
  match record with
  | .obj fields => do
    let time ← parseTime world (fieldOf fields "timestamp")
    let nanos ← world.nanos time
    let operation ← world.toS (fieldOf fields "operation")
    let result ← world.toS (fieldOf fields "result")
    let attributes ← attributesFor world fields
    return .obj [
      ("timeUnixNano", .str nanos),
      ("severityNumber", .int (severity (fieldOf fields "result"))),
      ("severityText", .str (if fieldOf fields "result" = .str "success" then "INFO" else "ERROR")),
      ("body", .obj [("stringValue", .str (strip (operation ++ " " ++ result)))]),
      ("attributes", .arr attributes)]
  | record => .error (world.notAHash record)

/-- `envelope`: one resource, one scope, one record. -/
def envelope (sink : OtlpSink) (world : World) (record : Json) : Except Raised Json := do
  let log ← logRecord world record
  return .obj [("resourceLogs", .arr [.obj [
    ("resource", .obj [("attributes", .arr [
      keyValue "service.name" sink.serviceName,
      keyValue "telemetry.sdk.name" "confium",
      keyValue "telemetry.sdk.version" version])]),
    ("scopeLogs", .arr [.obj [
      ("scope", .obj [("name", .str "confium.audit")]),
      ("logRecords", .arr [log])]])]])]

/-- The headers of a post: the caller's over the user agent, and the content
    type over both. -/
def postHeaders (sink : OtlpSink) : Hash String String :=
  (sink.headers.entries.foldl (fun h e => h.set e.1 e.2)
    (Hash.empty.set "User-Agent" ("confium-otlp-sink " ++ version))).set
      "Content-Type" "application/json"

/-- The delay before an attempt. -/
def delays (sink : OtlpSink) (attempt : Nat) : List ℚ :=
  if 0 < attempt ∧ 0 < sink.retryBase then [sink.retryBase * 2 ^ attempt] else []

/-- The post of a payload, the same at every attempt. -/
def request (sink : OtlpSink) (body : String) : Post := ⟨sink.uri, body, sink.postHeaders⟩

/-- The retry loop from an attempt on, with so many iterations of `times` to
    go. -/
def deliverFrom (sink : OtlpSink) (world : World) (body : String) : Nat → Nat → Delivery
  -- `times` runs out and `deliver` returns its count.
  | 0, _ => ⟨[], [], [], .ok none⟩
  | more + 1, attempt =>
    match world.post attempt (sink.request body) with
    | .error e => ⟨[sink.request body], [], sink.delays attempt, .error e⟩
    | .ok response =>
      if response.isSuccess then
        ⟨[sink.request body], [response], sink.delays attempt, .ok (some response)⟩
      else if (attempt : Int) = sink.retries then
        ⟨[sink.request body], [response], sink.delays attempt,
          .error ⟨"RuntimeError", "collector responded " ++ toString response.code, true⟩⟩
      else
        let rest := deliverFrom sink world body more (attempt + 1)
        ⟨sink.request body :: rest.posts, response :: rest.responses,
          sink.delays attempt ++ rest.delays, rest.result⟩

/-- `deliver`. -/
def deliver (sink : OtlpSink) (world : World) (body : String) : Delivery :=
  sink.deliverFrom world body (sink.retries + 1).toNat 0

/-- The body of `write`, before its `rescue`. -/
def attempt (sink : OtlpSink) (world : World) (record : Json) : Delivery :=
  match sink.envelope world record with
  | .error e => ⟨[], [], [], .error e⟩
  | .ok payload =>
    match world.generate payload with
    | .error e => ⟨[], [], [], .error e⟩
    | .ok body => sink.deliver world body

/-- What is reported when a record is dropped. -/
def report (dropped : Nat) (e : Raised) : String :=
  "confium: OTLP delivery failed, audit record dropped (#" ++ toString dropped ++ "): " ++
    e.className ++ ": " ++ e.message

/-- `write`. -/
def write (sink : OtlpSink) (world : World) (record : Json) : Written × OtlpSink :=
  let delivery := sink.attempt world record
  match delivery.result with
  | .ok response =>
    (⟨delivery.posts, delivery.responses, delivery.delays, none, .ok response⟩, sink)
  | .error e =>
    if e.standard then
      (⟨delivery.posts, delivery.responses, delivery.delays,
          some (report (sink.dropped + 1) e), .ok none⟩,
        { sink with dropped := sink.dropped + 1 })
    else (⟨delivery.posts, delivery.responses, delivery.delays, none, .error e⟩, sink)

/-- A write and the world it ran in. -/
structure Write where
  world : World
  record : Json

/-- The sink as a machine. -/
def step : Machine.Step OtlpSink Write Written :=
  fun sink w => sink.write w.world w.record

/-- Everything one round of the loop can come to, and when. -/
inductive Round (sink : OtlpSink) (world : World) (body : String) (more attempt : Nat) :
    Delivery → Prop where
  | raised (e : Raised) (hpost : world.post attempt (sink.request body) = .error e) :
      Round sink world body more attempt
        ⟨[sink.request body], [], sink.delays attempt, .error e⟩
  | answered (response : Response)
      (hpost : world.post attempt (sink.request body) = .ok response)
      (hs : response.isSuccess = true) :
      Round sink world body more attempt
        ⟨[sink.request body], [response], sink.delays attempt, .ok (some response)⟩
  | refused (response : Response)
      (hpost : world.post attempt (sink.request body) = .ok response)
      (hs : response.isSuccess = false) (hlast : (attempt : Int) = sink.retries) :
      Round sink world body more attempt
        ⟨[sink.request body], [response], sink.delays attempt,
          .error ⟨"RuntimeError", "collector responded " ++ toString response.code, true⟩⟩
  | retried (response : Response)
      (hpost : world.post attempt (sink.request body) = .ok response)
      (hs : response.isSuccess = false) (hlast : (attempt : Int) ≠ sink.retries) :
      Round sink world body more attempt
        ⟨sink.request body :: (sink.deliverFrom world body more (attempt + 1)).posts,
          response :: (sink.deliverFrom world body more (attempt + 1)).responses,
          sink.delays attempt ++ (sink.deliverFrom world body more (attempt + 1)).delays,
          (sink.deliverFrom world body more (attempt + 1)).result⟩

theorem deliverFrom_round (sink : OtlpSink) (world : World) (body : String) (more attempt : Nat) :
    Round sink world body more attempt (sink.deliverFrom world body (more + 1) attempt) := by
  rw [deliverFrom]
  cases hpost : world.post attempt (sink.request body) with
  | error e => exact .raised e hpost
  | ok response =>
      simp only []
      cases hs : response.isSuccess with
      | true =>
          rw [if_pos rfl]
          exact .answered response hpost hs
      | false =>
          rw [if_neg Bool.false_ne_true]
          by_cases hlast : (attempt : Int) = sink.retries
          · rw [if_pos hlast]
            exact .refused response hpost hs hlast
          · rw [if_neg hlast]
            exact .retried response hpost hs hlast

/-- Induction over the rounds of a loop whose iterations to go end at the last
    attempt, which is what keeps it from running out. -/
theorem deliverFrom_induct (sink : OtlpSink) (world : World) (body : String)
    (P : Nat → Nat → Delivery → Prop)
    (hraised : ∀ more attempt e, world.post attempt (sink.request body) = .error e →
      P more attempt ⟨[sink.request body], [], sink.delays attempt, .error e⟩)
    (hanswered : ∀ more attempt response,
      world.post attempt (sink.request body) = .ok response → response.isSuccess = true →
      P more attempt ⟨[sink.request body], [response], sink.delays attempt, .ok (some response)⟩)
    (hrefused : ∀ attempt response e,
      world.post attempt (sink.request body) = .ok response → response.isSuccess = false →
      P 0 attempt ⟨[sink.request body], [response], sink.delays attempt, .error e⟩)
    (hretried : ∀ more attempt response rest,
      world.post attempt (sink.request body) = .ok response → response.isSuccess = false →
      P more (attempt + 1) rest →
      P (more + 1) attempt ⟨sink.request body :: rest.posts, response :: rest.responses,
        sink.delays attempt ++ rest.delays, rest.result⟩)
    (more attempt : Nat) (h : (attempt : Int) + more = sink.retries) :
    P more attempt (sink.deliverFrom world body (more + 1) attempt) := by
  induction more generalizing attempt with
  | zero =>
      have hround := deliverFrom_round sink world body 0 attempt
      generalize sink.deliverFrom world body (0 + 1) attempt = delivery at hround ⊢
      cases hround with
      | raised e hpost => exact hraised 0 attempt e hpost
      | answered response hpost hs => exact hanswered 0 attempt response hpost hs
      | refused response hpost hs hlast => exact hrefused attempt response _ hpost hs
      -- No attempt is left, so this was the last one.
      | retried response hpost hs hlast => exact absurd h (by omega)
  | succ more ih =>
      have hround := deliverFrom_round sink world body (more + 1) attempt
      generalize sink.deliverFrom world body (more + 1 + 1) attempt = delivery at hround ⊢
      cases hround with
      | raised e hpost => exact hraised (more + 1) attempt e hpost
      | answered response hpost hs => exact hanswered (more + 1) attempt response hpost hs
      -- Attempts are left, so this was not the last one.
      | refused response hpost hs hlast => exact absurd h (by omega)
      | retried response hpost hs hlast =>
          exact hretried more attempt response _ hpost hs (ih (attempt + 1) (by omega))

/-- The loop returns a 2xx response if one came back, and raises if none did. -/
theorem deliverFrom_result (sink : OtlpSink) (world : World) (body : String) (more attempt : Nat)
    (h : (attempt : Int) + more = sink.retries) :
    (∃ r, (sink.deliverFrom world body (more + 1) attempt).result = .ok (some r) ∧
        (sink.deliverFrom world body (more + 1) attempt).responses.any Response.isSuccess = true) ∨
      ∃ e, (sink.deliverFrom world body (more + 1) attempt).result = .error e ∧
        (sink.deliverFrom world body (more + 1) attempt).responses.any Response.isSuccess
          = false := by
  refine deliverFrom_induct sink world body (fun _ _ delivery =>
    (∃ r, delivery.result = .ok (some r) ∧ delivery.responses.any Response.isSuccess = true) ∨
      ∃ e, delivery.result = .error e ∧ delivery.responses.any Response.isSuccess = false)
    ?_ ?_ ?_ ?_ more attempt h
  · intro more attempt e hpost
    exact Or.inr ⟨e, rfl, rfl⟩
  · intro more attempt response hpost hs
    exact Or.inl ⟨response, rfl, by rw [List.any_cons, hs, Bool.true_or]⟩
  · intro attempt response e hpost hs
    exact Or.inr ⟨e, rfl, by rw [List.any_cons, hs, Bool.false_or, List.any_nil]⟩
  · intro more attempt response rest hpost hs hrest
    simpa only [List.any_cons, hs, Bool.false_or] using hrest

/-- A delivery returns exactly when a 2xx response came back. -/
theorem deliver_result (sink : OtlpSink) (world : World) (body : String)
    (h : 0 ≤ sink.retries) :
    (∃ r, (sink.deliver world body).result = .ok (some r) ∧
        (sink.deliver world body).responses.any Response.isSuccess = true) ∨
      ∃ e, (sink.deliver world body).result = .error e ∧
        (sink.deliver world body).responses.any Response.isSuccess = false := by
  have hcount : (sink.retries + 1).toNat = sink.retries.toNat + 1 := by omega
  rw [deliver, hcount]
  exact deliverFrom_result sink world body sink.retries.toNat 0 (by omega)

theorem length_posts_deliverFrom_le (sink : OtlpSink) (world : World) (body : String)
    (more attempt : Nat) : (sink.deliverFrom world body more attempt).posts.length ≤ more := by
  induction more generalizing attempt with
  | zero => rw [deliverFrom, List.length_nil]
  | succ more ih =>
      have hround := deliverFrom_round sink world body more attempt
      generalize sink.deliverFrom world body (more + 1) attempt = delivery at hround ⊢
      cases hround with
      | raised e hpost =>
          rw [List.length_singleton]
          omega
      | answered response hpost hs =>
          rw [List.length_singleton]
          omega
      | refused response hpost hs hlast =>
          rw [List.length_singleton]
          omega
      | retried response hpost hs hlast =>
          have hrest := ih (attempt + 1)
          rw [List.length_cons]
          omega

/-- A delivery posts at most once and once more for each retry. -/
theorem length_posts_deliver_le (sink : OtlpSink) (world : World) (body : String) :
    (sink.deliver world body).posts.length ≤ (sink.retries + 1).toNat :=
  length_posts_deliverFrom_le sink world body _ 0

/-- With a negative number of retries nothing is posted and nothing raised. -/
theorem deliver_of_neg (sink : OtlpSink) (world : World) (body : String)
    (h : sink.retries < 0) : sink.deliver world body = ⟨[], [], [], .ok none⟩ := by
  have hcount : (sink.retries + 1).toNat = 0 := by omega
  rw [deliver, hcount, deliverFrom]

end OtlpSink

end Confium
