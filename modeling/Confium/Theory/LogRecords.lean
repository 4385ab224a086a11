import Confium.Core.Fields
import Confium.Core.OtlpSink

/-!
# What a Log Record Says

The log record the sink builds of an audit record. Its attributes are the entries
of the audit record other than the timestamp, in order, and nothing is lost or
made up.

Its severity is given twice, as a number and as a text, and each is computed from
the result of the audit record by a rule of its own. The number is looked up in a
table of three results, and is that of INFO for every other. The text is INFO for
`success` and ERROR for every other. So the two agree on the results the table
lists, and on a result it does not list, or where there is none, the number says
INFO and the text says ERROR.

## Main definitions

* `FaithfulLog`: A log record that says what the audit record says, and says its
  severity twice alike.

## Theorems

* `attributesFor_eq`: The attributes of a record.
* `logRecord_members`: The log record, when everything around it works.
* `severity_agrees_iff`: The results the two severities agree on.
* `faithfulLog_iff`: The audit records whose log record is faithful.
-/

namespace Confium

open Ruby

namespace OtlpSink

/-- The log record has one attribute for each entry of the audit record but the
    timestamp, in order, with its key and its value as text; and its two
    severities agree, on INFO and on ERROR. -/
structure FaithfulLog (toS : Json → String) (record : Hash String Json) (log : Json) : Prop where
  attributes : ∃ attributes, member log "attributes" = some (.arr attributes) ∧
    List.Forall₂ (fun entry sent => sent = .obj [("key", .str entry.1),
        ("value", .obj [("stringValue", .str (toS entry.2))])])
      (record.entries.filter (fun entry => entry.1 != "timestamp")) attributes
  info : member log "severityNumber" = some (.int 9) ↔
    member log "severityText" = some (.str "INFO")
  error : member log "severityNumber" = some (.int 17) ↔
    member log "severityText" = some (.str "ERROR")

/-- The severity as a text. -/
def severityText (result : Json) : String := if result = .str "success" then "INFO" else "ERROR"

section LogRecord

variable (world : World) (toS : Json → String) (htoS : ∀ v, world.toS v = .ok (toS v))

include htoS

theorem attributesFor_eq (fields : List (String × Json)) :
    attributesFor world fields = .ok ((fields.filter (fun field => field.1 != "timestamp")).map
      (fun field => keyValue field.1 (toS field.2))) := by
  rw [attributesFor, mapM_eq_ok_iff, List.forall₂_map_right_iff, List.forall₂_same]
  intro field _
  rw [htoS]
  rfl

/-- The members of the log record, when everything around it works. -/
theorem logRecord_members (fields : List (String × Json)) (nanos : String)
    (htime : (parseTime world (fieldOf fields "timestamp") >>= world.nanos) = .ok nanos) :
    ∃ log, logRecord world (.obj fields) = .ok log ∧
      member log "severityNumber" = some (.int (severity (fieldOf fields "result"))) ∧
      member log "severityText" = some (.str (severityText (fieldOf fields "result"))) ∧
      member log "attributes" = some (.arr
        ((fields.filter (fun field => field.1 != "timestamp")).map
          (fun field => keyValue field.1 (toS field.2)))) := by
  rcases (bind_eq_ok_iff _ _ _).mp htime with ⟨time, hparse, hnanos⟩
  simp only [logRecord, hparse, hnanos, htoS, attributesFor_eq world toS htoS, bind, Except.bind,
    pure, Except.pure]
  exact ⟨_, rfl, rfl, rfl, rfl⟩

end LogRecord

/-- The number and the text agree exactly on the results the table lists. -/
theorem severity_agrees_iff (result : Json) :
    ((severity result = 9 ↔ severityText result = "INFO") ∧
      (severity result = 17 ↔ severityText result = "ERROR")) ↔
    result = .str "success" ∨ result = .str "failure" ∨ result = .str "error" := by
  rw [severity, severityText]
  by_cases hsuccess : result = .str "success"
  · rw [hsuccess]
    decide
  · by_cases hfailure : result = .str "failure"
    · rw [hfailure]
      decide
    · by_cases herror : result = .str "error"
      · rw [herror]
        decide
      · -- Not in the table: the number of INFO beside the text of ERROR.
        rw [if_neg hsuccess, if_neg hfailure, if_neg herror, if_neg hsuccess]
        refine iff_of_false (by decide) ?_
        rintro (h | h | h)
        · exact hsuccess h
        · exact hfailure h
        · exact herror h

/-- Every audit record has its log record, and that is faithful exactly when the
    result is one the table of severities lists. -/
theorem faithfulLog_iff (world : World) (record : Hash String Json) (toS : Json → String)
    (nanos : String) (htoS : ∀ v, world.toS v = .ok (toS v))
    (htime : (parseTime world (fieldOf record.entries "timestamp") >>= world.nanos) = .ok nanos) :
    ∃ log, logRecord world (.obj record.entries) = .ok log ∧
      (FaithfulLog toS record log ↔
        fieldOf record.entries "result" = .str "success" ∨
          fieldOf record.entries "result" = .str "failure" ∨
          fieldOf record.entries "result" = .str "error") := by
  -- The attributes are right for every record, so only the severities are left.
  rcases logRecord_members world toS htoS record.entries nanos htime with
    ⟨log, hlog, hnumber, htext, hattributes⟩
  have hinfo : (member log "severityNumber" = some (.int 9) ↔
        member log "severityText" = some (.str "INFO")) ↔
      (severity (fieldOf record.entries "result") = 9 ↔
        severityText (fieldOf record.entries "result") = "INFO") := by
    rw [hnumber, htext, Option.some.injEq, Option.some.injEq, Json.int.injEq, Json.str.injEq]
  have herror : (member log "severityNumber" = some (.int 17) ↔
        member log "severityText" = some (.str "ERROR")) ↔
      (severity (fieldOf record.entries "result") = 17 ↔
        severityText (fieldOf record.entries "result") = "ERROR") := by
    rw [hnumber, htext, Option.some.injEq, Option.some.injEq, Json.int.injEq, Json.str.injEq]
  refine ⟨log, hlog, ?_⟩
  rw [← severity_agrees_iff]
  constructor
  · intro h
    exact ⟨hinfo.mp h.info, herror.mp h.error⟩
  · intro h
    refine ⟨⟨_, hattributes, ?_⟩, hinfo.mpr h.1, herror.mpr h.2⟩
    rw [List.forall₂_map_right_iff, List.forall₂_same]
    exact fun _ _ => rfl

/-- `to_s`, of the values an audit record is made of. -/
def textOf : Json → String
  | .str s => s
  | .int i => toString i
  | _ => ""

/-- A world in which nothing goes wrong. -/
def calmWorld : World where
  now := .finite 0
  parseTime := fun s => .ok (if s = "2026-08-24T12:00:00Z" then some (.finite 1787572800) else none)
  nanos := fun time => match time with
    | .finite q => .ok (toString (q * 1000000000).floor)
    | _ => .error ⟨"FloatDomainError", "Infinity", true⟩
  toS := fun v => .ok (textOf v)
  notAHash := fun _ => ⟨"NoMethodError", "undefined method '[]'", true⟩
  generate := fun _ => .ok ""
  post := fun _ _ => .ok ⟨200⟩

/-- A record as the signers fire it, with the given result. -/
def sampleRecord (result : String) : Hash String Json :=
  ⟨[("timestamp", .str "2026-08-24T12:00:00Z"), ("operation", .str "composite_sign"),
    ("result", .str result)], (by decide : ["timestamp", "operation", "result"].Nodup)⟩

/-- A failure is logged as one. -/
theorem failure_logged_faithfully :
    ∃ log, logRecord calmWorld (.obj (sampleRecord "failure").entries) = .ok log ∧
      FaithfulLog textOf (sampleRecord "failure") log := by
  rcases faithfulLog_iff calmWorld (sampleRecord "failure") textOf _ (fun _ => rfl) rfl with
    ⟨log, hlog, hiff⟩
  exact ⟨log, hlog, hiff.mpr (by decide)⟩

/-- A result the table does not list is logged as an error under the number of
    INFO. -/
theorem unlisted_result_disagrees :
    ∃ log, logRecord calmWorld (.obj (sampleRecord "denied").entries) = .ok log ∧
      member log "severityNumber" = some (.int 9) ∧
      member log "severityText" = some (.str "ERROR") ∧
      ¬ FaithfulLog textOf (sampleRecord "denied") log := by
  refine ⟨_, rfl, rfl, rfl, ?_⟩
  intro h
  exact absurd (h.info.mp rfl) (by decide)

end OtlpSink

end Confium
