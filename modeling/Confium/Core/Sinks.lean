import Mathlib.Logic.Function.Basic
import Confium.Core.Audit
import Confium.Core.Fields
import Confium.Core.OtlpSink

/-!
# Audit Sinks

`Confium::Audit` keeps one sink and calls it with a record for every event. The
sinks shipped with it append to a file, to an array, to stderr, or post to a
collector, and a program may bring its own. Here they are together with what
they write to, so that a program can make several, switch between them, close
them and clear them.

Two functions hand records over. `fire_event` is what the native entry points
call: whatever the sink raises is reported on stderr and goes no further.
`record` is what programs call: it raises a `RuntimeError` when the sink raises.
The two build their records with the fields in a different order.

A write to a file may fail half way, as on a disk that is full, and then a part of
its line is in the file. Files are told apart by what the system opens, and not by
the path: two paths may lead to one file. Records a program hands to a sink by
itself, and what it does to the Array that `records` returns, are not modelled.

## Main definitions

* `Sink`: A sink object.
* `AuditModule`: The module's state, the sinks there are and what they write to.
* `eventHash`, `entryHash`: The records `fire_event` and `record` build.
* `AuditModule.write`: `Sink#write`, of each class.
* `AuditModule.fireEvent`, `AuditModule.record`: Handing a record over.
* `AuditOp`, `AuditModule.step`: What a program does with the module.

## Theorems

* `plain_eventHash`, `plain_entryHash`: Records are documents a codec reads back.
-/

namespace Confium

open Ruby

namespace Audit

/-- A sink object, by its class. -/
inductive Sink where
  /-- A subclass of `Sink` that does not define `write`. -/
  | base (className : String)
  | memory (records : List Fields)
  | stderr
  /-- `@path`, the file it led to, and whether `@io` is open. -/
  | file (path : String) (file : Nat) (isOpen : Bool)
  | otlp (sink : OtlpSink)
  /-- A Proc, or any object with `call`, and what it was called with. -/
  | custom (received : List Fields)

/-- Everything around one call of a sink that neither the sink nor the caller
    decides: the time, the disk, what a program's own sink does and the world of
    a collector. -/
structure Circumstances where
  now : String
  /-- A failing disk: how much of the line gets to it, and what is raised. -/
  disk : Option (Nat × Raised)
  custom : Option Raised
  world : World

/-- What the module is built on: the codec, SHA-256 in hexadecimal, and an
    exception as Rust displays it in its two ways. -/
structure Setting where
  codec : JsonCodec
  sha256Hex : Bytes → String
  display : Raised → String
  debug : Raised → String

/-- `Confium::Audit`: `@sink`, by position among the sinks there are, and what
    the sinks write to. -/
structure AuditModule where
  sink : Option Nat
  sinks : List Sink
  files : Nat → Text
  stderr : Text

/-- An event of a native entry point. -/
structure Event where
  operation : String
  result : String
  algorithm : Option String
  payload : Option Bytes
  error : Option String

/-- The arguments of `record`. -/
structure Entry where
  operation : String
  payloadHash : String
  result : String
  actor : Option String
  algorithm : Option String
  error : Option String

/-- A field that is set only when there is a value. -/
def optionalField (key : String) (value : Option String) : Fields :=
  match value with
  | some v => [(key, .str v)]
  | none => []

/-- The Hash `fire_event` builds. -/
def eventHash (sha256Hex : Bytes → String) (now : String) (e : Event) : Fields :=
  [("timestamp", .str now), ("operation", .str e.operation), ("result", .str e.result),
    ("payload_hash", .str ((e.payload.map sha256Hex).getD ""))]
    ++ optionalField "algorithm" e.algorithm ++ optionalField "error" e.error

/-- The Hash `record` builds. -/
def entryHash (now : String) (e : Entry) : Fields :=
  [("timestamp", .str now), ("operation", .str e.operation)]
    ++ optionalField "actor" e.actor ++ optionalField "algorithm" e.algorithm
    ++ [("payload_hash", .str e.payloadHash), ("result", .str e.result)]
    ++ optionalField "error" e.error

/-- `io.puts(text)`: a newline is added where there is none. -/
def puts (text : Text) : Text := if text.getLast? = some '\n' then text else text ++ ['\n']

/-- What a record is written as. -/
def recordLine (codec : JsonCodec) (record : Fields) : Text := puts (codec.generate (.obj record))

/-- A line on stderr, from `warn` or `eprintln!`. -/
def complaint (text : Option String) : Text :=
  match text with
  | some s => s.toList ++ ['\n']
  | none => []

namespace AuditModule

/-- The state with another object in a sink's place. -/
def setObject (m : AuditModule) (i : Nat) (s : Sink) : AuditModule :=
  { m with sinks := m.sinks.set i s }

/-- The state with more at the end of a file. -/
def append (m : AuditModule) (file : Nat) (text : Text) : AuditModule :=
  { m with files := Function.update m.files file (m.files file ++ text) }

/-- `write`, and `call`, which is the same. -/
def write (codec : JsonCodec) (c : Circumstances) (m : AuditModule) (i : Nat) (s : Sink)
    (record : Fields) : Except Raised Unit × AuditModule :=
  match s with
  | .base name => (.error ⟨"NotImplementedError", name ++ " must implement #write", false⟩, m)
  | .memory records => (.ok (), m.setObject i (.memory (records ++ [record])))
  | .stderr => (.ok (), { m with stderr := m.stderr ++ recordLine codec record })
  | .file _ file true =>
    match c.disk with
    | some (n, e) => (.error e, m.append file ((recordLine codec record).take n))
    | none => (.ok (), m.append file (recordLine codec record))
  | .file _ _ false => (.error ⟨"IOError", "closed stream", true⟩, m)
  | .otlp sink =>
    let written := sink.write c.world (.obj record)
    (written.1.result.map (fun _ => ()),
      { m.setObject i (.otlp written.2) with stderr := m.stderr ++ complaint written.1.warning })
  | .custom received =>
    let m := m.setObject i (.custom (received ++ [record]))
    match c.custom with
    | some e => (.error e, m)
    | none => (.ok (), m)

/-- The sink that is set, with its position. -/
def current (m : AuditModule) : Option (Nat × Sink) := do
  let i ← m.sink
  let s ← m.sinks[i]?
  return (i, s)

/-- `fire_event`. -/
def fireEvent (setting : Setting) (c : Circumstances) (m : AuditModule) (e : Event) :
    Except Raised Unit × AuditModule :=
  match m.current with
  | none => (.ok (), m)
  | some (i, s) =>
    match m.write setting.codec c i s (eventHash setting.sha256Hex c.now e) with
    | (.ok (), m) => (.ok (), m)
    | (.error raised, m) =>
      (.ok (), { m with stderr := m.stderr ++ complaint (some
        ("confium: audit sink raised (audit event dropped): " ++ setting.debug raised)) })

/-- `record`. -/
def record (setting : Setting) (c : Circumstances) (m : AuditModule) (e : Entry) :
    Except Raised Unit × AuditModule :=
  match m.current with
  | none => (.ok (), m)
  | some (i, s) =>
    match m.write setting.codec c i s (entryHash c.now e) with
    | (.ok (), m) => (.ok (), m)
    | (.error raised, m) => (.error ⟨"RuntimeError", setting.display raised, true⟩, m)

end AuditModule

/-- A class of sinks and what its constructor is given. -/
inductive SinkClass where
  | base (className : String)
  | memory
  | stderr
  /-- A path, and the file it leads to. -/
  | file (path : String) (file : Nat)
  | otlp (sink : OtlpSink)
  | custom

/-- A new object. -/
def SinkClass.new : SinkClass → Sink
  | .base name => .base name
  | .memory => .memory []
  | .stderr => .stderr
  | .file path f => .file path f true
  | .otlp sink => .otlp sink
  | .custom => .custom []

/-- `close`: a file that is open is closed, and nothing else has anything to
    do. -/
def Sink.close : Sink → Sink
  | .file path f _ => .file path f false
  | s => s

/-- What a program does with the module, sinks by their position. -/
inductive AuditOp where
  /-- A new sink. Opening the file may raise. -/
  | newSink (cls : SinkClass) (failure : Option Raised)
  /-- `sink=`. -/
  | setSink (target : Option Nat)
  | enabled
  | fireEvent (c : Circumstances) (e : Event)
  | record (c : Circumstances) (e : Entry)
  | close (i : Nat)
  /-- `MemorySink#clear`. -/
  | clear (i : Nat)
  /-- `MemorySink#records`, also `each`. -/
  | records (i : Nat)

/-- What an operation returns. -/
inductive AuditReply where
  | done
  | sink (i : Nat)
  | bool (b : Bool)
  | records (rs : List Fields)

abbrev AuditAnswer := Except Raised AuditReply

/-- What a variable that is not there raises. -/
def noVariable : Raised := ⟨"NameError", "undefined local variable", true⟩

/-- What a method a sink does not have raises. -/
def noMethod (name : String) : Raised := ⟨"NoMethodError", "undefined method " ++ name, true⟩

namespace AuditModule

/-- An operation on the sink of a variable. -/
def onSink (m : AuditModule) (i : Nat) (f : Sink → AuditAnswer × AuditModule) :
    AuditAnswer × AuditModule :=
  match m.sinks[i]? with
  | some s => f s
  | none => (.error noVariable, m)

/-- `MemorySink#clear`. -/
def clear (m : AuditModule) (i : Nat) : Sink → AuditAnswer × AuditModule
  | .memory _ => (.ok (.records []), m.setObject i (.memory []))
  | _ => (.error (noMethod "clear"), m)

/-- `MemorySink#records`. -/
def recordsOf (m : AuditModule) : Sink → AuditAnswer × AuditModule
  | .memory rs => (.ok (.records rs), m)
  | _ => (.error (noMethod "records"), m)

/-- `sink=`, which takes any object there is, or `nil`. -/
def setSink (m : AuditModule) (target : Option Nat) : AuditAnswer × AuditModule :=
  match target with
  | none => (.ok .done, { m with sink := none })
  | some i => m.onSink i (fun _ => (.ok .done, { m with sink := some i }))

/-- A new sink. -/
def newSink (m : AuditModule) (cls : SinkClass) (failure : Option Raised) :
    AuditAnswer × AuditModule :=
  match cls, failure with
  | .file _ _, some e => (.error e, m)
  | cls, _ => (.ok (.sink m.sinks.length), { m with sinks := m.sinks ++ [cls.new] })

/-- One operation of a program. -/
def step (setting : Setting) : Machine.Step AuditModule AuditOp AuditAnswer
  | m, .newSink cls failure => m.newSink cls failure
  | m, .setSink target => m.setSink target
  | m, .enabled => (.ok (.bool m.sink.isSome), m)
  | m, .fireEvent c e =>
    let fired := m.fireEvent setting c e
    (fired.1.map (fun _ => .done), fired.2)
  | m, .record c e =>
    let recorded := m.record setting c e
    (recorded.1.map (fun _ => .done), recorded.2)
  | m, .close i => m.onSink i (fun s => (.ok .done, m.setObject i s.close))
  | m, .clear i => m.onSink i (m.clear i)
  | m, .records i => m.onSink i m.recordsOf

end AuditModule

/-- A Hash of Strings under distinct keys is a document a codec reads back. -/
theorem plain_of_strings (fields : Fields) (hkeys : (fields.map Prod.fst).Nodup)
    (hvalues : ∀ field ∈ fields, ∃ s, field.2 = .str s) :
    Json.plain JsonCodec.maxNesting (.obj fields) = true := by
  refine Json.plain_obj 99 fields hkeys ?_
  intro field hfield
  rcases hvalues field hfield with ⟨s, hs⟩
  rw [hs]
  rfl

theorem optionalField_str (key : String) (value : Option String) :
    ∀ field ∈ optionalField key value, ∃ s, field.2 = .str s := by
  intro field hfield
  cases value with
  | none => exact absurd hfield List.not_mem_nil
  | some v => exact ⟨v, by rw [List.mem_singleton.mp hfield]⟩

theorem optionalField_keys (key : String) (value : Option String) :
    ((optionalField key value).map Prod.fst).Sublist [key] := by
  cases value with
  | none => exact List.nil_sublist _
  | some v => exact List.Sublist.refl _

theorem plain_eventHash (sha256Hex : Bytes → String) (now : String) (e : Event) :
    Json.plain JsonCodec.maxNesting (.obj (eventHash sha256Hex now e)) = true := by
  apply plain_of_strings
  · have hsub : ((eventHash sha256Hex now e).map Prod.fst).Sublist
        ((["timestamp", "operation", "result", "payload_hash"] ++ ["algorithm"]) ++ ["error"]) := by
      rw [eventHash, List.map_append, List.map_append]
      exact ((List.Sublist.refl _).append (optionalField_keys _ _)).append (optionalField_keys _ _)
    exact hsub.nodup (by decide)
  · intro field hfield
    rcases List.mem_append.mp hfield with hfield | hfield
    · rcases List.mem_append.mp hfield with hfield | hfield
      · simp only [List.mem_cons, List.not_mem_nil, or_false] at hfield
        rcases hfield with rfl | rfl | rfl | rfl <;> exact ⟨_, rfl⟩
      · exact optionalField_str _ _ field hfield
    · exact optionalField_str _ _ field hfield

theorem plain_entryHash (now : String) (e : Entry) :
    Json.plain JsonCodec.maxNesting (.obj (entryHash now e)) = true := by
  apply plain_of_strings
  · have hsub : ((entryHash now e).map Prod.fst).Sublist
        (((["timestamp", "operation"] ++ ["actor"]) ++ ["algorithm"])
          ++ ["payload_hash", "result"] ++ ["error"]) := by
      rw [entryHash, List.map_append, List.map_append, List.map_append, List.map_append]
      exact ((((List.Sublist.refl _).append (optionalField_keys _ _)).append
        (optionalField_keys _ _)).append (List.Sublist.refl _)).append (optionalField_keys _ _)
    exact hsub.nodup (by decide)
  · intro field hfield
    simp only [entryHash, List.mem_append, List.mem_cons, List.not_mem_nil, or_false] at hfield
    rcases hfield with (((hfield | hfield) | hfield) | hfield) | hfield
    · rcases hfield with rfl | rfl <;> exact ⟨_, rfl⟩
    · exact optionalField_str _ _ field hfield
    · exact optionalField_str _ _ field hfield
    · rcases hfield with rfl | rfl <;> exact ⟨_, rfl⟩
    · exact optionalField_str _ _ field hfield

end Audit

end Confium
