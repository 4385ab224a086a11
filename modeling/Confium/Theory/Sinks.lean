import Confium.Core.Sinks
import Confium.Theory.LogRecords

/-!
# What the Sinks Keep

A program may make sinks, switch between them, close them and clear them at any
time, and a sink may fail at any time. What each of them keeps is nevertheless
known from what was handed over while it was set.

A file is a journal. As long as no write to it stops half way, it grows by one line
for each record a sink on it took and by nothing else, so what was in it before is
still there, and reading it line by line gives back what it held at the start and
then the records, in order. It does not matter how often the sink was opened and
under which path, and an earlier run of the program may have written the beginning.
A write that does stop half way is not repaired: the line of the next record is
glued to what it left.

A sink in memory keeps every record handed over while it was set. Setting
another one in between, events that fail elsewhere and files that are opened and
closed leave it alone, and only `clear` empties it.

## Main definitions

* `AuditOp.handed`: The record an operation hands over.
* `AuditOp.tears`: Whether a write that fails leaves a part of its line.
* `AuditModule.journaled`: The record an operation adds to a file.
* `AuditModule.received`: The record an operation gives to a sink.

## Theorems

* `AuditModule.step_files`, `AuditModule.run_files`: What becomes of a file, by
  one step and by all of them.
* `journal_reads_back`: A file read back line by line.
* `memory_sink_keeps_all`: What a sink in memory holds.
-/

namespace Confium

open Ruby

namespace Audit

/-- The record an operation hands to the sink that is set, and the circumstances
    it does so in. -/
def AuditOp.handed (setting : Setting) : AuditOp → Option (Circumstances × Fields)
  | .fireEvent c e => some (c, eventHash setting.sha256Hex c.now e)
  | .record c e => some (c, entryHash c.now e)
  | _ => none

/-- Whether a sink appends to a file. -/
def Sink.appendsTo (file : Nat) (c : Circumstances) : Sink → Bool
  | .file _ f true => f == file && c.disk.isNone
  | _ => false

/-- Whether a write that fails leaves a part of its line. -/
def Circumstances.tears (c : Circumstances) : Bool := c.disk.any (fun failed => failed.1 != 0)

def AuditOp.tears : AuditOp → Bool
  | .fireEvent c _ => c.tears
  | .record c _ => c.tears
  | _ => false

theorem tears_of_handed (setting : Setting) (op : AuditOp) (c : Circumstances) (r : Fields)
    (h : op.handed setting = some (c, r)) : op.tears = c.tears := by
  cases op with
  | fireEvent c' e =>
      rw [AuditOp.handed, Option.some.injEq, Prod.mk.injEq] at h
      rw [AuditOp.tears, h.1]
  | record c' e =>
      rw [AuditOp.handed, Option.some.injEq, Prod.mk.injEq] at h
      rw [AuditOp.tears, h.1]
  | _ => exact absurd h (by simp only [AuditOp.handed, reduceCtorEq, not_false_eq_true])

namespace AuditModule

/-- The record an operation adds to a file. -/
def journaled (setting : Setting) (file : Nat) (m : AuditModule) (op : AuditOp) :
    Option Fields := do
  let (c, record) ← op.handed setting
  let (_, s) ← m.current
  if s.appendsTo file c then some record else none

theorem append_files (m : AuditModule) (file other : Nat) (text : Text) :
    (m.append other text).files file
      = m.files file ++ (if other = file then text else []) := by
  by_cases h : other = file
  · rw [if_pos h, ← h]
    exact Function.update_self _ _ _
  · rw [if_neg h, List.append_nil]
    exact Function.update_of_ne (Ne.symm h) _ _

/-- A write that does not stop half way appends one line to the file of its sink,
    or nothing. -/
theorem write_files (codec : JsonCodec) (c : Circumstances) (hwhole : c.tears = false)
    (m : AuditModule) (i : Nat) (s : Sink) (record : Fields) (file : Nat) :
    (m.write codec c i s record).2.files file
      = m.files file ++ (if s.appendsTo file c then recordLine codec record else []) := by
  cases s with
  | file path f isOpen =>
      cases isOpen with
      | false => exact (List.append_nil _).symm
      | true =>
          rcases c with ⟨now, disk, custom, world⟩
          simp only [write, Sink.appendsTo]
          cases disk with
          | some failed =>
              rcases failed with ⟨n, e⟩
              have hn : n = 0 := by
                simpa only [Circumstances.tears, Option.any_some, bne_eq_false_iff_eq] using hwhole
              simp only [hn, append_files, List.take_zero, ite_self, Option.isNone_some,
                Bool.and_false, Bool.false_eq_true, if_false]
          | none => simp only [append_files, Option.isNone_none, Bool.and_true, beq_iff_eq]
  | base name => exact (List.append_nil _).symm
  | memory records => exact (List.append_nil _).symm
  | stderr => exact (List.append_nil _).symm
  | otlp sink => exact (List.append_nil _).symm
  | custom received =>
      simp only [write]
      cases c.custom <;> exact (List.append_nil _).symm

/-- With no sink set, nothing is handed over. -/
theorem step_of_no_sink (setting : Setting) (m : AuditModule) (op : AuditOp)
    (p : Circumstances × Fields) (hop : op.handed setting = some p) (hsink : m.current = none) :
    (step setting m op).2 = m := by
  cases op with
  | fireEvent c e => simp only [step, fireEvent, hsink]
  | record c e => simp only [step, record, hsink]
  | _ => exact absurd hop (by simp only [AuditOp.handed, reduceCtorEq, not_false_eq_true])

/-- Handing a record over is a write, and whatever is said about it on stderr. -/
theorem step_of_sink (setting : Setting) (m : AuditModule) (op : AuditOp) (c : Circumstances)
    (r : Fields) (hop : op.handed setting = some (c, r)) (i : Nat) (s : Sink)
    (hsink : m.current = some (i, s)) :
    ∃ text, (step setting m op).2
      = { (m.write setting.codec c i s r).2 with stderr := text } := by
  cases op with
  | fireEvent c' e =>
      rw [AuditOp.handed, Option.some.injEq, Prod.mk.injEq] at hop
      rcases hop with ⟨rfl, rfl⟩
      simp only [step, fireEvent, hsink]
      rcases m.write setting.codec c' i s _ with ⟨result, m'⟩
      cases result <;> exact ⟨_, rfl⟩
  | record c' e =>
      rw [AuditOp.handed, Option.some.injEq, Prod.mk.injEq] at hop
      rcases hop with ⟨rfl, rfl⟩
      simp only [step, record, hsink]
      rcases m.write setting.codec c' i s _ with ⟨result, m'⟩
      cases result <;> exact ⟨_, rfl⟩
  | _ => exact absurd hop (by simp only [AuditOp.handed, reduceCtorEq, not_false_eq_true])

/-- An operation on a sink leaves the files alone when what it does with the
    sink does. -/
theorem onSink_files (m : AuditModule) (i : Nat) (f : Sink → AuditAnswer × AuditModule)
    (hf : ∀ s, (f s).2.files = m.files) : (m.onSink i f).2.files = m.files := by
  unfold onSink
  cases m.sinks[i]? with
  | none => rfl
  | some s => exact hf s

/-- Only records that are handed over reach a file. -/
theorem step_files_of_not_handed (setting : Setting) (m : AuditModule) (op : AuditOp)
    (hop : op.handed setting = none) : (step setting m op).2.files = m.files := by
  cases op with
  | newSink cls failure => cases cls <;> cases failure <;> rfl
  | setSink target =>
      cases target with
      | none => rfl
      | some i => exact onSink_files m i _ (fun _ => rfl)
  | enabled => rfl
  | fireEvent c e => exact absurd hop (Option.some_ne_none _)
  | record c e => exact absurd hop (Option.some_ne_none _)
  | close i => exact onSink_files m i _ (fun _ => rfl)
  | clear i => exact onSink_files m i _ (fun s => by cases s <;> rfl)
  | records i => exact onSink_files m i _ (fun s => by cases s <;> rfl)

/-- A file grows by the line of the record that is journaled in it. -/
theorem step_files (setting : Setting) (m : AuditModule) (op : AuditOp) (hwhole : op.tears = false)
    (file : Nat) :
    (step setting m op).2.files file
      = m.files file
        ++ (m.journaled setting file op).toList.flatMap (recordLine setting.codec) := by
  unfold journaled
  cases hop : op.handed setting with
  | none =>
      rw [step_files_of_not_handed setting m op hop]
      exact (List.append_nil _).symm
  | some p =>
      rcases p with ⟨c, r⟩
      cases hsink : m.current with
      | none =>
          rw [step_of_no_sink setting m op _ hop hsink]
          exact (List.append_nil _).symm
      | some q =>
          rcases q with ⟨i, s⟩
          rcases step_of_sink setting m op c r hop i s hsink with ⟨text, hstep⟩
          rw [hstep]
          show (m.write setting.codec c i s r).2.files file = _
          rw [write_files _ c (by rw [← tears_of_handed setting op c r hop, hwhole])]
          simp only [Option.bind_eq_bind, Option.bind_some]
          cases s.appendsTo file c with
          | false => rfl
          | true => simp only [if_true, Option.toList_some, List.flatMap_singleton]

/-- The records a run adds to a file, in order. -/
def journal (setting : Setting) (file : Nat) (m : AuditModule) (ops : List AuditOp) :
    List Fields :=
  (Machine.trace (step setting) m ops).filterMap (fun t => t.before.journaled setting file t.op)

theorem run_files (setting : Setting) (m : AuditModule) (ops : List AuditOp)
    (hwhole : ∀ op ∈ ops, op.tears = false) (file : Nat) :
    (Machine.run (step setting) m ops).files file
      = m.files file ++ (m.journal setting file ops).flatMap (recordLine setting.codec) := by
  induction ops generalizing m with
  | nil => exact (List.append_nil _).symm
  | cons op rest ih =>
      rw [List.forall_mem_cons] at hwhole
      rw [Machine.run, ih _ hwhole.2, step_files setting m op hwhole.1, List.append_assoc]
      congr 1
      unfold journal
      simp only [Machine.trace, List.filterMap_cons, Machine.Step.transition]
      cases m.journaled setting file op with
      | none => rfl
      | some r => rw [Option.toList_some, List.flatMap_singleton, List.flatMap_cons]

end AuditModule

/-- A record that is handed over is a document a codec reads back. -/
theorem plain_of_handed (setting : Setting) (op : AuditOp) (c : Circumstances) (r : Fields)
    (h : op.handed setting = some (c, r)) :
    Json.plain JsonCodec.maxNesting (.obj r) = true := by
  cases op with
  | fireEvent c' e =>
      rw [AuditOp.handed, Option.some.injEq, Prod.mk.injEq] at h
      rw [← h.2]
      exact plain_eventHash _ _ _
  | record c' e =>
      rw [AuditOp.handed, Option.some.injEq, Prod.mk.injEq] at h
      rw [← h.2]
      exact plain_entryHash _ _
  | _ => exact absurd h (by simp only [AuditOp.handed, reduceCtorEq, not_false_eq_true])

theorem plain_of_mem_journal (setting : Setting) (file : Nat) (m : AuditModule)
    (ops : List AuditOp) (r : Fields) (h : r ∈ m.journal setting file ops) :
    Json.plain JsonCodec.maxNesting (.obj r) = true := by
  rcases List.mem_filterMap.mp h with ⟨t, -, ht⟩
  unfold AuditModule.journaled at ht
  cases hop : t.op.handed setting with
  | none =>
      rw [hop] at ht
      exact absurd ht (by simp only [Option.bind_eq_bind, Option.bind_none, reduceCtorEq,
        not_false_eq_true])
  | some p =>
      rcases p with ⟨c, r'⟩
      rw [hop] at ht
      simp only [Option.bind_eq_bind, Option.bind_some] at ht
      rcases Option.bind_eq_some_iff.mp ht with ⟨q, -, hq⟩
      split at hq
      · rw [← Option.some.inj hq]
        exact plain_of_handed setting t.op c r' hop
      · exact absurd hq (by simp only [reduceCtorEq, not_false_eq_true])

/-- A generated document has no newline of its own, so its line ends in the one
    that is added. -/
theorem recordLine_eq (codec : JsonCodec) (hcodec : codec.Lawful) (r : Fields)
    (hr : Json.plain JsonCodec.maxNesting (.obj r) = true) :
    recordLine codec r = codec.generate (.obj r) ++ ['\n'] := by
  unfold recordLine puts
  rw [if_neg]
  intro hlast
  exact hcodec.newline_not_mem _ hr (List.mem_of_getLast? hlast)

/-- A file that holds the lines of some records, and to which any run of a
    program in which no write stops half way then adds its own, is read back line by
    line as the records it held and then the ones that were journaled in it, in
    order and each of them once. -/
theorem journal_reads_back (setting : Setting) (hcodec : setting.codec.Lawful) (m : AuditModule)
    (ops : List AuditOp) (hwhole : ∀ op ∈ ops, op.tears = false) (file : Nat) (kept : List Fields)
    (hkept : ∀ r ∈ kept, Json.plain JsonCodec.maxNesting (.obj r) = true)
    (hfile : m.files file = kept.flatMap (recordLine setting.codec)) :
    (eachLine ((Machine.run (AuditModule.step setting) m ops).files file)).map setting.codec.parse
      = (kept ++ m.journal setting file ops).map (fun r => .ok (.obj r)) := by
  have hplain : ∀ r ∈ kept ++ m.journal setting file ops,
      Json.plain JsonCodec.maxNesting (.obj r) = true := by
    intro r hr
    rcases List.mem_append.mp hr with hr | hr
    · exact hkept r hr
    · exact plain_of_mem_journal setting file m ops r hr
  rw [AuditModule.run_files setting m ops hwhole, hfile, ← List.flatMap_append, List.flatMap_def]
  rw [eachLine_flatten, List.map_map]
  · apply List.map_congr_left
    intro r hr
    show setting.codec.parse (recordLine setting.codec r) = _
    rw [recordLine_eq setting.codec hcodec r (hplain r hr)]
    exact hcodec.parse_line _ (hplain r hr)
  · intro line hline
    rcases List.mem_map.mp hline with ⟨r, hr, rfl⟩
    exact ⟨_, recordLine_eq setting.codec hcodec r (hplain r hr),
      hcodec.newline_not_mem _ (hplain r hr)⟩

/-- A process that has just started, with nothing on disk. -/
def fresh : AuditModule := ⟨none, [], fun _ => [], []⟩

/-- Nothing goes wrong. -/
def uneventful : Circumstances := ⟨"2026-07-30T22:00:00+00:00", none, none, OtlpSink.calmWorld⟩

/-- A codec to rely on and a digest of nothing. -/
def plainSetting : Setting := ⟨JsonCodec.compact, fun _ => "", fun _ => "", fun _ => ""⟩

/-- One signature. -/
def signed : Event := ⟨"composite_sign_p256", "success", some "ECDSA-P256", none, none⟩

/-- A disk that is full before anything of a line is written. -/
def fullDisk : Circumstances :=
  { uneventful with disk := some (0, ⟨"Errno::ENOSPC", "No space left on device", true⟩) }

/-- A program that logs to a file by two paths and signs three times, once while
    the disk is full. -/
def loggedSigning : List AuditOp :=
  [.newSink (.file "audit.log" 7) none, .setSink (some 0), .fireEvent uneventful signed,
    .fireEvent fullDisk signed, .close 0, .newSink (.file "./audit.log" 7) none,
    .setSink (some 1), .fireEvent uneventful signed]

theorem journal_reads_back_two_events :
    (fresh.journal plainSetting 7 loggedSigning).length = 2 ∧
      (eachLine ((Machine.run (AuditModule.step plainSetting) fresh loggedSigning).files
          7)).map plainSetting.codec.parse
        = ([] ++ fresh.journal plainSetting 7 loggedSigning).map (fun r => .ok (.obj r)) :=
  ⟨rfl, journal_reads_back plainSetting JsonCodec.compact_lawful fresh _ (by decide) 7 []
    (fun _ h => absurd h List.not_mem_nil) rfl⟩

namespace AuditModule

/-- The record an operation gives to a sink: what it hands over, when that sink
    is set. -/
def received (setting : Setting) (i : Nat) (m : AuditModule) (op : AuditOp) : Option Fields :=
  if m.sink = some i then (op.handed setting).map Prod.snd else none

theorem current_of_sink {m : AuditModule} {i : Nat} {s : Sink} (hset : m.sink = some i)
    (hs : m.sinks[i]? = some s) : m.current = some (i, s) := by
  simp only [current, hset, hs, Option.bind_eq_bind, Option.bind_some, Option.pure_def]

theorem sink_of_current {m : AuditModule} {i : Nat} {s : Sink} (h : m.current = some (i, s)) :
    m.sink = some i := by
  simp only [current, Option.bind_eq_bind] at h
  rcases Option.bind_eq_some_iff.mp h with ⟨j, hj, h⟩
  rcases Option.bind_eq_some_iff.mp h with ⟨s', -, h⟩
  rw [Option.pure_def, Option.some.injEq, Prod.mk.injEq] at h
  rw [hj, h.1]

/-- A write changes no other sink. -/
theorem write_sinks_of_ne (codec : JsonCodec) (c : Circumstances) (m : AuditModule) (i j : Nat)
    (s : Sink) (record : Fields) (hij : i ≠ j) :
    (m.write codec c i s record).2.sinks[j]? = m.sinks[j]? := by
  cases s with
  | memory records => exact List.getElem?_set_ne hij
  | otlp sink => exact List.getElem?_set_ne hij
  | custom received =>
      simp only [write]
      cases c.custom <;> exact List.getElem?_set_ne hij
  | file path f isOpen =>
      cases isOpen with
      | false => rfl
      | true =>
          simp only [write]
          cases c.disk <;> rfl
  | base name => rfl
  | stderr => rfl

/-- A sink in memory takes what it is handed. -/
theorem write_memory (codec : JsonCodec) (c : Circumstances) (m : AuditModule) (i : Nat)
    (rs : List Fields) (record : Fields) (hi : m.sinks[i]? = some (.memory rs)) :
    (m.write codec c i (.memory rs) record).2.sinks[i]? = some (.memory (rs ++ [record])) := by
  rcases List.getElem?_eq_some_iff.mp hi with ⟨hlt, -⟩
  exact List.getElem?_set_self hlt

/-- An operation on one sink, seen from another or from the same. -/
theorem onSink_sinks (m : AuditModule) (i j : Nat) (f : Sink → AuditAnswer × AuditModule)
    (hf : ∀ s, m.sinks[j]? = some s → (f s).2.sinks[i]? = m.sinks[i]?) :
    (m.onSink j f).2.sinks[i]? = m.sinks[i]? := by
  unfold onSink
  cases hs : m.sinks[j]? with
  | none => rfl
  | some s => exact hf s hs

/-- A change to a sink's object, seen from another sink. -/
theorem setObject_sinks_of_ne (m : AuditModule) (i j : Nat) (s : Sink) (hij : j ≠ i) :
    (m.setObject j s).sinks[i]? = m.sinks[i]? := List.getElem?_set_ne hij

/-- An operation that hands nothing over leaves a sink in memory as it is, unless
    it clears it. -/
theorem step_memory_of_not_handed (setting : Setting) (m : AuditModule) (i : Nat)
    (rs : List Fields) (op : AuditOp) (hi : m.sinks[i]? = some (.memory rs))
    (hclear : op ≠ .clear i) (hop : op.handed setting = none) :
    (step setting m op).2.sinks[i]? = some (.memory rs) := by
  rw [← hi]
  cases op with
  | newSink cls failure =>
      rcases List.getElem?_eq_some_iff.mp hi with ⟨hlt, -⟩
      cases cls <;> cases failure <;> first | rfl | exact List.getElem?_append_left hlt
  | setSink target =>
      cases target with
      | none => rfl
      | some j => exact onSink_sinks m i j _ (fun _ _ => rfl)
  | enabled => rfl
  | fireEvent c e => exact absurd hop (Option.some_ne_none _)
  | record c e => exact absurd hop (Option.some_ne_none _)
  | close j =>
      refine onSink_sinks m i j _ (fun s hs => ?_)
      by_cases hij : j = i
      · -- Closing a sink in memory does nothing.
        subst hij
        rw [hi] at hs
        rw [← Option.some.inj hs]
        rcases List.getElem?_eq_some_iff.mp hi with ⟨hlt, -⟩
        exact (List.getElem?_set_self hlt).trans hi.symm
      · exact setObject_sinks_of_ne m i j _ hij
  | clear j =>
      have hij : j ≠ i := fun h => hclear (by rw [h])
      refine onSink_sinks m i j _ (fun s _ => ?_)
      cases s <;> first | rfl | exact setObject_sinks_of_ne m i j _ hij
  | records j => exact onSink_sinks m i j _ (fun s _ => by cases s <;> rfl)

/-- One step of a sink in memory. -/
theorem step_memory (setting : Setting) (m : AuditModule) (i : Nat) (rs : List Fields)
    (op : AuditOp) (hi : m.sinks[i]? = some (.memory rs)) (hclear : op ≠ .clear i) :
    (step setting m op).2.sinks[i]?
      = some (.memory (rs ++ (m.received setting i op).toList)) := by
  unfold received
  cases hop : op.handed setting with
  | none =>
      rw [step_memory_of_not_handed setting m i rs op hi hclear hop, Option.map_none, ite_self,
        Option.toList_none, List.append_nil]
  | some p =>
      rcases p with ⟨c, r⟩
      by_cases hset : m.sink = some i
      · rcases step_of_sink setting m op c r hop i _ (current_of_sink hset hi) with ⟨text, hstep⟩
        rw [hstep, if_pos hset]
        exact write_memory setting.codec c m i rs r hi
      · rw [if_neg hset, Option.toList_none, List.append_nil, ← hi]
        cases hsink : m.current with
        | none => rw [step_of_no_sink setting m op _ hop hsink]
        | some q =>
            rcases q with ⟨j, s⟩
            have hij : j ≠ i := by
              intro hji
              exact hset (hji ▸ sink_of_current hsink)
            rcases step_of_sink setting m op c r hop j s hsink with ⟨text, hstep⟩
            rw [hstep]
            exact write_sinks_of_ne setting.codec c m j i s r hij

end AuditModule

/-- Whatever else a program does, and however often it switches sinks, a sink in
    memory that is not cleared holds what it held and then every record that was
    handed over while it was set, in order. -/
theorem memory_sink_keeps_all (setting : Setting) (m : AuditModule) (i : Nat) (rs : List Fields)
    (ops : List AuditOp) (hi : m.sinks[i]? = some (.memory rs))
    (hclear : ∀ op ∈ ops, op ≠ .clear i) :
    (Machine.run (AuditModule.step setting) m ops).sinks[i]?
      = some (.memory (rs ++ (Machine.trace (AuditModule.step setting) m ops).filterMap
          (fun t => t.before.received setting i t.op))) := by
  induction ops generalizing m rs with
  | nil => rw [Machine.run, Machine.trace, List.filterMap_nil, List.append_nil, hi]
  | cons op rest ih =>
      rw [List.forall_mem_cons] at hclear
      have hstep := AuditModule.step_memory setting m i rs op hi hclear.1
      rw [Machine.run, ih _ _ hstep hclear.2]
      simp only [Machine.trace, List.filterMap_cons, Machine.Step.transition]
      cases m.received setting i op with
      | none => rw [Option.toList_none, List.append_nil]
      | some r => rw [Option.toList_some, List.append_assoc, List.singleton_append]

/-- A process whose sink is an empty one in memory. -/
def remembering : AuditModule := { fresh with sink := some 0, sinks := [.memory []] }

theorem memory_sink_keeps_all_of_one_event :
    (Machine.run (AuditModule.step plainSetting) remembering
        [.fireEvent uneventful signed]).sinks[0]?
      = some (.memory ([] ++ (Machine.trace (AuditModule.step plainSetting) remembering
          [.fireEvent uneventful signed]).filterMap
            (fun t => t.before.received plainSetting 0 t.op))) :=
  memory_sink_keeps_all plainSetting remembering 0 [] _ rfl (by
    intro op hop
    rw [List.mem_singleton.mp hop]
    simp only [ne_eq, reduceCtorEq, not_false_eq_true])

end Audit

end Confium
