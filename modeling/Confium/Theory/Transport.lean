import Confium.Lib.Hash
import Confium.Core.Composite

/-!
# Transporting Composite Signatures

Writing a signature as JSON and reading it back gives the same signature exactly
when every component is fit to travel, and `Transportable` says what that takes.

The two directions disagree about what is binary. Writing goes by the encoding
tag and reading goes by the name of the member, so a key that is not tagged
ASCII-8BIT is written as its text and then unpacked as if that text were
hexadecimal. It survives only if it happens to spell its own bytes, which among
UTF-8 strings only the empty one and a lone zero byte do. The other way round, an
algorithm name that is tagged ASCII-8BIT is written in hexadecimal and stays that
way. And a member that is not a string at all cannot be asked for its encoding,
so an array of bytes, which building accepts, stops the writing.

Nothing crosses between components, so a signature travels when each of its
components does, and the whole of the proof is about one of them.

## Main definitions

* `sentText`: What a string is on the wire.
* `SpellsItself`: A string whose text is hexadecimal for its own bytes.
* `Transportable`: A component fit to travel.
* `RoundTrips`: A signature that is read back from what it is written as.

## Theorems

* `packHex_sentText_iff`: Which binary members survive.
* `sentText_eq_name_iff`: Which algorithm names survive.
* `transport_eq_iff`: Which components survive.
* `round_trips_iff`: Which signatures do.
-/

namespace Confium

open Ruby

namespace Composite

namespace Signature

/-- What a string is on the wire: hexadecimal if it is binary, else its
    text. -/
def sentText (transcoder : Transcoder) (s : RString) : Option String :=
  if s.encoding = .ascii8bit then some (unpackHex s.bytes) else s.encode transcoder

/-- A string that is read back as it is: a binary one, or one whose text is
    hexadecimal for its own bytes. -/
def SpellsItself (transcoder : Transcoder) (s : RString) : Prop :=
  match s.encoding with
  | .ascii8bit => True
  | .utf8 => s.bytes = [] ∨ s.bytes = [0]
  | .usAscii => s.bytes = [] ∨ s.bytes = [0]
  | .other name => ∃ t, transcoder name s.bytes = some t ∧ packHex t = s.bytes

/-- A component fit to travel: every member is a string with a text if it is not
    binary, the name is not binary unless it is empty, and both binary members
    spell themselves. -/
structure Transportable (transcoder : Transcoder) (h : Members) : Prop where
  values : ∀ entry ∈ h, ∃ s, entry.2 = .str s ∧
    (s.encoding ≠ .ascii8bit → (s.encode transcoder).isSome = true)
  algorithm : ∀ s, h.lookup "algorithm" = some (.str s) → s.encoding = .ascii8bit → s.bytes = []
  binary : ∀ key ∈ binaryFields, ∀ s, h.lookup key = some (.str s) → SpellsItself transcoder s

/-- Writing the signature succeeds, and reading what was written gives the same
    algorithms, keys and signatures. -/
def RoundTrips (codec : JsonCodec) (transcoder : Transcoder) (sig : Signature) : Prop :=
  ∃ text sig', toJson codec transcoder sig = .ok text ∧
    fromJson codec transcoder text = .ok sig' ∧ sig'.inner = sig.inner

/-- Asking for the encoding and then for the text, in one go. -/
theorem wire_text_eq_ok_iff (transcoder : Transcoder) (v : FieldValue) (j : Json) :
    (wireValue v >>= textOf transcoder) = .ok j ↔
      ∃ s t, v = .str s ∧ sentText transcoder s = some t ∧ j = .str t := by
  cases v with
  | arr items =>
      simp only [wireValue, bind, Except.bind, reduceCtorEq, false_and, exists_false]
  | other => simp only [wireValue, bind, Except.bind, reduceCtorEq, false_and, exists_false]
  | str s =>
      simp only [wireValue, bind, Except.bind, FieldValue.str.injEq, exists_and_left,
        exists_eq_left']
      by_cases hb : s.encoding = .ascii8bit
      · -- Hexadecimal is US-ASCII, so it has a text, and the text is what was written.
        have htext := (decodeUtf8_eq_some_iff (utf8 (unpackHex s.bytes)) _).mpr rfl
        simp only [if_pos hb, textOf, RString.encode, isAscii_utf8_unpackHex, if_true, htext,
          sentText, Option.some.injEq, Except.ok.injEq, exists_eq_left']
        exact eq_comm
      · simp only [if_neg hb, textOf, sentText]
        cases s.encode transcoder with
        | none => simp only [reduceCtorEq, false_and, exists_false]
        | some t =>
            simp only [Except.ok.injEq, Option.some.injEq, exists_eq_left']
            exact eq_comm

/-- A component is sent member by member. -/
theorem sendComponent_eq_ok_iff (transcoder : Transcoder) (h : Members) (fields : Fields) :
    sendComponent transcoder h = .ok fields ↔
      List.Forall₂ (fun entry field => ∃ s t, entry.2 = .str s ∧
        sentText transcoder s = some t ∧ field = (entry.1, .str t)) h fields := by
  rw [sendComponent, bind_eq_ok_iff]
  simp only [transformValues]
  rw [mapM_mapM_eq_ok_iff, mapM_eq_ok_iff]
  -- One member: asked for its encoding, then written as its text.
  have hpoint : ∀ (entry : String × FieldValue) (field : String × Json),
      ((do let v ← wireValue entry.2; return (entry.1, v)) >>= fun e : String × RString =>
        (do let v ← textOf transcoder e.2; return (e.1, v)) : Except CompositeExn _) = .ok field ↔
      ∃ s t, entry.2 = .str s ∧ sentText transcoder s = some t ∧ field = (entry.1, .str t) := by
    intro entry field
    have hwire := wire_text_eq_ok_iff transcoder entry.2
    simp only [bind_eq_ok_iff] at hwire
    simp only [bind_eq_ok_iff, pure, Except.pure, Except.ok.injEq]
    constructor
    · rintro ⟨e, ⟨v, hv, rfl⟩, j, hj, rfl⟩
      rcases (hwire j).mp ⟨v, hv, hj⟩ with ⟨s, t, hs, ht, rfl⟩
      exact ⟨s, t, hs, ht, rfl⟩
    · rintro ⟨s, t, hs, ht, rfl⟩
      rcases (hwire (.str t)).mpr ⟨s, t, hs, ht, rfl⟩ with ⟨v, hv, hj⟩
      exact ⟨(entry.1, v), ⟨v, hv, rfl⟩, .str t, hj, rfl⟩
  constructor
  · exact List.Forall₂.imp (fun entry field => (hpoint entry field).mp)
  · exact List.Forall₂.imp (fun entry field => (hpoint entry field).mpr)

/-- A member that was sent is found where it was. -/
theorem lookup_sent (transcoder : Transcoder) (h : Members) (fields : Fields) (key : String)
    (v : FieldValue)
    (hsent : List.Forall₂ (fun entry field => ∃ s t, entry.2 = .str s ∧
      sentText transcoder s = some t ∧ field = (entry.1, .str t)) h fields)
    (hv : h.lookup key = some v) :
    ∃ s t, v = .str s ∧ sentText transcoder s = some t ∧ fields.lookup key = some (.str t) := by
  induction hsent with
  | nil => exact absurd hv (by simp only [List.lookup_nil, reduceCtorEq, not_false_eq_true])
  | @cons entry field h fields hentry _ ih =>
      rcases hentry with ⟨s, t, hs, ht, rfl⟩
      rw [List.lookup_cons] at hv ⊢
      cases hk : (key == entry.1) with
      | true =>
          simp only [hk, Option.some.injEq] at hv
          exact ⟨s, t, by rw [← hv, hs], ht, rfl⟩
      | false =>
          simp only [hk] at hv
          exact ih hv

/-- Which binary members survive. The text of a UTF-8 or US-ASCII string has the
    string's own bytes, and `pack('H*')` gives those back for next to none. -/
theorem packHex_sentText_iff (transcoder : Transcoder) (s : RString) (t : String)
    (ht : sentText transcoder s = some t) :
    packHex t = s.bytes ↔ SpellsItself transcoder s := by
  unfold sentText at ht
  unfold SpellsItself
  -- A text with the bytes of the string is unpacked to half as many.
  have hself : utf8 t = s.bytes → (packHex t = s.bytes ↔ s.bytes = [] ∨ s.bytes = [0]) := by
    intro hbytes
    rw [packHex, hbytes]
    exact packBytes_eq_self_iff s.bytes
  cases he : s.encoding with
  | ascii8bit =>
      rw [if_pos he, Option.some.injEq] at ht
      simp only [iff_true]
      rw [← ht, packHex_unpackHex]
  | utf8 =>
      simp only [he, reduceCtorEq, if_false, RString.encode] at ht
      exact hself ((decodeUtf8_eq_some_iff _ _).mp ht)
  | usAscii =>
      simp only [he, reduceCtorEq, if_false, RString.encode] at ht
      split at ht
      · exact hself ((decodeUtf8_eq_some_iff _ _).mp ht)
      · exact absurd ht (by simp only [reduceCtorEq, not_false_eq_true])
  | other name =>
      simp only [he, reduceCtorEq, if_false, RString.encode] at ht
      simp only [ht, Option.some.injEq, exists_eq_left']

/-- Hexadecimal text is never its own bytes, unless there are none. -/
theorem utf8_unpackHex_eq_self_iff (bytes : Bytes) :
    utf8 (unpackHex bytes) = bytes ↔ bytes = [] := by
  constructor
  · intro h
    have hpack : packBytes bytes = bytes := by
      have := packHex_unpackHex bytes
      rwa [packHex, h] at this
    rcases (packBytes_eq_self_iff bytes).mp hpack with hb | hb
    · exact hb
    · -- A zero byte is written as two digits.
      rw [hb] at h
      exact absurd h (by decide)
  · rintro rfl
    rfl

/-- Which algorithm names survive. -/
theorem sentText_eq_name_iff (transcoder : Transcoder) (s : RString) (t name : String)
    (ht : sentText transcoder s = some t) (hname : toRustString transcoder s = some name) :
    t = name ↔ (s.encoding = .ascii8bit → s.bytes = []) := by
  unfold sentText at ht
  unfold toRustString at hname
  by_cases hb : s.encoding = .ascii8bit
  · rw [if_pos hb, Option.some.injEq] at ht
    -- A binary name arrives as its hexadecimal, which is the name only if empty.
    simp only [hb, decodeUtf8_eq_some_iff] at hname
    rw [← ht, ← utf8_injective.eq_iff, hname, utf8_unpackHex_eq_self_iff]
    simp only [hb, forall_const]
  · rw [if_neg hb] at ht
    simp only [hb, false_imp_iff, iff_true]
    unfold RString.encode at ht
    cases he : s.encoding with
    | ascii8bit => exact absurd he hb
    | utf8 =>
        simp only [he] at ht hname
        rw [ht, Option.some.injEq] at hname
        exact hname
    | usAscii =>
        simp only [he] at ht hname
        split at ht
        · rw [ht, Option.some.injEq] at hname
          exact hname
        · exact absurd ht (by simp only [reduceCtorEq, not_false_eq_true])
    | other encoding =>
        simp only [he] at ht hname
        simp only [ht, Option.some.injEq] at hname
        exact hname

theorem stringFromValue_str_eq_ok_iff (transcoder : Transcoder) (s : RString) (name : String) :
    stringFromValue transcoder (.str s) = .ok name ↔ toRustString transcoder s = some name := by
  rw [stringFromValue]
  cases toRustString transcoder s with
  | none => simp only [reduceCtorEq]
  | some t => simp only [Except.ok.injEq, Option.some.injEq]

theorem bytesFromValue_str_eq_ok_iff (s : RString) (bytes : Bytes) :
    bytesFromValue (.str s) = .ok bytes ↔ s.bytes.length ≤ maxInputSize ∧ bytes = s.bytes := by
  rw [bytesFromValue, enforceSize]
  by_cases hlen : maxInputSize < s.bytes.length
  · rw [if_pos hlen]
    simp only [bind, Except.bind, reduceCtorEq, false_iff, not_and]
    omega
  · rw [if_neg hlen]
    simp only [bind, Except.bind, pure, Except.pure, Except.ok.injEq]
    constructor
    · intro h
      exact ⟨by omega, h.symm⟩
    · rintro ⟨_, h⟩
      exact h.symm

/-- A decoded member, looked up by its name. -/
theorem lookup_decoded (fields : Fields) (key : String) :
    (fields.map (fun entry => (entry.1, decodeMember entry.1 entry.2))).lookup key
      = (fields.lookup key).map (decodeMember key) := by
  induction fields with
  | nil => rfl
  | cons entry fields ih =>
      rw [List.map_cons, List.lookup_cons, List.lookup_cons, ih]
      cases hk : (key == entry.1) with
      | true =>
          rw [beq_iff_eq] at hk
          rw [hk, Option.map_some]
      | false => rfl

/-- Reading a component whose three members are strings. -/
theorem receiveComponent_eq_ok_iff (transcoder : Transcoder) (fields : Fields)
    (algorithm publicKey signature : String) (c : ComponentSignature)
    (ha : fields.lookup "algorithm" = some (.str algorithm))
    (hp : fields.lookup "public_key" = some (.str publicKey))
    (hs : fields.lookup "signature" = some (.str signature)) :
    receiveComponent transcoder (.obj fields) = .ok c ↔
      c.algorithm = algorithm ∧
      ((packHex publicKey).length ≤ maxInputSize ∧ c.publicKey = packHex publicKey) ∧
      ((packHex signature).length ≤ maxInputSize ∧ c.signature = packHex signature) := by
  have hdecode : decodeBinaryFields (.obj fields)
      = .ok (fields.map (fun entry => (entry.1, decodeMember entry.1 entry.2))) := by
    simp only [decodeBinaryFields, fetchJson, Json.field?, hp, hs, entriesOf, bind, Except.bind,
      pure, Except.pure]
  have hname : toRustString transcoder (RString.ofString algorithm) = some algorithm :=
    (decodeUtf8_eq_some_iff _ _).mpr rfl
  -- Reading goes by the name of the member: two are unpacked, the third is text.
  have hbinary : ∀ key ∈ binaryFields, ∀ t : String,
      decodeMember key (.str t) = .str (RString.binary (packHex t)) := by
    intro key hkey t
    simp only [decodeMember, if_pos hkey]
  have hplain : decodeMember "algorithm" (.str algorithm)
      = .str (RString.ofString algorithm) := by
    simp only [decodeMember, if_neg (by decide : "algorithm" ∉ binaryFields)]
  rw [receiveComponent, hdecode]
  simp only [bind, Except.bind]
  rw [parseComponent_eq_ok_iff]
  simp only [lookup_decoded, ha, hp, hs, Option.map_some, hplain,
    hbinary "public_key" (by decide), hbinary "signature" (by decide), Option.some.injEq,
    exists_and_left, exists_eq_left', stringFromValue_str_eq_ok_iff, hname,
    bytesFromValue_str_eq_ok_iff, RString.binary]
  rw [eq_comm]

/-- A component, written and read back. -/
def transport (transcoder : Transcoder) (h : Members) : Except CompositeExn ComponentSignature := do
  let fields ← sendComponent transcoder h
  receiveComponent transcoder (.obj fields)

theorem exists_forall₂_iff {α β : Type} (R : α → β → Prop) (l : List α) :
    (∃ m, List.Forall₂ R l m) ↔ ∀ a ∈ l, ∃ b, R a b := by
  induction l with
  | nil => simp only [List.forall₂_nil_left_iff, exists_eq, List.not_mem_nil, false_imp_iff,
      implies_true]
  | cons a l ih =>
      rw [List.forall_mem_cons, ← ih]
      constructor
      · rintro ⟨m, hm⟩
        rcases List.forall₂_cons_left_iff.mp hm with ⟨b, m', hb, hm', rfl⟩
        exact ⟨⟨b, hb⟩, m', hm'⟩
      · rintro ⟨⟨b, hb⟩, m', hm'⟩
        exact ⟨b :: m', List.Forall₂.cons hb hm'⟩

/-- A component can be sent when every member is a string with something to
    send. -/
theorem exists_sent_iff (transcoder : Transcoder) (h : Members) :
    (∃ fields, sendComponent transcoder h = .ok fields) ↔
      ∀ entry ∈ h, ∃ s, entry.2 = .str s ∧
        (s.encoding ≠ .ascii8bit → (s.encode transcoder).isSome = true) := by
  simp only [sendComponent_eq_ok_iff]
  rw [exists_forall₂_iff]
  refine forall₂_congr (fun entry _ => ?_)
  constructor
  · rintro ⟨_, s, t, hs, ht, _⟩
    refine ⟨s, hs, fun hb => ?_⟩
    rw [sentText, if_neg hb] at ht
    rw [ht, Option.isSome_some]
  · rintro ⟨s, hs, htext⟩
    by_cases hb : s.encoding = .ascii8bit
    · exact ⟨_, s, unpackHex s.bytes, hs, by rw [sentText, if_pos hb], rfl⟩
    · rcases Option.isSome_iff_exists.mp (htext hb) with ⟨t, ht⟩
      exact ⟨_, s, t, hs, by rw [sentText, if_neg hb, ht], rfl⟩

/-- Which components survive: given one that building accepts, what is read back
    is the same component exactly when it was fit to travel. -/
theorem transport_eq_iff (transcoder : Transcoder) (h : Members) (c : ComponentSignature)
    (hc : parseComponent transcoder h = .ok c) :
    transport transcoder h = .ok c ↔ Transportable transcoder h := by
  rcases (parseComponent_eq_ok_iff transcoder h c).mp hc with
    ⟨a, p, g, ha, hp, hg, hname, hpk, hsig⟩
  -- What sending `h` as `fields` says of the three members, by name.
  have hmembers : ∀ fields, sendComponent transcoder h = .ok fields →
      (receiveComponent transcoder (.obj fields) = .ok c ↔
        (∀ s, h.lookup "algorithm" = some (.str s) → s.encoding = .ascii8bit → s.bytes = []) ∧
        (∀ s, h.lookup "public_key" = some (.str s) → SpellsItself transcoder s) ∧
        (∀ s, h.lookup "signature" = some (.str s) → SpellsItself transcoder s)) := by
    intro fields hfields
    have hsent := (sendComponent_eq_ok_iff transcoder h fields).mp hfields
    rcases lookup_sent transcoder h fields _ a hsent ha with ⟨sa, ta, rfl, hta, hfa⟩
    rcases lookup_sent transcoder h fields _ p hsent hp with ⟨sp, tp, rfl, htp, hfp⟩
    rcases lookup_sent transcoder h fields _ g hsent hg with ⟨sg, tg, rfl, htg, hfg⟩
    rw [stringFromValue_str_eq_ok_iff] at hname
    rw [bytesFromValue_str_eq_ok_iff] at hpk hsig
    rw [receiveComponent_eq_ok_iff transcoder fields ta tp tg c hfa hfp hfg]
    simp only [ha, hp, hg, Option.some.injEq, FieldValue.str.injEq, forall_eq']
    rw [← sentText_eq_name_iff transcoder sa ta c.algorithm hta hname,
      ← packHex_sentText_iff transcoder sp tp htp, ← packHex_sentText_iff transcoder sg tg htg]
    constructor
    · rintro ⟨h₁, ⟨_, h₂⟩, ⟨_, h₃⟩⟩
      exact ⟨h₁.symm, h₂.symm.trans hpk.2, h₃.symm.trans hsig.2⟩
    · rintro ⟨h₁, h₂, h₃⟩
      refine ⟨h₁.symm, ⟨?_, by rw [hpk.2, h₂]⟩, ⟨?_, by rw [hsig.2, h₃]⟩⟩
      · rw [h₂]
        exact hpk.1
      · rw [h₃]
        exact hsig.1
  have hbinary : (∀ key ∈ binaryFields, ∀ s, h.lookup key = some (.str s) →
      SpellsItself transcoder s) ↔
      (∀ s, h.lookup "public_key" = some (.str s) → SpellsItself transcoder s) ∧
      (∀ s, h.lookup "signature" = some (.str s) → SpellsItself transcoder s) := by
    simp only [binaryFields, List.mem_cons, List.not_mem_nil, or_false, forall_eq_or_imp, forall_eq]
  rw [transport, bind_eq_ok_iff]
  constructor
  · rintro ⟨fields, hfields, hrecv⟩
    have hthree := (hmembers fields hfields).mp hrecv
    exact ⟨(exists_sent_iff transcoder h).mp ⟨fields, hfields⟩, hthree.1, hbinary.mpr hthree.2⟩
  · intro ht
    rcases (exists_sent_iff transcoder h).mpr ht.values with ⟨fields, hfields⟩
    exact ⟨fields, hfields, (hmembers fields hfields).mpr ⟨ht.algorithm, hbinary.mp ht.binary⟩⟩

/-- What is sent goes under the members' own names. -/
theorem keys_sent (transcoder : Transcoder) (h : Members) (fields : Fields)
    (hsent : sendComponent transcoder h = .ok fields) :
    fields.map Prod.fst = h.map Prod.fst := by
  rw [sendComponent_eq_ok_iff] at hsent
  induction hsent with
  | nil => rfl
  | cons hentry _ ih =>
      rcases hentry with ⟨_, _, _, _, rfl⟩
      rw [List.map_cons, List.map_cons, ih]

/-- What is sent is an array of flat objects, well within what the codec is
    relied on for. -/
theorem plain_sent (transcoder : Transcoder) (components : List (Hash String FieldValue))
    (objects : List Fields)
    (h : (components.map Hash.entries).mapM (sendComponent transcoder) = .ok objects) :
    Json.plain JsonCodec.maxNesting (.arr (objects.map .obj)) = true := by
  rw [mapM_eq_ok_iff, List.forall₂_map_left_iff] at h
  refine Json.plain_arr 99 _ (fun v hv => ?_)
  rcases List.mem_map.mp hv with ⟨fields, hfields, rfl⟩
  -- The component `fields` was sent for.
  have hsource : ∃ c : Hash String FieldValue, sendComponent transcoder c.entries = .ok fields := by
    rcases List.mem_iff_get.mp hfields with ⟨i, rfl⟩
    have hlen := h.length_eq
    exact ⟨_, h.get (by omega) i.isLt⟩
  rcases hsource with ⟨c, hc⟩
  have hkeys := keys_sent transcoder c.entries fields hc
  refine Json.plain_obj 98 fields (by rw [hkeys]; exact c.nodup) (fun field hfield => ?_)
  have hsent := (sendComponent_eq_ok_iff transcoder c.entries fields).mp hc
  rcases List.mem_iff_get.mp hfield with ⟨i, rfl⟩
  have hlen := hsent.length_eq
  rcases hsent.get (by omega) i.isLt with ⟨_, _, _, _, heq⟩
  rw [heq]
  rfl

/-- Reading what was written goes component by component again. -/
theorem fromJson_sent_iff (codec : JsonCodec) (hcodec : codec.Lawful) (transcoder : Transcoder)
    (components : List (Hash String FieldValue)) (hne : components ≠ []) (objects : List Fields)
    (hobjects : (components.map Hash.entries).mapM (sendComponent transcoder) = .ok objects)
    (inner : List ComponentSignature) :
    (∃ sig, fromJson codec transcoder (codec.generate (.arr (objects.map .obj))) = .ok sig ∧
        sig.inner = inner) ↔
      objects.mapM (fun fields => receiveComponent transcoder (.obj fields)) = .ok inner := by
  -- The array that was written is not empty, so it is not refused.
  have hsome : componentsOf (.arr (objects.map .obj)) = .ok (objects.map .obj) := by
    have hlen := ((mapM_eq_ok_iff _ _ _).mp hobjects).length_eq
    cases objects with
    | nil =>
        rw [List.length_map, List.length_nil] at hlen
        exact absurd (List.length_eq_zero_iff.mp hlen) hne
    | cons o objects => rfl
  have hparse := hcodec.parse_generate _ (plain_sent transcoder components objects hobjects)
  simp only [fromJson, hparse, ofDocument_eq_ok_iff, hsome, Except.ok.injEq, exists_eq_left',
    List.mapM_map]
  constructor
  · rintro ⟨sig, ⟨hsig, _, _⟩, rfl⟩
    exact hsig
  · intro h
    exact ⟨⟨inner, some ((objects.map .obj).map remembered),
      some (codec.generate (.arr (objects.map .obj)))⟩, ⟨h, rfl, rfl⟩, rfl⟩

/-- A signature travels when its components do. -/
theorem round_trips_iff_transport (codec : JsonCodec) (hcodec : codec.Lawful)
    (transcoder : Transcoder) (components : List (Hash String FieldValue))
    (hne : components ≠ []) (sig : Signature)
    (hnew : new transcoder (components.map Hash.entries) = .ok sig) :
    RoundTrips codec transcoder sig ↔
      (components.map Hash.entries).mapM (transport transcoder) = .ok sig.inner := by
  rcases (new_eq_ok_iff transcoder _ sig).mp hnew with ⟨_, hremembered, hcached⟩
  -- A signature that was built has no text cached, so its components are written.
  have hwrite : toJson codec transcoder sig
      = componentsToJson codec transcoder (components.map Hash.entries) := by
    simp only [toJson, hcached, hremembered]
  unfold transport
  rw [← mapM_mapM_eq_ok_iff]
  constructor
  · rintro ⟨text, sig', htext, hsig', heq⟩
    rw [hwrite, componentsToJson_eq_ok_iff] at htext
    rcases htext with ⟨objects, hobjects, rfl⟩
    have hread :=
      fromJson_sent_iff codec hcodec transcoder components hne objects hobjects sig.inner
    exact ⟨objects, hobjects, hread.mp ⟨sig', hsig', heq⟩⟩
  · rintro ⟨objects, hobjects, hrecv⟩
    have hread :=
      fromJson_sent_iff codec hcodec transcoder components hne objects hobjects sig.inner
    rcases hread.mpr hrecv with ⟨sig', hsig', heq⟩
    refine ⟨_, sig', ?_, hsig', heq⟩
    rw [hwrite, componentsToJson_eq_ok_iff]
    exact ⟨objects, hobjects, rfl⟩

/-- Which signatures survive: for every list of component hashes that building
    accepts, writing the signature succeeds and reading it back gives the same
    algorithms, keys and signatures exactly when every component is fit to
    travel. -/
theorem round_trips_iff (codec : JsonCodec) (hcodec : codec.Lawful) (transcoder : Transcoder)
    (components : List (Hash String FieldValue)) (hne : components ≠ []) (sig : Signature)
    (hnew : new transcoder (components.map Hash.entries) = .ok sig) :
    RoundTrips codec transcoder sig ↔
      ∀ c ∈ components, Transportable transcoder c.entries := by
  have hinner := ((new_eq_ok_iff transcoder _ sig).mp hnew).1
  rw [round_trips_iff_transport codec hcodec transcoder components hne sig hnew,
    mapM_eq_ok_congr_iff _ _ _ _ hinner, List.forall_mem_map]
  refine forall₂_congr (fun c hc => ?_)
  -- Each component is one that building accepted.
  have hall := (exists_forall₂_iff _ _).mp ⟨sig.inner, (mapM_eq_ok_iff _ _ _).mp hinner⟩
  rcases hall c.entries (List.mem_map_of_mem hc) with ⟨parsed, hparsed⟩
  rw [hparsed]
  exact transport_eq_iff transcoder c.entries parsed hparsed

/-- A transcoder for programs that use no other encoding. -/
def noTranscoder : Transcoder := fun _ _ => none

/-- A component as the native side hands one out: a name, and two binary
    strings. -/
def binaryComponent : Hash String FieldValue :=
  ⟨[("algorithm", .str (RString.ofString "Ed25519")),
    ("public_key", .str (RString.binary [0x9c, 0x00])),
    ("signature", .str (RString.binary [0x7f, 0xff, 0x01]))], by decide⟩

theorem binaryComponent_round_trips :
    ∃ sig, new noTranscoder ([binaryComponent].map Hash.entries) = .ok sig ∧
      RoundTrips JsonCodec.compact noTranscoder sig := by
  refine ⟨⟨[⟨"Ed25519", [0x9c, 0x00], [0x7f, 0xff, 0x01]⟩], some [binaryComponent.entries], none⟩,
    rfl, ?_⟩
  refine (round_trips_iff JsonCodec.compact JsonCodec.compact_lawful noTranscoder
    [binaryComponent] (List.cons_ne_nil _ _) _ rfl).mpr ?_
  intro c hc
  rw [List.mem_singleton.mp hc]
  refine ⟨?_, ?_, ?_⟩
  · intro entry hentry
    simp only [binaryComponent, List.mem_cons, List.not_mem_nil, or_false] at hentry
    rcases hentry with rfl | rfl | rfl
    · exact ⟨_, rfl, fun _ => by decide⟩
    · exact ⟨_, rfl, fun hb => absurd rfl hb⟩
    · exact ⟨_, rfl, fun hb => absurd rfl hb⟩
  · intro s hs hb
    rw [show binaryComponent.entries.lookup "algorithm" = some (.str (RString.ofString "Ed25519"))
      from rfl, Option.some.injEq, FieldValue.str.injEq] at hs
    rw [← hs] at hb
    exact absurd hb (by decide)
  · intro key hkey s hs
    simp only [binaryFields, List.mem_cons, List.not_mem_nil, or_false] at hkey
    rcases hkey with rfl | rfl
    · rw [show binaryComponent.entries.lookup "public_key"
        = some (.str (RString.binary [0x9c, 0x00])) from rfl, Option.some.injEq,
        FieldValue.str.injEq] at hs
      rw [← hs]
      exact trivial
    · rw [show binaryComponent.entries.lookup "signature"
        = some (.str (RString.binary [0x7f, 0xff, 0x01])) from rfl, Option.some.injEq,
        FieldValue.str.injEq] at hs
      rw [← hs]
      exact trivial

/-- A component written with string literals. -/
def literalComponent : Hash String FieldValue :=
  ⟨[("algorithm", .str (RString.ofString "Custom-X")),
    ("public_key", .str (RString.ofString "pk-bytes")),
    ("signature", .str (RString.ofString "sig-bytes"))], by decide⟩

/-- The literals are written as they are and then unpacked as hexadecimal: the
    signature that is read back has another key. -/
theorem literal_key_is_altered :
    ∃ sig sig', new noTranscoder ([literalComponent].map Hash.entries) = .ok sig ∧
      (toJson JsonCodec.compact noTranscoder sig
        >>= fromJson JsonCodec.compact noTranscoder) = .ok sig' ∧
      sig.inner = [⟨"Custom-X", utf8 "pk-bytes", utf8 "sig-bytes"⟩] ∧
      sig'.inner = [⟨"Custom-X", [0x9c, 0xdb, 0xad, 0xec], [0xca, 0x0d, 0xba, 0xde, 0xc0]⟩] ∧
      ¬ RoundTrips JsonCodec.compact noTranscoder sig := by
  refine ⟨_, _, rfl, rfl, rfl, rfl, ?_⟩
  rintro ⟨text, sig', hwrite, hread, heq⟩
  have hboth := (bind_eq_ok_iff _ _ _).mpr ⟨text, hwrite, hread⟩
  have hinner : (.ok [⟨"Custom-X", [0x9c, 0xdb, 0xad, 0xec], [0xca, 0x0d, 0xba, 0xde, 0xc0]⟩] :
      Except CompositeExn (List ComponentSignature)) = .ok sig'.inner :=
    congrArg (Except.map Signature.inner) hboth
  rw [heq, Except.ok.injEq] at hinner
  exact absurd hinner (by decide)

end Signature

end Composite

end Confium
