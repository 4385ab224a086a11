import Confium.Core.OpenPGP

/-!
# What the Armor Reader Accepts

`dearmor` in two halves. The first half finds the lines of the block: the text
is normalised, cut at the delimiters, and stripped of the BEGIN line, the
headers and the blank line after them. The second half works on those lines
alone: each is blank, a checksum, data, or an error, and what comes of the whole
is decided by the data lines joined and by the last checksum.

`Block` is a block the first half finds, with the conditions on its lines as
fields, and `Block.blockLines_eq` finds it, in a text that has anything but
delimiters in front of it and anything at all behind it. `dearmor_eq` is the
whole of the second half, with the loop of `collect_data` replaced by what it
gathers.

## Main definitions

* `Recognised`: A line the loop of `collect_data` does not stop at.
* `isChecksum`, `dataText`, `checksum?`: The checksum lines, the data lines
  joined, and the checksum that counts.
* `Block`: An armored block, line by line.

## Theorems

* `collectData_eq`: What the loop gathers from recognised lines.
* `collectData_of_unrecognised`: It stops at any other.
* `dearmor_eq`: The reader on a block of recognised lines.
* `dearmor_of_unrecognised`: The reader on any other block.
* `dataText_of_dearmor`: What a text that was read holds.
* `blockSlice_unlines`: The block is found between its delimiters.
* `Block.blockLines_eq`: Its lines are the lines of the block.
-/

namespace Confium

open Ruby

namespace OpenPGP

/-- Characters of the alphabet and a little padding make a line of data. -/
theorem isData_append (body pad : Text) (hne : body ≠ [])
    (hbody : ∀ c ∈ body, isBase64 c = true) (hpad : pad = [] ∨ pad = ['='] ∨ pad = ['=', '=']) :
    isData (body ++ pad) = true := by
  -- Padding is no part of the alphabet, so the body ends where it starts.
  have hstop : ∀ c, pad.head? = some c → isBase64 c = false := by
    intro c hc
    rcases hpad with h | h | h
    · rw [h] at hc
      exact absurd hc (by simp only [List.head?_nil, reduceCtorEq, not_false_eq_true])
    · rw [h] at hc
      rw [← Option.some.inj hc]
      decide
    · rw [h] at hc
      rw [← Option.some.inj hc]
      decide
  have hspan := span_append isBase64 body pad hbody hstop
  have hne' : body.isEmpty = false := by simpa only [List.isEmpty_eq_false_iff] using hne
  rw [isData, hspan.1, hspan.2, hne']
  rcases hpad with h | h | h <;>
  · rw [h]
    decide

/-- A line of data starts with a character of the alphabet. -/
theorem head?_of_isData (line : Text) (h : isData line = true) :
    ∃ c, line.head? = some c ∧ isBase64 c = true := by
  cases line with
  | nil => exact absurd h (by decide)
  | cons c rest =>
      refine ⟨c, List.head?_cons, ?_⟩
      by_contra hc
      -- Otherwise the run of the alphabet at the front is empty.
      rw [isData, List.takeWhile_cons_of_neg hc] at h
      exact absurd h (by simp only [List.isEmpty_nil, Bool.not_true, Bool.false_and,
        Bool.false_eq_true, not_false_eq_true])

/-- A line that does not start with a hyphen is no END line. -/
theorem isEnd_eq_false (line : Text) (h : line.head? ≠ some '-') : isEnd line = false := by
  by_contra hc
  rw [Bool.not_eq_false] at hc
  exact h (head?_of_delimiter '-' _ line hc)

/-! ### The lines of a block -/

/-- A line the loop of `collect_data` does not stop at: blank, a checksum or
    data. -/
def Recognised (line : Text) : Prop := line = [] ∨ line.head? = some '=' ∨ isData line = true

/-- A line that is taken for the checksum. -/
def isChecksum (line : Text) : Bool := decide (line.head? = some '=')

/-- The lines that are no checksum, joined. -/
def dataText (lines : List Text) : Text := (lines.filter (fun line => !isChecksum line)).flatten

/-- The last checksum, without its mark. -/
def checksum? (lines : List Text) : Option Text := (lines.filter isChecksum).getLast?.map List.tail

theorem isChecksum_of_isData (line : Text) (h : isData line = true) : isChecksum line = false := by
  rcases head?_of_isData line h with ⟨c, hc, hb⟩
  refine decide_eq_false (fun hq => ?_)
  rw [hc, Option.some.injEq] at hq
  rw [hq] at hb
  exact absurd hb (by decide)

theorem dataText_append (lines rest : List Text) :
    dataText (lines ++ rest) = dataText lines ++ dataText rest := by
  rw [dataText, List.filter_append, List.flatten_append, dataText, dataText]

theorem dataText_cons_of_checksum (line : Text) (lines : List Text) (h : isChecksum line = true) :
    dataText (line :: lines) = dataText lines := by
  rw [dataText, List.filter_cons_of_neg (by rw [h]; exact Bool.false_ne_true), dataText]

theorem dataText_cons_of_data (line : Text) (lines : List Text) (h : isChecksum line = false) :
    dataText (line :: lines) = line ++ dataText lines := by
  rw [dataText, List.filter_cons_of_pos (by rw [h]; rfl), List.flatten_cons, dataText]

/-- Leaving the checksums out only shortens the text. -/
theorem length_dataText_le (lines : List Text) :
    (dataText lines).length ≤ lines.flatten.length := by
  induction lines with
  | nil => exact le_refl _
  | cons line lines ih =>
      rw [List.flatten_cons, List.length_append]
      cases hcase : isChecksum line with
      | true =>
          rw [dataText_cons_of_checksum line lines hcase]
          omega
      | false =>
          rw [dataText_cons_of_data line lines hcase, List.length_append]
          omega

theorem checksum?_cons_of_checksum (line : Text) (lines : List Text) (h : isChecksum line = true) :
    checksum? (line :: lines) = (checksum? lines).or (some line.tail) := by
  rw [checksum?, List.filter_cons_of_pos h, List.getLast?_cons, checksum?]
  cases (lines.filter isChecksum).getLast? with
  | none => rfl
  | some last => rfl

theorem checksum?_cons_of_data (line : Text) (lines : List Text) (h : isChecksum line = false) :
    checksum? (line :: lines) = checksum? lines := by
  rw [checksum?, List.filter_cons_of_neg (by rw [h]; exact Bool.false_ne_true), checksum?]

/-- What the loop gathers from recognised lines, onto what it has. -/
theorem collectData_eq (lines : List Text) (b64 : Text) (crcLine : Option Text)
    (h : ∀ line ∈ lines, Recognised line) :
    collectData lines b64 crcLine
      = .ok (b64 ++ dataText lines, (checksum? lines).or crcLine) := by
  induction lines generalizing b64 crcLine with
  | nil =>
      rw [collectData, show dataText [] = [] from rfl, List.append_nil]
      rfl
  | cons line lines ih =>
      have ih' := fun b c => ih b c (fun l hl => h l (List.mem_cons_of_mem line hl))
      rw [collectData]
      -- In the order the source tests a line: blank, checksum, data.
      rcases h line List.mem_cons_self with hblank | hchecksum | hdata
      · have hno : isChecksum line = false := by
          rw [hblank]
          rfl
        rw [if_pos hblank, ih', dataText_cons_of_data line lines hno,
          checksum?_cons_of_data line lines hno, hblank, List.nil_append]
      · have hne : line ≠ [] := fun hn => by
          rw [hn] at hchecksum
          exact absurd hchecksum (by simp only [List.head?_nil, reduceCtorEq, not_false_eq_true])
        have hyes : isChecksum line = true := decide_eq_true hchecksum
        rw [if_neg hne, if_pos hchecksum, ih', dataText_cons_of_checksum line lines hyes,
          checksum?_cons_of_checksum line lines hyes, Option.or_assoc, Option.some_or]
      · have hno := isChecksum_of_isData line hdata
        have hne : line ≠ [] := fun hn => by
          rw [hn] at hdata
          exact absurd hdata (by decide)
        rw [if_neg hne, if_neg (of_decide_eq_false hno), if_pos hdata, ih',
          dataText_cons_of_data line lines hno, checksum?_cons_of_data line lines hno,
          List.append_assoc]

/-- The loop stops at a line that is not recognised, whatever came before it. -/
theorem collectData_of_unrecognised (lines : List Text) (b64 : Text) (crcLine : Option Text)
    (h : ∃ line ∈ lines, ¬ Recognised line) :
    ∃ start, collectData lines b64 crcLine = .error (.invalidLine start) := by
  induction lines generalizing b64 crcLine with
  | nil =>
      rcases h with ⟨line, hmem, _⟩
      exact absurd hmem List.not_mem_nil
  | cons line lines ih =>
      rw [collectData]
      by_cases hline : Recognised line
      · -- The line that stops the loop is further on.
        have hrest : ∃ l ∈ lines, ¬ Recognised l := by
          rcases h with ⟨l, hmem, hl⟩
          rcases List.mem_cons.mp hmem with heq | hmem
          · rw [heq] at hl
            exact absurd hline hl
          · exact ⟨l, hmem, hl⟩
        split
        · exact ih _ _ hrest
        · split
          · exact ih _ _ hrest
          · split
            · exact ih _ _ hrest
            · exact ⟨_, rfl⟩
      · have hne : line ≠ [] := fun hn => hline (Or.inl hn)
        have heq : line.head? ≠ some '=' := fun hq => hline (Or.inr (Or.inl hq))
        have hdata : ¬ isData line = true := fun hd => hline (Or.inr (Or.inr hd))
        rw [if_neg hne, if_neg heq, if_neg hdata]
        exact ⟨_, rfl⟩

/-- The reader on a block of recognised lines. An empty payload needs no case of
    its own: the early return for it returns what the base64 decodes to. -/
theorem dearmor_eq (text : Text) (lines : List Text) (hlines : blockLines text = .ok lines)
    (h : ∀ line ∈ lines, Recognised line) :
    dearmor text =
      if dataText lines = [] ∧ checksum? lines = none then .error .noData
      else
        match decode64 (dataText lines) with
        | none => .error .invalidBase64
        | some bytes =>
          match checksum? lines with
          | none => .ok bytes
          | some crc =>
            if crc24Armor bytes ≠ crc then .error .checksumMismatch else .ok bytes := by
  have hcollect := collectData_eq lines [] none h
  rw [List.nil_append, Option.or_none] at hcollect
  have hbody : extractBody text =
      if dataText lines = [] ∧ checksum? lines = none then .error .noData
      else .ok (dataText lines, checksum? lines) := by
    simp only [extractBody, hlines, hcollect, bind, Except.bind, pure, Except.pure]
  rw [dearmor, hbody]
  by_cases hempty : dataText lines = [] ∧ checksum? lines = none
  · rw [if_pos hempty, if_pos hempty]
    rfl
  · rw [if_neg hempty, if_neg hempty]
    simp only [bind, Except.bind, unpack, pure, Except.pure]
    cases hdec : decode64 (dataText lines) with
    | none => rfl
    | some bytes =>
        -- The source returns early on an empty payload with the checksum of nothing.
        by_cases hearly : checksum? lines = some (crc24Armor []) ∧ dataText lines = []
        · have hbytes : bytes = [] := by
            rw [hearly.2, decode64, Option.some.injEq] at hdec
            exact hdec.symm
          simp only [hearly.1, hearly.2, hbytes, and_self, if_true, ne_eq, not_true_eq_false,
            if_false]
        · refine (if_neg hearly).trans ?_
          cases checksum? lines <;> rfl

/-- The reader on a block with a line that is not recognised. -/
theorem dearmor_of_unrecognised (text : Text) (lines : List Text)
    (hlines : blockLines text = .ok lines) (h : ∃ line ∈ lines, ¬ Recognised line) :
    ∃ start, dearmor text = .error (.invalidLine start) := by
  rcases collectData_of_unrecognised lines [] none h with ⟨start, hstart⟩
  refine ⟨start, ?_⟩
  simp only [dearmor, extractBody, hlines, hstart, bind, Except.bind]

/-- What the reader makes of a text it reads: the data lines, joined, are the
    base64 of the result. -/
theorem dataText_of_dearmor (text : Text) (lines : List Text) (data : Bytes)
    (hlines : blockLines text = .ok lines) (h : dearmor text = .ok data) :
    (∀ line ∈ lines, Recognised line) ∧ dataText lines = encode64 data ∧
      ∀ crc, checksum? lines = some crc → crc = crc24Armor data := by
  have hrec : ∀ line ∈ lines, Recognised line := by
    intro line hmem
    by_contra hline
    rcases dearmor_of_unrecognised text lines hlines ⟨line, hmem, hline⟩ with ⟨start, hstart⟩
    rw [hstart] at h
    exact absurd h (by simp only [reduceCtorEq, not_false_eq_true])
  -- What is left of the reader is one path to success, and three ways to raise.
  rw [dearmor_eq text lines hlines hrec] at h
  refine ⟨hrec, ?_⟩
  by_cases hempty : dataText lines = [] ∧ checksum? lines = none
  · rw [if_pos hempty] at h
    exact absurd h (by simp only [reduceCtorEq, not_false_eq_true])
  · rw [if_neg hempty] at h
    cases hdec : decode64 (dataText lines) with
    | none =>
        simp only [hdec] at h
        exact absurd h (by simp only [reduceCtorEq, not_false_eq_true])
    | some bytes =>
        simp only [hdec] at h
        rw [← encode64_of_decode64 _ _ hdec]
        cases hcrc : checksum? lines with
        | none =>
            simp only [hcrc, Except.ok.injEq] at h
            rw [h]
            exact ⟨rfl, fun crc hnone => absurd hnone (by simp only [reduceCtorEq,
              not_false_eq_true])⟩
        | some crc =>
            simp only [hcrc] at h
            by_cases hmismatch : crc24Armor bytes ≠ crc
            · rw [if_pos hmismatch] at h
              exact absurd h (by simp only [reduceCtorEq, not_false_eq_true])
            · rw [if_neg hmismatch, Except.ok.injEq] at h
              rw [← h]
              refine ⟨rfl, fun crc' hcrc' => ?_⟩
              rw [← Option.some.inj hcrc']
              exact (not_not.mp hmismatch).symm

/-- The reader on a text without a block. -/
theorem dearmor_of_noBlock (text : Text) (e : ArmorExn) (h : blockLines text = .error e) :
    dearmor text = .error e ∧ (e = .noBegin ∨ e = .noEnd) := by
  constructor
  · simp only [dearmor, extractBody, h, bind, Except.bind]
  · unfold blockLines blockSlice at h
    cases hbegin : lineIndex isBegin (gsubCrlf text) with
    | none =>
        simp only [hbegin, bind, Except.bind, Except.error.injEq] at h
        exact Or.inl h.symm
    | some beginLine =>
        cases hend : lineIndex isEnd (gsubCrlf text) with
        | none =>
            simp only [hbegin, hend, bind, Except.bind, Except.error.injEq] at h
            exact Or.inr h.symm
        | some endLine =>
            simp only [hbegin, hend, bind, Except.bind, pure, Except.pure] at h
            split at h
            · exact absurd h (by simp only [reduceCtorEq, not_false_eq_true])
            · exact absurd h (by simp only [reduceCtorEq, not_false_eq_true])

/-! ### Finding the block -/

/-- The block is found between its delimiters, whatever stands before it that
    is neither delimiter and whatever comes after it. -/
theorem blockSlice_unlines (pre mid : List Text) (beginLine endLine rest : Text)
    (hnl : ∀ line ∈ pre ++ beginLine :: mid, '\n' ∉ line) (hnlEnd : '\n' ∉ endLine)
    (hpre : ∀ line ∈ pre, isBegin line = false) (hbegin : isBegin beginLine = true)
    (hmid : ∀ line ∈ pre ++ beginLine :: mid, isEnd line = false) (hend : isEnd endLine = true) :
    blockSlice (unlines (pre ++ beginLine :: mid) ++ (endLine ++ '\n' :: rest))
      = .ok (unlines (beginLine :: mid)) := by
  -- The BEGIN line is found after `pre`, and the END line after `mid`.
  have hat : lineIndex isBegin (unlines (pre ++ beginLine :: mid) ++ (endLine ++ '\n' :: rest))
      = some (unlines pre).length := by
    have h := lineIndex_unlines isBegin pre beginLine
      (unlines mid ++ (endLine ++ '\n' :: rest))
      (fun l hl => hnl l (List.mem_append_left _ hl))
      (hnl beginLine (List.mem_append_right pre List.mem_cons_self)) hpre hbegin
    rw [unlines_append, unlines_cons, List.append_assoc, List.append_assoc, List.cons_append]
    exact h
  have hto : lineIndex isEnd (unlines (pre ++ beginLine :: mid) ++ (endLine ++ '\n' :: rest))
      = some (unlines (pre ++ beginLine :: mid)).length :=
    lineIndex_unlines isEnd (pre ++ beginLine :: mid) endLine rest hnl hnlEnd hmid hend
  simp only [blockSlice, hat, hto, List.take_left]
  rw [unlines_append, List.drop_left]

/-- An armored block, line by line. What stands between the blank line and the
    END line ends in a line that is not blank, which is what keeps splitting
    from dropping any. -/
structure Block where
  beginLine : Text
  headers : List Text
  body : List Text
  last : Text
  endLine : Text
  begins : isBegin beginLine = true
  header : ∀ line ∈ headers, isHeader line = true
  last_ne : last ≠ []
  ends : isEnd endLine = true
  newline : ∀ line ∈ beginLine :: (headers ++ [] :: (body ++ [last])), '\n' ∉ line
  newline_endLine : '\n' ∉ endLine
  inner : ∀ line ∈ beginLine :: (headers ++ [] :: (body ++ [last])), isEnd line = false

namespace Block

/-- The lines between the blank line and the END line. -/
def lines (b : Block) : List Text := b.body ++ [b.last]

/-- The lines in front of the END line. -/
def opened (b : Block) : List Text := b.beginLine :: (b.headers ++ [] :: b.lines)

/-- The lines of a block are read off a text that holds it. -/
theorem blockLines_eq (b : Block) (text : Text) (pre : List Text) (rest : Text)
    (htext : gsubCrlf text = unlines (pre ++ b.opened) ++ (b.endLine ++ '\n' :: rest))
    (hnl : ∀ line ∈ pre, '\n' ∉ line) (hbegin : ∀ line ∈ pre, isBegin line = false)
    (hend : ∀ line ∈ pre, isEnd line = false) : blockLines text = .ok b.lines := by
  have hslice := blockSlice_unlines pre (b.headers ++ [] :: b.lines) b.beginLine b.endLine rest
    (List.forall_mem_append.mpr ⟨hnl, b.newline⟩) b.newline_endLine hbegin b.begins
    (List.forall_mem_append.mpr ⟨hend, b.inner⟩) b.ends
  have hsplit : splitLines (unlines (b.beginLine :: (b.headers ++ [] :: b.lines)))
      = b.beginLine :: (b.headers ++ [] :: b.lines) := by
    have h := splitLines_unlines (b.beginLine :: (b.headers ++ [] :: b.body)) b.last
      (fun l hl => b.newline l (by
        simpa only [List.cons_append, List.append_assoc] using hl)) b.last_ne
    simpa only [lines, List.cons_append, List.append_assoc] using h
  -- The headers are dropped and the blank line after them stops the dropping.
  have hdrop : (b.headers ++ [] :: b.lines).dropWhile isHeader = [] :: b.lines := by
    rw [List.dropWhile_append_of_pos b.header, List.dropWhile_cons_of_neg (by decide)]
  have hslice' : blockSlice (gsubCrlf text)
      = .ok (unlines (b.beginLine :: (b.headers ++ [] :: b.lines))) := by
    rw [htext]
    exact hslice
  simp only [blockLines, hslice', hsplit, List.tail_cons, hdrop, bind, Except.bind, pure,
    Except.pure]

end Block

end OpenPGP

end Confium
