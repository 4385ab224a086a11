import Confium.Lib.Hash
import Confium.Theory.ArmorReader

/-!
# The Armor Round Trip

What `armor` writes, `dearmor` reads back: for every byte string, the empty one
included, and under every label.

The reader knows nothing of the writer's layout, so what the writer produces has
to be one of the blocks the reader finds. `writtenBlock` makes one of any label,
data lines and checksum, as long as the lines hold nothing but base64 text: such
a line never breaks in two and never looks like a delimiter.

Two facts about the cut into lines carry the rest. A line is a multiple of four
characters long, and only the last characters of the whole text can be `=`, so
no line starts with one: a data line is never taken for a checksum. An empty
payload has no data line at all, and the reader sees a blank line where one
would stand.

## Main definitions

* `ProperLabel`: A label the delimiter patterns accept.
* `Radix`: A line of base64 text, padding included.
* `bodyLines`: The lines between the blank line and the checksum.
* `labelledBlock`, `writtenBlock`: The blocks under a label, and those the
  writer lays out.

## Theorems

* `isData_of_mem_dataLines`: Every line the writer cuts is a line of data.
* `layout_eq_unlines`: The writer's layout, line by line.
* `blockLines_layout`: The reader finds the lines that were laid out.
* `dearmor_layout`: What it makes of them, when no data line starts with `=`.
* `dearmor_armor`: Reading undoes writing.
-/

namespace Confium

open Ruby

namespace OpenPGP

/-- Every character of a line of data is one of the alphabet or padding. -/
theorem mem_of_isData (line : Text) (h : isData line = true) (c : Char) (hc : c ∈ line) :
    isBase64 c = true ∨ c = '=' := by
  rw [← List.takeWhile_append_dropWhile (p := isBase64) (l := line), List.mem_append] at hc
  rcases hc with hc | hc
  · exact Or.inl (List.mem_takeWhile_imp hc)
  · unfold isData at h
    simp only [Bool.and_eq_true, Bool.or_eq_true, beq_iff_eq] at h
    rcases h.2 with (h | h) | h
    · rw [h] at hc
      exact absurd hc List.not_mem_nil
    · rw [h] at hc
      exact Or.inr (List.mem_singleton.mp hc)
    · rw [h, List.mem_cons, List.mem_singleton, or_self] at hc
      exact Or.inr hc

/-- Cutting seventy-six characters off base64 text leaves base64 text, and what
    is cut off is a line of data: the rest is at least four characters, which is
    more than the padding, unless it is nothing. -/
theorem isData_take_padded (text : Text) (h : Padded text) (hne : text ≠ []) :
    isData (text.take 76) = true ∧ Padded (text.drop 76) := by
  rcases h with ⟨hmod, body, pad, heq, hbody, hpad⟩
  have hpadlen : pad.length ≤ 2 := by
    rcases hpad with h | h | h <;>
    · rw [h]
      decide
  have hlen : text.length = body.length + pad.length := by rw [heq, List.length_append]
  have hpos : 0 < text.length := List.length_pos_iff.mpr hne
  by_cases hshort : text.length ≤ 76
  · -- The last line: it is the whole text, and at least two of its characters are not padding.
    rw [List.take_of_length_le hshort, List.drop_of_length_le hshort]
    refine ⟨?_, padded_nil⟩
    rw [heq]
    exact isData_append body pad (List.length_pos_iff.mp (by omega)) hbody hpad
  · -- More than one line: the length is a multiple of four, so the cut leaves at
    -- least four characters and falls before the padding.
    have hcut : 76 ≤ body.length := by omega
    have htake : text.take 76 = body.take 76 ++ [] := by
      rw [heq, List.take_append_of_le_length hcut, List.append_nil]
    have hdrop : text.drop 76 = body.drop 76 ++ pad := by
      rw [heq, List.drop_append_of_le_length hcut]
    refine ⟨?_, ?_⟩
    · rw [htake]
      refine isData_append _ _ ?_ (fun c hc => hbody c (List.mem_of_mem_take hc)) (Or.inl rfl)
      exact List.length_pos_iff.mp (by rw [List.length_take]; omega)
    · refine ⟨?_, body.drop 76, pad, hdrop, fun c hc => hbody c (List.mem_of_mem_drop hc), hpad⟩
      rw [List.length_drop]
      omega

/-- Every line the writer cuts is a line of data. -/
theorem isData_of_mem_dataLines (bytes : Bytes) (line : Text) (h : line ∈ dataLines bytes) :
    isData line = true :=
  forall_mem_scan 76 Padded (fun line => isData line = true) isData_take_padded _ _
    (encode64_padded bytes) line h

theorem flatten_dataLines (bytes : Bytes) : (dataLines bytes).flatten = encode64 bytes := by
  rw [dataLines, flatten_scan 76 _ _ (by omega) (le_refl _)]

/-- A label the delimiter patterns accept. -/
def ProperLabel (label : Text) : Prop := label ≠ [] ∧ ∀ c ∈ label, isLabelChar c = true

/-- Every label is made of the characters the delimiter pattern allows. -/
theorem label_proper (type : Option String) (label : String)
    (h : labels.lookup type = some label) : ProperLabel label.toList := by
  have hall : ∀ entry ∈ labels, entry.2.toList ≠ [] ∧ entry.2.toList.all isLabelChar = true := by
    decide
  have hentry := hall _ (Hash.mem_of_lookup_eq_some type label labels h)
  exact ⟨hentry.1, List.all_eq_true.mp hentry.2⟩

/-- A delimiter line with a proper label holds nothing else than its head, the
    label and the hyphens. -/
theorem not_mem_delimiter (c : Char) (hlabel : isLabelChar c = false) (hhyphens : c ∉ hyphens)
    (head label : Text) (hhead : c ∉ head) (h : ∀ c ∈ label, isLabelChar c = true) :
    c ∉ head ++ label ++ hyphens := by
  intro hmem
  rcases List.mem_append.mp hmem with hmem | hmem
  · rcases List.mem_append.mp hmem with hmem | hmem
    · exact hhead hmem
    · rw [h c hmem] at hlabel
      exact absurd hlabel (by decide)
  · exact hhyphens hmem

/-- A line the reader can neither break in two nor take for the END line. -/
def Plain (line : Text) : Prop := '\n' ∉ line ∧ isEnd line = false

theorem plain_nil : Plain [] := ⟨List.not_mem_nil, by decide⟩

/-- A line of base64 text, padding included. -/
def Radix (line : Text) : Prop := ∀ c ∈ line, isBase64 c = true ∨ c = '='

theorem plain_of_radix (line : Text) (h : Radix line) : Plain line := by
  constructor
  · intro hmem
    rcases h _ hmem with hc | hc
    · exact absurd hc (by decide)
    · exact absurd hc (by decide)
  · refine isEnd_eq_false line (fun hq => ?_)
    rcases h _ (List.mem_of_head? hq) with hc | hc
    · exact absurd hc (by decide)
    · exact absurd hc (by decide)

/-- The checksum line. -/
theorem radix_checksum (data : Bytes) : Radix ('=' :: crc24Armor data) := by
  intro c hc
  rcases List.mem_cons.mp hc with hc | hc
  · exact Or.inr hc
  · exact Or.inl (isBase64_of_mem_encode64_three _ _ _ _ hc)

theorem radix_of_isData (line : Text) (h : isData line = true) : Radix line := mem_of_isData line h

/-- A block under a label, with headers. -/
def labelledBlock (label : Text) (hlabel : ProperLabel label) (headers body : List Text)
    (last : Text) (hheader : ∀ line ∈ headers, isHeader line = true)
    (hheaders : ∀ line ∈ headers, Plain line) (hlast : last ≠ [])
    (hplain : ∀ line ∈ body ++ [last], Plain line) : Block where
  beginLine := beginHead ++ label ++ hyphens
  headers := headers
  body := body
  last := last
  endLine := endHead ++ label ++ hyphens
  begins := delimiter_of_label beginHead label hlabel.1 hlabel.2
  header := hheader
  last_ne := hlast
  ends := delimiter_of_label endHead label hlabel.1 hlabel.2
  newline := by
    rw [List.forall_mem_cons, List.forall_mem_append, List.forall_mem_cons]
    exact ⟨not_mem_delimiter '\n' (by decide) (by decide) beginHead label (by decide) hlabel.2,
      fun line h => (hheaders line h).1, List.not_mem_nil, fun line h => (hplain line h).1⟩
  newline_endLine :=
    not_mem_delimiter '\n' (by decide) (by decide) endHead label (by decide) hlabel.2
  inner := by
    rw [List.forall_mem_cons, List.forall_mem_append, List.forall_mem_cons]
    refine ⟨?_, fun line h => (hheaders line h).2, plain_nil.2, fun line h => (hplain line h).2⟩
    rw [List.append_assoc]
    exact isEnd_beginHead_append _

/-- The lines between the blank line and the checksum. An empty payload still
    leaves a line there, with nothing on it. -/
def bodyLines (lines : List Text) : List Text := if lines = [] then [[]] else lines

theorem mem_bodyLines (lines : List Text) (line : Text) (h : line ∈ bodyLines lines) :
    line = [] ∨ line ∈ lines := by
  by_cases hnil : lines = []
  · rw [bodyLines, if_pos hnil, List.mem_singleton] at h
    exact Or.inl h
  · rw [bodyLines, if_neg hnil] at h
    exact Or.inr h

/-- The writer's layout, line by line. -/
theorem layout_eq_unlines (label : Text) (lines : List Text) (crc : Text) :
    layout label lines crc
      = unlines ((beginHead ++ label ++ hyphens) :: ([] :: (bodyLines lines ++ ['=' :: crc])))
        ++ (endHead ++ label ++ hyphens ++ ['\n']) := by
  have hjoin : ['\n'].intercalate lines ++ ['\n'] = unlines (bodyLines lines) := by
    -- Joining no lines gives the empty text, and its LF is a blank line.
    by_cases h : lines = []
    · rw [bodyLines, if_pos h, h]
      rfl
    · rw [bodyLines, if_neg h, intercalate_append_newline lines h]
  have hcrc : unlines ['=' :: crc] = ['='] ++ crc ++ ['\n'] := by
    rw [unlines_cons]
    rfl
  have hblank : unlines ([] :: (bodyLines lines ++ ['=' :: crc]))
      = ['\n'] ++ (unlines (bodyLines lines) ++ unlines ['=' :: crc]) := by
    rw [unlines_cons, unlines_append]
    rfl
  unfold layout
  rw [unlines_cons, hblank, hcrc, ← hjoin]
  simp only [List.append_assoc, List.cons_append, List.nil_append]

theorem plain_of_mem_written (lines : List Text) (crc line : Text)
    (hlines : ∀ line ∈ lines, Radix line) (hcrc : Radix ('=' :: crc))
    (h : line ∈ bodyLines lines ++ ['=' :: crc]) : Plain line := by
  rcases List.mem_append.mp h with h | h
  · rcases mem_bodyLines lines line h with hblank | hmem
    · rw [hblank]
      exact plain_nil
    · exact plain_of_radix line (hlines line hmem)
  · rw [List.mem_singleton.mp h]
    exact plain_of_radix _ hcrc

/-- The block the writer lays out. -/
def writtenBlock (label : Text) (hlabel : ProperLabel label) (lines : List Text) (crc : Text)
    (hlines : ∀ line ∈ lines, Radix line) (hcrc : Radix ('=' :: crc)) : Block :=
  labelledBlock label hlabel [] (bodyLines lines) ('=' :: crc)
    (fun _ h => absurd h List.not_mem_nil) (fun _ h => absurd h List.not_mem_nil)
    (List.cons_ne_nil _ _) (fun line h => plain_of_mem_written lines crc line hlines hcrc h)

/-- The reader finds the lines that were laid out, whatever stands in front of
    them that is no delimiter and whatever comes behind. -/
theorem blockLines_layout (label : Text) (hlabel : ProperLabel label) (lines : List Text)
    (crc : Text) (hlines : ∀ line ∈ lines, Radix line) (hcrc : Radix ('=' :: crc)) (text : Text)
    (pre : List Text) (rest : Text)
    (htext : gsubCrlf text = unlines pre ++ (layout label lines crc ++ rest))
    (hnl : ∀ line ∈ pre, '\n' ∉ line) (hbegin : ∀ line ∈ pre, isBegin line = false)
    (hend : ∀ line ∈ pre, isEnd line = false) :
    blockLines text = .ok (bodyLines lines ++ ['=' :: crc]) := by
  refine (writtenBlock label hlabel lines crc hlines hcrc).blockLines_eq text pre rest ?_ hnl hbegin
    hend
  have hopened : (writtenBlock label hlabel lines crc hlines hcrc).opened
      = (beginHead ++ label ++ hyphens) :: ([] :: (bodyLines lines ++ ['=' :: crc])) := rfl
  have hendLine : (writtenBlock label hlabel lines crc hlines hcrc).endLine
      = endHead ++ label ++ hyphens := rfl
  rw [htext, layout_eq_unlines, hopened, hendLine, unlines_append]
  simp only [List.append_assoc, List.singleton_append]

/-- Lines of data, and blank ones, are joined and hold no checksum. -/
theorem data_text (lines : List Text) (h : ∀ line ∈ lines, line = [] ∨ isData line = true) :
    (∀ line ∈ lines, Recognised line) ∧ dataText lines = lines.flatten ∧
      lines.filter isChecksum = [] := by
  have hno : ∀ line ∈ lines, isChecksum line = false := by
    intro line hmem
    rcases h line hmem with hblank | hdata
    · rw [hblank]
      rfl
    · exact isChecksum_of_isData line hdata
  refine ⟨?_, ?_, ?_⟩
  · intro line hmem
    rcases h line hmem with hblank | hdata
    · exact Or.inl hblank
    · exact Or.inr (Or.inr hdata)
  · have hkeep : lines.filter (fun line => !isChecksum line) = lines :=
      List.filter_eq_self.mpr (fun line hmem => by rw [hno line hmem]; rfl)
    rw [dataText, hkeep]
  · exact List.filter_eq_nil_iff.mpr (fun line hmem => by
      rw [hno line hmem]
      exact Bool.false_ne_true)

/-- Between the blank line and the checksum there are lines of data, or a blank
    one, and joined they are the same. -/
theorem bodyLines_text (lines : List Text) (h : ∀ line ∈ lines, isData line = true) :
    (∀ line ∈ bodyLines lines, line = [] ∨ isData line = true) ∧
      (bodyLines lines).flatten = lines.flatten := by
  constructor
  · intro line hmem
    rcases mem_bodyLines lines line hmem with hblank | hmem
    · exact Or.inl hblank
    · exact Or.inr (h line hmem)
  · by_cases hnil : lines = []
    · rw [bodyLines, if_pos hnil, hnil]
      rfl
    · rw [bodyLines, if_neg hnil]

/-- What a block of data lines and one checksum holds. -/
theorem written_text (lines : List Text) (crc : Text)
    (hlines : ∀ line ∈ lines, isData line = true) :
    (∀ line ∈ bodyLines lines ++ ['=' :: crc], Recognised line) ∧
      dataText (bodyLines lines ++ ['=' :: crc]) = lines.flatten ∧
      checksum? (bodyLines lines ++ ['=' :: crc]) = some crc := by
  rcases bodyLines_text lines hlines with ⟨hbody, hflat⟩
  rcases data_text (bodyLines lines) hbody with ⟨hrec, htext, hno⟩
  refine ⟨?_, ?_, ?_⟩
  · rw [List.forall_mem_append, List.forall_mem_singleton]
    exact ⟨hrec, Or.inr (Or.inl rfl)⟩
  · rw [dataText_append, htext, hflat, dataText_cons_of_checksum _ _ rfl,
      show dataText [] = [] from rfl, List.append_nil]
  · rw [checksum?, List.filter_append, hno]
    rfl

/-- What the reader makes of a layout whose data lines are lines of data. -/
theorem dearmor_layout (label : Text) (hlabel : ProperLabel label) (lines : List Text)
    (data written : Bytes) (hdata : ∀ line ∈ lines, isData line = true)
    (hflat : lines.flatten = encode64 data) (text : Text) (pre : List Text) (rest : Text)
    (htext : gsubCrlf text = unlines pre ++ (layout label lines (crc24Armor written) ++ rest))
    (hnl : ∀ line ∈ pre, '\n' ∉ line) (hbegin : ∀ line ∈ pre, isBegin line = false)
    (hend : ∀ line ∈ pre, isEnd line = false) :
    dearmor text =
      if crc24Armor data ≠ crc24Armor written then .error .checksumMismatch else .ok data := by
  have hlines := blockLines_layout label hlabel lines (crc24Armor written)
    (fun line h => radix_of_isData line (hdata line h)) (radix_checksum written) text pre rest htext
    hnl hbegin hend
  rcases written_text lines (crc24Armor written) hdata with ⟨hrec, hdataText, hcrc⟩
  rw [dearmor_eq _ _ hlines hrec, hdataText, hcrc, hflat, decode64_encode64,
    if_neg (by simp only [reduceCtorEq, and_false, not_false_eq_true])]

/-- The same for the layout alone, as it is written. -/
theorem dearmor_gsubLf_layout (label : Text) (hlabel : ProperLabel label) (lines : List Text)
    (data written : Bytes) (hdata : ∀ line ∈ lines, isData line = true)
    (hflat : lines.flatten = encode64 data) :
    dearmor (gsubLf (layout label lines (crc24Armor written))) =
      if crc24Armor data ≠ crc24Armor written then .error .checksumMismatch else .ok data := by
  refine dearmor_layout label hlabel lines data written hdata hflat _ [] [] ?_
    (fun _ h => absurd h List.not_mem_nil) (fun _ h => absurd h List.not_mem_nil)
    (fun _ h => absurd h List.not_mem_nil)
  -- Line endings are normalised before anything is looked for.
  rw [gsubCrlf_gsubLf, List.append_nil]
  rfl

/-- Reading undoes writing: for every byte string and every armor type,
    `dearmor(armor(data, type))` is `data`. -/
theorem dearmor_armor (data : Bytes) (type : Option String)
    (htype : type ∈ labels.map Prod.fst) : (armor data type >>= dearmor) = .ok data := by
  have hsome : (labels.lookup type).isSome := by
    rw [List.lookup_isSome_iff]
    rcases List.mem_map.mp htype with ⟨entry, hentry, hkey⟩
    exact ⟨entry, hentry, by rw [hkey]; exact beq_self_eq_true type⟩
  rcases Option.isSome_iff_exists.mp hsome with ⟨label, hlabel⟩
  simp only [armor, hlabel, bind, Except.bind]
  rw [dearmor_gsubLf_layout label.toList (label_proper type label hlabel) (dataLines data) data data
    (isData_of_mem_dataLines data) (flatten_dataLines data)]
  exact if_neg (not_not.mpr rfl)

theorem dearmor_armor_public_key :
    (armor [] (some "public key") >>= dearmor) = .ok [] ∧
      (armor [0x99, 0x0d, 0xff, 0x00] (some "public key") >>= dearmor)
        = .ok [0x99, 0x0d, 0xff, 0x00] :=
  ⟨dearmor_armor [] (some "public key") (by decide),
    dearmor_armor [0x99, 0x0d, 0xff, 0x00] (some "public key") (by decide)⟩

end OpenPGP

end Confium
