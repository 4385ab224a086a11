import Confium.Theory.Armor

/-!
# Texts the Armor Reader Is Meant to Accept

The reader is documented to take more than the writer produces: other line
widths, headers, either line ending, no checksum, and a block in the middle of
some other text. Three families of texts, each made from what `armor` writes.

*Rewrapped* texts have the base64 cut into other lines. A cut just before the
padding, or inside it, makes a line that starts with `=`, which the reader takes
for a checksum: the padding is then missing from the data. `rewrapped_read_iff`
says that nothing else goes wrong.

*Surrounded* texts have something in front of the block and behind it. The END
line is searched for from the start of the text and not from the BEGIN line, so
an END line in front of the block hides it, and `surrounded_read_iff` says that
again nothing else does.

*Headed* texts have headers after the BEGIN line, any line ending on each line,
and the checksum or not. They are all read.

## Main definitions

* `rewrapped`: A text with other data lines.
* `DataText`: Base64 characters, then at most two `=`.
* `ArmorHeader`: A header line.
* `LineEnd`, `writeLines`: Lines with a line ending each.
* `armorLines`: The lines of a block with headers, with or without a checksum.

## Theorems

* `dataText_cut`: Cutting a line off base64 text.
* `rewrapped_read_iff`: When a rewrapped text is read.
* `surrounded_read_iff`: When a surrounded text is read.
* `headed_read`: Headed texts are read.
* `padding_on_its_own_line`, `end_line_in_front`: The texts that are not.
-/

namespace Confium

open Ruby

namespace OpenPGP

/-! ### Other line widths -/

/-- The text `armor` writes under a label, with its data cut into other lines. -/
def rewrapped (data : Bytes) (label : String) (lines : List Text) : Text :=
  gsubLf (layout label.toList lines (crc24Armor data))

/-- With its own lines it is what `armor` writes. -/
theorem armor_eq_rewrapped (data : Bytes) (type : Option String) (label : String)
    (htype : labels.lookup type = some label) :
    armor data type = .ok (rewrapped data label (dataLines data)) := by
  simp only [armor, htype, rewrapped]

/-- Base64 characters, then at most two `=`. -/
def DataText (text : Text) : Prop :=
  ∃ body pad, text = body ++ pad ∧ (∀ c ∈ body, isBase64 c = true) ∧
    (pad = [] ∨ pad = ['='] ∨ pad = ['=', '='])

/-- Cutting a line off that does not start in the padding: the line is data, and
    what is left has the same shape. -/
theorem dataText_cut (line rest : Text) (h : DataText (line ++ rest)) (hne : line ≠ [])
    (hhead : line.head? ≠ some '=') : isData line = true ∧ DataText rest := by
  rcases h with ⟨body, pad, heq, hbody, hpad⟩
  rcases List.append_eq_append_iff.mp heq with ⟨more, hmore, hrest⟩ | ⟨taken, hline, htaken⟩
  · -- The cut is before the padding.
    have hall : ∀ c ∈ line, isBase64 c = true := by
      intro c hc
      exact hbody c (by rw [hmore]; exact List.mem_append_left _ hc)
    have hdata := isData_append line [] hne hall (Or.inl rfl)
    rw [List.append_nil] at hdata
    refine ⟨hdata, more, pad, hrest, fun c hc => hbody c ?_, hpad⟩
    rw [hmore]
    exact List.mem_append_right _ hc
  · -- The cut is inside the padding or behind it, and the line holds all before it.
    rw [pad_iff, htaken] at hpad
    rcases hpad with ⟨hlen, hall⟩
    rw [List.length_append] at hlen
    rw [List.forall_mem_append] at hall
    have hbodyNe : body ≠ [] := by
      intro hnil
      rw [hline, hnil, List.nil_append] at hne hhead
      rcases List.exists_cons_of_ne_nil hne with ⟨c, more, hcons⟩
      refine hhead ?_
      rw [hcons, List.head?_cons, hall.1 c (by rw [hcons]; exact List.mem_cons_self)]
    rw [hline]
    refine ⟨isData_append body taken hbodyNe hbody ((pad_iff taken).mpr ⟨by omega, hall.1⟩), [],
      rest, rfl, fun _ hc => absurd hc List.not_mem_nil, (pad_iff rest).mpr ⟨by omega, hall.2⟩⟩

/-- Lines cut from base64 text, none of them starting in the padding, are lines
    of data. -/
theorem isData_of_cut (lines : List Text) (h : DataText lines.flatten)
    (hne : ∀ line ∈ lines, line ≠ []) (hhead : ∀ line ∈ lines, line.head? ≠ some '=') :
    ∀ line ∈ lines, isData line = true := by
  induction lines with
  | nil => exact fun _ hmem => absurd hmem List.not_mem_nil
  | cons line lines ih =>
      rw [List.forall_mem_cons] at hne hhead
      rw [List.flatten_cons] at h
      rcases dataText_cut line lines.flatten h hne.1 hhead.1 with ⟨hdata, hrest⟩
      rw [List.forall_mem_cons]
      exact ⟨hdata, ih hrest hne.2 hhead.2⟩

theorem dataText_encode64 (data : Bytes) : DataText (encode64 data) := (encode64_padded data).2

/-- Lines cut from base64 text are base64 text. -/
theorem radix_of_cut (lines : List Text) (data : Bytes) (h : lines.flatten = encode64 data)
    (line : Text) (hmem : line ∈ lines) : Radix line := by
  intro c hc
  have hmem' : c ∈ encode64 data := by
    rw [← h]
    exact List.mem_flatten_of_mem hmem hc
  rcases dataText_encode64 data with ⟨body, pad, heq, hbody, hpad⟩
  rw [heq] at hmem'
  rcases List.mem_append.mp hmem' with hc | hc
  · exact Or.inl (hbody c hc)
  · exact Or.inr (((pad_iff pad).mp hpad).2 c hc)

/-- A rewrapped text is read back exactly when no line of it starts with `=`. -/
theorem rewrapped_read_iff (data : Bytes) (type : Option String) (label : String)
    (lines : List Text) (htype : labels.lookup type = some label)
    (hcut : lines.flatten = encode64 data) (hne : ∀ line ∈ lines, line ≠ []) :
    dearmor (rewrapped data label lines) = .ok data ↔
      ∀ line ∈ lines, line.head? ≠ some '=' := by
  have hlabel := label_proper type label htype
  constructor
  · intro h line hmem hhead
    have hlines := blockLines_layout label.toList hlabel lines (crc24Armor data)
      (radix_of_cut lines data hcut) (radix_checksum data) (rewrapped data label lines) [] []
      (by rw [rewrapped, gsubCrlf_gsubLf, List.append_nil]; rfl)
      (fun _ h => absurd h List.not_mem_nil) (fun _ h => absurd h List.not_mem_nil)
      (fun _ h => absurd h List.not_mem_nil)
    rcases dataText_of_dearmor _ _ data hlines h with ⟨_, htext, _⟩
    -- The line counts as a checksum, so the joined data is shorter than what was cut.
    have hbody : bodyLines lines = lines := if_neg (List.ne_nil_of_mem hmem)
    rw [hbody, dataText_append, dataText_cons_of_checksum _ _ rfl,
      show dataText [] = [] from rfl, List.append_nil, ← hcut] at htext
    rcases List.append_of_mem hmem with ⟨before, after, hsplit⟩
    have hpos : 0 < line.length := List.length_pos_iff.mpr (hne line hmem)
    have hlen := congrArg List.length htext
    rw [hsplit, dataText_append, dataText_cons_of_checksum line after (decide_eq_true hhead),
      List.flatten_append, List.flatten_cons, List.length_append, List.length_append,
      List.length_append] at hlen
    have hbefore := length_dataText_le before
    have hafter := length_dataText_le after
    omega
  · intro hhead
    have hdata := isData_of_cut lines (by rw [hcut]; exact dataText_encode64 data) hne hhead
    rw [rewrapped, dearmor_gsubLf_layout label.toList hlabel lines data data hdata hcut]
    exact if_neg (not_not.mpr rfl)

/-- One byte cut before its second base64 character. -/
theorem narrow_lines_read :
    dearmor (rewrapped [0x66] "MESSAGE" ["Z".toList, "g==".toList]) = .ok [0x66] :=
  (rewrapped_read_iff [0x66] none "MESSAGE" ["Z".toList, "g==".toList] rfl (by decide)
    (by decide)).mpr (by decide)

/-- The same byte with its padding on a line of its own: the base64 is left
    without it. -/
theorem padding_on_its_own_line :
    labels.lookup none = some "MESSAGE" ∧
      ["Zg".toList, "==".toList].flatten = encode64 [0x66] ∧
      (∀ line ∈ ["Zg".toList, "==".toList], line ≠ []) ∧
      dearmor (rewrapped [0x66] "MESSAGE" ["Zg".toList, "==".toList])
        = .error .invalidBase64 := by
  decide +kernel

/-! ### Text around the block -/

/-- An END line in front of the BEGIN line leaves an empty slice, and so a block
    without data. -/
theorem dearmor_of_early_end (text : Text) (pre : List Text) (beginLine rest : Text)
    (htext : gsubCrlf text = unlines pre ++ (beginLine ++ '\n' :: rest))
    (hnl : ∀ line ∈ pre, '\n' ∉ line) (hnlBegin : '\n' ∉ beginLine)
    (hbegin : ∀ line ∈ pre, isBegin line = false) (hbeginLine : isBegin beginLine = true)
    (hend : ∃ line ∈ pre, isEnd line = true) : dearmor text = .error .noData := by
  have hat : lineIndex isBegin (gsubCrlf text) = some (unlines pre).length := by
    rw [htext]
    exact lineIndex_unlines isBegin pre beginLine rest hnl hnlBegin hbegin hbeginLine
  -- The first END line of them all is the one that is found.
  rcases Option.isSome_iff_exists.mp (List.find?_isSome.mpr hend) with ⟨first, hfirst⟩
  rcases List.find?_eq_some_iff_append.mp hfirst with ⟨hfirstEnd, before, after, hpre, hbefore⟩
  have hto : lineIndex isEnd (gsubCrlf text) = some (unlines before).length := by
    have hsplit : gsubCrlf text = unlines before ++
        (first ++ '\n' :: (unlines after ++ (beginLine ++ '\n' :: rest))) := by
      rw [htext, hpre, unlines_append, unlines_cons]
      simp only [List.append_assoc, List.cons_append]
    rw [hsplit]
    refine lineIndex_unlines isEnd before first _ ?_ ?_ ?_ hfirstEnd
    · intro line hmem
      exact hnl line (by rw [hpre]; exact List.mem_append_left _ hmem)
    · exact hnl first (by rw [hpre]; exact List.mem_append_right _ List.mem_cons_self)
    · intro line hmem
      simpa only [Bool.not_eq_true', Bool.not_eq_eq_eq_not, Bool.not_true] using hbefore line hmem
  have hle : (unlines before).length ≤ (unlines pre).length := by
    rw [hpre, unlines_append, List.length_append]
    omega
  have hslice : blockSlice (gsubCrlf text) = .ok [] := by
    simp only [blockSlice, hat, hto]
    rw [List.drop_eq_nil_of_le ((List.length_take_le _ _).trans hle)]
  have hlines : blockLines text = .ok [] := by
    simp only [blockLines, hslice, bind, Except.bind]
    rfl
  rw [dearmor_eq text [] hlines (fun _ h => absurd h List.not_mem_nil)]
  rfl

/-- The text of a block in the middle of another, normalised. -/
theorem gsubCrlf_surrounded (pre layout suffix : Text)
    (hpre : pre = [] ∨ pre.getLast? = some '\n') (hlayout : layout.getLast? = some '\n') :
    gsubCrlf (pre ++ gsubLf layout ++ suffix) = gsubCrlf pre ++ (layout ++ gsubCrlf suffix) := by
  have hcr : ∀ text : Text, text.getLast? = some '\n' → text.getLast? ≠ some '\r' := by
    intro text h hc
    rw [h] at hc
    exact absurd hc (by decide)
  have hpre' : pre.getLast? ≠ some '\r' := by
    rcases hpre with h | h
    · rw [h]
      decide
    · exact hcr pre h
  have hlast : (gsubLf layout).getLast? = some '\n' := by
    rcases List.getLast?_eq_some_iff.mp hlayout with ⟨init, hinit⟩
    have hlf : gsubLf layout = gsubLf init ++ ['\r'] ++ ['\n'] := by
      rw [hinit, gsubLf, List.flatMap_append, List.append_assoc, gsubLf]
      rfl
    rw [hlf]
    exact List.getLast?_concat
  rw [List.append_assoc, gsubCrlf_append pre _ (Or.inl hpre'),
    gsubCrlf_append (gsubLf layout) suffix (Or.inl (hcr _ hlast)), gsubCrlf_gsubLf]

/-- A block is read out of the text around it exactly when no END line stands in
    front of it. -/
theorem surrounded_read_iff (data : Bytes) (type : Option String) (armored pre suffix : Text)
    (harmored : armor data type = .ok armored) (hpre : pre = [] ∨ pre.getLast? = some '\n')
    (hbegin : ∀ line ∈ (gsubCrlf pre).splitOn '\n', isBegin line = false) :
    dearmor (pre ++ armored ++ suffix) = .ok data ↔
      ∀ line ∈ (gsubCrlf pre).splitOn '\n', isEnd line = false := by
  unfold armor at harmored
  cases hlookup : labels.lookup type with
  | none =>
      simp only [hlookup] at harmored
      exact absurd harmored (by simp only [reduceCtorEq, not_false_eq_true])
  | some label =>
      simp only [hlookup, Except.ok.injEq] at harmored
      have hlabel := label_proper type label hlookup
      have hlayout := layout_eq_unlines label.toList (dataLines data) (crc24Armor data)
      have hnormal := gsubCrlf_surrounded pre
        (layout label.toList (dataLines data) (crc24Armor data)) suffix hpre
        (by rw [hlayout, ← List.append_assoc]; exact List.getLast?_concat)
      rw [harmored] at hnormal
      -- What stands in front of the block is lines.
      rcases exists_unlines (gsubCrlf pre) (hpre.imp (fun h => by rw [h]; rfl)
        (fun h => getLast?_gsubCrlf pre h)) with ⟨lines, hlines, hnl⟩
      have hsplit := splitOn_unlines_append lines [] hnl
      rw [List.append_nil, ← hlines, List.splitOn_nil] at hsplit
      rw [hsplit, List.forall_mem_append, List.forall_mem_singleton] at hbegin ⊢
      rw [hlines] at hnormal
      constructor
      · intro h
        refine ⟨?_, by decide⟩
        intro line hmem
        by_contra hend
        rw [Bool.not_eq_false] at hend
        have herror := dearmor_of_early_end (pre ++ armored ++ suffix) lines
          (beginHead ++ label.toList ++ hyphens)
          (unlines ([] :: (bodyLines (dataLines data) ++ ['=' :: crc24Armor data]))
            ++ (endHead ++ label.toList ++ hyphens ++ ['\n'] ++ gsubCrlf suffix))
          (by rw [hnormal, hlayout, unlines_cons]; simp only [List.append_assoc, List.cons_append])
          hnl (not_mem_delimiter '\n' (by decide) (by decide) beginHead label.toList (by decide)
            hlabel.2) hbegin.1
          (delimiter_of_label beginHead label.toList hlabel.1 hlabel.2) ⟨line, hmem, hend⟩
        rw [h] at herror
        exact absurd herror (by simp only [reduceCtorEq, not_false_eq_true])
      · rintro ⟨hend, _⟩
        rw [dearmor_layout label.toList hlabel (dataLines data) data data
          (isData_of_mem_dataLines data) (flatten_dataLines data) _ lines (gsubCrlf suffix) hnormal
          hnl hbegin.1 hend]
        exact if_neg (not_not.mpr rfl)

/-- A block in a mail, with a stray END line behind it. -/
theorem mail_text_read :
    (armor [0x66] none >>= fun armored =>
      dearmor ("Hello,\r\n\r\n".toList ++ armored ++ "-----END PGP MESSAGE-----".toList))
      = .ok [0x66] :=
  (surrounded_read_iff [0x66] none _ "Hello,\r\n\r\n".toList
    "-----END PGP MESSAGE-----".toList rfl (by decide) (by decide)).mpr (by decide)

/-- A block behind a stray END line. The text in front ends in an LF and has no
    BEGIN line. -/
theorem end_line_in_front :
    (∀ line ∈ (gsubCrlf "-----END PGP MESSAGE-----\n".toList).splitOn '\n',
        isBegin line = false) ∧
      (armor [0x66] none >>= fun armored =>
        dearmor ("-----END PGP MESSAGE-----\n".toList ++ armored ++ []))
        = .error .noData := by
  decide +kernel

/-! ### Headers, line endings and the checksum -/

/-- A header line: a key of letters, digits and hyphens, and a value on the same
    line. -/
structure ArmorHeader where
  key : Text
  value : Text
  key_ne : key ≠ []
  key_char : ∀ c ∈ key, isKeyChar c = true
  value_line : '\n' ∉ value ∧ '\r' ∉ value

namespace ArmorHeader

def line (h : ArmorHeader) : Text := h.key ++ ([':', ' '] ++ h.value)

/-- What the reader sees past the key. -/
theorem dropWhile_line (h : ArmorHeader) :
    h.line.dropWhile isKeyChar = [':', ' '] ++ h.value := by
  rw [line, List.dropWhile_append_of_pos h.key_char]
  exact List.dropWhile_cons_of_neg (by decide)

theorem isHeader_line (h : ArmorHeader) : isHeader h.line = true := by
  have htake : h.line.takeWhile isKeyChar = h.key := by
    rw [line, List.takeWhile_append_of_pos h.key_char, List.cons_append,
      List.takeWhile_cons_of_neg (by decide), List.append_nil]
  have hne : h.key.isEmpty = false := by
    simpa only [List.isEmpty_eq_false_iff] using h.key_ne
  have hpre : [':', ' '].isPrefixOf ([':', ' '] ++ h.value) = true :=
    List.isPrefixOf_iff_prefix.mpr (List.prefix_append _ _)
  rw [isHeader, htake, h.dropWhile_line, hne, hpre, Bool.not_false, Bool.true_and, Bool.or_true]

theorem line_break (h : ArmorHeader) : '\n' ∉ h.line ∧ '\r' ∉ h.line := by
  constructor
  · intro hmem
    rcases List.mem_append.mp hmem with hc | hc
    · exact absurd (h.key_char _ hc) (by decide)
    · rcases List.mem_append.mp hc with hc | hc
      · exact absurd hc (by decide)
      · exact h.value_line.1 hc
  · intro hmem
    rcases List.mem_append.mp hmem with hc | hc
    · exact absurd (h.key_char _ hc) (by decide)
    · rcases List.mem_append.mp hc with hc | hc
      · exact absurd hc (by decide)
      · exact h.value_line.2 hc

/-- A header is no END line: past the characters of a key an END line has a
    space, and a header a colon. -/
theorem plain_line (h : ArmorHeader) : Plain h.line := by
  refine ⟨h.line_break.1, ?_⟩
  by_contra hend
  rw [Bool.not_eq_false, isEnd, delimiter, Bool.and_eq_true, Bool.and_eq_true] at hend
  rcases List.isPrefixOf_iff_prefix.mp hend.1.1 with ⟨rest, hrest⟩
  have hdrop := h.dropWhile_line
  rw [← hrest] at hdrop
  have hspace : (endHead ++ rest).dropWhile isKeyChar = " PGP ".toList ++ rest := by
    have hhead : endHead = "-----END".toList ++ " PGP ".toList := by decide
    have hkey : "-----END".toList.all isKeyChar = true := by decide
    rw [hhead, List.append_assoc, List.dropWhile_append_of_pos (List.all_eq_true.mp hkey)]
    exact List.dropWhile_cons_of_neg (by decide)
  rw [hspace] at hdrop
  exact absurd (List.cons.inj hdrop).1 (by decide)

end ArmorHeader

/-- How a line ends. -/
inductive LineEnd where
  | lf
  | crlf

def LineEnd.text : LineEnd → Text
  | .lf => ['\n']
  | .crlf => ['\r', '\n']

/-- Lines, each with its own ending. -/
def writeLines (lines : List (Text × LineEnd)) : Text :=
  lines.flatMap (fun line => line.1 ++ line.2.text)

/-- Normalising makes every ending an LF. -/
theorem gsubCrlf_writeLines (lines : List (Text × LineEnd))
    (h : ∀ line ∈ lines.map Prod.fst, '\n' ∉ line ∧ '\r' ∉ line) :
    gsubCrlf (writeLines lines) = unlines (lines.map Prod.fst) := by
  induction lines with
  | nil => rfl
  | cons line lines ih =>
      rcases line with ⟨line, ending⟩
      rw [List.map_cons, List.forall_mem_cons] at h
      have ih' := ih h.2
      have hcr : line.getLast? ≠ some '\r' := fun hlast => h.1.2 (List.mem_of_getLast? hlast)
      have hwrite : writeLines ((line, ending) :: lines)
          = line ++ (ending.text ++ writeLines lines) := by
        rw [writeLines, List.flatMap_cons, List.append_assoc, writeLines]
      rw [hwrite, gsubCrlf_append line _ (Or.inl hcr), gsubCrlf_of_newline_not_mem line h.1.1,
        List.map_cons, unlines_cons, ← ih']
      congr 1
      cases ending with
      | lf => exact gsubCrlf_append ['\n'] (writeLines lines) (Or.inl (by decide))
      | crlf => rw [LineEnd.text, List.cons_append, List.singleton_append, gsubCrlf,
          if_pos ⟨rfl, rfl⟩]

/-- The lines between the blank line and the END line, with the checksum or
    without. -/
def payloadLines (data : Bytes) (checksum : Bool) : List Text :=
  bodyLines (dataLines data) ++ (if checksum then ['=' :: crc24Armor data] else [])

theorem payloadLines_radix (data : Bytes) (checksum : Bool) :
    ∀ line ∈ payloadLines data checksum, Radix line := by
  intro line hmem
  rcases List.mem_append.mp hmem with hmem | hmem
  · rcases mem_bodyLines _ line hmem with hblank | hdata
    · rw [hblank]
      exact fun _ hc => absurd hc List.not_mem_nil
    · exact radix_of_isData line (isData_of_mem_dataLines data line hdata)
  · cases checksum with
    | false => exact absurd hmem List.not_mem_nil
    | true =>
        rw [if_pos rfl, List.mem_singleton] at hmem
        rw [hmem]
        exact radix_checksum data

/-- The lines of what `armor` writes under a label, with headers behind the
    BEGIN line, and with the checksum or without. -/
def armorLines (label : String) (headers : List ArmorHeader) (data : Bytes) (checksum : Bool) :
    List Text :=
  (beginHead ++ label.toList ++ hyphens) :: (headers.map ArmorHeader.line ++
    [] :: (payloadLines data checksum ++ [endHead ++ label.toList ++ hyphens]))

/-- Lines changed to CRLF are lines that end in it. -/
theorem gsubLf_unlines (lines : List Text) (h : ∀ line ∈ lines, '\n' ∉ line) :
    gsubLf (unlines lines) = writeLines (lines.map (fun line => (line, .crlf))) := by
  have hline : ∀ line : Text, '\n' ∉ line → gsubLf line = line := by
    intro line hnl
    induction line with
    | nil => rfl
    | cons c rest ih =>
        rw [List.mem_cons, not_or] at hnl
        have hcons : gsubLf (c :: rest) = [c] ++ gsubLf rest := by
          rw [gsubLf, List.flatMap_cons, if_neg (Ne.symm hnl.1), gsubLf]
        rw [hcons, ih hnl.2, List.singleton_append]
  induction lines with
  | nil => rfl
  | cons line lines ih =>
      rw [List.forall_mem_cons] at h
      have hsplit : gsubLf (line ++ '\n' :: unlines lines)
          = gsubLf line ++ (['\r', '\n'] ++ gsubLf (unlines lines)) := by
        rw [gsubLf, List.flatMap_append, List.flatMap_cons, gsubLf, gsubLf]
        rfl
      rw [unlines_cons, hsplit, hline line h.1, ih h.2, List.map_cons, writeLines, writeLines,
        List.flatMap_cons, List.append_assoc]
      rfl

/-- A line of a block breaks nowhere, neither at an LF nor at a CR. -/
theorem armorLines_line_break (label : String) (hlabel : ProperLabel label.toList)
    (headers : List ArmorHeader) (data : Bytes) (checksum : Bool) :
    ∀ line ∈ armorLines label headers data checksum, '\n' ∉ line ∧ '\r' ∉ line := by
  have hradix : ∀ line : Text, Radix line → '\n' ∉ line ∧ '\r' ∉ line := by
    intro line h
    refine ⟨(plain_of_radix line h).1, fun hmem => ?_⟩
    rcases h _ hmem with hc | hc
    · exact absurd hc (by decide)
    · exact absurd hc (by decide)
  have hdelimiter : ∀ head : Text, '\n' ∉ head → '\r' ∉ head →
      '\n' ∉ head ++ label.toList ++ hyphens ∧ '\r' ∉ head ++ label.toList ++ hyphens :=
    fun head hn hr =>
      ⟨not_mem_delimiter '\n' (by decide) (by decide) head label.toList hn hlabel.2,
        not_mem_delimiter '\r' (by decide) (by decide) head label.toList hr hlabel.2⟩
  rw [armorLines, List.forall_mem_cons, List.forall_mem_append, List.forall_mem_cons,
    List.forall_mem_append, List.forall_mem_singleton]
  refine ⟨hdelimiter beginHead (by decide) (by decide), ?_, by decide, ?_,
    hdelimiter endHead (by decide) (by decide)⟩
  · intro line hmem
    rcases List.mem_map.mp hmem with ⟨h, _, hline⟩
    rw [← hline]
    exact h.line_break
  · intro line hmem
    exact hradix line (payloadLines_radix data checksum line hmem)

/-- What `armor` writes is such lines, without a header and with CRLF
    throughout. -/
theorem armor_eq_writeLines (data : Bytes) (type : Option String) (label : String)
    (htype : labels.lookup type = some label) :
    armor data type
      = .ok (writeLines ((armorLines label [] data true).map (fun line => (line, .crlf)))) := by
  have hlayout : layout label.toList (dataLines data) (crc24Armor data)
      = unlines (armorLines label [] data true) := by
    have hend : unlines [endHead ++ label.toList ++ hyphens]
        = endHead ++ label.toList ++ hyphens ++ ['\n'] := by
      rw [unlines_cons]
      rfl
    rw [layout_eq_unlines, ← hend, ← unlines_append]
    rfl
  simp only [armor, htype]
  rw [hlayout, gsubLf_unlines]
  intro line hmem
  exact (armorLines_line_break label (label_proper type label htype) [] data true line hmem).1

/-- The payload ends in a line that is not blank: the checksum, or else a line of
    data. -/
theorem payloadLines_last (data : Bytes) (checksum : Bool) (h : checksum = true ∨ data ≠ []) :
    ∃ body last, payloadLines data checksum = body ++ [last] ∧ last ≠ [] := by
  cases checksum with
  | true => exact ⟨bodyLines (dataLines data), '=' :: crc24Armor data, rfl, List.cons_ne_nil _ _⟩
  | false =>
      have hdata : data ≠ [] := h.resolve_left Bool.false_ne_true
      -- Base64 of something is something, and so there is a line of it.
      have hlines : dataLines data ≠ [] := by
        intro hnil
        have hflat := flatten_dataLines data
        rw [hnil, List.flatten_nil] at hflat
        exact hdata ((encode64_eq_nil_iff data).mp hflat.symm)
      rcases List.eq_nil_or_concat (dataLines data) with hnil | ⟨body, last, hconcat⟩
      · exact absurd hnil hlines
      · rw [List.concat_eq_append] at hconcat
        refine ⟨body, last, ?_, ?_⟩
        · rw [payloadLines, bodyLines, if_neg hlines, if_neg Bool.false_ne_true, List.append_nil,
            hconcat]
        · intro hblank
          have hmem : last ∈ dataLines data := by
            rw [hconcat]
            exact List.mem_append_right _ List.mem_cons_self
          rw [hblank] at hmem
          exact absurd (isData_of_mem_dataLines data [] hmem) (by decide)

/-- What the payload holds. -/
theorem payloadLines_text (data : Bytes) (checksum : Bool) :
    (∀ line ∈ payloadLines data checksum, Recognised line) ∧
      dataText (payloadLines data checksum) = encode64 data ∧
      checksum? (payloadLines data checksum)
        = if checksum then some (crc24Armor data) else none := by
  have hdata := isData_of_mem_dataLines data
  rw [← flatten_dataLines]
  cases checksum with
  | true => exact written_text (dataLines data) (crc24Armor data) hdata
  | false =>
      rcases bodyLines_text (dataLines data) hdata with ⟨hbody, hflat⟩
      rcases data_text _ hbody with ⟨hrec, htext, hno⟩
      rw [payloadLines, if_neg Bool.false_ne_true, List.append_nil, ← hflat]
      refine ⟨hrec, htext, ?_⟩
      rw [checksum?, hno]
      rfl

/-- Headers, line endings and an absent checksum do not change the payload. -/
theorem headed_read (data : Bytes) (type : Option String) (label : String)
    (headers : List ArmorHeader) (checksum : Bool) (written : List (Text × LineEnd))
    (htype : labels.lookup type = some label) (hchecksum : checksum = true ∨ data ≠ [])
    (hwritten : written.map Prod.fst = armorLines label headers data checksum) :
    dearmor (writeLines written) = .ok data := by
  have hlabel := label_proper type label htype
  rcases payloadLines_last data checksum hchecksum with ⟨body, last, hpayload, hlast⟩
  have hplain : ∀ line ∈ body ++ [last], Plain line := by
    rw [← hpayload]
    exact fun line hmem => plain_of_radix line (payloadLines_radix data checksum line hmem)
  have hheaders : ∀ line ∈ headers.map ArmorHeader.line, isHeader line = true ∧ Plain line := by
    intro line hmem
    rcases List.mem_map.mp hmem with ⟨h, _, hline⟩
    rw [← hline]
    exact ⟨h.isHeader_line, h.plain_line⟩
  have hlines : blockLines (writeLines written) = .ok (payloadLines data checksum) := by
    rw [hpayload]
    refine (labelledBlock label.toList hlabel (headers.map ArmorHeader.line) body last
      (fun line h => (hheaders line h).1) (fun line h => (hheaders line h).2) hlast
      hplain).blockLines_eq _ [] [] ?_ (fun _ h => absurd h List.not_mem_nil)
      (fun _ h => absurd h List.not_mem_nil) (fun _ h => absurd h List.not_mem_nil)
    -- Whatever the endings were, they are LFs now, and the END line is the last.
    have hsplit : armorLines label headers data checksum
        = ((beginHead ++ label.toList ++ hyphens) :: (headers.map ArmorHeader.line ++
            [] :: (body ++ [last]))) ++ [endHead ++ label.toList ++ hyphens] := by
      rw [armorLines, hpayload]
      simp only [List.cons_append, List.append_assoc]
    rw [gsubCrlf_writeLines written (by
      rw [hwritten]
      exact armorLines_line_break label hlabel headers data checksum), hwritten, hsplit,
      unlines_append, unlines_cons (endHead ++ label.toList ++ hyphens)]
    rfl
  rcases payloadLines_text data checksum with ⟨hrec, htext, hcrc⟩
  rw [dearmor_eq _ _ hlines hrec, htext, hcrc, decode64_encode64]
  cases checksum with
  | true =>
      rw [if_pos rfl, if_neg (by simp only [reduceCtorEq, and_false, not_false_eq_true])]
      exact if_neg (not_not.mpr rfl)
  | false =>
      have hne : ¬ encode64 data = [] := fun hnil =>
        hchecksum.resolve_left Bool.false_ne_true ((encode64_eq_nil_iff data).mp hnil)
      rw [if_neg (fun hempty => hne hempty.1)]
      rfl

/-- A header with an empty value. -/
def emptyComment : ArmorHeader :=
  ⟨"Comment".toList, [], by decide, List.all_eq_true.mp (by decide), by decide⟩

/-- A block of one byte with two headers and no checksum, and either ending in
    turn. -/
def mixedEndings : List (Text × LineEnd) :=
  [("-----BEGIN PGP MESSAGE-----".toList, .lf), ("Comment: ".toList, .crlf),
    ("Comment: ".toList, .lf), ([], .crlf), ("Zg==".toList, .lf),
    ("-----END PGP MESSAGE-----".toList, .crlf)]

theorem mixed_endings_read :
    dearmor ("-----BEGIN PGP MESSAGE-----\nComment: \r\nComment: \n\r\nZg==\n" ++
        "-----END PGP MESSAGE-----\r\n").toList
      = .ok [0x66] := by
  have htext : ("-----BEGIN PGP MESSAGE-----\nComment: \r\nComment: \n\r\nZg==\n" ++
      "-----END PGP MESSAGE-----\r\n").toList = writeLines mixedEndings := by
    decide +kernel
  rw [htext]
  exact headed_read [0x66] none "MESSAGE" [emptyComment, emptyComment] false mixedEndings rfl
    (Or.inr (by decide)) (by decide)

end OpenPGP

end Confium
