import Confium.Lib.Base64
import Mathlib.Data.List.DropRight

/-!
# Text by Lines

What a line-oriented reader does to a text before it looks at a line: turn CRLF
into LF, split at LF, and find the first line that matches a pattern anchored at
both ends.

`split("\n")` drops the empty fields at the end, so it is not the inverse of
joining lines. Everything here is therefore stated about `unlines`, a list of
lines with an LF after each, which is what a well-formed text is.

A pattern `^...$` that cannot match an LF matches exactly the whole lines it
accepts, so it is given as a predicate on lines, and `lineIndex` is the offset
`String#index` reports for it.

## Main definitions

* `unlines`: A list of lines, each ended by an LF.
* `gsubLf`: `gsub("\n", "\r\n")`.
* `gsubCrlf`: `gsub("\r\n", "\n")`.
* `splitLines`: `split("\n")`.
* `lineIndex`: The offset of the first line that matches.
* `scan`: `scan(/.{1,n}/)` on a text without LF.
* `firstLine`: The first line of a stream.
* `eachLine`: The lines of a stream.

## Theorems

* `gsubCrlf_gsubLf`: Normalising undoes the change to CRLF.
* `gsubCrlf_append`: Texts are normalised apart from each other.
* `exists_unlines`: A text that ends in an LF is lines.
* `splitLines_unlines`: Lines that end in a non-empty one are split back.
* `lineIndex_unlines`: The first matching line is found at its offset.
* `span_append`: A run of characters of one kind.
* `firstLine_append`: A line that was sent is the line that is read.
* `eachLine_flatten`: Lines that were sent are the lines that are read.
* `flatten_scan`: Cutting loses nothing.
* `forall_mem_scan`: What every cut of a text satisfies.
-/

namespace Ruby

/-- A list of lines, each ended by an LF. -/
def unlines (lines : List Text) : Text := lines.flatMap (fun line => line ++ ['\n'])

/-- `text.gsub("\n", "\r\n")`. -/
def gsubLf (text : Text) : Text := text.flatMap (fun c => if c = '\n' then ['\r', '\n'] else [c])

/-- `text.gsub("\r\n", "\n")`. -/
def gsubCrlf : Text → Text
  | [] => []
  | [c] => [c]
  | c :: d :: rest =>
    if c = '\r' ∧ d = '\n' then '\n' :: gsubCrlf rest else c :: gsubCrlf (d :: rest)

/-- `text.split("\n")`, without the empty fields at the end. -/
def splitLines (text : Text) : List Text := (text.splitOn '\n').rdropWhile List.isEmpty

/-- The offset of the first line that matches, in a text of these lines. -/
def lineOffset (p : Text → Bool) : List Text → Option Nat
  | [] => none
  | line :: rest => if p line then some 0 else (lineOffset p rest).map (line.length + 1 + ·)

/-- `text.index(/^...$/)`, for a pattern that cannot match an LF. -/
def lineIndex (p : Text → Bool) (text : Text) : Option Nat := lineOffset p (text.splitOn '\n')

/-- `text.scan(/.{1,width}/)`, for a text without LF. -/
def scan (width : Nat) : Nat → Text → List Text
  | 0, _ => []
  | _ + 1, [] => []
  | fuel + 1, c :: rest =>
    (c :: rest).take width :: scan width fuel ((c :: rest).drop width)

/-- The first line of a stream, with its LF: what `readline` and the first round
    of `each_line` take. -/
def firstLine (stream : Text) : Text :=
  stream.takeWhile (fun c => c != '\n') ++ (stream.dropWhile (fun c => c != '\n')).take 1

/-- The lines of a stream, each with its LF, but for the last if it has none: what
    `each_line` yields. -/
def eachLine : Text → List Text
  | [] => []
  | c :: rest =>
    if c = '\n' then [c] :: eachLine rest
    else
      match eachLine rest with
      | [] => [[c]]
      | line :: lines => (c :: line) :: lines

theorem unlines_cons (line : Text) (lines : List Text) :
    unlines (line :: lines) = line ++ '\n' :: unlines lines := by
  rw [unlines, List.flatMap_cons, List.append_assoc, List.singleton_append, unlines]

theorem unlines_append (a b : List Text) : unlines (a ++ b) = unlines a ++ unlines b := by
  rw [unlines, List.flatMap_append, unlines, unlines]

/-- Joining with LF and ending with one is the same as ending every line with
    one, as long as there is a line. -/
theorem intercalate_append_newline (lines : List Text) (h : lines ≠ []) :
    ['\n'].intercalate lines ++ ['\n'] = unlines lines := by
  induction lines with
  | nil => exact absurd rfl h
  | cons line rest ih =>
      -- A separator stands before every line but the first, an LF after every line.
      cases rest with
      | nil => rw [List.intercalate_singleton, unlines_cons, unlines, List.flatMap_nil]
      | cons next rest =>
          have ih' := ih (List.cons_ne_nil next rest)
          rw [List.intercalate_cons_cons, List.append_assoc, List.append_assoc, ih',
            List.singleton_append, unlines_cons line]

/-- A text that does not start with an LF can be normalised past its first
    character. -/
theorem gsubCrlf_cons (c : Char) (text : Text) (h : ∀ rest, text ≠ '\n' :: rest) :
    gsubCrlf (c :: text) = c :: gsubCrlf text := by
  cases text with
  | nil => rw [gsubCrlf, gsubCrlf]
  | cons d rest =>
      have hd : d ≠ '\n' := fun hd => h rest (by rw [hd])
      rw [gsubCrlf, if_neg (fun hcd => hd hcd.2)]

/-- Every LF of a changed text follows a CR. -/
theorem gsubLf_ne_cons_newline (text rest : Text) : gsubLf text ≠ '\n' :: rest := by
  intro h
  cases text with
  | nil => exact absurd h (by simp only [gsubLf, List.flatMap_nil, reduceCtorEq, not_false_eq_true])
  | cons c text =>
      rw [gsubLf, List.flatMap_cons] at h
      by_cases hc : c = '\n'
      · rw [if_pos hc, List.cons_append, List.cons.injEq] at h
        exact absurd h.1 (by decide)
      · rw [if_neg hc, List.singleton_append, List.cons.injEq] at h
        exact hc h.1

/-- Normalising undoes the change to CRLF. -/
theorem gsubCrlf_gsubLf (text : Text) : gsubCrlf (gsubLf text) = text := by
  induction text with
  | nil => rfl
  | cons c rest ih =>
      have hcons : gsubLf (c :: rest) =
          (if c = '\n' then ['\r', '\n'] else [c]) ++ gsubLf rest := by
        rw [gsubLf, List.flatMap_cons, gsubLf]
      -- An LF becomes a pair and is read as one; anything else is read alone,
      -- because what follows it does not start with an LF.
      by_cases hc : c = '\n'
      · rw [hcons, if_pos hc, List.cons_append, List.singleton_append, gsubCrlf,
          if_pos ⟨rfl, rfl⟩, ih, hc]
      · rw [hcons, if_neg hc, List.singleton_append,
          gsubCrlf_cons c _ (gsubLf_ne_cons_newline rest), ih]

/-- Two texts are normalised apart from each other, unless a pair straddles
    them. -/
theorem gsubCrlf_append (a b : Text) (h : a.getLast? ≠ some '\r' ∨ b.head? ≠ some '\n') :
    gsubCrlf (a ++ b) = gsubCrlf a ++ gsubCrlf b := by
  fun_induction gsubCrlf a with
  | case1 => rfl
  | case2 c =>
      cases b with
      | nil => rfl
      | cons d rest =>
          -- No pair is formed across the two texts.
          have hpair : ¬ (c = '\r' ∧ d = '\n') := by
            rintro ⟨rfl, rfl⟩
            rcases h with h | h
            · exact h rfl
            · exact h rfl
          rw [List.singleton_append, List.singleton_append, gsubCrlf, if_neg hpair]
  | case3 c d rest hpair ih =>
      have hrest : rest.getLast? ≠ some '\r' ∨ b.head? ≠ some '\n' := by
        rcases h with h | h
        · refine Or.inl (fun hlast => h ?_)
          rw [List.getLast?_cons, List.getLast?_cons, hlast]
          rfl
        · exact Or.inr h
      rw [List.cons_append, List.cons_append, gsubCrlf, if_pos hpair, ih hrest, List.cons_append]
  | case4 c d rest hpair ih =>
      have hrest : (d :: rest).getLast? ≠ some '\r' ∨ b.head? ≠ some '\n' := by
        rcases h with h | h
        · refine Or.inl (fun hlast => h ?_)
          rw [List.getLast?_cons, hlast]
          rfl
        · exact Or.inr h
      have ih' := ih hrest
      rw [List.cons_append] at ih'
      rw [List.cons_append, List.cons_append, gsubCrlf, if_neg hpair, ih', List.cons_append]

/-- Normalising keeps the LF at the end of a text. -/
theorem getLast?_gsubCrlf (text : Text) (h : text.getLast? = some '\n') :
    (gsubCrlf text).getLast? = some '\n' := by
  rcases List.getLast?_eq_some_iff.mp h with ⟨init, hinit⟩
  by_cases hcr : init.getLast? = some '\r'
  · -- The LF and the CR before it become one LF.
    rcases List.getLast?_eq_some_iff.mp hcr with ⟨first, hfirst⟩
    have hpair : ['\r', '\n'].head? ≠ some '\n' := by decide
    rw [hinit, hfirst, List.append_assoc, List.singleton_append,
      gsubCrlf_append first ['\r', '\n'] (Or.inr hpair)]
    exact List.getLast?_concat
  · rw [hinit, gsubCrlf_append init ['\n'] (Or.inl hcr)]
    exact List.getLast?_concat

/-- A text without LF is left as it is. -/
theorem gsubCrlf_of_newline_not_mem (text : Text) (h : '\n' ∉ text) : gsubCrlf text = text := by
  induction text with
  | nil => rfl
  | cons c rest ih =>
      rw [List.mem_cons, not_or] at h
      rw [gsubCrlf_cons c rest, ih h.2]
      rintro tail rfl
      exact h.2 List.mem_cons_self

/-- Every text is lines and a rest that has no LF. -/
theorem exists_unlines_append (text : Text) :
    ∃ lines rest, text = unlines lines ++ rest ∧ (∀ line ∈ lines, '\n' ∉ line) ∧ '\n' ∉ rest := by
  induction text with
  | nil => exact ⟨[], [], rfl, fun _ h => absurd h List.not_mem_nil, List.not_mem_nil⟩
  | cons c text ih =>
      rcases ih with ⟨lines, rest, heq, hlines, hrest⟩
      by_cases hc : c = '\n'
      · refine ⟨[] :: lines, rest, ?_, ?_, hrest⟩
        · rw [heq, hc, unlines_cons, List.nil_append, List.cons_append]
        · rw [List.forall_mem_cons]
          exact ⟨List.not_mem_nil, hlines⟩
      · -- The character goes in front of the first line, or of the rest.
        cases lines with
        | nil =>
            refine ⟨[], c :: rest, ?_, hlines, ?_⟩
            · rw [heq]
              rfl
            · rw [List.mem_cons, not_or]
              exact ⟨Ne.symm hc, hrest⟩
        | cons line lines =>
            rw [List.forall_mem_cons] at hlines
            refine ⟨(c :: line) :: lines, rest, ?_, ?_, hrest⟩
            · rw [heq, unlines_cons, unlines_cons]
              rfl
            · rw [List.forall_mem_cons, List.mem_cons, not_or]
              exact ⟨⟨Ne.symm hc, hlines.1⟩, hlines.2⟩

/-- A text that ends in an LF is lines. -/
theorem exists_unlines (text : Text) (h : text = [] ∨ text.getLast? = some '\n') :
    ∃ lines, text = unlines lines ∧ ∀ line ∈ lines, '\n' ∉ line := by
  rcases exists_unlines_append text with ⟨lines, rest, heq, hlines, hrest⟩
  cases hcase : rest.getLast? with
  | none =>
      rw [List.getLast?_eq_none_iff.mp hcase, List.append_nil] at heq
      exact ⟨lines, heq, hlines⟩
  | some c =>
      -- A rest would be the end of the text, without an LF.
      have hmem := List.mem_of_getLast? hcase
      rcases h with h | h
      · rw [h] at heq
        rw [(List.append_eq_nil_iff.mp heq.symm).2] at hmem
        exact absurd hmem List.not_mem_nil
      · rw [heq, List.getLast?_append, hcase, Option.some_or, Option.some.injEq] at h
        rw [h] at hmem
        exact absurd hmem hrest

/-- Splitting takes lines off the front one by one. -/
theorem splitOn_unlines_append (lines : List Text) (rest : Text)
    (h : ∀ line ∈ lines, '\n' ∉ line) :
    (unlines lines ++ rest).splitOn '\n' = lines ++ rest.splitOn '\n' := by
  induction lines with
  | nil => rw [unlines, List.flatMap_nil, List.nil_append, List.nil_append]
  | cons line lines ih =>
      have hline := h line List.mem_cons_self
      have ih' := ih (fun l hl => h l (List.mem_cons_of_mem line hl))
      rw [unlines_cons, List.append_assoc, List.cons_append,
        List.splitOn_append_cons_self_of_not_mem hline, ih', List.cons_append]

/-- Lines that end in a non-empty one are split back. -/
theorem splitLines_unlines (lines : List Text) (last : Text)
    (h : ∀ line ∈ lines ++ [last], '\n' ∉ line) (hlast : last ≠ []) :
    splitLines (unlines (lines ++ [last])) = lines ++ [last] := by
  have hsplit := splitOn_unlines_append (lines ++ [last]) [] h
  rw [List.append_nil, List.splitOn_nil] at hsplit
  -- The LF at the very end makes one empty field, and dropping stops at `last`.
  rw [splitLines, hsplit, List.rdropWhile_concat_pos _ _ _ rfl,
    List.rdropWhile_concat_neg _ _ _ (by simpa only [List.isEmpty_iff] using hlast)]

theorem lineOffset_append (p : Text → Bool) (lines rest : List Text) (line : Text)
    (h : ∀ l ∈ lines, p l = false) (hline : p line = true) :
    lineOffset p (lines ++ line :: rest) = some (unlines lines).length := by
  induction lines with
  | nil =>
      rw [List.nil_append, lineOffset, if_pos hline, unlines, List.flatMap_nil, List.length_nil]
  | cons l lines ih =>
      have hl := h l List.mem_cons_self
      have ih' := ih (fun k hk => h k (List.mem_cons_of_mem l hk))
      rw [List.cons_append, lineOffset, if_neg (by rw [hl]; exact Bool.false_ne_true), ih',
        Option.map_some, unlines_cons, List.length_append, List.length_cons, Option.some.injEq]
      omega

/-- The first matching line is found at its offset. -/
theorem lineIndex_unlines (p : Text → Bool) (lines : List Text) (line rest : Text)
    (hlines : ∀ l ∈ lines, '\n' ∉ l) (hnl : '\n' ∉ line)
    (h : ∀ l ∈ lines, p l = false) (hline : p line = true) :
    lineIndex p (unlines lines ++ (line ++ '\n' :: rest)) = some (unlines lines).length := by
  rw [lineIndex, splitOn_unlines_append lines _ hlines,
    List.splitOn_append_cons_self_of_not_mem hnl, lineOffset_append p lines _ line h hline]

/-- A run of characters ends where the next one is not of its kind. -/
theorem span_append (p : Char → Bool) (front rest : Text) (hfront : ∀ c ∈ front, p c = true)
    (hrest : ∀ c, rest.head? = some c → p c = false) :
    (front ++ rest).takeWhile p = front ∧ (front ++ rest).dropWhile p = rest := by
  rw [List.takeWhile_append_of_pos hfront, List.dropWhile_append_of_pos hfront]
  cases rest with
  | nil => exact ⟨List.append_nil front, rfl⟩
  | cons c rest =>
      have hc : ¬ p c = true := by
        rw [hrest c rfl]
        exact Bool.false_ne_true
      rw [List.takeWhile_cons_of_neg hc, List.dropWhile_cons_of_neg hc, List.append_nil]
      exact ⟨rfl, rfl⟩

/-- The digits of a number end where something else follows. -/
theorem span_toDigits (n : Nat) (rest : Text)
    (hrest : ∀ c, rest.head? = some c → c.isDigit = false) :
    (Nat.toDigits 10 n ++ rest).takeWhile Char.isDigit = Nat.toDigits 10 n ∧
      (Nat.toDigits 10 n ++ rest).dropWhile Char.isDigit = rest :=
  span_append Char.isDigit _ rest
    (fun _ hc => Nat.isDigit_of_mem_toDigits (by omega) (by omega) hc) hrest

/-- A line that was sent is the line that is read, whatever follows it. -/
theorem firstLine_append (line rest : Text) (h : '\n' ∉ line) :
    firstLine (line ++ '\n' :: rest) = line ++ ['\n'] := by
  have hall : ∀ c ∈ line, (c != '\n') = true := by
    intro c hc
    rw [bne_iff_ne]
    rintro rfl
    exact h hc
  have hspan := span_append (fun c => c != '\n') line ('\n' :: rest) hall (fun c hc => by
    rw [← Option.some.inj hc]
    rfl)
  rw [firstLine, hspan.1, hspan.2, List.take_succ_cons, List.take_zero]

/-- Cutting loses nothing. -/
theorem flatten_scan (width fuel : Nat) (text : Text) (hwidth : 0 < width)
    (hfuel : text.length ≤ fuel) : (scan width fuel text).flatten = text := by
  induction fuel generalizing text with
  | zero =>
      rw [List.length_eq_zero_iff.mp (Nat.le_zero.mp hfuel), scan, List.flatten_nil]
  | succ fuel ih =>
      cases text with
      | nil => rw [scan, List.flatten_nil]
      | cons c rest =>
          -- The width is positive, so what is left is shorter.
          have hlen : ((c :: rest).drop width).length ≤ fuel := by
            rw [List.length_drop]
            omega
          rw [scan, List.flatten_cons, ih _ hlen, List.take_append_drop]

/-- What every cut of a text satisfies: if a property of texts is passed on to
    what a cut leaves, and gives `Q` of the cut, then `Q` holds of them all. -/
theorem forall_mem_scan (width : Nat) (P Q : Text → Prop)
    (hcut : ∀ text, P text → text ≠ [] → Q (text.take width) ∧ P (text.drop width))
    (fuel : Nat) (text : Text) (h : P text) : ∀ line ∈ scan width fuel text, Q line := by
  induction fuel generalizing text with
  | zero =>
      intro line hline
      exact absurd hline List.not_mem_nil
  | succ fuel ih =>
      cases text with
      | nil =>
          intro line hline
          exact absurd hline List.not_mem_nil
      | cons c rest =>
          have hstep := hcut (c :: rest) h (List.cons_ne_nil c rest)
          intro line hline
          rw [scan, List.mem_cons] at hline
          rcases hline with hline | hline
          · rw [hline]
            exact hstep.1
          · exact ih _ hstep.2 line hline

theorem eachLine_append (line rest : Text) (h : '\n' ∉ line) :
    eachLine (line ++ '\n' :: rest) = (line ++ ['\n']) :: eachLine rest := by
  induction line with
  | nil => rw [List.nil_append, eachLine, if_pos rfl, List.nil_append]
  | cons c line ih =>
      rw [List.mem_cons, not_or] at h
      rw [List.cons_append, eachLine, if_neg (fun hc => h.1 hc.symm), ih h.2, List.cons_append]

/-- Lines that were sent are the lines that are read. -/
theorem eachLine_flatten (lines : List Text)
    (h : ∀ line ∈ lines, ∃ text, line = text ++ ['\n'] ∧ '\n' ∉ text) :
    eachLine lines.flatten = lines := by
  induction lines with
  | nil => rfl
  | cons line lines ih =>
      rcases h line List.mem_cons_self with ⟨text, hline, htext⟩
      rw [List.flatten_cons, hline, List.append_assoc, List.singleton_append,
        eachLine_append text _ htext, ih (fun l hl => h l (List.mem_cons_of_mem line hl))]

end Ruby
