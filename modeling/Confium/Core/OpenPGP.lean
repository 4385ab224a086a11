import Confium.Lib.Lines

/-!
# OpenPGP ASCII Armor

Radix-64 framing with a CRC-24 checksum: `armor` writes a byte string as a
block of text, `dearmor` finds a block in a text and reads the bytes back.

The writer has one layout. The reader accepts many: it normalises line endings,
looks for the first line that is a BEGIN delimiter and the first that is an END
delimiter, skips what it takes for headers, and classifies every line in
between by its first character and its alphabet. The two delimiters are
searched for independently, each over the whole text, so an END line that
stands before the BEGIN line leaves an empty slice.

The regular expressions of the source are predicates on lines here. None of
them can match across an LF, so each accepts or rejects whole lines.

## Main definitions

* `ArmorExn`: What framing raises.
* `labels`: The armor types and the labels they are written under.
* `crc24Armor`: The checksum, as its four characters.
* `armor`: Writing a block.
* `blockSlice`, `blockLines`, `collectData`, `extractBody`: The stages of
  reading one.
* `dearmor`: Reading a block.

## Theorems

* `delimiter_of_label`: A delimiter line with a proper label is recognised.
* `head?_of_delimiter`: A delimiter line starts with a hyphen.
-/

namespace Confium

open Ruby

namespace OpenPGP

/-- What framing raises. -/
inductive ArmorExn where
  /-- `ArgumentError`: a type `LABELS` does not list. -/
  | unknownType (type : Option String)
  /-- `ArgumentError`: what `unpack1('m0')` raises. -/
  | invalidBase64
  /-- `ParseError`: no BEGIN line. -/
  | noBegin
  /-- `ParseError`: no END line. -/
  | noEnd
  /-- `ParseError`: neither data nor a checksum. -/
  | noData
  /-- `ParseError`: a line that is none of data, checksum or blank, cut to its
      first twenty characters. -/
  | invalidLine (start : Text)
  /-- `ParseError`: a checksum that is not the data's. -/
  | checksumMismatch
  deriving DecidableEq

namespace ArmorExn

/-- `e.class.name`. -/
def className : ArmorExn → String
  | .unknownType _ => "ArgumentError"
  | .invalidBase64 => "ArgumentError"
  | .noBegin => "Confium::ParseError"
  | .noEnd => "Confium::ParseError"
  | .noData => "Confium::ParseError"
  | .invalidLine _ => "Confium::ParseError"
  | .checksumMismatch => "Confium::ParseError"

/-- `e.message`, with `inspect` the `inspect` of a string or `nil`. -/
def message (inspect : Option String → String) : ArmorExn → String
  | .unknownType type => "unknown armor type: " ++ inspect type
  | .invalidBase64 => "invalid base64"
  | .noBegin => "not an ASCII-armored block (no BEGIN line)"
  | .noEnd => "not an ASCII-armored block (no END line)"
  | .noData => "armored block has no data"
  | .invalidLine start => "invalid armor data line: " ++ inspect (some (String.ofList start))
  | .checksumMismatch => "armor CRC-24 checksum mismatch"

end ArmorExn

/-- `LABELS`. Raw bytes cannot form a cleartext-signed message, so that type is
    a plain message. -/
def labels : List (Option String × String) :=
  [(none, "MESSAGE"), (some "message", "MESSAGE"), (some "public key", "PUBLIC KEY BLOCK"),
    (some "secret key", "PRIVATE KEY BLOCK"), (some "private key", "PRIVATE KEY BLOCK"),
    (some "signature", "SIGNATURE"), (some "cleartext signed message", "MESSAGE"),
    (some "cleartext", "MESSAGE")]

/-- `CRC_POLY`. -/
def crcPoly : Nat := 0x1864CFB

/-- `CRC_INIT`. -/
def crcInit : Nat := 0xB704CE

/-- One shift of the register, reduced when a bit falls out of it. -/
def crcShift (c : Nat) : Nat :=
  (if c &&& 0x800000 = 0 then c <<< 1 else (c <<< 1) ^^^ crcPoly) &&& 0xFFFFFF

/-- `CRC_TABLE`. -/
def crcTable : List Nat := (List.range 256).map (fun i => Nat.iterate crcShift 8 (i <<< 16))

/-- One byte into the register. -/
def crcUpdate (crc : Nat) (b : UInt8) : Nat :=
  ((crc <<< 8) &&& 0xFFFFFF) ^^^ crcTable.getD (((crc >>> 16) ^^^ b.toNat) &&& 0xFF) 0

/-- The register after a byte string. -/
def crc24 (bytes : Bytes) : Nat := bytes.foldl crcUpdate crcInit

/-- `crc24_armor`: the register as three bytes, the top one first, in
    base64. -/
def crc24Armor (bytes : Bytes) : Text :=
  encode64 [UInt8.ofNat (crc24 bytes >>> 16), UInt8.ofNat ((crc24 bytes >>> 8) &&& 0xFF),
    UInt8.ofNat (crc24 bytes &&& 0xFF)]

/-- How a BEGIN line starts. -/
def beginHead : Text := "-----BEGIN PGP ".toList

/-- How an END line starts. -/
def endHead : Text := "-----END PGP ".toList

/-- How either ends. -/
def hyphens : Text := "-----".toList

/-- The base64 of a byte string in lines of seventy-six characters. -/
def dataLines (bytes : Bytes) : List Text := scan 76 (encode64 bytes).length (encode64 bytes)

/-- The armored block under a label, with LF line ends: the heredoc. -/
def layout (label : Text) (lines : List Text) (crc : Text) : Text :=
  beginHead ++ label ++ hyphens ++ ['\n'] ++ ['\n'] ++ ['\n'].intercalate lines ++ ['\n'] ++
    ['='] ++ crc ++ ['\n'] ++ endHead ++ label ++ hyphens ++ ['\n']

/-- `armor(data, type)`. -/
def armor (data : Bytes) (type : Option String) : Except ArmorExn Text :=
  match labels.lookup type with
  | none => .error (.unknownType type)
  | some label => .ok (gsubLf (layout label.toList (dataLines data) (crc24Armor data)))

/-- `[A-Z ]`. -/
def isLabelChar (c : Char) : Bool := c.isUpper || c == ' '

/-- `/^HEAD[A-Z ]+-----$/`. -/
def delimiter (head line : Text) : Bool :=
  head.isPrefixOf line && !((line.drop head.length).takeWhile isLabelChar).isEmpty &&
    (line.drop head.length).dropWhile isLabelChar == hyphens

/-- `/^-----BEGIN PGP [A-Z ]+-----$/`. -/
def isBegin (line : Text) : Bool := delimiter beginHead line

/-- `/^-----END PGP [A-Z ]+-----$/`. -/
def isEnd (line : Text) : Bool := delimiter endHead line

/-- `block_slice`: what stands from the BEGIN line up to the END line, nothing
    if the END line comes first. -/
def blockSlice (normalized : Text) : Except ArmorExn Text :=
  match lineIndex isBegin normalized with
  | none => .error .noBegin
  | some beginLine =>
    match lineIndex isEnd normalized with
    | none => .error .noEnd
    | some endLine => .ok ((normalized.take endLine).drop beginLine)

/-- `\s`. -/
def isSpace (c : Char) : Bool := c ∈ [' ', '\t', '\r', '\n', Char.ofNat 12, Char.ofNat 11]

/-- `[A-Za-z0-9-]`. -/
def isKeyChar (c : Char) : Bool := c.isUpper || c.isLower || c.isDigit || c == '-'

/-- `/^\s|^[A-Za-z0-9-]+: /`. -/
def isHeader (line : Text) : Bool :=
  line.head?.any isSpace ||
    (!(line.takeWhile isKeyChar).isEmpty && [':', ' '].isPrefixOf (line.dropWhile isKeyChar))

/-- `block_lines`: the lines after the BEGIN line and the headers, and after
    the blank line that ends them. -/
def blockLines (text : Text) : Except ArmorExn (List Text) := do
  let slice ← blockSlice (gsubCrlf text)
  -- A block without a blank line is read all the same.
  match (splitLines slice).tail.dropWhile isHeader with
  | [] :: lines => return lines
  | lines => return lines

/-- `%r{\A[A-Za-z0-9+/]+={0,2}\z}`. -/
def isData (line : Text) : Bool :=
  !(line.takeWhile isBase64).isEmpty &&
    (line.dropWhile isBase64 == [] || line.dropWhile isBase64 == ['='] ||
      line.dropWhile isBase64 == ['=', '='])

/-- `collect_data`, with what the loop has gathered so far. A later checksum
    line overwrites an earlier one. -/
def collectData : List Text → Text → Option Text → Except ArmorExn (Text × Option Text)
  | [], b64, crcLine => .ok (b64, crcLine)
  | line :: lines, b64, crcLine =>
    -- A line that starts with `=` is the checksum, so padding must never start one.
    if line = [] then collectData lines b64 crcLine
    else if line.head? = some '=' then collectData lines b64 (some line.tail)
    else if isData line then collectData lines (b64 ++ line) crcLine
    else .error (.invalidLine (line.take 20))

/-- `extract_body`: the joined base64 and the checksum. -/
def extractBody (text : Text) : Except ArmorExn (Text × Option Text) := do
  let lines ← blockLines text
  let (b64, crcLine) ← collectData lines [] none
  if b64 = [] ∧ crcLine = none then .error .noData else return (b64, crcLine)

/-- `unpack1('m0')`. -/
def unpack (b64 : Text) : Except ArmorExn Bytes :=
  match decode64 b64 with
  | none => .error .invalidBase64
  | some bytes => .ok bytes

/-- `dearmor(text)`. -/
def dearmor (text : Text) : Except ArmorExn Bytes := do
  let (b64, crcLine) ← extractBody text
  let bytes ← unpack b64
  -- The base64 is decoded first, so a bad one raises before this.
  if crcLine = some (crc24Armor []) ∧ b64 = [] then return []
  else
    match crcLine with
    | none => return bytes
    | some crc => if crc24Armor bytes ≠ crc then .error .checksumMismatch else return bytes

/-- A delimiter line with a proper label is recognised. -/
theorem delimiter_of_label (head label : Text) (hne : label ≠ [])
    (h : ∀ c ∈ label, isLabelChar c = true) : delimiter head (head ++ label ++ hyphens) = true := by
  have hspan := span_append isLabelChar label hyphens h (fun c hc => by
    rw [← Option.some.inj hc]
    decide)
  have hpre : head.isPrefixOf (head ++ (label ++ hyphens)) = true :=
    List.isPrefixOf_iff_prefix.mpr (List.prefix_append head _)
  have hne' : label.isEmpty = false := by simpa only [List.isEmpty_eq_false_iff] using hne
  rw [delimiter, List.append_assoc, List.drop_left, hspan.1, hspan.2, hpre, hne']
  decide

/-- A delimiter line starts as its head does. -/
theorem head?_of_delimiter (c : Char) (head line : Text) (h : delimiter (c :: head) line = true) :
    line.head? = some c := by
  unfold delimiter at h
  simp only [Bool.and_eq_true] at h
  rcases List.isPrefixOf_iff_prefix.mp h.1.1 with ⟨rest, hrest⟩
  rw [← hrest, List.cons_append, List.head?_cons]

/-- No line is both delimiters. -/
theorem isEnd_beginHead_append (rest : Text) : isEnd (beginHead ++ rest) = false := by
  have hpre : endHead.isPrefixOf (beginHead ++ rest) = false := rfl
  rw [isEnd, delimiter, hpre, Bool.false_and, Bool.false_and]

end OpenPGP

end Confium
