/-!
# Located characters

A YAML text is read as a list of spots: characters with their place in the text.  Every line break
is one spot; all kinds of break but the Unicode line and paragraph separators are normalised to a
line feed.  The list ends in a spot whose character is NUL, which may not occur in the text itself.
-/

namespace SigmaCatalog.Yaml

/-- A character with its place. -/
structure Spot where
  char : Char
  /-- How many characters stand before it. -/
  index : Nat
  line : Nat
  column : Nat
  deriving Repr

/-- Whether a character may stand in YAML text. -/
def isAllowed (c : Char) : Bool :=
  let n := c.toNat
  n == 0x09 || n == 0x0A || n == 0x0D || (0x20 ≤ n && n ≤ 0x7E) || n == 0x85 ||
    (0xA0 ≤ n && n ≤ 0xD7FF) || (0xE000 ≤ n && n ≤ 0xFFFD && n != 0xFEFF) || 0x10000 ≤ n

/-- Whether a character, after normalisation, ends a line. -/
def isBreak (c : Char) : Bool :=
  c == '\n' || c == '\u2028' || c == '\u2029'

/-- Whether a character is a space or a tab. -/
def isSpace (c : Char) : Bool :=
  c == ' ' || c == '\t'

def isEnd (c : Char) : Bool :=
  c == '\x00'

/-- Whether a character is a space, a tab, a line break or the end of the text. -/
def isGap (c : Char) : Bool :=
  isSpace c || isBreak c || isEnd c

/-- Whether a character may stand in an anchor or in the name of a directive. -/
def isWordChar (c : Char) : Bool :=
  ('0' ≤ c && c ≤ '9') || ('A' ≤ c && c ≤ 'Z') || ('a' ≤ c && c ≤ 'z') || c == '_' || c == '-'

/-- The spots of a text that begins at the given place. -/
def locate (index line column : Nat) : List Char → List Spot
  | [] => [⟨'\x00', index, line, column⟩]
  | '\r' :: '\n' :: rest => ⟨'\n', index, line, column⟩ :: locate (index + 2) (line + 1) 0 rest
  | c :: rest =>
    if c = '\r' || c = '\n' || c = '\x85' then
      ⟨'\n', index, line, column⟩ :: locate (index + 1) (line + 1) 0 rest
    else if isBreak c then
      ⟨c, index, line, column⟩ :: locate (index + 1) (line + 1) 0 rest
    else ⟨c, index, line, column⟩ :: locate (index + 1) line (column + 1) rest

/-- The character `offset` places after the start of the spots; the end of the text beyond it. -/
def charAt (spots : List Spot) (offset : Nat) : Char :=
  match spots[offset]? with
  | some spot => spot.char
  | none => '\x00'

def firstChar (spots : List Spot) : Char :=
  charAt spots 0

/-- Whether the spots begin a line with three times `c` and a gap. -/
def isMarker (c : Char) (spots : List Spot) : Bool :=
  (spots.head?.map Spot.column) == some 0 && charAt spots 0 == c && charAt spots 1 == c &&
    charAt spots 2 == c && isGap (charAt spots 3)

/-- Whether the spots begin a line with a marker of the start or the end of a document. -/
def isDocumentMarker (spots : List Spot) : Bool :=
  isMarker '-' spots || isMarker '.' spots

/-- The spots without the leading ones whose characters satisfy `p`. -/
def skipWhile (p : Char → Bool) (spots : List Spot) : List Spot :=
  spots.dropWhile fun spot => p spot.char

/-- The characters of the leading spots that satisfy `p`. -/
def charsWhile (p : Char → Bool) (spots : List Spot) : List Char :=
  (spots.takeWhile fun spot => p spot.char).map Spot.char

def skipLine (spots : List Spot) : List Spot :=
  skipWhile (fun c => !isBreak c && !isEnd c) spots

end SigmaCatalog.Yaml
