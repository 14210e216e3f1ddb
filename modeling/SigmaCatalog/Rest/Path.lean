import SigmaCatalog.Text.Splitting

/-!
# Paths

A path is a list of segments.  A name becomes a segment by writing every octet of it that has a
meaning in an address, or no place in one, as a percent sign and two digits.  Tabs and line breaks
are left out of a name, and the names `.` and `..` add no segment.
-/

namespace SigmaCatalog.Rest

def hexDigit (n : Nat) : Char :=
  if n < 10 then Char.ofNat (48 + n) else Char.ofNat (55 + n)

/-- An octet as a percent sign and two digits. -/
def percentOctet (octet : UInt8) : List Char :=
  ['%', hexDigit (octet.toNat / 16), hexDigit (octet.toNat % 16)]

/-- The visible characters that an address writes as octets everywhere in its path. -/
def pathEscapes : List Char :=
  ['"', '#', '<', '>', '?', '\x60', '\x7b', '\x7d']

/-- The visible characters that an address writes as octets inside one segment of its path. -/
def segmentEscapes : List Char :=
  pathEscapes ++ ['/', '%', '\\']

/-- A character of an address, where the characters listed are written as octets. -/
def escapeChar (escapes : List Char) (c : Char) : List Char :=
  if 0x21 ≤ c.toNat && c.toNat < 0x7F && !escapes.contains c then [c]
  else (String.singleton c).toUTF8.toList.flatMap percentOctet

/-- Whether a character is a tab or a line break. -/
def isBreak (c : Char) : Bool :=
  c == '\t' || c == '\n' || c == '\r'

/-- The characters of a name that a segment keeps. -/
def kept (name : String) : List Char :=
  name.toList.filter fun c => !isBreak c

def segmentText (name : String) : String :=
  String.ofList ((kept name).flatMap (escapeChar segmentEscapes))

/-- The segments of a path, as they are written. -/
structure Path where
  segments : List String
  deriving DecidableEq, Repr

namespace Path

def root : Path :=
  ⟨[""]⟩

def text (path : Path) : String :=
  "/" ++ Text.joinWith "/" path.segments

/-- The path with one more segment; the empty segment of the root gives way to it. -/
def append (path : Path) (segment : String) : Path :=
  if path = root then ⟨[segment]⟩ else ⟨path.segments ++ [segment]⟩

/-- The path with its last segment emptied. -/
def up (path : Path) : Path :=
  ⟨path.segments.dropLast ++ [""]⟩

/-- The path with a name added.  A name that is one or two dots adds nothing; one that is so only
without its tabs and line breaks keeps the place it names in a path. -/
def add (path : Path) (name : String) : Path :=
  if name = "." || name = ".." then path
  else match kept name with
    | ['.'] => path.append ""
    | ['.', '.'] => path.up
    | _ => path.append (segmentText name)

def addAll (path : Path) (names : List String) : Path :=
  names.foldl add path

end Path

end SigmaCatalog.Rest
