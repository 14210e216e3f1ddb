import SigmaCatalog.Yaml.Problem
import SigmaCatalog.Yaml.Spot

/-!
# Block scalars

A block scalar is written on the lines after its header, with more indentation than what it belongs
to.  A literal scalar keeps its line breaks; a folded one turns a single break between two lines
that begin with text into a space.  The header may give the indentation and says what becomes of
the line breaks at the end.
-/

namespace SigmaCatalog.Yaml.Scalar

/-- What becomes of the line breaks at the end of a block scalar. -/
inductive Chomping where
  /-- None of them is kept. -/
  | strip
  /-- The first is kept. -/
  | clip
  /-- All are kept. -/
  | keep
  deriving DecidableEq, Repr

structure BlockHeader where
  literal : Bool
  chomping : Chomping
  /-- The additional indentation; zero when the text decides it. -/
  increment : Nat

/-- The chomping an indicator asks for. -/
def chomping? : Char → Option Chomping
  | '+' => some .keep
  | '-' => some .strip
  | _ => none

/-- The additional indentation a digit asks for; zero is not allowed. -/
def increment? (c : Char) : Except Problem (Option Nat) :=
  if c == '0' then .error .badBlockHeader
  else if '1' ≤ c && c ≤ '9' then .ok (some (c.toNat - 48))
  else .ok none

/-- Reads the indicators of a header, in either order. -/
def blockHeader (literal : Bool) (spots : List Spot) : Except Problem (BlockHeader × List Spot) := do
  match chomping? (firstChar spots) with
  | some chomping =>
    let spots := spots.drop 1
    match ← increment? (firstChar spots) with
    | some increment => return ({ literal, chomping, increment }, spots.drop 1)
    | none => return ({ literal, chomping, increment := 0 }, spots)
  | none =>
    match ← increment? (firstChar spots) with
    | some increment =>
      let spots := spots.drop 1
      match chomping? (firstChar spots) with
      | some chomping => return ({ literal, chomping, increment }, spots.drop 1)
      | none => return ({ literal, chomping := .clip, increment }, spots)
    | none => return ({ literal, chomping := .clip, increment := 0 }, spots)

/-- Skips the rest of the header line, which may hold a comment. -/
def afterHeader (spots : List Spot) : Except Problem (List Spot) :=
  let spots := skipWhile isSpace spots
  let spots := if firstChar spots == '#' then skipLine spots else spots
  if isBreak (firstChar spots) then .ok (spots.drop 1)
  else if isEnd (firstChar spots) then .ok spots
  else .error .badBlockHeader

/-- A block scalar being read.  All lists hold their last character first. -/
structure BlockText where
  /-- The columns before the text of each line; zero while unknown. -/
  indent : Nat
  /-- The most columns before the end of a blank line seen while the indentation is unknown. -/
  widest : Nat := 0
  text : List Char := []
  /-- The break at the end of the last line of text. -/
  lineBreak : Option Char := none
  /-- The breaks of the blank lines after it. -/
  blankLines : List Char := []
  /-- Whether the last line of text begins with a space or a tab. -/
  spaced : Bool := false
  /-- Whether the next character continues a line of text. -/
  inLine : Bool := false

namespace BlockText

/-- Whether a column still belongs to the indentation. -/
def isIndentation (block : BlockText) (column : Nat) : Bool :=
  block.indent == 0 || column < block.indent

/-- Begins a line of text with a character, after the breaks that stand before it. -/
def startLine (block : BlockText) (literal : Bool) (c : Char) : BlockText :=
  let breakText : List Char :=
    match block.lineBreak with
    | none => []
    | some b =>
      if !literal && b == '\n' && !block.spaced && !isSpace c then
        if block.blankLines.isEmpty then [' '] else []
      else [b]
  { block with
    text := c :: (block.blankLines ++ (breakText ++ block.text)),
    lineBreak := none, blankLines := [], spaced := isSpace c, inLine := true }

/-- The text after chomping. -/
def result (block : BlockText) (chomping : Chomping) : String :=
  let lineBreak := block.lineBreak.toList
  let text :=
    match chomping with
    | .strip => block.text
    | .clip => lineBreak ++ block.text
    | .keep => block.blankLines ++ (lineBreak ++ block.text)
  String.ofList text.reverse

/-- Fixes the indentation when it is still unknown: the widest line decides, but it is at least
`least`. -/
def settle (block : BlockText) (least column : Nat) : BlockText :=
  if block.indent == 0 then
    { block with indent := max (max (max block.widest column) least) 1 }
  else block

end BlockText

/-- Reads the lines of a block scalar and yields its text and the spots after it; `least` is the
least indentation. -/
def blockLines (header : BlockHeader) (least : Nat) (block : BlockText) :
    List Spot → Except Problem (String × List Spot)
  | [] => .ok (block.result header.chomping, [])
  | spot :: rest =>
    let c := spot.char
    if block.inLine then
      if isEnd c then .ok (block.result header.chomping, spot :: rest)
      else if isBreak c then
        blockLines header least { block with lineBreak := some c, inLine := false } rest
      else blockLines header least { block with text := c :: block.text } rest
    else if block.isIndentation spot.column && c == ' ' then blockLines header least block rest
    else if block.isIndentation spot.column && c == '\t' then .error .tabIndentation
    else if isBreak c then
      blockLines header least
        { block with
          blankLines := c :: block.blankLines,
          widest := max block.widest spot.column } rest
    else
      let block := block.settle least spot.column
      if spot.column == block.indent && !isEnd c then
        blockLines header least (block.startLine header.literal c) rest
      else .ok (block.result header.chomping, spot :: rest)

/-- Reads a block scalar from the character after its indicator; `indent` is the indentation of the
block around it, `-1` at the top. -/
def block (literal : Bool) (indent : Int) (spots : List Spot) :
    Except Problem (String × List Spot) := do
  let (header, spots) ← blockHeader literal spots
  let spots ← afterHeader spots
  let fixed := if header.increment == 0 then 0 else indent.toNat + header.increment
  blockLines header (indent + 1).toNat { indent := fixed } spots

end SigmaCatalog.Yaml.Scalar
