import SigmaCatalog.Yaml.Scalar.Block
import SigmaCatalog.Yaml.Token.Property

/-!
# From text to tokens

The lexer turns spots into tokens.  It keeps a stack of indentations, closing block collections
when a line begins further left, and for every open flow collection the place where a simple key
may have begun.  A simple key is known as such only when its `:` turns up, on the same line and at
most 1024 characters later; the tokens that mark it are then put in front of it.
-/

namespace SigmaCatalog.Yaml.Lexer

/-- A place where a simple key may have begun. -/
structure Candidate where
  /-- Whether only a key may stand there. -/
  required : Bool
  /-- How many tokens come before it. -/
  number : Nat
  place : Spot

structure State where
  rest : List Spot
  /-- The tokens so far, last first. -/
  tokens : List Token := []
  /-- How many tokens there are. -/
  count : Nat := 0
  /-- The candidate of each open flow collection, innermost first, and of the block around them. -/
  candidates : List (Option Candidate) := [none]
  /-- The column of the current block collection; `-1` outside any. -/
  indent : Int := -1
  /-- The columns of the collections around it, innermost first. -/
  outer : List Int := []
  /-- Whether a simple key may begin here. -/
  keyAllowed : Bool := true

namespace State

def place (state : State) : Spot :=
  state.rest.head?.getD ⟨'\x00', 0, 0, 0⟩

def column (state : State) : Nat :=
  state.place.column

def inFlow (state : State) : Bool :=
  1 < state.candidates.length

/-- Adds a token at the end. -/
def emit (state : State) (token : Token) : State :=
  { state with tokens := token :: state.tokens, count := state.count + 1 }

/-- Adds a token after the first `number` tokens. -/
def emitAt (state : State) (number : Nat) (token : Token) : State :=
  let later := state.count - number
  { state with
    tokens := state.tokens.take later ++ token :: state.tokens.drop later,
    count := state.count + 1 }

def advance (state : State) (n : Nat) : State :=
  { state with rest := state.rest.drop n }

/-- The candidate of the innermost collection. -/
def candidate (state : State) : Option Candidate :=
  (state.candidates.head?).join

def setCandidate (state : State) (candidate : Option Candidate) : State :=
  { state with candidates := candidate :: state.candidates.drop 1 }

/-- Gives up the current candidate, which must not be required. -/
def dropCandidate (state : State) : Except Problem State :=
  match state.candidate with
  | some candidate =>
    if candidate.required then .error .missingColon else .ok (state.setCandidate none)
  | none => .ok state

/-- Notes that a simple key may begin here. -/
def saveCandidate (state : State) : Except Problem State := do
  if state.keyAllowed then
    let required := !state.inFlow && state.indent == (state.column : Int)
    let state ← state.dropCandidate
    return state.setCandidate (some { required, number := state.count, place := state.place })
  else return state

/-- Whether a candidate can no longer be a key: its line has ended or it has become too long. -/
def isStale (state : State) (candidate : Candidate) : Bool :=
  candidate.place.line < state.place.line || candidate.place.index + 1024 < state.place.index

/-- Gives up the candidates that can no longer be keys. -/
def dropStale (state : State) : Except Problem State :=
  let stale := fun candidate : Option Candidate => candidate.any state.isStale
  if state.candidates.any fun candidate => stale candidate && candidate.any (·.required) then
    .error .missingColon
  else
    .ok { state with candidates := state.candidates.map fun c => if stale c then none else c }

/-- Opens a block collection at a column further right than the current one; its token comes after
the first `number` tokens. -/
def openBlock (state : State) (column : Nat) (number : Nat) (token : Token) : State :=
  if !state.inFlow && state.indent < (column : Int) then
    ({ state with outer := state.indent :: state.outer, indent := column }).emitAt number token
  else state

/-- Closes block collections as long as they are further right than a column. -/
def closeBlocks (column : Int) : (outer : List Int) → State → State
  | [], state => state
  | next :: outer, state =>
    if column < state.indent then
      closeBlocks column outer ({ state with indent := next, outer }.emit .blockEnd)
    else state

/-- Closes the block collections that end before a column; nothing happens in a flow collection. -/
def closeTo (state : State) (column : Int) : State :=
  if state.inFlow then state else closeBlocks column state.outer state

end State

/-- Passes over blanks, comments and line breaks.  In block context a line break makes room for a
simple key, and until then tabs do not count as blanks. -/
def skipGap (inFlow : Bool) : (keyAllowed comment : Bool) → List Spot → List Spot × Bool
  | keyAllowed, _, [] => ([], keyAllowed)
  | keyAllowed, comment, spot :: rest =>
    let c := spot.char
    if isEnd c then (spot :: rest, keyAllowed)
    else if isBreak c then skipGap inFlow (keyAllowed || !inFlow) false rest
    else if comment then skipGap inFlow keyAllowed true rest
    else if c == ' ' || (c == '\t' && (inFlow || !keyAllowed)) then
      skipGap inFlow keyAllowed false rest
    else if c == '#' then skipGap inFlow keyAllowed true rest
    else (spot :: rest, keyAllowed)

open State

def documentMarker (state : State) (token : Token) : Except Problem State := do
  let state ← (state.closeTo (-1)).dropCandidate
  return ({ state with keyAllowed := false }.emit token).advance 3

def directiveLine (state : State) : Except Problem State := do
  let state ← (state.closeTo (-1)).dropCandidate
  let (token, rest) ← directive (state.rest.drop 1)
  return { state with keyAllowed := false, rest }.emit token

def openFlow (state : State) (token : Token) : Except Problem State := do
  let state ← state.saveCandidate
  return ({ state with candidates := none :: state.candidates, keyAllowed := true }.emit
    token).advance 1

def closeFlow (state : State) (token : Token) : Except Problem State := do
  let state ← state.dropCandidate
  let candidates := if state.inFlow then state.candidates.drop 1 else state.candidates
  return ({ state with candidates, keyAllowed := false }.emit token).advance 1

def flowComma (state : State) : Except Problem State := do
  let state ← state.dropCandidate
  return ({ state with keyAllowed := true }.emit .flowEntry).advance 1

/-- The indicator of a block sequence entry or of an explicit key, either of which may open a block
collection. -/
def blockIndicator (state : State) (opening token : Token) (keyAllowedAfter : Bool) :
    Except Problem State := do
  if !state.inFlow && !state.keyAllowed then throw .misplacedIndicator
  let state := state.openBlock state.column state.count opening
  let state ← state.dropCandidate
  return ({ state with keyAllowed := keyAllowedAfter }.emit token).advance 1

/-- The indicator between a key and its value. -/
def valueIndicator (state : State) : Except Problem State := do
  match state.candidate with
  | some candidate =>
    let state := state.emitAt candidate.number .key
    let state := state.openBlock candidate.place.column candidate.number .blockMappingStart
    return (({ state with keyAllowed := false }.setCandidate none).emit .value).advance 1
  | none =>
    if !state.inFlow && !state.keyAllowed then throw .misplacedIndicator
    let state := state.openBlock state.column state.count .blockMappingStart
    return ({ state with keyAllowed := !state.inFlow }.emit .value).advance 1

/-- A token that may be a simple key or part of one. -/
def keyPart (state : State) (read : List Spot → Except Problem (Token × List Spot)) :
    Except Problem State := do
  let state ← state.saveCandidate
  let (token, rest) ← read state.rest
  return { state with keyAllowed := false, rest }.emit token

def plainScalar (state : State) : Except Problem State := do
  let state ← state.saveCandidate
  let scalar ← Scalar.plain state.inFlow (state.indent + 1).toNat {} state.rest
  return { state with keyAllowed := scalar.broken, rest := scalar.rest }.emit
    (.scalar scalar.text .plain)

def blockScalar (state : State) (literal : Bool) : Except Problem State := do
  let state ← state.dropCandidate
  let (text, rest) ← Scalar.block literal state.indent (state.rest.drop 1)
  return { state with keyAllowed := true, rest }.emit (.scalar text .block)

/-- The end of the text. -/
def finish (state : State) : Except Problem State := do
  (state.closeTo (-1)).dropCandidate

def quotedToken (single : Bool) (spots : List Spot) : Except Problem (Token × List Spot) := do
  let (text, rest) ← Scalar.quoted single .text {} (spots.drop 1)
  return (.scalar text .quoted, rest)

/-- Whether a plain scalar may begin with `c` before `next`. -/
def beginsPlain (inFlow : Bool) (c next : Char) : Bool :=
  if c == '-' then !isSpace next
  else if c == '?' || c == ':' then !inFlow && !isGap next
  else !(c == ',' || c == '[' || c == ']' || c == '\x7b' || c == '\x7d' || c == '#' || c == '&' ||
    c == '*' || c == '!' || c == '|' || c == '>' || c == '\'' || c == '"' || c == '%' ||
    c == '@' || c == '\x60' || isGap c)

/-- Reads one token, with the next character at its start. -/
def token (state : State) : Except Problem State :=
  let c := firstChar state.rest
  let next := charAt state.rest 1
  let inFlow := state.inFlow
  if state.column == 0 && c == '%' then directiveLine state
  else if isMarker '-' state.rest then documentMarker state .documentStart
  else if isMarker '.' state.rest then documentMarker state .documentEnd
  else if c == '[' then openFlow state .flowSequenceStart
  else if c == '\x7b' then openFlow state .flowMappingStart
  else if c == ']' then closeFlow state .flowSequenceEnd
  else if c == '\x7d' then closeFlow state .flowMappingEnd
  else if c == ',' then flowComma state
  else if c == '-' && isGap next then blockIndicator state .blockSequenceStart .blockEntry true
  else if c == '?' && (inFlow || isGap next) then
    blockIndicator state .blockMappingStart .key !inFlow
  else if c == ':' && (inFlow || isGap next) then valueIndicator state
  else if c == '*' then keyPart state fun spots => do
    let (name, rest) ← anchorName (spots.drop 1)
    return (.repeated name, rest)
  else if c == '&' then keyPart state fun spots => do
    let (name, rest) ← anchorName (spots.drop 1)
    return (.anchor name, rest)
  else if c == '!' then keyPart state (tag inFlow)
  else if c == '|' && !inFlow then blockScalar state true
  else if c == '>' && !inFlow then blockScalar state false
  else if c == '\'' then keyPart state (quotedToken true)
  else if c == '"' then keyPart state (quotedToken false)
  else if beginsPlain inFlow c next then plainScalar state
  else .error .noToken

/-- Reads tokens until the end of the text; `steps` bounds their number. -/
def run : (steps : Nat) → State → Except Problem State
  | 0, _ => .error .noToken
  | steps + 1, state => do
    let (rest, keyAllowed) := skipGap state.inFlow state.keyAllowed false state.rest
    let state ← { state with rest, keyAllowed }.dropStale
    let state := state.closeTo state.column
    if isEnd (firstChar state.rest) then finish state else run steps (← token state)

end Lexer

/-- The tokens of a text, which may begin with a byte order mark. -/
def Token.ofText (text : String) : Except Problem (List Token) := do
  let chars :=
    match text.toList with
    | '\uFEFF' :: rest => rest
    | chars => chars
  if !chars.all isAllowed then throw .forbiddenCharacter
  let state ← Lexer.run (chars.length + 2) { rest := locate 0 0 0 chars }
  return state.tokens.reverse

end SigmaCatalog.Yaml
