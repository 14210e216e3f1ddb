import SigmaCatalog.Yaml.Node
import SigmaCatalog.Yaml.Problem

/-!
# From tokens to the tree

Assembly reads the node of the one document of a text.  Anchors are numbered as they turn up:
the mark of an anchor is the number of different names seen before it, and an alias gets the mark
its name has at that point.
-/

namespace SigmaCatalog.Yaml.Assembly

/-- What assembly carries along: the tokens left and the marks of the anchor names. -/
structure State where
  tokens : List Token
  marks : List (String × Nat) := []

/-- A reader of nodes, which may fail. -/
abbrev Reader (α : Type) : Type := StateT State (Except Problem) α

def peek : Reader (Option Token) := do
  return (← get).tokens.head?

def skip : Reader Unit :=
  modify fun state => { state with tokens := state.tokens.drop 1 }

def skipAndPeek : Reader (Option Token) := do
  skip
  peek

def setMark (name : String) : Reader Nat := do
  let state ← get
  let mark := state.marks.length
  let known := state.marks.any fun entry => entry.1 == name
  let marks :=
    if known then state.marks.map fun entry => if entry.1 == name then (name, mark) else entry
    else (name, mark) :: state.marks
  set { state with marks }
  return mark

def getMark (name : String) : Reader Nat := do
  match (← get).marks.find? fun entry => entry.1 == name with
  | some (_, mark) => return mark
  | none => throw .unknownAnchor

/-- The tag handles in force with their expansions. -/
abbrev Handles : Type := List (String × TagOctets)

/-- The handles that need no directive. -/
def defaultHandles : Handles :=
  [("!", [33]), ("!!", "tag:yaml.org,2002:".toList.map fun c => c.toNat.toUInt8)]

def fullTag (handles : Handles) (handle : String) (suffix : TagOctets) : Reader TagOctets :=
  if handle.isEmpty then return suffix
  else
    match handles.find? fun entry => entry.1 == handle with
    | some (_, expansion) => return expansion ++ suffix
    | none => throw .unknownTagHandle

/-- The properties in front of a node; an anchor and a tag may come in either order. -/
def properties (handles : Handles) : Reader (Option String × Option TagOctets) := do
  match ← peek with
  | some (.anchor name) =>
    match ← skipAndPeek with
    | some (.tag handle suffix) =>
      skip
      return (some name, some (← fullTag handles handle suffix))
    | _ => return (some name, none)
  | some (.tag handle suffix) =>
    match ← skipAndPeek with
    | some (.anchor name) =>
      skip
      return (some name, some (← fullTag handles handle suffix))
    | _ => return (none, some (← fullTag handles handle suffix))
  | _ => return (none, none)

/-- Whether the next token ends an entry of a block mapping. -/
def endsBlockEntry : Option Token → Bool
  | some .key | some .value | some .blockEnd => true
  | _ => false

/-- Whether the next token ends an entry of a flow collection with the given closing token. -/
def endsFlowEntry (close : Token) (token : Option Token) : Bool :=
  token == some .flowEntry || token == some close

/-- The tag that asks for no particular type. -/
def nonSpecific : TagOctets := [33]

mutual

/-- Reads a node.  In `block` context it may be a block collection, and where `indentless` holds a
block sequence that is no further right than its key. -/
def node (handles : Handles) (block indentless : Bool) : (steps : Nat) → Reader Node
  | 0 => throw .unexpectedToken
  | steps + 1 => do
    match ← peek with
    | some (.repeated name) =>
      skip
      return .repeated (← getMark name)
    | _ =>
      let (anchor, tag) ← properties handles
      let mark ← anchor.mapM setMark
      match ← peek with
      | some (.scalar text style) =>
        skip
        return .scalar { tag := if tag == some nonSpecific then none else tag, mark } text style
      | some .flowSequenceStart =>
        skip
        return .sequence { tag, mark } (← flowItems handles true steps)
      | some .flowMappingStart =>
        skip
        return .mapping { tag, mark } (← flowEntries handles true steps)
      | token =>
        if indentless && token == some .blockEntry then
          return .sequence { tag, mark } (← indentlessItems handles steps)
        else if block && token == some .blockSequenceStart then
          skip
          return .sequence { tag, mark } (← blockItems handles steps)
        else if block && token == some .blockMappingStart then
          skip
          return .mapping { tag, mark } (← blockEntries handles steps)
        else if anchor.isSome || tag.isSome then return .scalar { tag, mark } "" .plain
        else throw .unexpectedToken

/-- Reads the entries of a block sequence up to its end. -/
def blockItems (handles : Handles) : (steps : Nat) → Reader (List Node)
  | 0 => throw .unexpectedToken
  | steps + 1 => do
    match ← peek with
    | some .blockEntry =>
      let next ← skipAndPeek
      let item ←
        if next == some .blockEntry || next == some .blockEnd then pure .empty
        else node handles true false steps
      return item :: (← blockItems handles steps)
    | some .blockEnd =>
      skip
      return []
    | _ => throw .unexpectedToken

/-- Reads the entries of a block sequence that has no indentation of its own. -/
def indentlessItems (handles : Handles) : (steps : Nat) → Reader (List Node)
  | 0 => throw .unexpectedToken
  | steps + 1 => do
    match ← peek with
    | some .blockEntry =>
      let next ← skipAndPeek
      let item ←
        if next == some .blockEntry || endsBlockEntry next then pure .empty
        else node handles true false steps
      return item :: (← indentlessItems handles steps)
    | _ => return []

/-- Reads the entries of a block mapping up to its end. -/
def blockEntries (handles : Handles) : (steps : Nat) → Reader (List (Node × Node))
  | 0 => throw .unexpectedToken
  | steps + 1 => do
    match ← peek with
    | some .key =>
      let next ← skipAndPeek
      let key ← if endsBlockEntry next then pure .empty else node handles true true steps
      let value ← blockValue handles steps
      return (key, value) :: (← blockEntries handles steps)
    | some .blockEnd =>
      skip
      return []
    | _ => throw .unexpectedToken

/-- Reads the value of a block mapping entry, which may be missing. -/
def blockValue (handles : Handles) : (steps : Nat) → Reader Node
  | 0 => throw .unexpectedToken
  | steps + 1 => do
    match ← peek with
    | some .value =>
      let next ← skipAndPeek
      if endsBlockEntry next then return .empty else node handles true true steps
    | _ => return .empty

/-- Reads the entries of a flow sequence up to its end.  An entry that begins with a key stands for
a mapping with that one entry. -/
def flowItems (handles : Handles) (first : Bool) : (steps : Nat) → Reader (List Node)
  | 0 => throw .unexpectedToken
  | steps + 1 => do
    let mut token ← peek
    if token != some .flowSequenceEnd && !first then
      if token == some .flowEntry then token ← skipAndPeek else throw .unexpectedToken
    if token == some .key then
      skip
      let entry ← flowPair handles steps
      return .mapping {} [entry] :: (← flowItems handles false steps)
    else if token == some .flowSequenceEnd then
      skip
      return []
    else
      let item ← node handles false false steps
      return item :: (← flowItems handles false steps)

/-- Reads the one entry of a mapping inside a flow sequence.  A key without any token takes the
token after it along. -/
def flowPair (handles : Handles) : (steps : Nat) → Reader (Node × Node)
  | 0 => throw .unexpectedToken
  | steps + 1 => do
    let next ← peek
    let key ←
      if next == some .value || endsFlowEntry .flowSequenceEnd next then
        skip
        pure .empty
      else node handles false false steps
    match ← peek with
    | some .value =>
      let next ← skipAndPeek
      if endsFlowEntry .flowSequenceEnd next then return (key, .empty)
      else return (key, ← node handles false false steps)
    | _ => return (key, .empty)

def flowEntries (handles : Handles) (first : Bool) : (steps : Nat) → Reader (List (Node × Node))
  | 0 => throw .unexpectedToken
  | steps + 1 => do
    let mut token ← peek
    if token != some .flowMappingEnd && !first then
      if token == some .flowEntry then token ← skipAndPeek else throw .unexpectedToken
    if token == some .key then
      let next ← skipAndPeek
      let key ←
        if next == some .value || endsFlowEntry .flowMappingEnd next then pure .empty
        else node handles false false steps
      let value ← flowValue handles steps
      return (key, value) :: (← flowEntries handles false steps)
    else if token == some .flowMappingEnd then
      skip
      return []
    else
      let key ← node handles false false steps
      return (key, .empty) :: (← flowEntries handles false steps)

def flowValue (handles : Handles) : (steps : Nat) → Reader Node
  | 0 => throw .unexpectedToken
  | steps + 1 => do
    match ← peek with
    | some .value =>
      let next ← skipAndPeek
      if endsFlowEntry .flowMappingEnd next then return .empty
      else node handles false false steps
    | _ => return .empty

end

def endsDocument : Option Token → Bool
  | none | some .documentStart | some .documentEnd => true
  | some (.versionDirective ..) | some (.tagDirective ..) => true
  | _ => false

/-- Reads the directives in front of a document and yields the handles they declare. -/
def directives : List Token → (versionSeen : Bool) → Handles → Except Problem (Handles × List Token)
  | .versionDirective major minor :: rest, versionSeen, handles =>
    if versionSeen || major != 1 || (minor != 1 && minor != 2) then .error .badDirective
    else directives rest true handles
  | .tagDirective handle expansion :: rest, versionSeen, handles =>
    if handles.any fun entry => entry.1 == handle then .error .badDirective
    else directives rest versionSeen (handles ++ [(handle, expansion)])
  | tokens, _, handles => .ok (handles, tokens)

/-- Whether nothing but markers of the end of a document is left. -/
def isFinished (tokens : List Token) : Bool :=
  tokens.all (· == .documentEnd)

end Assembly

/-- The node of the one document of a token list; there is none in a text without any token. -/
def Node.ofTokens (tokens : List Token) : Except Problem (Option Node) := do
  match tokens with
  | [] => return none
  | _ =>
    let (declared, rest) ← Assembly.directives tokens false []
    let handles := declared ++ Assembly.defaultHandles
    let steps := 8 * tokens.length + 16
    let isExplicit := rest.length < tokens.length || rest.head? == some .documentStart
    let (node, state) ←
      if isExplicit then
        if rest.head? != some .documentStart then throw .unexpectedToken
        let rest := rest.drop 1
        if Assembly.endsDocument rest.head? then pure (Node.empty, { tokens := rest })
        else (Assembly.node handles true false steps).run { tokens := rest }
      else (Assembly.node handles true false steps).run { tokens := rest }
    if Assembly.isFinished state.tokens then return some node else throw .severalDocuments

end SigmaCatalog.Yaml
