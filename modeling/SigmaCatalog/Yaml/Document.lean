import SigmaCatalog.Yaml.Node.Assembly
import SigmaCatalog.Yaml.Scalar.Resolution
import SigmaCatalog.Yaml.Token.Lexer

/-!
# Reading a document

A text is read in three steps: tokens, the tree of nodes, and its value.  The last step resolves
scalars, replaces aliases by the values they stand for, and refuses repeated keys, collections
nested deeper than 128, and documents that expand too much.

Where several anchors share a mark the last one counts, also for aliases before it.
-/

namespace SigmaCatalog.Yaml

namespace Document

def maxDepth : Nat := 128

/-- What resolving a document needs: the nodes that aliases stand for, and how many aliases may be
followed. -/
structure Context where
  marked : List (Nat × Node)
  maxJumps : Nat

/-- A computation that counts the aliases followed so far. -/
abbrev Resolver (α : Type) : Type := StateT Nat (Except Problem) α

/-- The node that a node or alias stands for. -/
def Context.follow (context : Context) : Node → Resolver Node
  | .repeated mark => do
    let jumps := (← get) + 1
    set jumps
    if context.maxJumps < jumps then throw .tooManyAliases
    match context.marked.reverse.find? fun entry => entry.1 == mark with
    | some (_, node) => return node
    | none => throw .unknownAnchor
  | node => return node

/-- The local tag of a node, unless the node was reached through it already. -/
def localTag? (tagSeen : Bool) (properties : Properties) : Option String :=
  if tagSeen then none else properties.tag.bind Scalar.localTag?

/-- The value under a local tag, if there is one. -/
def underTag (tag : Option String) (value : Value) : Value :=
  match tag with
  | some tag => .tagged tag value
  | none => value

/-- The entries read so far and one more, whose key must be new. -/
def addEntry (entries : List (Value × Value)) (key value : Value) :
    Except Problem (List (Value × Value)) :=
  if entries.any fun entry => entry.1.sameKey key then .error .duplicateKey
  else .ok (entries ++ [(key, value)])

/-- The value of a node that may hold `depth` levels of collections.  With `tagSeen` its own tag is
passed over, unless it is reached through an alias; the keys of a mapping under a local tag have
theirs passed over too. -/
def resolve (context : Context) : (depth : Nat) → (tagSeen : Bool) → Node → Resolver Value
  | depth, tagSeen, node => do
    let tagSeen := tagSeen && !node.isAlias
    match ← context.follow node with
    | .repeated _ => throw .unknownAnchor
    | .scalar properties text style =>
      match localTag? tagSeen properties with
      | some tag => return .tagged tag (← scalarValue none text style)
      | none => scalarValue (if tagSeen then none else properties.tag) text style
    | .sequence properties items =>
      match depth with
      | 0 => throw .tooDeep
      | depth + 1 =>
        let items ← items.mapM (resolve context depth false)
        return underTag (localTag? tagSeen properties) (.sequence items)
    | .mapping properties entries =>
      match depth with
      | 0 => throw .tooDeep
      | depth + 1 =>
        let tag := localTag? tagSeen properties
        let entries ← entries.foldlM (fun read (key, value) => do
          let key ← resolve context depth (tagSeen || tag.isSome) key
          let value ← resolve context depth false value
          (addEntry read key value : Except Problem _)) []
        return underTag tag (.mapping entries)
where
  scalarValue (tag : Option TagOctets) (text : String) (style : Style) : Resolver Value :=
    (Scalar.value tag text style : Except Problem Value)

end Document

/-- The value of the one document of a text; a text without a document is null. -/
def Value.ofText (text : String) : Except Problem Value := do
  match ← Node.ofTokens (← Token.ofText text) with
  | none => return .null
  | some node =>
    let context : Document.Context := { marked := node.marked, maxJumps := 100 * node.events }
    let (value, _) ← (Document.resolve context Document.maxDepth false node).run 0
    return value

end SigmaCatalog.Yaml
