import SigmaCatalog.Yaml.Token

/-!
# The tree of a YAML document

A node is a scalar, a sequence, a mapping or an alias.  Nodes other than aliases may carry a tag
and a mark under which aliases find them.
-/

namespace SigmaCatalog.Yaml

/-- The properties of a node: its tag, and its mark if it has an anchor. -/
structure Properties where
  tag : Option TagOctets := none
  mark : Option Nat := none
  deriving DecidableEq, Repr

inductive Node where
  | scalar (properties : Properties) (text : String) (style : Style)
  | sequence (properties : Properties) (items : List Node)
  | mapping (properties : Properties) (entries : List (Node × Node))
  | repeated (mark : Nat)
  deriving Repr, Inhabited

namespace Node

def isAlias : Node → Bool
  | repeated _ => true
  | _ => false

/-- The plain scalar without any character. -/
def empty : Node :=
  scalar {} "" .plain

mutual

/-- How many parsing events a node stands for: one for a scalar or an alias, and two for a
collection besides those of its parts. -/
def events : Node → Nat
  | scalar .. => 1
  | repeated _ => 1
  | sequence _ items => 2 + itemEvents items
  | mapping _ entries => 2 + entryEvents entries

def itemEvents : List Node → Nat
  | [] => 0
  | item :: items => item.events + itemEvents items

def entryEvents : List (Node × Node) → Nat
  | [] => 0
  | (key, value) :: entries => key.events + value.events + entryEvents entries

end

/-- A node under its mark, if it has one. -/
def underMark (properties : Properties) (node : Node) : List (Nat × Node) :=
  match properties.mark with
  | some mark => [(mark, node)]
  | none => []

mutual

/-- The nodes with marks, in the order of the text. -/
def marked : Node → List (Nat × Node)
  | scalar properties text style => underMark properties (scalar properties text style)
  | repeated _ => []
  | sequence properties items =>
    underMark properties (sequence properties items) ++ markedItems items
  | mapping properties entries =>
    underMark properties (mapping properties entries) ++ markedEntries entries

def markedItems : List Node → List (Nat × Node)
  | [] => []
  | item :: items => item.marked ++ markedItems items

def markedEntries : List (Node × Node) → List (Nat × Node)
  | [] => []
  | (key, value) :: entries => key.marked ++ value.marked ++ markedEntries entries

end

end Node

end SigmaCatalog.Yaml
