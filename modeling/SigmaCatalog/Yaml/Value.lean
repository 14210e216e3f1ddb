import SigmaCatalog.Decimal.Binary64

/-!
# YAML values

What a document means once its scalars are resolved and its aliases are replaced: null, truth
values, numbers, texts, sequences, mappings, and values under a tag of the document's own.
-/

namespace SigmaCatalog.Yaml

inductive Value where
  | null
  | bool (value : Bool)
  /-- An integer from `-2 ^ 63` to `2 ^ 64 - 1`. -/
  | integer (value : Int)
  | real (value : Binary64)
  | string (value : String)
  | sequence (items : List Value)
  | mapping (entries : List (Value × Value))
  /-- A value under a local tag, which is given without its `!`. -/
  | tagged (tag : String) (value : Value)
  deriving Repr, Inhabited

namespace Value

def untagged : Value → Value
  | tagged _ value => value.untagged
  | value => value

def text? (value : Value) : Option String :=
  match value.untagged with
  | string text => some text
  | _ => none

def isMapping (value : Value) : Bool :=
  match value.untagged with
  | mapping _ => true
  | _ => false

mutual

/-- Whether two values are the same as keys: numbers compare as numbers of their kind, and mappings
whatever the order of their entries. -/
def sameKey : Value → Value → Bool
  | null, null => true
  | bool a, bool b => a == b
  | integer a, integer b => a == b
  | real a, real b => a.sameNumber b
  | string a, string b => a == b
  | sequence a, sequence b => sameItems a b
  | mapping a, mapping b => a.length == b.length && sameEntries a b
  | tagged s a, tagged t b => s == t && sameKey a b
  | _, _ => false

def sameItems : List Value → List Value → Bool
  | [], [] => true
  | a :: as, b :: bs => sameKey a b && sameItems as bs
  | _, _ => false

/-- Whether every entry of the first mapping occurs in the second. -/
def sameEntries : List (Value × Value) → List (Value × Value) → Bool
  | [], _ => true
  | (key, value) :: others, entries =>
    entries.any (fun entry => sameKey key entry.1 && sameKey value entry.2) &&
      sameEntries others entries

end

end Value

end SigmaCatalog.Yaml
