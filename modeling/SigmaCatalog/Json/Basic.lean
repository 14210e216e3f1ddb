import SigmaCatalog.Decimal.Binary64
import SigmaCatalog.Table

/-!
# JSON values

Documents, request bodies and answers of the store are JSON values.  An object keeps its members in
the order of their names, each name once; `Json.object` builds one from any list of members.
-/

namespace SigmaCatalog

/-- A JSON number: an integer of at most 64 bits, signed or not, or a finite floating point number. -/
inductive Json.Number where
  | integer (value : Int)
  | real (value : Binary64)
  deriving DecidableEq, Repr

inductive Json where
  | null
  | bool (value : Bool)
  | number (value : Json.Number)
  | string (value : String)
  | array (elements : List Json)
  /-- An object by its members in the order of their names; see `Json.object`. -/
  | members (entries : List (String × Json))
  deriving Repr, Inhabited

namespace Json

/-- The object with the given members; a later member of the same name wins. -/
def object (entries : List (String × Json)) : Json :=
  members (entries.foldl (fun sorted entry => Entries.insert entry.1 entry.2 sorted) [])

def ofInt (n : Int) : Json :=
  number (.integer n)

/-- A text or `null`. -/
def ofText? : Option String → Json
  | some text => string text
  | none => null

def ofTexts (texts : List String) : Json :=
  array (texts.map string)

def get? (name : String) : Json → Option Json
  | members entries => Entries.get? name entries
  | _ => none

def text? : Json → Option String
  | string text => some text
  | _ => none

def bool? : Json → Option Bool
  | bool value => some value
  | _ => none

/-- The integers of 64 bits with sign. -/
def isInt64 (n : Int) : Bool :=
  -0x8000000000000000 ≤ n && n < 0x8000000000000000

/-- The integer, if the value is one that fits 64 bits with sign. -/
def int64? : Json → Option Int
  | number (.integer n) => if isInt64 n then some n else none
  | _ => none

def elements? : Json → Option (List Json)
  | array elements => some elements
  | _ => none

def entries? : Json → Option (List (String × Json))
  | members entries => some entries
  | _ => none

mutual

def same : Json → Json → Bool
  | null, null => true
  | bool a, bool b => a == b
  | number a, number b => a == b
  | string a, string b => a == b
  | array a, array b => sameElements a b
  | members a, members b => sameEntries a b
  | _, _ => false

def sameElements : List Json → List Json → Bool
  | [], [] => true
  | a :: as, b :: bs => same a b && sameElements as bs
  | _, _ => false

def sameEntries : List (String × Json) → List (String × Json) → Bool
  | [], [] => true
  | (k, a) :: as, (l, b) :: bs => k == l && same a b && sameEntries as bs
  | _, _ => false

end

instance : BEq Json := ⟨same⟩

end Json

end SigmaCatalog
