import SigmaCatalog.Query.Clause
import SigmaCatalog.Reading
import SigmaCatalog.Text.Blank

/-!
# Reading query strings

A query string is read by these rules alone: a backslash takes the meaning from the character after
it, double quotes delimit text, and outside both, parentheses group, blanks separate words, and the
words `AND`, `OR` and `NOT` are operators.  `NOT` takes the next operand.  `AND` and `OR` stand
between the operands of a group, and one group has only one of them.

The leaves of the clause that is read are words as they are written.
-/

namespace SigmaCatalog.Query

/-- A word, an operator or a parenthesis of a query string. -/
inductive Symbol where
  | openParen
  | closeParen
  | andOperator
  | orOperator
  | notOperator
  | word (text : String)
  deriving DecidableEq, Repr

namespace Symbol

/-- The symbol that a word spells. -/
def spelled (word : List Char) : Symbol :=
  if word = ['A', 'N', 'D'] then andOperator
  else if word = ['O', 'R'] then orOperator
  else if word = ['N', 'O', 'T'] then notOperator
  else .word (String.ofList word)

/-- The word read so far, last character first, in front of the symbols after it. -/
def consWord (pending : List Char) (symbols : List Symbol) : List Symbol :=
  if pending.isEmpty then symbols else spelled pending.reverse :: symbols

/-- Where the reading of a query string is. -/
inductive Mode where
  | bare
  | quoted
  /-- After a backslash, inside double quotes or not. -/
  | escaped (inQuotes : Bool)
  deriving DecidableEq, Repr

/-- Reads symbols, where `pending` is the word read so far, last character first.  A text that ends
inside double quotes or after a backslash has no symbols. -/
def scan (mode : Mode) (pending : List Char) : List Char → Option (List Symbol)
  | [] => if mode = .bare then some (consWord pending []) else none
  | c :: rest =>
    match mode with
    | .escaped inQuotes => scan (if inQuotes then .quoted else .bare) (c :: pending) rest
    | .quoted =>
      scan (if c = '\\' then .escaped true else if c = '"' then .bare else .quoted)
        (c :: pending) rest
    | .bare =>
      if c = '\\' then scan (.escaped false) (c :: pending) rest
      else if c = '"' then scan .quoted (c :: pending) rest
      else if c = '(' then
        (scan .bare [] rest).map fun later => consWord pending (openParen :: later)
      else if c = ')' then
        (scan .bare [] rest).map fun later => consWord pending (closeParen :: later)
      else if Text.isBlank c then (scan .bare [] rest).map (consWord pending)
      else scan .bare (c :: pending) rest

def ofText? (text : String) : Option (List Symbol) :=
  scan .bare [] text.toList

end Symbol

def Joint.symbol : Joint → Symbol
  | all => .andOperator
  | any => .orOperator

namespace Reader

def joint? : Symbol → Option Joint
  | .andOperator => some .all
  | .orOperator => some .any
  | _ => none

mutual

/-- Reads an operand: a word, a group, or `NOT` and an operand. -/
def operand (symbols : List Symbol) : Option (Reading.Step symbols (Clause String)) :=
  match symbols with
  | .word text :: rest => some ⟨.leaf text, rest, by simp⟩
  | .notOperator :: rest =>
    match operand rest with
    | some step => some ((step.map .not).widen (by simp))
    | none => none
  | .openParen :: rest =>
    match operand rest with
    | some ⟨first, .closeParen :: last, h⟩ =>
      some ⟨first, last, by simp only [List.length_cons] at h ⊢; omega⟩
    | some ⟨first, symbol :: later, h⟩ =>
      match joint? symbol with
      | none => none
      | some joint =>
        match moreOperands joint (symbol :: later) with
        | some ⟨others, .closeParen :: last, h'⟩ =>
          some ⟨.group joint (first :: others), last, by
            simp only [List.length_cons] at h h' ⊢; omega⟩
        | _ => none
    | _ => none
  | _ => none
  termination_by symbols.length * 2
  decreasing_by all_goals simp only [List.length_cons] at *; omega

/-- Reads one or more operands, each after the operator of the joint. -/
def moreOperands (joint : Joint) (symbols : List Symbol) :
    Option (Reading.Step symbols (List (Clause String))) :=
  match symbols with
  | symbol :: rest =>
    if symbol = joint.symbol then
      match operand rest with
      | none => none
      | some ⟨next, later, h⟩ =>
        match moreOperands joint later with
        | some ⟨others, last, h'⟩ =>
          some ⟨next :: others, last, by simp only [List.length_cons] at h' ⊢; omega⟩
        | none => some ⟨[next], later, by simp only [List.length_cons]; omega⟩
    else none
  | [] => none
  termination_by symbols.length * 2 + 1

end

end Reader

/-- Reads a query string as one operand, with no text left over. -/
def readClause? (text : String) : Option (Clause String) := do
  match Reader.operand (← Symbol.ofText? text) with
  | some ⟨clause, [], _⟩ => return clause
  | _ => none

end SigmaCatalog.Query
