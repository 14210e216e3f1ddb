import SigmaCatalog.Command.FileFault
import SigmaCatalog.Table
import SigmaCatalog.Text.Splitting

/-!
# Files of a rehearsal

The working directory of a rehearsal holds the files of a table, by their paths from there.  There
are no files outside it.
-/

namespace SigmaCatalog.Rehearsal

/-- The files of a working directory. -/
abbrev Files : Type :=
  Table String

namespace Files

/-- The names along a path, without empty ones and those that stay where they are. -/
def namesOf (path : List Char) : List (List Char) :=
  let (first, others) := Text.splitAll '/' path
  (first :: others).filter fun name => !name.isEmpty && name != ['.']

/-- The file at a place below the working directory. -/
def fileAt? (files : Files) (place : List (List Char)) : Option String :=
  (files.toList.find? fun entry => namesOf entry.1.toList == place).map Prod.snd

/-- Whether a place is a directory: the working directory, or one on the way to a file. -/
def isDirectory (files : Files) (place : List (List Char)) : Bool :=
  place.isEmpty || files.toList.any fun entry =>
    let names := namesOf entry.1.toList
    place.isPrefixOf names && place != names

/-- The place that names lead to from a directory below the working directory. -/
def walk (files : Files) : (place names : List (List Char)) → Except FileFault (List (List Char))
  | place, [] => .ok place
  | place, name :: names =>
    if !files.isDirectory place then
      .error (if (files.fileAt? place).isSome then .notDirectory else .missing)
    else if name = ['.', '.'] then
      if place.isEmpty then .error (if names.isEmpty then .isDirectory else .missing)
      else files.walk place.dropLast names
    else files.walk (place ++ [name]) names

/-- Whether a path can only be that of a directory. -/
def namesDirectory (path : List Char) : Bool :=
  match (path.reverse : List Char) with
  | '/' :: _ => true
  | ['.'] => true
  | '.' :: '/' :: _ => true
  | _ => false

def read (files : Files) (path : String) : Except FileFault String := do
  let chars := path.toList
  if chars.head? = some '/' then
    throw (if (namesOf chars).isEmpty then .isDirectory else .missing)
  let place ← files.walk [] (namesOf chars)
  if files.isDirectory place then throw .isDirectory
  match files.fileAt? place with
  | none => throw .missing
  | some text => if namesDirectory chars then throw .notDirectory else return text

end Files

end SigmaCatalog.Rehearsal
