import SigmaCatalog.Table
import SigmaCatalog.Text.Blank

/-!
# Environment files

An environment file sets variables, one on a line: a name, an equals sign and a value.  Blank lines
and lines that begin with `#` are skipped.  A value may be quoted, may escape characters with a
backslash, and may use variables after a dollar sign; text after a blank must be a comment.  A line
whose quotation is still open goes on after the line break.  The first line that cannot be read ends
the file.
-/

namespace SigmaCatalog

abbrev Environment : Type :=
  Table String

namespace Dotenv

/-- What is open in a line, where it may go on after a line break. -/
inductive Pending where
  | nothing
  /-- A blank, after which a comment may begin. -/
  | blank
  | backslash
  | quotation (quote : Char)
  | quotedBackslash (quote : Char)
  deriving DecidableEq

/-- What is open after one more character. -/
def Pending.step (pending : Pending) (c : Char) : Pending :=
  match pending with
  | quotation quote =>
    if c = '\\' then quotedBackslash quote else if c = quote then nothing else quotation quote
  | quotedBackslash quote => quotation quote
  | backslash => nothing
  | nothing | blank =>
    if c = '\\' then backslash
    else if c = '"' || c = '\'' then quotation c
    else if pending = nothing && Text.isBlank c && c ≠ '\n' && c ≠ '\r' then blank
    else nothing

/-- The lines of a file without their comments.  `line` holds the characters of the line so far, last
first; a line that is still open at the end of the file is left out. -/
def linesFrom (pending : Pending) (inComment : Bool) (line : List Char) :
    List Char → List (List Char)
  | [] => if inComment || (pending = .nothing && !line.isEmpty) then [line.reverse] else []
  | c :: rest =>
    if inComment then
      if c = '\n' then line.reverse :: linesFrom .nothing false [] rest
      else linesFrom pending true line rest
    else if c = '#' && (pending = .blank || line.all Text.isBlank) then
      linesFrom pending true line rest
    else
      let pending := pending.step c
      if c = '\n' && pending = .nothing then line.reverse :: linesFrom .nothing false [] rest
      else linesFrom pending false (c :: line) rest

/-- Where the reading of a value is.  The flag of a mode says whether it is inside double quotes. -/
inductive Mode where
  | bare
  | singleQuoted
  | doubleQuoted
  | escaped (quoted : Bool)
  /-- After a dollar sign. -/
  | variable (quoted : Bool)
  /-- After a dollar sign and an opening brace. -/
  | braced (quoted : Bool)
  /-- After the blank that ends the value. -/
  | ended
  /-- In the comment after the value. -/
  | comment

/-- How far a value has been read: its text and the name of the variable in it that is being read,
each with its last character first. -/
structure Progress where
  mode : Mode
  text : List Char
  name : List Char

/-- The mode after a part that stood inside double quotes or not. -/
def Mode.back (quoted : Bool) : Mode :=
  if quoted then doubleQuoted else bare

/-- The progress with the variable that was named put into the text. -/
def Progress.substitute (progress : Progress) (look : String → String) : Progress :=
  let value := (look (String.ofList progress.name.reverse)).toList
  { progress with text := value.reverse ++ progress.text, name := [] }

/-- What a backslash before a character stands for. -/
def unescape? (c : Char) : Option Char :=
  if c = 'n' then some '\n'
  else if ['\\', '\'', '"', '$', ' '].contains c then some c
  else none

/-- The progress after a character outside single quotes, escapes and variables. -/
def Progress.plain (progress : Progress) (quoted : Bool) (c : Char) : Progress :=
  let moved (mode : Mode) : Progress := { progress with mode }
  let kept : Progress := { progress with text := c :: progress.text }
  if c = '$' then moved (.variable quoted)
  else if c = '\\' then moved (.escaped quoted)
  else if c = '"' then moved (.back (!quoted))
  else if quoted then kept
  else if c = '\'' then moved .singleQuoted
  else if c = ' ' || c = '\t' then moved .ended
  else kept

/-- Whether a character may stand in the name of a variable after a dollar sign. -/
def isNameChar (c : Char) : Bool :=
  c.isAlphanum

/-- The progress after one more character. -/
def Progress.step (look : String → String) (progress : Progress) (c : Char) : Option Progress :=
  match progress.mode with
  | .comment => some progress
  | .ended =>
    if c = ' ' || c = '\t' then some progress
    else if c = '#' then some { progress with mode := .comment }
    else none
  | .escaped quoted =>
    (unescape? c).map fun real =>
      { progress with mode := .back quoted, text := real :: progress.text }
  | .singleQuoted =>
    if c = '\'' then some { progress with mode := .bare }
    else some { progress with text := c :: progress.text }
  | .variable quoted =>
    if isNameChar c then some { progress with name := c :: progress.name }
    else if c = '\x7b' && progress.name.isEmpty then some { progress with mode := .braced quoted }
    else
      let done := progress.substitute look
      if c = '$' then some done
      else some { done with mode := .back quoted, text := c :: done.text }
  | .braced quoted =>
    if c = '\x7d' then some { progress.substitute look with mode := .back quoted }
    else some { progress with name := c :: progress.name }
  | .doubleQuoted => some (progress.plain true c)
  | .bare => some (progress.plain false c)

/-- The value when its text has ended; quotes and braces must be closed. -/
def Progress.finish (look : String → String) (progress : Progress) : Option String :=
  match progress.mode with
  | .singleQuoted | .doubleQuoted | .braced _ | .escaped true | .variable true => none
  | _ => some (String.ofList (progress.substitute look).text.reverse)

/-- Reads a value; `look` gives the values of other variables. -/
def value? (look : String → String) (text : List Char) : Option String := do
  (← text.foldlM (Progress.step look) ⟨.bare, [], []⟩).finish look

/-- The name of a variable at the start of a text, and the rest. -/
def key? (text : List Char) : Option (String × List Char) :=
  match text with
  | [] => none
  | c :: _ =>
    if c.isAlpha || c = '_' then
      let isKeyChar (c : Char) : Bool := c.isAlphanum || c = '_' || c = '.'
      some (String.ofList (text.takeWhile isKeyChar), text.dropWhile isKeyChar)
    else none

/-- The text after an equals sign and the blanks around it. -/
def afterEquals? (text : List Char) : Option (List Char) :=
  match Text.trimStart text with
  | '=' :: rest => some (Text.trimStart rest)
  | _ => none

/-- The name at the start of a line, which may follow the word `export`, and the text of its
value. -/
def assignment? (line : List Char) : Option (String × List Char) := do
  let (key, rest) ← key? line
  match afterEquals? rest with
  | some text => return (key, text)
  | none =>
    if key ≠ "export" then failure
    let (key, rest) ← key? (Text.trimStart rest)
    return (key, ← afterEquals? rest)

/-- What a line sets, if it sets anything; a line that cannot be read has no result. -/
def line? (look : String → String) (line : List Char) : Option (Option (String × String)) :=
  match Text.trimChars line with
  | [] => some none
  | '#' :: _ => some none
  | chars => do
    let (key, text) ← assignment? chars
    match text with
    | [] => return some (key, "")
    | '#' :: _ => return some (key, "")
    | _ => return some (key, ← value? look text)

/-- The environment after some lines of a file, where `stored` holds what the file has set; variables
that the environment has keep their values. -/
def loadLines (stored environment : Environment) : List (List Char) → Environment
  | [] => environment
  | line :: lines =>
    let look (name : String) : String :=
      ((environment.get? name).or (stored.get? name)).getD ""
    match line? look line with
    | none => environment
    | some none => loadLines stored environment lines
    | some (some (key, value)) =>
      let environment :=
        if (environment.get? key).isSome then environment else environment.insert key value
      loadLines (stored.insert key value) environment lines

def load (text : String) (environment : Environment) : Environment :=
  let chars := match text.toList with
    | '\uFEFF' :: rest => rest
    | chars => chars
  loadLines ∅ environment (linesFrom .nothing false [] chars)

end Dotenv

end SigmaCatalog
