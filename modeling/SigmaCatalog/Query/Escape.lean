import SigmaCatalog.Text.Blank

/-!
# Escaping in query strings

A query string gives a meaning to some characters.  A text is written as one bare term with a
backslash before each of them, as a phrase between double quotes, or as a regular expression
between slashes.
-/

namespace SigmaCatalog.Query

/-- The characters with a meaning of their own in a query string. -/
def reservedChars : List Char :=
  ['\\', '+', '-', '=', '&', '|', '>', '<', '!', '(', ')', '\x7b', '\x7d', '[', ']', '^', '"', '~',
    '*', '?', ':', '/', ' ']

/-- Whether a character must be escaped in a bare term. -/
def isReserved (c : Char) : Bool :=
  reservedChars.contains c || Text.isBlank c

def termChar (c : Char) : List Char :=
  if isReserved c then ['\\', c] else [c]

/-- A text as a bare term, in which every reserved character is escaped. -/
def termText (text : String) : String :=
  String.ofList (text.toList.flatMap termChar)

def phraseChar (c : Char) : List Char :=
  if c = '"' || c = '\\' then ['\\', c] else [c]

/-- A text as a phrase, in which only double quotes and backslashes are escaped. -/
def phraseText (text : String) : String :=
  "\"" ++ String.ofList (text.toList.flatMap phraseChar) ++ "\""

def regexChar (c : Char) : List Char :=
  if c = '/' then ['\\', '/'] else [c]

/-- A regular expression between slashes, in which only slashes are escaped. -/
def regexText (text : String) : String :=
  "/" ++ String.ofList (text.toList.flatMap regexChar) ++ "/"

end SigmaCatalog.Query
