import SigmaCatalog.Rest.Host
import SigmaCatalog.Rest.Path
import SigmaCatalog.Settings.Basic
import SigmaCatalog.Text.Splitting

/-!
# Addresses

The address of a store has a scheme, a host, a port and a path.  It is read from the text of the
settings, in which the host may bring a path of its own.  A port that is the standard one of the
scheme is not written.
-/

namespace SigmaCatalog.Rest

structure Address where
  secure : Bool
  host : String
  /-- The port, unless it is the standard one of the scheme. -/
  port : Option Nat
  path : Path
  /-- The text after a question mark. -/
  query : Option String
  deriving DecidableEq, Repr

namespace Address

def standardPort (secure : Bool) : Nat :=
  if secure then 443 else 80

/-- The address up to its path. -/
def origin (address : Address) : String :=
  let scheme := if address.secure then "https" else "http"
  let port := match address.port with
    | some port => s!":{port}"
    | none => ""
  scheme ++ "://" ++ address.host ++ port

/-- Whether a character separates segments of a path. -/
def isSlash (c : Char) : Bool :=
  c == '/' || c == '\\'

/-- Whether a character ends the host and port of an address. -/
def endsAuthority (c : Char) : Bool :=
  isSlash c || c == '?' || c == '#'

/-- The text after the last at sign. -/
def afterUser (authority : List Char) : List Char :=
  (authority.reverse.takeWhile (· != '@')).reverse

/-- The host of an authority, which ends at the first colon outside brackets, and the rest. -/
def splitHost (bracketed : Bool) : List Char → List Char × List Char
  | [] => ([], [])
  | c :: rest =>
    if c = ':' && !bracketed then ([], c :: rest)
    else
      let bracketed := if c = '[' then true else if c = ']' then false else bracketed
      let (host, after) := splitHost bracketed rest
      (c :: host, after)

/-- The port of an authority: nothing, or a colon and a number of 16 bits. -/
def port? (secure : Bool) : List Char → Option (Option Nat)
  | [] => some none
  | [':'] => some none
  | ':' :: digits =>
    if digits.all Char.isDigit then do
      let port ← Host.number? 10 digits
      if 0x10000 ≤ port then failure
      return if port = standardPort secure then none else some port
    else none
  | _ => none

/-- The path that a text spells, where `.` stays and `..` goes up. -/
def addWritten : (done : Path) → List (List Char) → Path
  | done, [] => done
  | done, segment :: others =>
    let isLast := others.isEmpty
    match (String.ofList segment).toLower with
    | "." | "%2e" => addWritten (if isLast then ⟨done.segments ++ [""]⟩ else done) others
    | ".." | "%2e." | ".%2e" | "%2e%2e" =>
      let above : Path := ⟨done.segments.dropLast⟩
      addWritten (if isLast then ⟨above.segments ++ [""]⟩ else above) others
    | _ =>
      let written := String.ofList (segment.flatMap (escapeChar pathEscapes))
      addWritten ⟨done.segments ++ [written]⟩ others

def pathOf (text : List Char) : Path :=
  match text.map fun c => if c = '\\' then '/' else c with
  | '/' :: rest =>
    let (first, others) := Text.splitAll '/' rest
    addWritten ⟨[]⟩ (first :: others)
  | _ => .root

/-- The path without an empty segment at its end. -/
def withoutEmptyEnd (path : Path) : Path :=
  if path.segments.getLast? == some "" && 1 < path.segments.length then
    ⟨path.segments.dropLast⟩
  else path

/-- The characters that the query of an address writes as octets. -/
def queryEscapes : List Char :=
  ['"', '#', '<', '>', '\'']

def queryOf (text : List Char) : Option String :=
  match text.takeWhile (· != '#') with
  | '?' :: rest => some (String.ofList (rest.flatMap (escapeChar queryEscapes)))
  | _ => none

/-- Reads what follows the scheme and the colon of an address. -/
def ofRest? (secure : Bool) (rest : List Char) : Option Address := do
  let rest := (rest.filter fun c => !isBreak c).dropWhile isSlash
  let authority := rest.takeWhile fun c => !endsAuthority c
  let after := rest.dropWhile fun c => !endsAuthority c
  let (host, port) := splitHost false (afterUser authority)
  let path := after.takeWhile fun c => c != '?' && c != '#'
  return {
    secure
    host := ← Host.parse? host
    port := ← port? secure port
    path := withoutEmptyEnd (pathOf path)
    query := queryOf (after.drop path.length) }

/-- The address of the store that a connection names. -/
def ofConnection? (connection : Connection) : Option Address :=
  ofRest? connection.useSsl (s!"//{connection.host}:{connection.port}").toList

end Address

end SigmaCatalog.Rest
