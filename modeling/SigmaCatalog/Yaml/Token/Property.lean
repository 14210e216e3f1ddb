import SigmaCatalog.Yaml.Problem
import SigmaCatalog.Yaml.Scalar.Folding
import SigmaCatalog.Yaml.Token

/-!
# Anchors, aliases, tags and directives

These tokens are names and addresses.  A tag or the expansion of a tag handle may spell octets with
percent escapes, which together must have the shape of UTF-8 characters.
-/

namespace SigmaCatalog.Yaml

/-- Whether a character may follow the name of an anchor or an alias. -/
def endsAnchor (c : Char) : Bool :=
  isGap c || c == '?' || c == ':' || c == ',' || c == ']' || c == '\x7d' || c == '%' || c == '@' ||
    c == '\x60'

def anchorName (spots : List Spot) : Except Problem (String × List Spot) :=
  let name := charsWhile isWordChar spots
  let rest := skipWhile isWordChar spots
  if name.isEmpty || !endsAnchor (firstChar rest) then .error .badAnchor
  else .ok (String.ofList name, rest)

/-- Whether a character may stand in a tag; a tag in angle brackets allows three more. -/
def isTagChar (verbatim : Bool) (c : Char) : Bool :=
  isWordChar c || c == ';' || c == '/' || c == '?' || c == ':' || c == '@' || c == '&' ||
    c == '=' || c == '+' || c == '$' || c == '.' || c == '%' || c == '!' || c == '~' ||
    c == '*' || c == '\'' || c == '(' || c == ')' ||
    (verbatim && (c == ',' || c == '[' || c == ']'))

/-- How many octets follow this first octet of a UTF-8 character. -/
def octetsAfter? (octet : Nat) : Option Nat :=
  if octet < 0x80 then some 0
  else if octet / 0x20 = 6 then some 1
  else if octet / 0x10 = 14 then some 2
  else if octet / 0x08 = 30 then some 3
  else none

/-- Reads the octets of a tag; `owed` octets of an escaped character are still to come. -/
def tagOctets (verbatim : Bool) (owed : Nat) : List Spot → Except Problem (TagOctets × List Spot)
  | [] => .ok ([], [])
  | spot :: rest =>
    if spot.char == '%' then
      match rest with
      | high :: low :: rest =>
        match Scalar.hexValue? high.char, Scalar.hexValue? low.char with
        | some h, some l =>
          let octet := h * 16 + l
          let next : Except Problem Nat :=
            match owed with
            | owed + 1 => if octet / 0x40 = 2 then .ok owed else .error .badTag
            | 0 => match octetsAfter? octet with
              | some n => .ok n
              | none => .error .badTag
          match next with
          | .error problem => .error problem
          | .ok owed =>
            match tagOctets verbatim owed rest with
            | .error problem => .error problem
            | .ok (octets, rest) => .ok (octet.toUInt8 :: octets, rest)
        | _, _ => .error .badTag
      | _ => .error .badTag
    else if 0 < owed then .error .badTag
    else if isTagChar verbatim spot.char then
      match tagOctets verbatim 0 rest with
      | .error problem => .error problem
      | .ok (octets, rest) => .ok (spot.char.toNat.toUInt8 :: octets, rest)
    else .ok ([], spot :: rest)

/-- The octets before the first zero, where a tag ends. -/
def untilZero (octets : TagOctets) : TagOctets :=
  octets.takeWhile (· != 0)

def asciiOctets (text : List Char) : TagOctets :=
  text.map fun c => c.toNat.toUInt8

/-- Reads a handle: `!`, word characters and perhaps a closing `!`. -/
def tagHandle (spots : List Spot) : Except Problem (List Char × List Spot) :=
  if firstChar spots == '!' then
    let word := charsWhile isWordChar (spots.drop 1)
    let rest := skipWhile isWordChar (spots.drop 1)
    if firstChar rest == '!' then .ok ('!' :: (word ++ ['!']), rest.drop 1)
    else .ok ('!' :: word, rest)
  else .error .badTag

/-- Whether a handle has the form `!word!` or `!!`. -/
def isNamedHandle (handle : List Char) : Bool :=
  1 < handle.length && handle.getLast? == some '!'

/-- Reads a tag; yields its handle and the octets after it. -/
def tag (inFlow : Bool) (spots : List Spot) : Except Problem (Token × List Spot) := do
  let (token, rest) ←
    if charAt spots 1 == '<' then do
      let (octets, rest) ← tagOctets true 0 (spots.drop 2)
      if octets.isEmpty || firstChar rest != '>' then throw .badTag
      pure (Token.tag "" (untilZero octets), rest.drop 1)
    else do
      let (handle, afterHandle) ← tagHandle spots
      let (octets, rest) ← tagOctets false 0 afterHandle
      if isNamedHandle handle then
        if octets.isEmpty then throw .badTag
        pure (Token.tag (String.ofList handle) (untilZero octets), rest)
      else
        let suffix := untilZero (asciiOctets (handle.drop 1) ++ octets)
        if suffix.isEmpty then pure (Token.tag "" (asciiOctets ['!']), rest)
        else pure (Token.tag "!" suffix, rest)
  let last := firstChar rest
  if isGap last || (inFlow && last == ',') then return (token, rest) else throw .badTag

/-- Reads a number of a version, which has one to nine digits. -/
def versionNumber (spots : List Spot) : Except Problem (Nat × List Spot) :=
  let isDigit := fun c : Char => '0' ≤ c && c ≤ '9'
  let digits := charsWhile isDigit spots
  if digits.isEmpty || 9 < digits.length then .error .badDirective
  else .ok (digits.foldl (fun n c => n * 10 + (c.toNat - 48)) 0, skipWhile isDigit spots)

/-- Reads the version of a `%YAML` directive. -/
def versionDirective (spots : List Spot) : Except Problem (Token × List Spot) := do
  let (major, rest) ← versionNumber (skipWhile isSpace spots)
  if firstChar rest != '.' then throw .badDirective
  let (minor, rest) ← versionNumber (rest.drop 1)
  return (.versionDirective major minor, rest)

/-- Reads the handle and the expansion of a `%TAG` directive. -/
def tagDirective (spots : List Spot) : Except Problem (Token × List Spot) := do
  let (handle, rest) ← tagHandle (skipWhile isSpace spots)
  if !(isNamedHandle handle || handle == ['!']) then throw .badDirective
  if !isSpace (firstChar rest) then throw .badDirective
  let (octets, rest) ← tagOctets true 0 (skipWhile isSpace rest)
  if octets.isEmpty || !isGap (firstChar rest) then throw .badDirective
  return (.tagDirective (String.ofList handle) (untilZero octets), rest)

/-- Reads a directive from the character after its `%` to the end of its line. -/
def directive (spots : List Spot) : Except Problem (Token × List Spot) := do
  let name := charsWhile isWordChar spots
  let rest := skipWhile isWordChar spots
  if name.isEmpty || !isGap (firstChar rest) then throw .badDirective
  let (token, rest) ←
    match String.ofList name with
    | "YAML" => versionDirective rest
    | "TAG" => tagDirective rest
    | _ => throw .badDirective
  let rest := skipWhile isSpace rest
  let rest := if firstChar rest == '#' then skipLine rest else rest
  if isBreak (firstChar rest) then return (token, rest.drop 1)
  else if isEnd (firstChar rest) then return (token, rest)
  else throw .badDirective

end SigmaCatalog.Yaml
