import SigmaCatalog.Digest.Sha1

/-!
# Universally unique identifiers

An identifier is a number of 128 bits, written as 32 hexadecimal digits in five groups.  It can be
read from that form, from the digits without hyphens, from the form in braces, and from the form
after `urn:uuid:`.  A version 5 identifier is derived from a text by a digest.
-/

namespace SigmaCatalog

/-- An identifier by its 16 octets. -/
structure Uuid where
  octets : List UInt8
  deriving DecidableEq, Repr

namespace Uuid

def nil : Uuid :=
  ⟨List.replicate 16 0⟩

def digit? (c : Char) : Option Nat :=
  if '0' ≤ c && c ≤ '9' then some (c.toNat - 48)
  else if 'a' ≤ c && c ≤ 'f' then some (c.toNat - 87)
  else if 'A' ≤ c && c ≤ 'F' then some (c.toNat - 55)
  else none

/-- The octets that pairs of hexadecimal digits spell. -/
def octets? : List Char → Option (List UInt8)
  | [] => some []
  | [_] => none
  | high :: low :: rest => do
    return ((← digit? high) * 16 + (← digit? low)).toUInt8 :: (← octets? rest)

/-- Reads 32 digits without hyphens. -/
def ofSimple? (text : List Char) : Option Uuid :=
  if text.length = 32 then (octets? text).map Uuid.mk else none

/-- Reads digits in groups of 8, 4, 4, 4 and 12 with hyphens between them. -/
def ofHyphenated? (text : List Char) : Option Uuid :=
  let hyphens := [8, 13, 18, 23]
  if text.length = 36 && hyphens.all fun place => text[place]? == some '-' then
    ofSimple? ((text.zipIdx.filter fun (_, place) => !hyphens.contains place).map Prod.fst)
  else none

/-- The text after `urn:uuid:`, whatever the case of these letters. -/
def afterUrn? (text : List Char) : Option (List Char) :=
  if (text.take 9).map Char.toLower == "urn:uuid:".toList then some (text.drop 9) else none

/-- Reads an identifier in any of its forms. -/
def ofText? (text : String) : Option Uuid :=
  let chars := text.toList
  match chars with
  | '\x7b' :: rest =>
    if rest.getLast? == some '\x7d' then ofHyphenated? rest.dropLast else none
  | _ =>
    match afterUrn? chars with
    | some rest => ofHyphenated? rest
    | none => (ofSimple? chars).or (ofHyphenated? chars)

def octetText (octet : UInt8) : List Char :=
  let digit (n : Nat) : Char := (Nat.digitChar n)
  [digit (octet.toNat / 16), digit (octet.toNat % 16)]

/-- The identifier in five groups of lower-case digits. -/
def text (uuid : Uuid) : String :=
  let digits := uuid.octets.flatMap octetText
  let group (start size : Nat) : String := String.ofList ((digits.drop start).take size)
  group 0 8 ++ "-" ++ group 8 4 ++ "-" ++ group 12 4 ++ "-" ++ group 16 4 ++ "-" ++ group 20 12

/-- Sets the bits that mark an identifier as version 5. -/
def markVersion5 (octets : List UInt8) : List UInt8 :=
  octets.zipIdx.map fun (octet, place) =>
    if place = 6 then (octet &&& 0x0F) ||| 0x50
    else if place = 8 then (octet &&& 0x3F) ||| 0x80
    else octet

/-- The version 5 identifier of a text in a name space. -/
def ofName (space : Uuid) (name : String) : Uuid :=
  ⟨markVersion5 ((Digest.sha1 (space.octets ++ name.toUTF8.toList)).take 16)⟩

end Uuid

end SigmaCatalog
