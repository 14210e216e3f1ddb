/-!
# Tokens of YAML text

The tokens carry the structure that indentation, indicators and line breaks express: `blockEnd`
closes a block collection, and `key` and `value` come before the two parts of a mapping entry.
The end of the token list is the end of the text.
-/

namespace SigmaCatalog.Yaml

/-- How a scalar is written. -/
inductive Style where
  | plain
  | quoted
  | block
  deriving DecidableEq, Repr

/-- A tag as octets, since a percent escape may spell any octet. -/
abbrev TagOctets : Type := List UInt8

inductive Token where
  | versionDirective (major minor : Nat)
  | tagDirective (handle : String) (expansion : TagOctets)
  | documentStart
  | documentEnd
  | blockSequenceStart
  | blockMappingStart
  | blockEnd
  | flowSequenceStart
  | flowSequenceEnd
  | flowMappingStart
  | flowMappingEnd
  | blockEntry
  | flowEntry
  | key
  | value
  | repeated (name : String)
  | anchor (name : String)
  /-- A tag by its handle, which is empty for a tag given in full, and the text after it. -/
  | tag (handle : String) (suffix : TagOctets)
  | scalar (text : String) (style : Style)
  deriving DecidableEq, Repr

end SigmaCatalog.Yaml
