/-!
# Problems of YAML text

Why a text cannot be read as one YAML document.
-/

namespace SigmaCatalog.Yaml

/-- Why a text is not one readable YAML document. -/
inductive Problem where
  /-- A character that may not stand in YAML text. -/
  | forbiddenCharacter
  | badDirective
  | badAnchor
  | badTag
  | unknownTagHandle
  | badEscape
  /-- A quoted scalar that is not closed, or that a document marker interrupts. -/
  | openQuote
  | badBlockHeader
  /-- A tab where indentation is expected. -/
  | tabIndentation
  /-- An indicator that may not stand at its place. -/
  | misplacedIndicator
  /-- A key without its `:`. -/
  | missingColon
  /-- A character that begins no token. -/
  | noToken
  /-- A token that does not fit the structure around it. -/
  | unexpectedToken
  | unknownAnchor
  | severalDocuments
  | tooDeep
  | tooManyAliases
  /-- A scalar that its tag does not allow. -/
  | badScalar
  /-- An integer between the 64-bit and the 128-bit range. -/
  | wideInteger
  | duplicateKey
  deriving DecidableEq, Repr

end SigmaCatalog.Yaml
