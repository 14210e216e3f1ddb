import SigmaCatalog.Query.Conversion
import SigmaCatalog.Rule.Reader

/-!
# Compilation of a rule

Compiling a rule text reads the rule, refuses it when it has problems, and converts its conditions
into query strings.  A `Compiler` is anything that does so; `compile` is the one of this library.
-/

namespace SigmaCatalog

/-- Why no query can be made although the rule is in order. -/
inductive QueryFault where
  | unknownIdentifier (name : String)
  | emptySelection (pattern : NamePattern)
  /-- A fault that another compiler reports in its own words. -/
  | reported (text : String)
  deriving DecidableEq, Repr

def QueryFault.message : QueryFault → String
  | unknownIdentifier name => s!"unknown search identifier '{name}'"
  | emptySelection pattern => s!"pattern '{pattern.text}' matches no search identifier"
  | reported text => text

/-- Why a rule text cannot be compiled. -/
inductive CompileError where
  | unreadable (cause : Rule.ParseError)
  | invalid (problems : List Rule.Problem)
  | unmappedField (field : String)
  /-- A condition has an aggregation clause, which no query string can express. -/
  | unsupportedCondition (source : String)
  | backend (fault : QueryFault)
  deriving DecidableEq, Repr

namespace CompileError

def message : CompileError → String
  | unreadable cause => "rule could not be parsed: " ++ cause.message
  | invalid problems => Rule.problemsMessage problems
  | unmappedField field => s!"field '{field}' has no schema mapping"
  | unsupportedCondition source =>
    s!"condition '{source}' uses an aggregation the query backend cannot express"
  | backend fault => "backend error: " ++ fault.message

/-- Whether the rule itself is at fault. -/
def blamesRule : CompileError → Bool
  | unreadable _ => true
  | invalid _ => true
  | unmappedField _ => false
  | unsupportedCondition _ => false
  | backend _ => false

/-- The failure of a compilation whose conversion failed. -/
def ofConversion : Query.ConversionError → CompileError
  | .unmappedField field => unmappedField field
  | .aggregation source => unsupportedCondition source
  | .unknownIdentifier name => backend (.unknownIdentifier name)
  | .emptySelection pattern => backend (.emptySelection pattern)

end CompileError

/-- What compiling a rule text yields. -/
structure Artifact where
  rule : Rule
  /-- One query string for each condition. -/
  queries : List String
  /-- The fields the queries consult, in the order in which they are first met. -/
  fields : List String

/-- A compiler gets the rule text, the new names of fields, and whether every field must have one.
Nothing comes of a compiler that breaks down. -/
abbrev Compiler : Type :=
  (text : String) → (table : Table String) → (strict : Bool) → Option (Except CompileError Artifact)

namespace Rule

/-- Converts the conditions of a rule, whether or not the rule has problems. -/
def convert (rule : Rule) (table : Table String) (strict : Bool) :
    Except CompileError Query.Conversion :=
  (Query.Conversion.ofDetection rule.detection ⟨table, strict⟩).mapError CompileError.ofConversion

end Rule

def compile (text : String) (table : Table String) (strict : Bool) :
    Except CompileError Artifact := do
  let rule ← (Rule.parse text).mapError CompileError.unreadable
  if !rule.isValid then throw (.invalid rule.problems)
  let conversion ← rule.convert table strict
  return { rule, queries := conversion.queries, fields := conversion.fields }

/-- The compiler of this library, which never breaks down. -/
def standardCompiler : Compiler := fun text table strict =>
  some (compile text table strict)

end SigmaCatalog
