import SigmaCatalog.Json.Basic

/-!
# Field mappings

A field mapping records the names that a raw field of events has in each schema, and the log types
whose rules use the field.  Mappings of one field are merged: names of the newer mapping win, and
log types add up.  A resolver proposes the new names of the fields that a rule consults.
-/

namespace SigmaCatalog

/-- The names of a raw field in schemas, and the log types that use it. -/
structure FieldMapping where
  rawField : String
  /-- The name of the field in each schema. -/
  schemaFields : Table String
  logTypes : TextSet
  deriving DecidableEq

namespace FieldMapping

/-- A mapping with the contents of a newer one added. -/
def merge (mapping newer : FieldMapping) : FieldMapping :=
  { mapping with
    schemaFields := mapping.schemaFields.insertAll newer.schemaFields.toList
    logTypes := TextSet.addAll mapping.logTypes (TextSet.members newer.logTypes) }

/-- The mappings of the fields a rule consults; a field that the table lacks keeps its name, and a
field without a name has no mapping. -/
def ofFields (logType schema : String) (table : Table String) (fields : List String) :
    List FieldMapping :=
  (fields.filter fun field => !field.isEmpty).map fun field =>
    { rawField := field
      schemaFields := Table.ofList [(schema, (table.get? field).getD field)]
      logTypes := TextSet.ofList [logType] }

def toJson (mapping : FieldMapping) : Json :=
  .object [
    ("raw_field", .string mapping.rawField),
    ("schema_fields", .object (mapping.schemaFields.toList.map fun (schema, name) =>
      (schema, .string name))),
    ("log_types", .ofTexts (TextSet.members mapping.logTypes))]

/-- A member of an object whose value is a text. -/
def textEntry? (entry : String × Json) : Option (String × String) :=
  entry.2.text?.map fun text => (entry.1, text)

def schemaFieldsOf? : Json → Option (Table String)
  | .members entries =>
    (entries.mapM textEntry?).map Table.ofList
  | _ => none

def logTypesOf? : Json → Option TextSet
  | .array elements => (elements.mapM Json.text?).map TextSet.ofList
  | _ => none

/-- The mapping made of the values of its three parts. -/
def ofParts? (rawField schemaFields logTypes : Json) : Option FieldMapping := do
  return {
    rawField := ← rawField.text?
    schemaFields := ← schemaFieldsOf? schemaFields
    logTypes := ← logTypesOf? logTypes }

/-- The mapping a document holds: an object with its three parts, or an array of them in order.
Other members of an object do not matter. -/
def ofJson? : Json → Option FieldMapping
  | .members entries => do
    ofParts? (← Entries.get? "raw_field" entries) (← Entries.get? "schema_fields" entries)
      (← Entries.get? "log_types" entries)
  | .array [rawField, schemaFields, logTypes] => ofParts? rawField schemaFields logTypes
  | _ => none

end FieldMapping

/-- A resolver gives the new names of the fields that a rule consults. -/
abbrev Resolver : Type :=
  (fields : List String) → Table String

namespace Resolver

/-- Every field keeps its name. -/
def identity : Resolver := fun fields =>
  Table.ofList (fields.map fun field => (field, field))

/-- Every field gets its name in a table; fields that the table lacks are left out. -/
def ofTable (table : Table String) : Resolver := fun fields =>
  Table.ofList (fields.filterMap fun field => (table.get? field).map fun name => (field, name))

end Resolver

end SigmaCatalog
