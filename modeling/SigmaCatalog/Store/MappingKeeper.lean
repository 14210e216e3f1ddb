import SigmaCatalog.IndexSchema
import SigmaCatalog.Store.Readiness

/-!
# Keeping field mappings

Field mappings are kept in an index with one document for each raw field.  A mapping is merged into
the document that is there: the document is read, merged, and written on the condition that it is
still at the revision that was read.  When another writer was faster, the merge starts again.
-/

namespace SigmaCatalog

/-- How often a merge is tried. -/
def mergeAttempts : Nat := 16

/-- The mapping to write when `existing` was read, and whether what was read is unreadable. -/
def mergeInto (mapping : FieldMapping) (existing : Option StoredDocument) : FieldMapping × Bool :=
  match existing with
  | none => (mapping, false)
  | some document =>
    match FieldMapping.ofJson? document.source with
    | some previous => (previous.merge mapping, false)
    | none => (mapping, true)

/-- The write of a merged mapping over what was read. -/
def mergeCall (index : String) (timeout : Nat) (existing : Option StoredDocument)
    (merged : FieldMapping) : Call :=
  .write index merged.rawField merged.toJson (some (.asRead existing)) timeout .none

/-- Merges a mapping into its document in a number of attempts. -/
def mergeMapping (index : String) (timeout : Nat) (mapping : FieldMapping) :
    (attempts : Nat) → Program (Except MappingError Unit)
  | 0 => return .error (.contended mapping.rawField mergeAttempts)
  | attempts + 1 => do
    match ← Program.call (.get index mapping.rawField) with
    | .error cause => return .error (.store cause)
    | .ok existing =>
      let (merged, unreadable) := mergeInto mapping existing
      if unreadable then Program.warn .unreadableMapping
      match ← Program.call (mergeCall index timeout existing merged) with
      | .ok _ => return .ok ()
      | .error (.conflict _ _) => mergeMapping index timeout mapping attempts
      | .error cause => return .error (.store cause)

/-- Merges mappings one after another; the first failure ends it. -/
def mergeMappings (index : String) (timeout : Nat) :
    List FieldMapping → Program (Except MappingError Unit)
  | [] => return .ok ()
  | mapping :: mappings => do
    match ← mergeMapping index timeout mapping mergeAttempts with
    | .error cause => return .error cause
    | .ok () => mergeMappings index timeout mappings

/-- Where field mappings are kept. -/
inductive MappingKeeper where
  /-- In an index of the store. -/
  | index (name : String) (schema : String) (timeout : Nat)
  /-- Outside the store. -/
  | external (schema : String)
  deriving DecidableEq, Repr

namespace MappingKeeper

/-- The schema under which new mappings are kept. -/
def schema : MappingKeeper → String
  | index _ schema _ => schema
  | external schema => schema

/-- Keeps field mappings; without mappings nothing is touched. -/
def keep : MappingKeeper → List FieldMapping → Program (Except MappingError Unit)
  | external _, mappings => Program.perform (.handOver mappings)
  | index _ _ _, [] => return .ok ()
  | index name _ timeout, mappings => do
    match ← makeReady name IndexSchema.fieldMappings with
    | .error cause => return .error (.notReady cause)
    | .ok () => mergeMappings name timeout mappings

end MappingKeeper

end SigmaCatalog
