import SigmaCatalog.Json.Basic

/-!
# Schemas of the indices

The index of rules accepts exactly the fields of a rule document.  The index of field mappings
keeps one document for each raw field.
-/

namespace SigmaCatalog.IndexSchema

/-- Fields of the given kind. -/
def kind (name : String) : Json :=
  .object [("type", .string name)]

/-- A list of values that are searched one by one. -/
def nested (value : Json) : Json :=
  .object [("type", .string "nested"), ("properties", .object [("value", value)])]

/-- Objects that are stored but not searched. -/
def storedOnly : Json :=
  .object [("type", .string "object"), ("enabled", .bool false)]

/-- Titles are searched by their words and as a whole. -/
def title : Json :=
  .object [("type", .string "text"), ("fields", .object [("keyword", kind "keyword")])]

/-- Both indices are hidden, have one shard and at most one replica. -/
def settings : Json :=
  .object [("index", .object [
    ("number_of_shards", .ofInt 1),
    ("auto_expand_replicas", .string "0-1"),
    ("hidden", .bool true)])]

def ruleFields : List (String × Json) :=
  [("category", kind "keyword"),
    ("title", title),
    ("log_source", storedOnly),
    ("description", kind "text"),
    ("references", kind "keyword"),
    ("tags", kind "keyword"),
    ("level", kind "keyword"),
    ("false_positives", kind "text"),
    ("author", kind "text"),
    ("status", kind "keyword"),
    ("date", kind "keyword"),
    ("modified", kind "keyword"),
    ("last_update_time",
      .object [("type", .string "date"), ("format", .string "strict_date_time")]),
    ("queries", nested storedOnly),
    ("query_field_names", nested (kind "keyword")),
    ("rule", .object [("type", .string "text"), ("index", .bool false)])]

def rules : Json :=
  .object [
    ("settings", settings),
    ("mappings", .object [
      ("dynamic", .string "strict"),
      ("properties", .object [
        ("rule", .object [("properties", .object ruleFields)])])])]

def fieldMappings : Json :=
  .object [
    ("settings", settings),
    ("mappings", .object [("properties", .object [
      ("raw_field", kind "keyword"),
      ("schema_fields", .object [("type", .string "object"), ("dynamic", .bool true)]),
      ("log_types", kind "keyword")])])]

end SigmaCatalog.IndexSchema
