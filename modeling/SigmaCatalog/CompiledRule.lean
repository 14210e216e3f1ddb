import SigmaCatalog.Json.Basic
import SigmaCatalog.Rule.Basic

/-!
# Compiled rules

A compiled rule is a rule with its queries, the fields they consult and the category it is filed
under.  Its document is what the index of rules stores; the document also keeps the rule text, from
which it can be made again.
-/

namespace SigmaCatalog

/-- A rule that has been compiled for a category. -/
structure CompiledRule where
  rule : Rule
  /-- The log type the rule is filed under. -/
  category : String
  queries : List String
  /-- The raw fields that the queries consult, in the order in which they are first met. -/
  fields : List String
  /-- The rule as submitted. -/
  text : String

namespace CompiledRule

/-- The identifier of the rule, under which its document is stored. -/
def id (compiled : CompiledRule) : String :=
  compiled.rule.id.text

def queryDocument (query : String) : Json :=
  .object [("query", .string query)]

/-- A list of values, each in an object of its own. -/
def nested (values : List Json) : Json :=
  .array (values.map fun value => .object [("value", value)])

/-- The parts of a log source that are present. -/
def logSourceDocument (source : LogSource) : Json :=
  .object (source.parts.filterMap fun (name, value) => value.map fun text => (name, .string text))

/-- The document of a rule that was compiled at the given time. -/
def document (compiled : CompiledRule) (time : String) : Json :=
  let rule := compiled.rule
  .object [("rule", .object [
    ("category", .string compiled.category),
    ("title", .string rule.title),
    ("log_source", logSourceDocument rule.logSource),
    ("description", .ofText? rule.description),
    ("references", .ofTexts rule.references),
    ("tags", .ofTexts rule.tags),
    ("level", .ofText? (rule.level.map Level.name)),
    ("false_positives", .ofTexts rule.falsePositives),
    ("author", .ofText? rule.author),
    ("status", .ofText? rule.status),
    ("date", .ofText? rule.date),
    ("modified", .ofText? rule.modified),
    ("last_update_time", .string time),
    ("queries", nested (compiled.queries.map queryDocument)),
    ("query_field_names", nested (compiled.fields.map .string)),
    ("rule", .string compiled.text)])]

end CompiledRule

end SigmaCatalog
