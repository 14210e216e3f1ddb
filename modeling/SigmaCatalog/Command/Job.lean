import SigmaCatalog.Command.Arguments
import SigmaCatalog.Indexing.Run
import SigmaCatalog.Json.Pretty
import SigmaCatalog.Rest.Request
import SigmaCatalog.Text.Splitting

/-!
# Jobs of the command line

A command becomes a job: a program whose value is the report to print, and the store that the
program works with, if it needs one.
-/

namespace SigmaCatalog.Command

/-- What a command leaves behind. -/
structure Report where
  exit : Nat
  output : String := ""
  errors : String := ""
  deriving DecidableEq, Repr

namespace Report

/-- The report of a command that succeeded with a result. -/
def success (result : Json) : Report :=
  { exit := 0, output := result.pretty 0 ++ "\n" }

/-- The lines of a text with every line indented. -/
def indented (text : String) : String :=
  let (first, others) := Text.splitAll '\n' text.toList
  Text.joinWith "\n" ((first :: others).map fun line => "    " ++ String.ofList line)

/-- The report of a command that failed, with the cause of the failure. -/
def failure (message : String) (cause : Option String) : Report :=
  let causeText := match cause with
    | some cause => "\n\nCaused by:\n" ++ indented cause
    | none => ""
  { exit := 1, errors := "Error: " ++ message ++ causeText ++ "\n" }

/-- The report of an indexing operation that failed. -/
def indexFailure (cause : IndexError) : Report :=
  failure cause.message cause.source?

/-- The report on arguments that name no task. -/
def stopped : Stop → Report
  | .misuse => { exit := 2, errors := "error: the arguments name no command\n" }
  | .help =>
    { exit := 0
      output := "Usage: rule-indexer [--profile NAME] <index|delete|compile|config> [OPTIONS]\n" }
  | .version => { exit := 0, output := "rule-indexer 0.1.0\n" }

end Report

/-- A program whose value is a report, with the store it works with. -/
structure Job where
  endpoint : Option Rest.Endpoint
  program : Program Report

namespace Job

/-- A job that is done at once. -/
def finished (report : Report) : Job :=
  { endpoint := none, program := .done report }

/-- A job with the text of a rule file. -/
def withFile (contents : String → Except String String) (file : String) (job : String → Job) :
    Job :=
  match contents file with
  | .ok text => job text
  | .error fault => .finished (.failure ("failed to read rule file " ++ file) (some fault))

def withStore (settings : Settings) (program : Program Report) : Job :=
  match Rest.Endpoint.ofConnection? settings.connection with
  | some endpoint => { endpoint := some endpoint, program }
  | none => .finished (.failure "failed to configure OpenSearch" (some "invalid OpenSearch url"))

def indexer (settings : Settings) : Indexer :=
  let options := settings.indexing
  { tools := .standard
    rulesIndex := options.rulesIndex
    writeTimeout := options.writeTimeout
    keeper := .index options.mappingsIndex options.schema options.writeTimeout }

def indexReport : Except IndexError Acknowledgement → Report
  | .ok acknowledgement => .success (.object [
      ("_id", .string acknowledgement.id),
      ("_version", .ofInt acknowledgement.version),
      ("status", .string acknowledgement.status.name)])
  | .error cause => .indexFailure cause

def deleteReport : Except IndexError Acknowledgement → Report
  | .ok acknowledgement => .success (.object [
      ("_id", .string acknowledgement.id),
      ("_version", .ofInt acknowledgement.version)])
  | .error cause => .indexFailure cause

def compileReport : Except IndexError CompiledRule → Report
  | .ok compiled => .success (.object [
      ("id", .string compiled.id),
      ("title", .string compiled.rule.title),
      ("category", .string compiled.category),
      ("queries", .array (compiled.queries.map CompiledRule.queryDocument)),
      ("query_field_names", .ofTexts compiled.fields)])
  | .error cause => .indexFailure cause

def ofTask (settings : Settings) (environment : Environment)
    (contents : String → Except String String) : Task → Job
  | .index file category refresh force =>
    withFile contents file fun text =>
      withStore settings do
        return indexReport
          (← (indexer settings).indexRule (.make text category force refresh))
  | .delete id refresh force =>
    withStore settings do
      return deleteReport (← (indexer settings).removeRule { ruleId := id, force, refresh })
  | .compile file category =>
    withFile contents file fun text =>
      let pass := Toolchain.standard.preview text category
      .finished (compileReport (pass.outcome.getD (.error .cancelled)))
  | .config =>
    .finished (.success (.object [
      ("active", settings.summary),
      ("profiles", .ofTexts (Settings.profiles environment))]))

def ofArguments (environment : Environment) (contents : String → Except String String)
    (arguments : List String) : Job :=
  match Invocation.ofArguments arguments with
  | .error stop => .finished (.stopped stop)
  | .ok invocation =>
    let settings := match invocation.profile with
      | some profile => Settings.ofProfile environment profile
      | none => Settings.ofEnvironment environment
    ofTask settings environment contents invocation.task

end Job

end SigmaCatalog.Command
