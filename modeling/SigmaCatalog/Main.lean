import SigmaCatalog.Command.FileFault
import SigmaCatalog.Command.Job
import SigmaCatalog.Rest.Response
import SigmaCatalog.Text.Splitting
import Std.Time.Format

/-!
# The command line

`rule-indexer` compiles detection rules and files them in a document store.  The requests to the
store are carried by whoever runs the program: each request is written to standard output as one
line of JSON, and its response is read from standard input as one line, an object with the `status`
and the `text` of the response; any other line stands for a request that failed.
-/

namespace SigmaCatalog.Command

def processEnvironment : IO Environment := do
  let text ← try IO.FS.readFile "/proc/self/environ" catch _ => pure ""
  let (first, others) := Text.splitAll '\x00' text.toList
  let entries := (first :: others).filterMap fun entry =>
    (Text.splitFirst '=' entry).map fun (name, value) =>
      (String.ofList name, String.ofList value)
  return Table.ofList entries

/-- The environment with the variables of the file `.env` in the working directory. -/
def loadedEnvironment : IO Environment := do
  let environment ← processEnvironment
  try return Dotenv.load (← IO.FS.readFile ".env") environment
  catch _ => return environment

/-- The text of a file, or why it cannot be read. -/
def fileContents (path : String) : IO (Except String String) := do
  try return .ok (← IO.FS.readFile path)
  catch
    | .noFileOrDirectory .. => return .error FileFault.missing.message
    | other => return .error other.toString

/-- The text of the file that the arguments name. -/
def namedContents (arguments : List String) : IO (Except String String) := do
  match Invocation.ofArguments arguments with
  | .ok invocation =>
    match invocation.task.file? with
    | some file => fileContents file
    | none => return .error FileFault.missing.message
  | .error _ => return .error FileFault.missing.message

/-- The time of day in UTC, to the millisecond. -/
def timeOfDay : IO String := do
  let time := Std.Time.DateTime.ofTimestamp (← Std.Time.Timestamp.now) .UTC
  return time.format "uuuu-MM-dd'T'HH:mm:ss.SSS'Z'"

/-- A request as a line for its carrier. -/
def requestLine (request : Rest.Request) : String :=
  (Json.object [
    ("method", .string request.method.name),
    ("url", .string request.url),
    ("authorization", .ofText? request.authorization),
    ("content_type", .ofText? request.contentType),
    ("body", request.body.getD .null)]).text

/-- The response in a line from the carrier. -/
def responseOfLine (line : String) : Option Rest.Response := do
  let answer ← Json.parse? line
  let status ← (answer.get? "status").bind Json.int64?
  return { status := status.toNat, text := ((answer.get? "text").bind Json.text?).getD "" }

/-- Has a request carried to the store. -/
def exchange (endpoint : Rest.Endpoint) (call : Call) : IO call.Reply := do
  let request := Rest.Request.ofCall endpoint call
  let output ← IO.getStdout
  output.putStrLn (requestLine request)
  output.flush
  let response := responseOfLine (← (← IO.getStdin).getLine)
  return (Rest.interpretOutcome call (response.map (Rest.received request.method))).1

def performAction (endpoint : Option Rest.Endpoint) : (action : Action) → IO action.Answer
  | .store call =>
    match endpoint with
    | some endpoint => exchange endpoint call
    | none => return (.error (.other "no store") : call.Reply)
  | .storeWithin _ call =>
    match endpoint with
    | some endpoint => return (some (← exchange endpoint call) : Option call.Reply)
    | none => return (none : Option call.Reply)
  | .handOver _ => return (.ok () : Except MappingError Unit)
  | .askAbandoned => return false
  | .notify _ => return ()
  | .askTime => timeOfDay
  | .breakDown => throw (IO.userError "the program broke down")

def runProgram {α : Type} (endpoint : Option Rest.Endpoint) : Program α → IO α
  | .done value => return value
  | .act action next => do
    let answer ← performAction endpoint action
    runProgram endpoint (next answer)

end SigmaCatalog.Command

open SigmaCatalog.Command in
/-- Does what the arguments ask for and prints the report. -/
def main (arguments : List String) : IO UInt32 := do
  let environment ← loadedEnvironment
  let contents ← namedContents arguments
  let job := Job.ofArguments environment (fun _ => contents) arguments
  let report ← runProgram job.endpoint job.program
  IO.print report.output
  IO.eprint report.errors
  return report.exit.toUInt32
