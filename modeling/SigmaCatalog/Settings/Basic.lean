import SigmaCatalog.Json.Basic
import SigmaCatalog.Settings.Dotenv
import SigmaCatalog.Text.Case

/-!
# Settings

The settings come from the variables of the environment.  A profile looks for each variable under
its own name in front of it first, and then without; an empty variable counts as absent.
-/

namespace SigmaCatalog

/-- How the store is reached. -/
structure Connection where
  host : String := "localhost"
  /-- A number of 16 bits. -/
  port : Nat := 9200
  username : Option String := none
  password : Option String := none
  useSsl : Bool := false
  deriving DecidableEq, Repr

namespace Connection

/-- The address of the store as it is configured. -/
def address (connection : Connection) : String :=
  let scheme := if connection.useSsl then "https" else "http"
  s!"{scheme}://{connection.host}:{connection.port}"

/-- Whether anything but the store of this host is meant. -/
def isConfigured (connection : Connection) : Bool :=
  connection.host != "localhost" || connection.username.isSome

end Connection

/-- Where and how rules are indexed. -/
structure IndexingOptions where
  rulesIndex : String := ".detect-prepackaged-rules"
  mappingsIndex : String := ".detect-field-mappings"
  /-- The schema under which new names of fields are kept. -/
  schema : String := "ecs"
  /-- The seconds that the write of a rule may take. -/
  writeTimeout : Nat := 10
  deriving DecidableEq, Repr

/-- The settings of a profile. -/
structure Settings where
  /-- The name of the profile, in upper case; empty for the default one. -/
  profile : String
  connection : Connection
  indexing : IndexingOptions
  deriving DecidableEq, Repr

namespace Environment

/-- The value of a variable that is not empty. -/
def value? (environment : Environment) (key : String) : Option String :=
  (Table.get? environment key).filter fun text => !text.isEmpty

/-- The value of a variable for a profile. -/
def profiled? (environment : Environment) (profile key : String) : Option String :=
  if profile.isEmpty then environment.value? key
  else (environment.value? (profile ++ "_" ++ key)).or (environment.value? key)

/-- The number that decimal digits spell after an optional plus sign, if it is at most `limit`. -/
def number? (limit : Nat) (text : String) : Option Nat :=
  let digits := match text.toList with
    | '+' :: rest => rest
    | chars => chars
  if digits.isEmpty || !digits.all Char.isDigit then none
  else
    let number := digits.foldl (fun number c => number * 10 + (c.toNat - '0'.toNat)) 0
    if number ≤ limit then some number else none

/-- A text of a profile. -/
def text (environment : Environment) (profile key standard : String) : String :=
  (environment.profiled? profile key).getD standard

/-- A number of a profile; one that cannot be read counts as absent. -/
def number (environment : Environment) (profile key : String) (limit standard : Nat) : Nat :=
  ((environment.profiled? profile key).bind (number? limit)).getD standard

end Environment

namespace Settings

def connectionOf (environment : Environment) (profile : String) : Connection :=
  let standard : Connection := {}
  { host := environment.text profile "OPENSEARCH_HOST" standard.host
    port := environment.number profile "OPENSEARCH_PORT" 0xffff standard.port
    username := environment.profiled? profile "OPENSEARCH_USERNAME"
    password := environment.profiled? profile "OPENSEARCH_PASSWORD"
    useSsl := environment.text profile "OPENSEARCH_USE_SSL" "false" == "true" }

def indexingOf (environment : Environment) (profile : String) : IndexingOptions :=
  let standard : IndexingOptions := {}
  { rulesIndex := environment.text profile "RULES_INDEX" standard.rulesIndex
    mappingsIndex := environment.text profile "FIELD_MAPPINGS_INDEX" standard.mappingsIndex
    schema := environment.text profile "DEFAULT_SCHEMA" standard.schema
    writeTimeout := environment.number profile "RULE_WRITE_TIMEOUT_SECS" 0xffffffffffffffff
      standard.writeTimeout }

/-- The settings of the profile with a name, whatever its case. -/
def ofProfile (environment : Environment) (name : String) : Settings :=
  let profile := Text.upper name
  { profile
    connection := connectionOf environment profile
    indexing := indexingOf environment profile }

/-- The settings of the profile that the environment names. -/
def ofEnvironment (environment : Environment) : Settings :=
  ofProfile environment (((environment : Table String).get? "DETECT_PROFILE").getD "")

/-- The variables that mark a profile by standing after its name. -/
def markerKeys : List String :=
  ["OPENSEARCH_HOST", "OPENSEARCH_USERNAME", "RULES_INDEX"]

/-- Whether a text may be the name of a listed profile. -/
def isProfileName (name : List Char) : Bool :=
  !name.isEmpty && name.all fun c => c.isUpper || c == '_'

/-- The profile that a variable marks through one of the marker keys. -/
def markedBy? (key marker : String) : Option String :=
  let ending := ("_" ++ marker).toList
  let chars := key.toList
  if ending.isSuffixOf chars then
    let name := chars.take (chars.length - ending.length)
    if isProfileName name then some (String.ofList name) else none
  else none

/-- The name under which the default profile is listed. -/
def defaultLabel : String := "default"

/-- The profiles that the environment marks, and the default one, in order. -/
def profiles (environment : Environment) : List String :=
  let marked := (Table.keys environment).flatMap fun key => markerKeys.filterMap (markedBy? key)
  TextSet.members (TextSet.ofList (defaultLabel :: marked))

def label (settings : Settings) : String :=
  if settings.profile.isEmpty then defaultLabel else settings.profile

/-- The lines that show the settings in a log. -/
def logLines (settings : Settings) : List String :=
  let indexing := settings.indexing
  let authenticated := if settings.connection.username.isSome then "true" else "false"
  [s!"Config loaded (profile: {settings.label}):",
    s!"  opensearch:  url={settings.connection.address}, auth={authenticated}",
    s!"  indexing:    rules_index={indexing.rulesIndex}, mappings_index={indexing.mappingsIndex}, " ++
      s!"schema={indexing.schema}, timeout={indexing.writeTimeout}s"]

def indexingDocument (indexing : IndexingOptions) : Json :=
  .object [
    ("rules_index", .string indexing.rulesIndex),
    ("field_mappings_index", .string indexing.mappingsIndex),
    ("default_schema", .string indexing.schema),
    ("write_timeout_secs", .ofInt indexing.writeTimeout)]

/-- The settings without secrets. -/
def summary (settings : Settings) : Json :=
  let connection := settings.connection
  .object [
    ("profile", .string settings.label),
    ("opensearch", .object [
      ("host", .string connection.host),
      ("port", .ofInt connection.port),
      ("use_ssl", .bool connection.useSsl),
      ("configured", .bool connection.isConfigured)]),
    ("indexing", indexingDocument settings.indexing)]

/-- The settings as a document, with the password. -/
def document (settings : Settings) : Json :=
  let connection := settings.connection
  .object [
    ("profile", .string settings.profile),
    ("opensearch", .object [
      ("host", .string connection.host),
      ("port", .ofInt connection.port),
      ("username", .ofText? connection.username),
      ("password", .ofText? connection.password),
      ("use_ssl", .bool connection.useSsl)]),
    ("indexing", indexingDocument settings.indexing)]

end Settings

end SigmaCatalog
