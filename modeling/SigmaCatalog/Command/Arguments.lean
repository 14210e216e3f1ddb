import SigmaCatalog.Store.Refresh
import SigmaCatalog.Text.Splitting

/-!
# Command-line arguments

The command line names a command, with options before and after it.  An option that takes a value
has it in the next argument or after an equals sign, and every option may be given once.
-/

namespace SigmaCatalog.Command

/-- What the command line asks for. -/
inductive Task where
  | index (file category : String) (refresh : RefreshPolicy) (force : Bool)
  | delete (id : String) (refresh : RefreshPolicy) (force : Bool)
  | compile (file category : String)
  | config
  deriving DecidableEq, Repr

def Task.file? : Task → Option String
  | index file _ _ _ => some file
  | compile file _ => some file
  | delete _ _ _ => none
  | config => none

/-- A task, and the profile it is done with. -/
structure Invocation where
  profile : Option String
  task : Task
  deriving DecidableEq, Repr

/-- Why the arguments name no task. -/
inductive Stop where
  | misuse
  | help
  | version
  deriving DecidableEq, Repr

/-- The options of a command: those that take a value and those that do not. -/
structure Options where
  valued : List String
  flags : List String
  /-- Whether the version may be asked for. -/
  hasVersion : Bool := false

/-- The options that were given. -/
structure Given where
  values : List (String × String) := []
  flags : List String := []

namespace Given

def value? (given : Given) (name : String) : Option String :=
  (given.values.find? fun entry => entry.1 == name).map Prod.snd

def has (given : Given) (name : String) : Bool :=
  given.flags.contains name || (given.value? name).isSome

end Given

/-- What kind of argument a text is. -/
inductive Argument where
  /-- A word, or the value of an option. -/
  | word
  /-- Two hyphens, after which there are words only. -/
  | separator
  /-- One hyphen and a letter. -/
  | short (letter : Char)
  /-- Two hyphens and a name, and perhaps a value after an equals sign. -/
  | long (name : String) (attached : Option String)
  deriving DecidableEq, Repr

def Argument.ofText (text : String) : Argument :=
  match text.toList with
  | ['-', '-'] => .separator
  | '-' :: '-' :: rest =>
    match Text.splitFirst '=' rest with
    | some (name, value) => .long (String.ofList name) (some (String.ofList value))
    | none => .long (String.ofList rest) none
  | '-' :: letter :: _ => .short letter
  | _ => .word

/-- The options with the value of one more. -/
def giveValue (given : Given) (name value : String) : Except Stop Given :=
  if given.has name then .error .misuse
  else .ok { given with values := (name, value) :: given.values }

/-- The options with one more that takes no value. -/
def giveFlag (given : Given) (name : String) : Except Stop Given :=
  if given.has name then .error .misuse else .ok { given with flags := name :: given.flags }

/-- Reads options up to the first word, and returns the arguments from there on. -/
def readOptions (options : Options) (given : Given) :
    List String → Except Stop (Given × List String)
  | [] => .ok (given, [])
  | [argument] =>
    match Argument.ofText argument with
    | .word => .ok (given, [argument])
    | .separator => .ok (given, [])
    | .short 'h' => .error .help
    | .short 'V' => .error (if options.hasVersion then .version else .misuse)
    | .short _ => .error .misuse
    | .long "help" none => .error .help
    | .long "version" none => .error (if options.hasVersion then .version else .misuse)
    | .long name (some value) =>
      if options.valued.contains name then do return (← giveValue given name value, [])
      else .error .misuse
    | .long name none =>
      if options.flags.contains name then do return (← giveFlag given name, [])
      else .error .misuse
  | argument :: next :: rest =>
    match Argument.ofText argument with
    | .word => .ok (given, argument :: next :: rest)
    | .separator => .error .misuse
    | .short 'h' => .error .help
    | .short 'V' => .error (if options.hasVersion then .version else .misuse)
    | .short _ => .error .misuse
    | .long "help" none => .error .help
    | .long "version" none => .error (if options.hasVersion then .version else .misuse)
    | .long name (some value) =>
      if options.valued.contains name then do
        readOptions options (← giveValue given name value) (next :: rest)
      else .error .misuse
    | .long name none =>
      if options.flags.contains name then do
        readOptions options (← giveFlag given name) (next :: rest)
      else if options.valued.contains name && Argument.ofText next == .word then do
        readOptions options (← giveValue given name next) rest
      else .error .misuse

/-- Reads the options of a command, which takes no words. -/
def readAll (options : Options) (arguments : List String) : Except Stop Given := do
  match ← readOptions options {} arguments with
  | (given, []) => return given
  | _ => throw .misuse

/-- The value of an option that must be given. -/
def required (given : Given) (name : String) : Except Stop String :=
  match given.value? name with
  | some value => .ok value
  | none => .error .misuse

/-- The path that an option must give. -/
def requiredFile (given : Given) : Except Stop String := do
  let file ← required given "file"
  if file.isEmpty then throw .misuse
  return file

/-- The refresh policy that an option gives. -/
def refreshOf (given : Given) : Except Stop RefreshPolicy :=
  match given.value? "refresh" with
  | none => .ok .none
  | some text => (RefreshPolicy.ofText text).mapError fun _ => .misuse

/-- Reads what follows the word `index`. -/
def readIndex (arguments : List String) : Except Stop Task := do
  let given ← readAll { valued := ["file", "category", "refresh"], flags := ["force"] } arguments
  let refresh ← refreshOf given
  return .index (← requiredFile given) (← required given "category") refresh (given.has "force")

def readDelete (arguments : List String) : Except Stop Task := do
  let given ← readAll { valued := ["id", "refresh"], flags := ["force"] } arguments
  let refresh ← refreshOf given
  return .delete (← required given "id") refresh (given.has "force")

def readCompile (arguments : List String) : Except Stop Task := do
  let given ← readAll { valued := ["file", "category"], flags := [] } arguments
  return .compile (← requiredFile given) (← required given "category")

def readConfig (arguments : List String) : Except Stop Task := do
  let _ ← readAll { valued := [], flags := [] } arguments
  return .config

/-- The commands that help is given on. -/
def commandNames : List String :=
  ["index", "delete", "compile", "config", "help"]

/-- Reads a command and what follows it. -/
def readTask : List String → Except Stop Task
  | "index" :: arguments => readIndex arguments
  | "delete" :: arguments => readDelete arguments
  | "compile" :: arguments => readCompile arguments
  | "config" :: arguments => readConfig arguments
  | ["help"] => .error .help
  | ["help", name] => .error (if commandNames.contains name then .help else .misuse)
  | _ => .error .misuse

def Invocation.ofArguments (arguments : List String) : Except Stop Invocation := do
  let options : Options := { valued := ["profile"], flags := [], hasVersion := true }
  let (given, rest) ← readOptions options {} arguments
  return { profile := given.value? "profile", task := ← readTask rest }

end SigmaCatalog.Command
