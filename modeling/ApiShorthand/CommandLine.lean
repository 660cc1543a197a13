import ApiShorthand.Specification
import ApiShorthand.Text.Terminal

/-!
# The command line

`CommandLine.read` reads the arguments from left to right into settings. An option takes its value
from the same argument or from the next one; in the second case the value is only looked at when
the next flag or option comes, or at the end. The help flag ends the reading where it stands. Two
modes are refused last of all.
-/

namespace ApiShorthand

namespace CommandLine

/-! ### What can be given -/

/-- What a run makes. -/
inductive Mode where
  /-- A YAML document. -/
  | yaml
  /-- A JSON document. -/
  | json
  /-- An HTML document, by way of a renderer. -/
  | html
deriving DecidableEq, Repr

/-- A flag that takes no value. -/
inductive Flag where
  /-- Selects what is made. -/
  | mode (mode : Mode)
  /-- Leaves out the default fields. -/
  | noDefaults
  /-- Admits `null` for fields that are not required. -/
  | addNulls
deriving DecidableEq, Repr

/-- An option that takes a value. -/
inductive Setting where
  /-- The directory that is written to. -/
  | output
  /-- The directory that is searched. -/
  | source
  /-- The program that makes HTML. -/
  | renderer
deriving DecidableEq, Repr

/-- What an argument can name. -/
inductive Argument where
  /-- A flag. -/
  | flag (flag : Flag)
  /-- An option. -/
  | setting (setting : Setting)
  /-- The flag that asks for help. -/
  | help
deriving DecidableEq, Repr

/-- The long names of arguments. -/
def longNames : List (String × Argument) :=
  [("yaml", .flag (.mode .yaml)), ("json", .flag (.mode .json)), ("html", .flag (.mode .html)),
    ("output", .setting .output), ("source", .setting .source),
    ("no-default-attrs", .flag .noDefaults), ("add-nulls", .flag .addNulls),
    ("renderer", .setting .renderer), ("help", .help)]

/-- The short names of arguments. -/
def shortNames : List (Char × Argument) :=
  [('y', .flag (.mode .yaml)), ('j', .flag (.mode .json)), ('h', .flag (.mode .html)),
    ('o', .setting .output)]

/-- What is wrong with a command line. -/
inductive Problem where
  /-- An argument has no meaning. -/
  | unknownArgument
  /-- A flag or an option is repeated, or two modes are given. -/
  | conflict
  /-- An option has no value, or a path is empty. -/
  | invalidValue
  /-- A flag has a value. -/
  | tooManyValues
deriving DecidableEq, Repr

/-- Why the reading of a command line ends early. -/
inductive Stop where
  /-- Help is asked for. -/
  | help
  /-- The command line is wrong. -/
  | refused (problem : Problem)
deriving DecidableEq, Repr

/-! ### Reading arguments -/

/-- What has been read. -/
structure Reading where
  /-- The flags. -/
  flags : List Flag
  /-- The options with their values. -/
  values : List (Setting × String)
  /-- The last option, if it was not looked at yet, and its value, if that was read already. -/
  pending : Option (Setting × Option String)
deriving DecidableEq, Repr

namespace Reading

/-- Nothing has been read. -/
def start : Reading where
  flags := []
  values := []
  pending := none

/-- Whether an option may have a value. A path is not empty. -/
def accepts (setting : Setting) (value : String) : Bool :=
  setting == .renderer || !value.isEmpty

/-- Takes an option with its value. -/
def assign (reading : Reading) (setting : Setting) (value : String) : Except Stop Reading :=
  if reading.values.any fun entry => entry.1 == setting then .error (.refused .conflict)
  else if accepts setting value then
    .ok { reading with values := reading.values ++ [(setting, value)] }
  else .error (.refused .invalidValue)

/-- Looks at the option that is pending. -/
def settle (reading : Reading) : Except Stop Reading :=
  match reading.pending with
  | none => .ok reading
  | some (_, none) => .error (.refused .invalidValue)
  | some (setting, some value) => assign { reading with pending := none } setting value

/-- Takes a flag. -/
def addFlag (reading : Reading) (flag : Flag) : Except Stop Reading := do
  let reading ← reading.settle
  if flag ∈ reading.flags then throw (.refused .conflict)
  return { reading with flags := reading.flags ++ [flag] }

/-- Takes an option, with the value that stands in the same argument if there is one. -/
def addSetting (reading : Reading) (setting : Setting) (value : Option String) :
    Except Stop Reading := do
  let reading ← reading.settle
  match value with
  | some value => reading.assign setting value
  | none => return { reading with pending := some (setting, none) }

/-- Asks for help. -/
def addHelp (reading : Reading) : Except Stop Reading := do
  let _ ← reading.settle
  throw .help

/-- Reads an argument with a long name and perhaps a value behind an equals sign. -/
def readLong (reading : Reading) (text : List Char) : Except Stop Reading :=
  let name := String.ofList (text.takeWhile (· ≠ '='))
  let value? :=
    match text.dropWhile (· ≠ '=') with
    | [] => none
    | _ :: value => some (String.ofList value)
  match longNames.lookup name, value? with
  | none, _ => .error (.refused .unknownArgument)
  | some (.setting setting), value? => reading.addSetting setting value?
  | some _, some _ => .error (.refused .tooManyValues)
  | some (.flag flag), none => reading.addFlag flag
  | some .help, none => reading.addHelp

/-- The value behind a short name in one argument. An equals sign in front of it does not count. -/
def attachedValue : List Char → Option String
  | [] => none
  | '=' :: value => some (String.ofList value)
  | value => some (String.ofList value)

/-- Reads an argument with short names, of which the last may be that of an option. -/
def readShort (reading : Reading) : List Char → Except Stop Reading
  | [] => .ok reading
  | c :: rest =>
    match shortNames.lookup c with
    | none => .error (.refused .unknownArgument)
    | some (.flag flag) => do (← reading.addFlag flag).readShort rest
    | some (.setting setting) => reading.addSetting setting (attachedValue rest)
    | some .help => reading.addHelp

/-- Reads an argument that names nothing: the value of a pending option. -/
def readPlain (reading : Reading) (text : String) : Except Stop Reading :=
  match reading.pending with
  | some (setting, none) => .ok { reading with pending := some (setting, some text) }
  | _ => .error (.refused .unknownArgument)

/-- Reads all arguments. Behind two dashes nothing is expected. -/
def readAll (reading : Reading) : List String → Except Stop Reading
  | [] => reading.settle
  | argument :: rest =>
    match argument.toList with
    | ['-', '-'] => if rest.isEmpty then reading.settle else .error (.refused .unknownArgument)
    | '-' :: '-' :: text => do (← reading.readLong text).readAll rest
    | '-' :: c :: text => do (← reading.readShort (c :: text)).readAll rest
    | _ => do (← reading.readPlain argument).readAll rest

end Reading

/-! ### Settings -/

/-- The variables that give values to options which are not on the command line. -/
structure Environment where
  /-- The directory that is searched. -/
  source : Option String
  /-- The program that makes HTML. -/
  renderer : Option String
deriving DecidableEq, Repr

/-- The settings of a run. -/
structure Settings where
  /-- What is made, if anything. -/
  mode : Option Mode
  /-- The directory that is written to, from the one that is searched. -/
  output : String
  /-- The directory that is searched. -/
  source : String
  /-- The switches of the compiler. -/
  options : Options
  /-- The program that makes HTML. -/
  renderer : String
deriving DecidableEq, Repr

/-- The reading with the value that a variable gives to an option which was not read. -/
def fromVariable (setting : Setting) (given : Option String) (reading : Reading) :
    Except Stop Reading :=
  match given with
  | none => .ok reading
  | some value =>
    if reading.values.any fun entry => entry.1 == setting then .ok reading
    else reading.assign setting value

/-- The modes among flags. -/
def modesOf (flags : List Flag) : List Mode :=
  flags.filterMap fun
    | .mode mode => some mode
    | _ => none

/-- The settings of a reading, with values for what is not given. -/
def settingsOf (reading : Reading) : Except Stop Settings :=
  let value (setting : Setting) (missing : String) : String :=
    (reading.values.lookup setting).getD missing
  match modesOf reading.flags with
  | _ :: _ :: _ => .error (.refused .conflict)
  | modes =>
    .ok {
      mode := modes.head?
      output := value .output "."
      source := value .source "."
      options := {
        addDefaults := Flag.noDefaults ∉ reading.flags
        addNulls := Flag.addNulls ∈ reading.flags }
      renderer := value .renderer "bootprint" }

/-- The settings that arguments and variables give. -/
def read (environment : Environment) (arguments : List String) : Except Stop Settings := do
  let reading ← Reading.start.readAll arguments
  let reading ← fromVariable .source environment.source reading
  let reading ← fromVariable .renderer environment.renderer reading
  settingsOf reading

/-! ### Help -/

/-- The column at which the descriptions stand in the help text. -/
def helpColumn : Nat := 29

/-- A text in the help text, whose later lines stand in the column of the descriptions. -/
def indentLines (text : String) : String :=
  String.ofList (text.toList.flatMap fun c =>
    if c == '\n' then c :: List.replicate helpColumn ' ' else [c])

/-- A remark on a variable in the help text, at the end of a description. -/
def variableHelp (name : String) (value : Option String) (missing : String) : String :=
  " [env: " ++ name ++ "=" ++ indentLines (value.getD "") ++ "] [default: " ++ missing ++ "]\n"

/-- The help page, with the variables as they are. -/
def helpPage (environment : Environment) : String :=
  "Generate OpenAPI/Swagger documents from tinyspec models and endpoints\n" ++
  "\n" ++
  "Usage: tinyspec [OPTIONS]\n" ++
  "\n" ++
  "Options:\n" ++
  "  -y, --yaml                 Generate OpenAPI/Swagger YAML\n" ++
  "  -j, --json                 Generate OpenAPI/Swagger JSON\n" ++
  "  -h, --html                 Generate HTML/CSS document\n" ++
  "  -o, --output <OUTPUT>      Path to output generated files, relative to the source directory" ++
  " [default: .]\n" ++
  "      --source <SOURCE>      Directory searched (recursively) for the tinyspec sources" ++
  variableHelp "TINYSPEC_SOURCE" environment.source "." ++
  "      --no-default-attrs     Do not add `id`, `created_at` and `updated_at` to all models\n" ++
  "      --add-nulls            Include `null` as possible value for non-required fields\n" ++
  "      --renderer <RENDERER>  Program used to render HTML from the JSON document" ++
  variableHelp "TINYSPEC_RENDERER" environment.renderer "bootprint" ++
  "      --help                 Display this help\n"

/-- The help text, without what only a terminal reads. -/
def helpText (environment : Environment) : String :=
  Text.shownText false (helpPage environment)

/-- The help text as it is printed. -/
def printedHelp (environment : Environment) : List UInt8 :=
  Text.octetsOf (Text.shownText true (helpPage environment)).toList

end CommandLine

end ApiShorthand
