import ApiShorthand.Method
import ApiShorthand.Text.Quoted
import ApiShorthand.FileSystem.OsError
import ApiShorthand.Yaml.Fault

/-!
# Faults

Every way in which a run can fail, as causes, and `Fault.message`, the one place that words them.
-/

namespace ApiShorthand

/-- What is wrong with a line of a source text. -/
inductive LineProblem where
  /-- A tab in the indentation. -/
  | tabIndentation
  /-- White space other than spaces in the indentation. -/
  | blankIndentation
  /-- An odd number of spaces. -/
  | oddIndentation
  /-- More than one level deeper than the line before. -/
  | indentationJump
  /-- Deeper than any declaration goes. -/
  | nestedLine
  /-- No model header. -/
  | modelHeaderExpected
  /-- A field before the first model. -/
  | fieldOutsideModel
  /-- No field. -/
  | fieldExpected
  /-- A field that its model has already. -/
  | repeatedField (field model : String)
  /-- An array of arrays. -/
  | nestedArray
  /-- A lower-case word that is no scalar kind. -/
  | unknownScalar (word : String)
  /-- No type. -/
  | typeExpected (token : String)
  /-- No word in an endpoint header. -/
  | methodExpected
  /-- No endpoint header. -/
  | endpointHeaderExpected
  /-- A path that is not well formed. -/
  | invalidPath (path : String)
  /-- A body before the first endpoint. -/
  | bodyOutsideEndpoint
  /-- A second response. -/
  | repeatedResponse
  /-- A second request body. -/
  | repeatedRequest
deriving DecidableEq, Repr

namespace LineProblem

/-- The wording of a problem. -/
def message : LineProblem → String
  | tabIndentation => "Tabs are not allowed in indentation"
  | blankIndentation => "Only spaces are allowed in indentation"
  | oddIndentation => "Indentation must be a multiple of 2 spaces"
  | indentationJump => "Indentation jumps more than one level"
  | nestedLine => "Unexpected nested line"
  | modelHeaderExpected => "Expected a model header \"Name:\""
  | fieldOutsideModel => "Field declared outside of a model"
  | fieldExpected => "Expected a field \"name: type\""
  | repeatedField field model =>
    "The field " ++ Text.quote field ++ " is declared twice in " ++ Text.quote model
  | nestedArray => "Nested arrays are not supported"
  | unknownScalar word => "Unknown scalar type " ++ Text.quote word
  | typeExpected token => "Expected a type but found " ++ Text.quote token
  | methodExpected => "Expected an endpoint header"
  | endpointHeaderExpected => "Expected an endpoint header \"METHOD /path\""
  | invalidPath path => "Invalid path " ++ Text.quote path
  | bodyOutsideEndpoint => "Body declared outside of an endpoint"
  | repeatedResponse => "The response is declared twice"
  | repeatedRequest => "The request body is declared twice"

end LineProblem

/-- What is wrong with a document header that could be read. -/
inductive HeaderProblem where
  /-- The header is a value of another kind than a mapping. -/
  | notMapping
  /-- The header has a section that is generated. -/
  | definesSection (key : String)
deriving DecidableEq, Repr

namespace HeaderProblem

/-- The wording of a problem. -/
def message : HeaderProblem → String
  | notMapping => "the header must be a YAML mapping"
  | definesSection key => "the header already defines `" ++ key ++ "`"

end HeaderProblem

/-- How a program that was started came to its end, if not with success. -/
inductive BadExit where
  /-- It ended with a status other than 0. -/
  | status (code : Nat)
  /-- It was ended by a signal. -/
  | signal (number : Nat)
deriving DecidableEq, Repr

namespace BadExit

/-- The signals that have a name here. -/
def signalName? : Nat → Option String
  | 1 => some "SIGHUP"
  | 2 => some "SIGINT"
  | 3 => some "SIGQUIT"
  | 4 => some "SIGILL"
  | 5 => some "SIGTRAP"
  | 6 => some "SIGABRT"
  | 7 => some "SIGBUS"
  | 8 => some "SIGFPE"
  | 9 => some "SIGKILL"
  | 10 => some "SIGUSR1"
  | 11 => some "SIGSEGV"
  | 12 => some "SIGUSR2"
  | 13 => some "SIGPIPE"
  | 14 => some "SIGALRM"
  | 15 => some "SIGTERM"
  | 16 => some "SIGSTKFLT"
  | 17 => some "SIGCHLD"
  | 18 => some "SIGCONT"
  | 19 => some "SIGSTOP"
  | 20 => some "SIGTSTP"
  | 21 => some "SIGTTIN"
  | 22 => some "SIGTTOU"
  | 23 => some "SIGURG"
  | 24 => some "SIGXCPU"
  | 25 => some "SIGXFSZ"
  | 26 => some "SIGVTALRM"
  | 27 => some "SIGPROF"
  | 28 => some "SIGWINCH"
  | 29 => some "SIGIO"
  | 30 => some "SIGPWR"
  | 31 => some "SIGSYS"
  | _ => none

/-- The wording of an end. -/
def message : BadExit → String
  | status code => "exit status: " ++ toString code
  | signal number =>
    match signalName? number with
    | some name => "signal: " ++ toString number ++ " (" ++ name ++ ")"
    | none => "signal: " ++ toString number

end BadExit

/-- Why a renderer gave no output. -/
inductive RenderProblem where
  /-- The program could not be started. -/
  | notLaunched (renderer : String) (cause : OsError)
  /-- The program did not end with success. -/
  | failed (renderer : String) (exit : BadExit)
deriving DecidableEq, Repr

namespace RenderProblem

/-- The wording of a problem. -/
def message : RenderProblem → String
  | notLaunched renderer .nulInPath =>
    "failed to launch " ++ renderer ++ ": nul byte found in provided data"
  | notLaunched renderer cause => "failed to launch " ++ renderer ++ ": " ++ cause.message
  | failed renderer exit => renderer ++ " exited with " ++ exit.message

end RenderProblem

/-- Why a file could not be read or written. -/
inductive FileProblem where
  /-- The operating system refused. -/
  | refused (cause : OsError)
  /-- A directory could not be searched. -/
  | notWalked (path : String) (cause : OsError)
  /-- The file holds no text. -/
  | notText
deriving DecidableEq, Repr

namespace FileProblem

/-- The wording of a problem. -/
def message : FileProblem → String
  | refused cause => cause.message
  | notWalked path cause => "IO error for operation on " ++ path ++ ": " ++ cause.message
  | notText => "stream did not contain valid UTF-8"

end FileProblem

/-- Why a run fails. -/
inductive Fault where
  /-- A line of a source text is wrong. -/
  | line (problem : LineProblem) (number : Nat) (text : String)
  /-- Two models have one name. -/
  | duplicateModel (name : String)
  /-- Two endpoints have one method and path. -/
  | duplicateEndpoint (method : Method) (path : String)
  /-- A word stands for no method. -/
  | unknownMethod (token : String)
  /-- A model is used and not declared. -/
  | unresolvedReference (name : String)
  /-- The header cannot be used. -/
  | header (problem : HeaderProblem)
  /-- The header cannot be read. -/
  | yaml (cause : Yaml.Fault)
  /-- A source file is missing. -/
  | missingSource (file directory : String)
  /-- The renderer failed. -/
  | render (problem : RenderProblem)
  /-- A file could not be read or written. -/
  | file (problem : FileProblem)
deriving DecidableEq, Repr

namespace Fault

/-- The report of a problem, given in words, on a line. -/
def lineReport (problem : String) (number : Nat) (text : String) : String :=
  "Grammar error at line " ++ toString number ++ ": " ++ problem ++ " in " ++ Text.quote text

/-- The text that reports a fault; a header that cannot be read is reported without one. -/
def message? : Fault → Option String
  | line problem number text => some (lineReport problem.message number text)
  | duplicateModel name => some ("The model \"" ++ name ++ "\" is defined twice")
  | duplicateEndpoint method path =>
    some ("The endpoint " ++ method.name ++ " " ++ path ++ " is defined twice")
  | unknownMethod token => some ("Unknown HTTP method \"" ++ token ++ "\"")
  | unresolvedReference name => some ("The model \"" ++ name ++ "\" is not defined")
  | header problem => some ("Header error: " ++ problem.message)
  | yaml _ => none
  | missingSource name directory => some ("Could not find " ++ name ++ " under " ++ directory)
  | render problem => some ("Render error: " ++ problem.message)
  | file problem => some ("I/O error: " ++ problem.message)

end Fault

end ApiShorthand
