import ApiShorthand.CommandLine
import ApiShorthand.Header
import ApiShorthand.Renderer
import ApiShorthand.Sources
import ApiShorthand.Yaml.Printer

/-!
# Runs

A run finds the sources, builds the document, and writes it as YAML or JSON. For HTML it writes the
JSON form beside the sources, lets a renderer read it, and removes it again unless something was
there before.
-/

namespace ApiShorthand

open CommandLine (Settings Environment)

namespace Run

/-- The name of the file for a YAML document. -/
def yamlFile : String := "swagger.yaml"

/-- The name of the file for a JSON document. -/
def jsonFile : String := "swagger.json"

/-- The document of the sources under the source directory. -/
def document (settings : Settings) (system : FileSystem) : Except Fault Json := do
  let sources ← Sources.discover system settings.source
  buildDocument sources.header sources.models sources.endpoints settings.options

/-- The directory that is written to. -/
def outputDirectory (settings : Settings) : String :=
  FileSystem.joinPath settings.source settings.output

/-- The files with a text written at a path. -/
def writeText (path text : String) (system : FileSystem) : Except Fault FileSystem :=
  (system.writeAt path (Text.octetsOf text.toList)).mapError fun cause => .file (.refused cause)

/-- The outcome of writing a text at a path. -/
def writing (path text : String) (system : FileSystem) : Outcome :=
  match writeText path text system with
  | .ok written => { system := written, printed := [], result := .ok () }
  | .error fault => { system, printed := [], result := .error fault }

/-- The files without what is at a path, if it can be removed. -/
def tidy (path : String) (system : FileSystem) : FileSystem :=
  match system.removeAt path with
  | .ok removed => removed
  | .error _ => system

/-- The outcome of rendering a document to HTML. -/
def rendering (renderer : Renderer) (settings : Settings) (document : Json)
    (system : FileSystem) : Outcome :=
  let path := FileSystem.joinPath settings.source jsonFile
  match writeText path document.indented system with
  | .error fault => { system, printed := [], result := .error fault }
  | .ok written =>
    let outcome := renderer.render settings.renderer path (outputDirectory settings) written
    if system.hasEntryAt path then outcome else { outcome with system := tidy path outcome.system }

end Run

/-- The outcome of a run. Without a mode, it prints the help text. -/
def run (renderer : Renderer) (environment : Environment) (settings : Settings)
    (system : FileSystem) : Outcome :=
  match settings.mode with
  | none =>
    { system, printed := CommandLine.printedHelp environment, result := .ok () }
  | some mode =>
    match Run.document settings system with
    | .error fault => { system, printed := [], result := .error fault }
    | .ok document =>
      match mode with
      | .yaml =>
        Run.writing (FileSystem.joinPath (Run.outputDirectory settings) Run.yamlFile)
          (Yaml.print document) system
      | .json =>
        Run.writing (FileSystem.joinPath (Run.outputDirectory settings) Run.jsonFile)
          document.indented system
      | .html => Run.rendering renderer settings document system

/-- What a process leaves behind. -/
structure Exit where
  /-- The status: 1 for a fault, and 2 for a command line that is refused. -/
  status : Nat
  /-- The files afterwards. -/
  system : FileSystem
  /-- What was printed. -/
  printed : List UInt8

/-- The whole program, from its arguments to its end. -/
def invoke (renderer : Renderer) (environment : Environment) (arguments : List String)
    (system : FileSystem) : Exit :=
  match CommandLine.read environment arguments with
  | .error .help =>
    { status := 0, system, printed := CommandLine.printedHelp environment }
  | .error (.refused _) => { status := 2, system, printed := [] }
  | .ok settings =>
    let outcome := run renderer environment settings system
    let status :=
      match outcome.result with
      | .ok _ => 0
      | .error _ => 1
    { status, system := outcome.system, printed := outcome.printed }

end ApiShorthand
