import ApiShorthand.Fault
import ApiShorthand.FileSystem

/-!
# Renderers

A renderer is a program that makes an HTML document from a JSON file. All that is known of it is
how it behaves: whether it can be launched, what it does to the files, what it prints, and how it
ends.
-/

namespace ApiShorthand

/-- What comes of launching a program. -/
inductive Launch where
  /-- It could not be started. -/
  | refused (cause : OsError)
  /-- It ran: the files it leaves, what it printed, and how it ended if not with success. -/
  | ran (system : FileSystem) (printed : List UInt8) (badExit : Option BadExit)

/-- A way to launch programs: from the name and the arguments and the files before. -/
abbrev Renderer := (name : String) → (arguments : List String) → FileSystem → Launch

/-- The files, what was printed, and how it ended. -/
structure Outcome where
  /-- The files afterwards. -/
  system : FileSystem
  /-- What was printed. -/
  printed : List UInt8
  /-- The fault, if there was one. -/
  result : Except Fault Unit

namespace Renderer

/-- The arguments with which a renderer is launched. -/
def arguments (jsonPath outputDirectory : String) : List String :=
  ["openapi", jsonPath, outputDirectory]

/-- Renders the JSON file at a path into a directory, with the program of a name. -/
def render (renderer : Renderer) (name jsonPath outputDirectory : String)
    (system : FileSystem) : Outcome :=
  match renderer name (arguments jsonPath outputDirectory) system with
  | .refused cause =>
    { system, printed := [], result := .error (.render (.notLaunched name cause)) }
  | .ran system printed none => { system, printed, result := .ok () }
  | .ran system printed (some exit) =>
    { system, printed, result := .error (.render (.failed name exit)) }

end Renderer

end ApiShorthand
