import ApiShorthand.Fault
import ApiShorthand.FileSystem
import ApiShorthand.Text.Octets

/-!
# Sources

The three texts of a run are files of fixed names somewhere under a directory. Of several files
with one name the first of a walk is used: the one whose path, as a list of names, is least.
-/

namespace ApiShorthand

/-- The three texts of a run. -/
structure Sources where
  /-- The YAML header. -/
  header : String
  /-- The declarations of models. -/
  models : String
  /-- The declarations of endpoints. -/
  endpoints : String
deriving DecidableEq, Repr

namespace Sources

/-- The name of the file with the header. -/
def headerFile : String := "header.yaml"

/-- The name of the file with the models. -/
def modelsFile : String := "models.tinyspec"

/-- The name of the file with the endpoints. -/
def endpointsFile : String := "endpoints.tinyspec"

/-- The tree that is walked under a path. The path may be a link to a directory; other links are
not followed. -/
def treeUnder (system : FileSystem) (root : String) : Except OsError FileTree := do
  match ← system.entryAt .keep root with
  | .link target =>
    match ← system.entryAt .follow root with
    | .directory entries => return .directory entries
    | _ => return .link target
  | tree => return tree

/-- The path of the first directory that cannot be opened in a walk from a path, because its own
path is too long. -/
def unopened? (root : String) (tree : FileTree) : Option String :=
  (tree.directories.map (FileSystem.joinNames root)).find? FileSystem.isTooLong

/-- The files under a path in the order of a walk. -/
def filesUnder (system : FileSystem) (root : String) :
    Except Fault (List FileTree.NamedFile) := do
  let tree ← (treeUnder system root).mapError fun cause => .file (.notWalked root cause)
  match unopened? root tree with
  | some path => throw (.file (.notWalked path .nameTooLong))
  | none => return tree.files

/-- Whether a file under a path has a name. The file at the path itself has the last name of the
path. -/
def isNamed (root name : String) (file : FileTree.NamedFile) : Bool :=
  file.1.getLast?.getD (FileSystem.lastName root) == name

/-- The first file of a name under a path. -/
def find (files : List FileTree.NamedFile) (root name : String) :
    Except Fault FileTree.NamedFile :=
  match files.find? (isNamed root name) with
  | some file => .ok file
  | none => .error (.missingSource name root)

/-- The text of a file. -/
def textOf (content : List UInt8) : Except Fault String :=
  match Text.ofOctets? content with
  | some text => .ok text
  | none => .error (.file .notText)

/-- The text of a file under a path, which must not be too far down to be opened. -/
def textUnder (root : String) (file : FileTree.NamedFile) : Except Fault String :=
  if FileSystem.isTooLong (FileSystem.joinNames root file.1) then
    .error (.file (.refused .nameTooLong))
  else textOf file.2

/-- The texts under a path. All three files are looked for before any of them is read. -/
def discover (system : FileSystem) (root : String) : Except Fault Sources := do
  let files ← filesUnder system root
  let header ← find files root headerFile
  let models ← find files root modelsFile
  let endpoints ← find files root endpointsFile
  return {
    header := ← textUnder root header
    models := ← textUnder root models
    endpoints := ← textUnder root endpoints }

end Sources

end ApiShorthand
