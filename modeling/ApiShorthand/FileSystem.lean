import ApiShorthand.FileTree
import ApiShorthand.FileSystem.OsError

/-!
# File systems

A file system is a tree with a working directory. A path is a text of names between slashes, from
the root or from the working directory. `FileSystem.locate` follows it, with the links on its way,
to an entry or to a free place in a directory.
-/

namespace ApiShorthand

/-- A tree of files with a working directory. -/
structure FileSystem where
  /-- The tree, from its root down. -/
  root : FileTree
  /-- The names of the working directory from the root down. -/
  here : List String
deriving Inhabited

namespace FileSystem

open FileTree (directory file link)

/-! ### Texts of paths -/

/-- The names of a path. Those between two slashes, and behind one at the end, are empty. -/
def components (path : String) : List String :=
  (path.toList.splitOn '/').map String.ofList

/-- Whether a path starts from the root of the file system. -/
def isAbsolute (path : String) : Bool :=
  path.startsWith "/"

/-- A path taken from the directory at another path. -/
def joinPath (base path : String) : String :=
  if isAbsolute path || base.isEmpty then path
  else if base.endsWith "/" then base ++ path
  else base ++ "/" ++ path

/-- The path of names in the directory at a path. -/
def joinNames (base : String) (names : List String) : String :=
  names.foldl joinPath base

/-- The last name of a path. -/
def lastName (path : String) : String :=
  (components path).getLastD path

/-- The number of octets that is too many for a path. -/
def pathLimit : Nat := 4096

/-- Whether a path is too long to be followed. -/
def isTooLong (path : String) : Bool :=
  path.utf8ByteSize ≥ pathLimit

/-- The greatest number of octets of a name. -/
def maxNameSize : Nat := 255

/-! ### Following a path -/

/-- What is done with the last name of a path. -/
inductive Ending where
  /-- A link under this name is itself meant. -/
  | keep
  /-- A link under this name is followed. -/
  | follow
  /-- A link is followed, and a file is made where there is none. A name with a slash behind it is
  that of a directory. -/
  | create
deriving DecidableEq, Repr

/-- Where a path leads. -/
inductive Location where
  /-- To an entry, at these names from the root. -/
  | entry (names : List String) (tree : FileTree)
  /-- To a free name in the directory at these names from the root. -/
  | free (directory : List String) (name : String)

/-- How far a path leads up to the next link. -/
inductive Stretch where
  /-- To its end. -/
  | arrived (location : Location)
  /-- To an error. -/
  | refused (cause : OsError)
  /-- To a link in a directory, whose names are given from the inside out, with more names behind
  it. -/
  | link (above : List String) (target : String) (rest : List String)

/-- Whether names are nothing but the slashes at the end of a path. -/
def isSlashes (names : List String) : Bool :=
  !names.isEmpty && names.all String.isEmpty

/-- Follows names from the directory `above`, whose names are given from the inside out, up to the
next link. The directory above the root is the root. -/
def stretch (root : FileTree) (ending : Ending) : (above : List String) → List String → Stretch
  | above, [] =>
    match root.get? above.reverse with
    | some tree => .arrived (.entry above.reverse tree)
    | none => .refused .notFound
  | above, name :: rest =>
    match root.get? above.reverse with
    | some (directory entries) =>
      if name.isEmpty || name == "." then stretch root ending above rest
      else if name == ".." then stretch root ending (above.drop 1) rest
      else if ending == .create && isSlashes rest then .refused .isDirectory
      else if name.utf8ByteSize > maxNameSize then .refused .nameTooLong
      else
        match Table.find? name entries with
        | none =>
          if rest.isEmpty then .arrived (.free above.reverse name) else .refused .notFound
        | some (link target) =>
          if rest.isEmpty && ending == .keep then
            .arrived (.entry (name :: above).reverse (link target))
          else .link above target rest
        | some _ => stretch root ending (name :: above) rest
    | some _ => .refused .notDirectory
    | none => .refused .notFound

/-- Follows names, and at most `links` links. -/
def resolve (root : FileTree) (ending : Ending) :
    (links : Nat) → (above : List String) → List String → Except OsError Location
  | links, above, names =>
    match stretch root ending above names, links with
    | .arrived location, _ => .ok location
    | .refused cause, _ => .error cause
    | .link _ _ _, 0 => .error .tooManyLinks
    | .link above target rest, links + 1 =>
      if target.isEmpty then .error .notFound
      else
        resolve root ending links (if isAbsolute target then [] else above)
          (components target ++ rest)

/-- The greatest number of links on the way of a path. -/
def maxLinks : Nat := 40

/-- Where a path leads. -/
def locate (system : FileSystem) (ending : Ending) (path : String) : Except OsError Location :=
  if '\x00' ∈ path.toList then .error .nulInPath
  else if path.isEmpty then .error .notFound
  else if isTooLong path then .error .nameTooLong
  else
    resolve system.root ending maxLinks (if isAbsolute path then [] else system.here.reverse)
      (components path)

/-! ### Operations -/

/-- The file system with a part of its tree replaced or added. -/
def put (system : FileSystem) (names : List String) (part : FileTree) : FileSystem :=
  { system with root := system.root.put names part }

/-- The entry at a path. -/
def entryAt (system : FileSystem) (ending : Ending) (path : String) :
    Except OsError FileTree := do
  match ← system.locate ending path with
  | .entry _ tree => return tree
  | .free _ _ => throw .notFound

/-- Whether a path leads to an entry. -/
def hasEntryAt (system : FileSystem) (path : String) : Bool :=
  match system.entryAt .follow path with
  | .ok _ => true
  | .error _ => false

/-- The octets of the file at a path. -/
def readAt (system : FileSystem) (path : String) : Except OsError (List UInt8) := do
  match ← system.entryAt .follow path with
  | file content _ => return content
  | directory _ => throw .isDirectory
  | link _ => throw .tooManyLinks

/-- The file system with new octets in the file at a path, which is made if it is missing. -/
def writeAt (system : FileSystem) (path : String) (content : List UInt8) :
    Except OsError FileSystem := do
  match ← system.locate .create path with
  | .entry names (file _ isProgram) => return system.put names (file content isProgram)
  | .entry _ (directory _) => throw .isDirectory
  | .entry _ (link _) => throw .tooManyLinks
  | .free above name => return system.put (above ++ [name]) (file content false)

/-- The file system without the file or the link at a path. -/
def removeAt (system : FileSystem) (path : String) : Except OsError FileSystem := do
  match ← system.locate .keep path with
  | .entry _ (directory _) => throw .isDirectory
  | .entry names _ => return { system with root := system.root.erase names }
  | .free _ _ => throw .notFound

end FileSystem

end ApiShorthand
