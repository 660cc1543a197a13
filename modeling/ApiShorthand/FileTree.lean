import ApiShorthand.Table

/-!
# File trees

A file tree is a file, a symbolic link or a directory of named file trees. Names from the top of a
tree down select a part of it. `FileTree.walk` lists all parts of a tree by their names from the
top, each directory in the order of the names in it.
-/

namespace ApiShorthand

/-- A file, a symbolic link or a directory. -/
inductive FileTree where
  /-- A file with its octets, and whether it may be run as a program. -/
  | file (content : List UInt8) (isProgram : Bool)
  /-- A symbolic link to a path. -/
  | link (target : String)
  /-- A directory with its entries, which have different names. -/
  | directory (entries : List (String × FileTree))
deriving Inhabited

namespace FileTree

/-- The directory without entries. -/
def empty : FileTree := directory []

/-! ### Parts of a tree -/

/-- The part of a tree that names from the top down lead to. -/
def get? : List String → FileTree → Option FileTree
  | [], tree => some tree
  | name :: names, directory entries => (Table.find? name entries).bind (get? names)
  | _ :: _, _ => none

/-- The tree with a part replaced or added. Directories on the way that are missing are added. -/
def put : FileTree → List String → (part : FileTree) → FileTree
  | _, [], part => part
  | directory entries, name :: names, part =>
    let old := (Table.find? name entries).getD empty
    directory (Table.insert name (put old names part) entries)
  | tree, _ :: _, _ => tree

/-- The tree without a part, if it has that part. -/
def erase : List String → FileTree → FileTree
  | [name], directory entries => directory (Table.erase name entries)
  | name :: names, directory entries => directory (Table.modify name (erase names) entries)
  | _, tree => tree

/-! ### Walks -/

/-- A part of a tree under its names from the top down. -/
abbrev NamedPart := List String × FileTree

/-- A file under its names from the top of a tree down. -/
abbrev NamedFile := List String × List UInt8

/-- The order of names in a directory. -/
def nameLE (a b : String) : Bool :=
  !decide (b < a)

/-- The parts of the entries of a directory, in the order of the names of the entries. -/
def joinParts (entries : List (String × List NamedPart)) : List NamedPart :=
  (entries.mergeSort fun a b => nameLE a.1 b.1).flatMap fun (name, parts) =>
    parts.map fun (names, part) => (name :: names, part)

mutual

/-- All parts of a tree in the order of a walk that does not follow links: a directory, then its
entries with what is in them. -/
def walk : FileTree → List NamedPart
  | file content isProgram => [([], file content isProgram)]
  | link target => [([], link target)]
  | directory entries => ([], directory entries) :: joinParts (entryWalks entries)

/-- The parts of each entry. -/
def entryWalks : List (String × FileTree) → List (String × List NamedPart)
  | [] => []
  | (name, tree) :: entries => (name, walk tree) :: entryWalks entries

end

/-- The files of a tree in the order of a walk. -/
def files (tree : FileTree) : List NamedFile :=
  tree.walk.filterMap fun
    | (names, file content _) => some (names, content)
    | _ => none

/-- The names of the directories of a tree in the order of a walk. -/
def directories (tree : FileTree) : List (List String) :=
  tree.walk.filterMap fun
    | (names, directory _) => some names
    | _ => none

/-! ### Laws -/

@[simp] theorem get?_nil (tree : FileTree) : get? [] tree = some tree := by
  cases tree <;> rfl

/-- A part that was put into a directory is found there. -/
theorem get?_put_singleton (name : String) (part : FileTree) (entries : List (String × FileTree)) :
    get? [name] (put (directory entries) [name] part) = some part := by
  simp [put, get?]

end FileTree

end ApiShorthand
