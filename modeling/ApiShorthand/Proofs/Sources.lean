import ApiShorthand.Proofs.FileSystem.Targets
import ApiShorthand.Proofs.FileTree.Walk
import ApiShorthand.Sources

/-!
# Sources after a file was put

The three texts are found under a directory (`exists_directory_of_discover`), by a walk that meets
the same files after another one was put somewhere. So the texts stay what they are as long as no
file of their names is put (`discover_put`).
-/

namespace ApiShorthand.Sources

open FileSystem
open FileTree (directory file link NamedFile IsFilePlace)

variable {system : FileSystem} {root : String} {sources : Sources}

/-! ### The tree of the sources -/

/-- A directory is walked exactly where it is found by following links. -/
theorem treeUnder_eq_directory_iff {entries : List (String × FileTree)} :
    treeUnder system root = .ok (directory entries) ↔
      ∃ names, system.locate .follow root = .ok (.entry names (directory entries)) := by
  rw [← entryAt_eq_ok_iff, treeUnder]
  constructor
  · intro h
    obtain ⟨tree, htree, hrest⟩ := Except.bind_eq_ok_iff.1 h
    cases tree with
    | file content isProgram => cases hrest
    | directory entries' =>
      cases hrest
      obtain ⟨names, hnames⟩ := entryAt_eq_ok_iff.1 htree
      exact entryAt_eq_ok_iff.2 ⟨names, locate_follow_of_keep hnames nofun⟩
    | link target =>
      obtain ⟨tree, htree, hrest⟩ := Except.bind_eq_ok_iff.1 hrest
      cases tree with
      | directory entries' =>
        cases hrest
        exact htree
      | file content isProgram => cases hrest
      | link target => cases hrest
  · intro h
    obtain ⟨names, hnames⟩ := entryAt_eq_ok_iff.1 h
    rcases locate_keep_of_follow hnames with hkeep | ⟨place, target, hkeep⟩
    · rw [entryAt_eq_ok_iff.2 ⟨names, hkeep⟩]
      rfl
    · rw [entryAt_eq_ok_iff.2 ⟨place, hkeep⟩]
      show (system.entryAt .follow root >>= _) = _
      rw [h]
      rfl

theorem filesUnder_eq_ok_iff {files : List NamedFile} :
    filesUnder system root = .ok files ↔ ∃ tree, treeUnder system root = .ok tree ∧
      unopened? root tree = none ∧ files = tree.files := by
  rw [filesUnder]
  cases treeUnder system root with
  | error cause => exact iff_of_false nofun nofun
  | ok tree =>
    dsimp only [Except.mapError, bind, Except.bind]
    cases hopened : unopened? root tree with
    | some path =>
      refine iff_of_false nofun ?_
      rintro ⟨tree', htree, hnone, -⟩
      cases htree
      rw [hopened] at hnone
      cases hnone
    | none =>
      constructor
      · intro h
        cases h
        exact ⟨tree, rfl, hopened, rfl⟩
      · rintro ⟨tree', htree, -, rfl⟩
        cases htree
        rfl

theorem find_eq_ok_iff {files : List NamedFile} {name : String} {found : NamedFile} :
    find files root name = .ok found ↔ files.find? (isNamed root name) = some found := by
  rw [find]
  cases files.find? (isNamed root name) with
  | none => exact iff_of_false nofun nofun
  | some other =>
    constructor
    · intro h
      cases h
      rfl
    · intro h
      cases h
      rfl

/-- The names of the three files. -/
def fileNames : List String :=
  [headerFile, modelsFile, endpointsFile]

/-- What is found is known from the first file of each name. -/
theorem discover_congr {system' : FileSystem} {files files' : List NamedFile}
    (hfiles : filesUnder system root = .ok files) (hfiles' : filesUnder system' root = .ok files')
    (hfind : ∀ name ∈ fileNames, find files' root name = find files root name) :
    discover system' root = discover system root := by
  simp only [fileNames, List.forall_mem_cons] at hfind
  obtain ⟨hheader, hmodels, hendpoints, -⟩ := hfind
  rw [discover, discover, hfiles, hfiles']
  simp only [bind, Except.bind]
  rw [hheader, hmodels, hendpoints]

/-- The texts are found under a directory, in which all directories can be opened. -/
theorem exists_directory_of_discover (h : discover system root = .ok sources) :
    ∃ entries, treeUnder system root = .ok (directory entries) ∧
      unopened? root (directory entries) = none := by
  rw [discover] at h
  obtain ⟨files, hfiles, hrest⟩ := Except.bind_eq_ok_iff.1 h
  obtain ⟨header, hheader, hrest⟩ := Except.bind_eq_ok_iff.1 hrest
  obtain ⟨models, hmodels, -⟩ := Except.bind_eq_ok_iff.1 hrest
  obtain ⟨tree, htree, hopened, rfl⟩ := filesUnder_eq_ok_iff.1 hfiles
  rw [find_eq_ok_iff] at hheader hmodels
  cases tree with
  | directory entries => exact ⟨entries, htree, hopened⟩
  | link target =>
    rw [FileTree.files, FileTree.walk] at hheader
    cases hheader
  | file content isProgram =>
    -- one file would have to have two names
    have hnamed : ∀ {name : String} {found : NamedFile},
        (file content isProgram).files.find? (isNamed root name) = some found →
        lastName root = name := by
      intro name found hfound
      have hmem := List.mem_of_find?_eq_some hfound
      rw [FileTree.files, FileTree.walk] at hmem
      obtain rfl := List.mem_singleton.1 hmem
      have hnamed : isNamed root name ([], content) = true := List.find?_some hfound
      exact beq_iff_eq.1 hnamed
    have hboth := (hnamed hheader).symm.trans (hnamed hmodels)
    exact absurd hboth (by decide)

/-! ### Files that are put -/

/-- The first file of a name stays the first if a file of another name is put. -/
theorem find_put {tree : FileTree} {place : List String} (hplace : IsFilePlace place tree)
    (content : List UInt8) (isProgram : Bool) {last name : String}
    (hlast : place.getLast? = some last) (hne : last ≠ name) :
    find (tree.put place (file content isProgram)).files root name =
      find tree.files root name := by
  have hother : ∀ files : List NamedFile,
      files.find? (isNamed root name) =
        (files.filter (·.1 ≠ place)).find? (isNamed root name) := by
    intro files
    rw [List.find?_filter]
    refine congrArg (List.find? · files) (funext fun named => ?_)
    by_cases hnamed : named.1 = place
    · have hfalse : isNamed root name named = false := by
        rw [isNamed, hnamed, hlast, Option.getD_some, beq_eq_false_iff_ne]
        exact hne
      simp [hfalse]
    · simp [hnamed]
  rw [find, find, hother, hplace.files_put, ← hother]

/-- **The texts stay what they are** if a file of another name is put somewhere. -/
theorem discover_put {place : List String} (hplace : IsFilePlace place system.root)
    (content : List UInt8) (isProgram : Bool) {last : String} (hlast : place.getLast? = some last)
    (hne : last ∉ fileNames) (h : discover system root = .ok sources) :
    discover (system.put place (file content isProgram)) root = .ok sources := by
  obtain ⟨entries, htree, hopened⟩ := exists_directory_of_discover h
  obtain ⟨names, hlocate⟩ := treeUnder_eq_directory_iff.1 htree
  have hget : system.root.get? names = some (directory entries) := locate_isIn hlocate
  obtain ⟨location, hfilled, hlocate'⟩ := locate_put hplace content isProgram hlocate
  have hfiles := filesUnder_eq_ok_iff.2 ⟨_, htree, hopened, rfl⟩
  rw [← h]
  cases hfilled with
  | replaced =>
    rcases hplace.get?_eq with hnone | ⟨old, wasProgram, hfile⟩
    · rw [hnone] at hget
      cases hget
    · rw [hfile] at hget
      cases hget
  | @entry _ _ tree' hne' htop =>
    cases tree' with
    | file content isProgram => cases htop
    | link target => cases htop
    | directory entries' =>
      have htree' := treeUnder_eq_directory_iff.2 ⟨names, hlocate'⟩
      have hget' : (system.root.put place (file content isProgram)).get? names =
          some (directory entries') := locate_isIn hlocate'
      rcases hplace.get?_put_of_get? hget (file content isProgram) with
        ⟨inner, rfl, hinner, hput⟩ | hput
      · -- the file is put into the directory of the sources
        rw [hput, Option.some_inj] at hget'
        have hopened' : unopened? root (directory entries') = none := by
          rw [← hget', unopened?, hinner.directories_put]
          exact hopened
        have hinnerLast : inner.getLast? = some last := by
          cases inner with
          | nil => cases hinner
          | cons first inner =>
            rwa [List.getLast?_append_of_ne_nil _ (List.cons_ne_nil _ _)] at hlast
        refine discover_congr hfiles (filesUnder_eq_ok_iff.2 ⟨_, htree', hopened', rfl⟩) ?_
        intro name hname
        rw [← hget']
        refine find_put hinner content isProgram hinnerLast ?_
        rintro rfl
        exact hne hname
      · rw [hput, Option.some_inj] at hget'
        cases hget'
        exact discover_congr hfiles (filesUnder_eq_ok_iff.2 ⟨_, htree', hopened, rfl⟩)
          fun _ _ => rfl

end ApiShorthand.Sources
