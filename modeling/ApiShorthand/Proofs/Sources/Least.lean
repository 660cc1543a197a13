import ApiShorthand.Proofs.FileTree.Order
import ApiShorthand.Proofs.Sources
import ApiShorthand.Proofs.Text.Octets

/-!
# The least file of each name

Under a directory, or a link to one, the file of each of the three names is used whose path is the
least one of that name (`discover_finds`): paths compare name by name, and names octet by octet.
Directories and links of such a name are never used, while a file in a directory of such a name is
as good as any other. The first of the three names that no file has is reported, whatever is in the
other files. If all are there, what comes out are the three texts whose octets the files hold, or
why the first of them cannot be read.
-/

namespace ApiShorthand

namespace FileTree

/-- A file with a name as its last one is in a tree. -/
def HasFile (tree : FileTree) (name : String) (found : NamedFile) : Prop :=
  found.1.getLast? = some name ∧ ∃ isProgram, tree.get? found.1 = some (.file found.2 isProgram)

/-- A file is the one of its name with the least path. -/
structure IsLeastFile (tree : FileTree) (name : String) (found : NamedFile) : Prop where
  /-- It is a file of that name. -/
  isFile : tree.HasFile name found
  /-- All others have greater paths. -/
  least : ∀ other, tree.HasFile name other → other = found ∨ PathLT found.1 other.1

end FileTree

namespace Sources

open FileSystem
open FileTree (directory file link NamedFile PathLT)

/-- A directory under a path cannot be opened, because its own path is too long. -/
def IsUnopened (root : String) (tree : FileTree) (names : List String) : Prop :=
  (∃ entries, tree.get? names = some (directory entries)) ∧
    isTooLong (joinNames root names) = true

/-- A file under a path holds a text: its octets are those of the text, and it is not too far down
to be opened. -/
structure HasText (root : String) (found : NamedFile) (text : String) : Prop where
  /-- The path of the file is short enough. -/
  opened : isTooLong (joinNames root found.1) = false
  /-- The octets of the file are those of the text. -/
  octets_eq : found.2 = Text.octetsOf text.toList

/-- Why a file under a path cannot be read. -/
inductive IsUnreadable (root : String) (found : NamedFile) : FileProblem → Prop where
  /-- It is too far down to be opened. -/
  | nameTooLong (hlong : isTooLong (joinNames root found.1) = true) :
    IsUnreadable root found (.refused .nameTooLong)
  /-- Its octets are those of no text. -/
  | notText (hopened : isTooLong (joinNames root found.1) = false)
    (hoctets : ∀ text : String, found.2 ≠ Text.octetsOf text.toList) :
    IsUnreadable root found .notText

/-- What the search for the three files in a tree under a path comes to. -/
inductive Finds (root : String) (tree : FileTree) : Except Fault Sources → Prop where
  /-- The walk ends at the first directory that cannot be opened. -/
  | notWalked {names : List String} (hunopened : IsUnopened root tree names)
    (hfirst : ∀ other, IsUnopened root tree other → other = names ∨ PathLT names other) :
    Finds root tree (.error (.file (.notWalked (joinNames root names) .nameTooLong)))
  /-- The first name without a file is reported. -/
  | missing {found rest : List String} {name : String}
    (hopened : ∀ names, ¬ IsUnopened root tree names) (hnames : fileNames = found ++ name :: rest)
    (hfound : ∀ earlier ∈ found, ∃ file, tree.HasFile earlier file)
    (hmissing : ∀ file, ¬ tree.HasFile name file) :
    Finds root tree (.error (.missingSource name root))
  /-- The first of the least files that cannot be read is reported. -/
  | unreadable {header models endpoints file : NamedFile} {read rest : List NamedFile}
    {problem : FileProblem} (hopened : ∀ names, ¬ IsUnopened root tree names)
    (hheader : tree.IsLeastFile headerFile header) (hmodels : tree.IsLeastFile modelsFile models)
    (hendpoints : tree.IsLeastFile endpointsFile endpoints)
    (hfiles : [header, models, endpoints] = read ++ file :: rest)
    (hread : ∀ earlier ∈ read, ∃ text, HasText root earlier text)
    (hproblem : IsUnreadable root file problem) : Finds root tree (.error (.file problem))
  /-- The least file of each name is read. -/
  | found {header models endpoints : NamedFile} {sources : Sources}
    (hopened : ∀ names, ¬ IsUnopened root tree names)
    (hheader : tree.IsLeastFile headerFile header) (hmodels : tree.IsLeastFile modelsFile models)
    (hendpoints : tree.IsLeastFile endpointsFile endpoints)
    (hheaderText : HasText root header sources.header)
    (hmodelsText : HasText root models sources.models)
    (hendpointsText : HasText root endpoints sources.endpoints) : Finds root tree (.ok sources)

variable {system : FileSystem} {root : String} {tree : FileTree}

/-! ### Directories that are opened -/

theorem isFirst_of_unopened? (hdistinct : tree.HasDistinctNames) {path : String}
    (h : unopened? root tree = some path) :
    ∃ names, path = joinNames root names ∧ IsUnopened root tree names ∧
      ∀ other, IsUnopened root tree other → other = names ∨ PathLT names other := by
  rw [unopened?, List.find?_map, Option.map_eq_some_iff] at h
  obtain ⟨names, hfind, rfl⟩ := h
  obtain ⟨hlong, hmem, hleast⟩ :=
    FileTree.least_of_find?_eq_some hdistinct.pairwise_directories hfind
  refine ⟨names, rfl, ⟨hdistinct.mem_directories_iff.1 hmem, hlong⟩, ?_⟩
  rintro other ⟨hother, hlong'⟩
  exact hleast other (hdistinct.mem_directories_iff.2 hother) hlong'

theorem not_isUnopened_of_unopened? (hdistinct : tree.HasDistinctNames)
    (h : unopened? root tree = none) (names : List String) : ¬ IsUnopened root tree names := by
  rintro ⟨hnames, hlong⟩
  rw [unopened?, List.find?_eq_none] at h
  have hmem := List.mem_map_of_mem (f := joinNames root) (hdistinct.mem_directories_iff.2 hnames)
  exact h _ hmem hlong

/-! ### Files of a name -/

/-- Under a directory, the first file of a name that is met is the least one. -/
theorem find_files {entries : List (String × FileTree)}
    (hdistinct : (directory entries).HasDistinctNames) (root name : String) :
    ((∀ found, ¬ (directory entries).HasFile name found) ∧
      find (directory entries).files root name = .error (.missingSource name root)) ∨
    ∃ found, (directory entries).IsLeastFile name found ∧
      find (directory entries).files root name = .ok found := by
  -- a file in a directory has a path of its own there
  have hnamed : ∀ found ∈ (directory entries).files,
      isNamed root name found = true ↔ found.1.getLast? = some name := by
    intro found hmem
    obtain ⟨isProgram, hget⟩ := hdistinct.mem_files_iff.1 hmem
    have hne : found.1 ≠ [] := by
      intro hnil
      rw [hnil, FileTree.get?_nil] at hget
      cases hget
    rw [isNamed, List.getLast?_eq_some_getLast hne, Option.getD_some, beq_iff_eq, Option.some_inj]
  have hhas : ∀ found, (directory entries).HasFile name found ↔
      found ∈ (directory entries).files ∧ isNamed root name found = true := by
    intro found
    rw [FileTree.HasFile, ← hdistinct.mem_files_iff, and_comm]
    exact and_congr_right fun hmem => (hnamed found hmem).symm
  cases hfind : (directory entries).files.find? (isNamed root name) with
  | none =>
    refine Or.inl ⟨?_, by rw [find, hfind]⟩
    intro found hfound
    obtain ⟨hmem, hname⟩ := (hhas found).1 hfound
    exact List.find?_eq_none.1 hfind found hmem hname
  | some found =>
    obtain ⟨hname, hmem, hleast⟩ :=
      FileTree.least_of_find?_eq_some hdistinct.pairwise_files hfind
    refine Or.inr ⟨found, ⟨(hhas found).2 ⟨hmem, hname⟩, ?_⟩, find_eq_ok_iff.2 hfind⟩
    intro other hother
    obtain ⟨hmem', hname'⟩ := (hhas other).1 hother
    exact hleast other hmem' hname'

/-! ### Texts of files -/

/-- A file is read as its text, or there is a reason why it is not. -/
theorem textUnder_reads (root : String) (found : NamedFile) :
    (∃ text, textUnder root found = .ok text ∧ HasText root found text) ∨
      ∃ problem, textUnder root found = .error (.file problem) ∧
        IsUnreadable root found problem := by
  rw [textUnder, textOf]
  cases hlong : isTooLong (joinNames root found.1) with
  | true => exact Or.inr ⟨_, rfl, .nameTooLong hlong⟩
  | false =>
    rw [if_neg Bool.false_ne_true]
    cases hread : Text.ofOctets? found.2 with
    | some text => exact Or.inl ⟨text, rfl, hlong, Text.ofOctets?_eq_some_iff.1 hread⟩
    | none =>
      refine Or.inr ⟨_, rfl, .notText hlong fun text hoctets => ?_⟩
      rw [Text.ofOctets?_eq_some_iff.2 hoctets] at hread
      cases hread

/-- The three least files are read in order, up to the first that cannot be read. -/
theorem finds_of_isLeastFile {header models endpoints : NamedFile}
    (hopened : ∀ names, ¬ IsUnopened root tree names)
    (hheader : tree.IsLeastFile headerFile header) (hmodels : tree.IsLeastFile modelsFile models)
    (hendpoints : tree.IsLeastFile endpointsFile endpoints) :
    Finds root tree (do
      return {
        header := ← textUnder root header
        models := ← textUnder root models
        endpoints := ← textUnder root endpoints }) := by
  rcases textUnder_reads root header with ⟨headerText, hread, htext⟩ | ⟨problem, hread, hproblem⟩
  swap
  · rw [hread]
    have hfiles : [header, models, endpoints] = [] ++ header :: [models, endpoints] := rfl
    exact .unreadable hopened hheader hmodels hendpoints hfiles nofun hproblem
  rw [hread]
  rcases textUnder_reads root models with ⟨modelsText, hread, htext'⟩ | ⟨problem, hread, hproblem⟩
  swap
  · rw [hread]
    have hfiles : [header, models, endpoints] = [header] ++ models :: [endpoints] := rfl
    refine .unreadable hopened hheader hmodels hendpoints hfiles ?_ hproblem
    exact List.forall_mem_singleton.2 ⟨headerText, htext⟩
  rw [hread]
  rcases textUnder_reads root endpoints with
    ⟨endpointsText, hread, htext''⟩ | ⟨problem, hread, hproblem⟩
  swap
  · rw [hread]
    have hfiles : [header, models, endpoints] = [header, models] ++ endpoints :: [] := rfl
    refine .unreadable hopened hheader hmodels hendpoints hfiles ?_ hproblem
    exact List.forall_mem_cons.2 ⟨⟨headerText, htext⟩,
      List.forall_mem_singleton.2 ⟨modelsText, htext'⟩⟩
  rw [hread]
  exact .found hopened hheader hmodels hendpoints htext htext' htext''

/-! ### The search -/

theorem discover_of_unopened? (htree : treeUnder system root = .ok tree) {path : String}
    (h : unopened? root tree = some path) :
    discover system root = .error (.file (.notWalked path .nameTooLong)) := by
  have hfiles : filesUnder system root = .error (.file (.notWalked path .nameTooLong)) := by
    rw [filesUnder, htree]
    dsimp only [Except.mapError, bind, Except.bind]
    rw [h]
    rfl
  rw [discover, hfiles]
  rfl

/-- Where all directories are opened, the files are looked for one after the other. -/
theorem discover_of_opened (htree : treeUnder system root = .ok tree)
    (h : unopened? root tree = none) :
    discover system root = (do
      let header ← find tree.files root headerFile
      let models ← find tree.files root modelsFile
      let endpoints ← find tree.files root endpointsFile
      return {
        header := ← textUnder root header
        models := ← textUnder root models
        endpoints := ← textUnder root endpoints }) := by
  have hfiles : filesUnder system root = .ok tree.files :=
    filesUnder_eq_ok_iff.2 ⟨tree, htree, h, rfl⟩
  rw [discover, hfiles]
  rfl

/-- **The least file of each name is used.** Under a directory, or a link to one, in which no
directory has two entries of one name: the three texts are those whose octets the files with the
least paths hold, or the first of these files that cannot be read is reported. Before that the first
name without a file is reported, and before that the first directory whose path is too long to be
opened. -/
theorem discover_finds {entries : List (String × FileTree)}
    (hroot : system.entryAt .follow root = .ok (directory entries))
    (hdistinct : (directory entries).HasDistinctNames) :
    Finds root (directory entries) (discover system root) := by
  have htree : treeUnder system root = .ok (directory entries) :=
    treeUnder_eq_directory_iff.2 (entryAt_eq_ok_iff.1 hroot)
  cases hunopened : unopened? root (directory entries) with
  | some path =>
    obtain ⟨names, rfl, hnames, hfirst⟩ := isFirst_of_unopened? hdistinct hunopened
    rw [discover_of_unopened? htree hunopened]
    exact .notWalked hnames hfirst
  | none =>
    have hopened := not_isUnopened_of_unopened? hdistinct hunopened
    rw [discover_of_opened htree hunopened]
    rcases find_files hdistinct root headerFile with ⟨hmissing, hfind⟩ | ⟨header, hheader, hfind⟩
    · rw [hfind]
      have hnames : fileNames = [] ++ headerFile :: [modelsFile, endpointsFile] := rfl
      exact .missing hopened hnames nofun hmissing
    rw [hfind]
    rcases find_files hdistinct root modelsFile with ⟨hmissing, hfind⟩ | ⟨models, hmodels, hfind⟩
    · rw [hfind]
      have hnames : fileNames = [headerFile] ++ modelsFile :: [endpointsFile] := rfl
      refine .missing hopened hnames ?_ hmissing
      exact List.forall_mem_singleton.2 ⟨header, hheader.isFile⟩
    rw [hfind]
    rcases find_files hdistinct root endpointsFile with
      ⟨hmissing, hfind⟩ | ⟨endpoints, hendpoints, hfind⟩
    · rw [hfind]
      have hnames : fileNames = [headerFile, modelsFile] ++ endpointsFile :: [] := rfl
      refine .missing hopened hnames ?_ hmissing
      exact List.forall_mem_cons.2 ⟨⟨header, hheader.isFile⟩,
        List.forall_mem_singleton.2 ⟨models, hmodels.isFile⟩⟩
    rw [hfind]
    exact finds_of_isLeastFile hopened hheader hmodels hendpoints

/-- A project with three headers, with the models in a directory of the header's name, and with a
link of the name of the endpoints. -/
def nestedProject : List (String × FileTree) :=
  [("a", directory [("header.yaml", file (Text.octetsOf "a: 1\n".toList) false)]),
    ("a-b", directory [("header.yaml", file (Text.octetsOf "b: 1\n".toList) false)]),
    ("endpoints.tinyspec", link "z/endpoints.tinyspec"),
    ("header.yaml", directory [("models.tinyspec", file (Text.octetsOf "M:\n".toList) false)]),
    ("z", directory [
      ("endpoints.tinyspec", file (Text.octetsOf "GET /\n".toList) false),
      ("header.yaml", file (Text.octetsOf "c: 1\n".toList) false)])]

/-- A directory with the project and a link to it. -/
def nestedSystem : FileSystem where
  root := directory [("project", directory nestedProject), ("spec", link "project")]
  here := []

theorem hasDistinctNames_nestedProject : (directory nestedProject).HasDistinctNames := by
  have hleaf : ∀ {name : String} {content : List UInt8},
      (directory [(name, file content false)]).HasDistinctNames := by
    intro name content
    exact .directory (List.nodup_singleton name) (List.forall_mem_singleton.2 .file)
  refine .directory (by decide) ?_
  simp only [nestedProject, List.forall_mem_cons]
  refine ⟨hleaf, hleaf, .link, hleaf, .directory (by decide) ?_, nofun⟩
  simp only [List.forall_mem_cons]
  exact ⟨.file, .file, nofun⟩

theorem entryAt_nestedSystem :
    nestedSystem.entryAt .follow "spec" = .ok (directory nestedProject) := by
  have hspec : components "spec" = ["spec"] := by decide +kernel
  have hproject : components "project" = ["project"] := by decide +kernel
  have hstart : nestedSystem.startOf "spec" = [] := by
    rw [startOf]
    split <;> rfl
  refine entryAt_eq_ok_iff.2 ⟨["project"], locate_eq_ok_iff.2
    ⟨⟨by decide +kernel, by decide +kernel, by decide +kernel⟩, ?_⟩⟩
  rw [hstart, hspec]
  have hlink : stretch nestedSystem.root .follow [] ["spec"] = .link [] "project" [] := rfl
  refine .link hlink (by decide +kernel) (.arrived ?_)
  rw [hproject]
  split <;> rfl

theorem files_nestedProject : (directory nestedProject).files =
    [(["a", "header.yaml"], Text.octetsOf "a: 1\n".toList),
      (["a-b", "header.yaml"], Text.octetsOf "b: 1\n".toList),
      (["header.yaml", "models.tinyspec"], Text.octetsOf "M:\n".toList),
      (["z", "endpoints.tinyspec"], Text.octetsOf "GET /\n".toList),
      (["z", "header.yaml"], Text.octetsOf "c: 1\n".toList)] := by
  simp (disch := decide) only [nestedProject, FileTree.files, FileTree.walk_directory_of_pairwise,
    List.flatMap_cons, List.flatMap_nil]
  rfl

theorem directories_nestedProject :
    (directory nestedProject).directories = [[], ["a"], ["a-b"], ["header.yaml"], ["z"]] := by
  simp (disch := decide) only [nestedProject, FileTree.directories,
    FileTree.walk_directory_of_pairwise, List.flatMap_cons, List.flatMap_nil]
  rfl

/-- Of the headers the one in `a` is read, as its path comes before that of `a-b`. -/
theorem discover_nestedSystem :
    discover nestedSystem "spec" = .ok ⟨"a: 1\n", "M:\n", "GET /\n"⟩ := by
  have htree := treeUnder_eq_directory_iff.2 (entryAt_eq_ok_iff.1 entryAt_nestedSystem)
  have hopened : unopened? "spec" (directory nestedProject) = none := by
    rw [unopened?, directories_nestedProject]
    decide +kernel
  rw [discover_of_opened htree hopened, files_nestedProject]
  decide +kernel

/-- The project is searched through the link, with files and directories that share their names. -/
theorem discover_finds_nestedSystem :
    nestedSystem.entryAt .follow "spec" = .ok (directory nestedProject) ∧
    (directory nestedProject).HasDistinctNames ∧
    discover nestedSystem "spec" = .ok ⟨"a: 1\n", "M:\n", "GET /\n"⟩ ∧
    Finds "spec" (directory nestedProject) (.ok ⟨"a: 1\n", "M:\n", "GET /\n"⟩) := by
  have hfinds := discover_finds entryAt_nestedSystem hasDistinctNames_nestedProject
  rw [discover_nestedSystem] at hfinds
  exact ⟨entryAt_nestedSystem, hasDistinctNames_nestedProject, discover_nestedSystem, hfinds⟩

end Sources

end ApiShorthand
