import ApiShorthand.Proofs.FileTree.Walk
import ApiShorthand.Proofs.Text.Octets

/-!
# The order of a walk

In a tree whose directories have different names in them, a walk meets every part of the tree
(`mem_walk_iff`), and it meets the parts in the order of their paths: name by name, and each name
octet by octet (`pairwise_walk`). So the first file of a kind that a walk meets has the least path
of all files of that kind (`least_of_find?_eq_some`).
-/

namespace ApiShorthand.FileTree

/-! ### Paths in order -/

/-- The order of names by their octets. -/
def NameLT (a b : String) : Prop :=
  List.Lex (· < ·) (Text.octetsOf a.toList) (Text.octetsOf b.toList)

/-- The order of paths: name by name from the top of a tree down. -/
def PathLT (a b : List String) : Prop :=
  List.Lex NameLT a b

theorem nameLT_of_nameLE {a b : String} (h : nameLE a b = true) (hne : a ≠ b) : NameLT a b := by
  have hlt : a < b := by
    rcases String.le_total b a with hba | hab
    · exact absurd (String.le_antisymm (nameLE_iff.1 h) hba) hne
    · by_contra hnot
      exact hne (String.le_antisymm hab (String.not_lt.1 hnot))
  exact Text.lex_octetsOf hlt

theorem pathLT_cons {name : String} {a b : List String} (h : PathLT a b) :
    PathLT (name :: a) (name :: b) :=
  List.Lex.cons h

/-! ### Parts of a tree -/

/-- In every directory of a tree the names are different. -/
inductive HasDistinctNames : FileTree → Prop where
  | file {content : List UInt8} {isProgram : Bool} : HasDistinctNames (file content isProgram)
  | link {target : String} : HasDistinctNames (link target)
  | directory {entries : List (String × FileTree)} (hnames : (Table.keys entries).Nodup)
    (hentries : ∀ entry ∈ entries, HasDistinctNames entry.2) :
    HasDistinctNames (directory entries)

theorem mem_joinParts {entries : List (String × List NamedPart)} {part : NamedPart} :
    part ∈ joinParts entries ↔
      ∃ entry ∈ entries, ∃ inner ∈ entry.2, part = (entry.1 :: inner.1, inner.2) := by
  rw [joinParts, List.mem_flatMap]
  refine exists_congr fun entry => and_congr List.mem_mergeSort ?_
  rw [List.mem_map]
  exact exists_congr fun inner => and_congr_right fun _ => eq_comm

/-- The parts of different entries are in the order of the names of the entries. -/
theorem pairwise_joinParts {entries : List (String × List NamedPart)}
    (hnames : (entries.map Prod.fst).Nodup)
    (hparts : ∀ entry ∈ entries, entry.2.Pairwise fun a b => PathLT a.1 b.1) :
    (joinParts entries).Pairwise fun a b => PathLT a.1 b.1 := by
  have hsorted := List.pairwise_mergeSort
    (fun a b c : String × List NamedPart => nameLE_trans a.1 b.1 c.1)
    (fun a b => nameLE_total a.1 b.1) entries
  have hperm := List.mergeSort_perm entries fun a b => nameLE a.1 b.1
  have hdistinct : (entries.mergeSort fun a b => nameLE a.1 b.1).Pairwise (·.1 ≠ ·.1) :=
    List.pairwise_map.1 ((hperm.map Prod.fst).nodup_iff.2 hnames)
  rw [joinParts, List.pairwise_flatMap]
  constructor
  · intro entry hentry
    rw [List.pairwise_map]
    exact (hparts entry (List.mem_mergeSort.1 hentry)).imp pathLT_cons
  · refine (hsorted.and hdistinct).imp ?_
    rintro first second ⟨hle, hne⟩ a ha b hb
    obtain ⟨inner, -, rfl⟩ := List.mem_map.1 ha
    obtain ⟨inner', -, rfl⟩ := List.mem_map.1 hb
    exact List.Lex.rel (nameLT_of_nameLE hle hne)

namespace HasDistinctNames

variable {tree : FileTree}

/-- **A walk is in order**: each part comes behind those with a lesser path. -/
theorem pairwise_walk (h : tree.HasDistinctNames) :
    tree.walk.Pairwise fun a b => PathLT a.1 b.1 := by
  induction h with
  | @file content isProgram =>
    rw [walk]
    exact List.pairwise_singleton _ _
  | @link target =>
    rw [walk]
    exact List.pairwise_singleton _ _
  | @directory entries hnames _ ih =>
    rw [walk_directory_eq, List.pairwise_cons]
    constructor
    · -- a directory comes in front of what is in it
      intro part hpart
      obtain ⟨entry, -, inner, -, rfl⟩ := mem_joinParts.1 hpart
      exact List.Lex.nil
    · refine pairwise_joinParts ?_ (List.forall_mem_map.2 ih)
      rw [List.map_map]
      exact hnames

/-- A walk meets exactly the parts of a tree. -/
theorem mem_walk_iff (h : tree.HasDistinctNames) {names : List String} {part : FileTree} :
    (names, part) ∈ tree.walk ↔ tree.get? names = some part := by
  induction h generalizing names with
  | @file content isProgram =>
    rw [walk]
    cases names <;> simp [get?, eq_comm]
  | @link target =>
    rw [walk]
    cases names <;> simp [get?, eq_comm]
  | @directory entries hnames _ ih =>
    rw [walk_directory_eq, List.mem_cons, mem_joinParts]
    cases names with
    | nil => simp [eq_comm]
    | cons name names =>
      rw [get?, Option.bind_eq_some_iff]
      constructor
      · rintro (heq | ⟨entry, hentry, inner, hinner, heq⟩)
        · cases heq
        · obtain ⟨⟨other, sub⟩, hsub, rfl⟩ := List.mem_map.1 hentry
          cases heq
          exact ⟨sub, (Table.find?_eq_some_iff hnames).2 hsub, (ih _ hsub).1 hinner⟩
      · rintro ⟨sub, hsub, hpart⟩
        have hmem := (Table.find?_eq_some_iff hnames).1 hsub
        exact .inr ⟨(name, sub.walk), List.mem_map.2 ⟨(name, sub), hmem, rfl⟩, (names, part),
          (ih _ hmem).2 hpart, rfl⟩

/-- What is selected of the parts of a tree is met in the order of its paths. -/
theorem pairwise_filterMap_walk (h : tree.HasDistinctNames) {α : Type}
    {select : NamedPart → Option α} {path : α → List String}
    (hpath : ∀ part found, select part = some found → path found = part.1) :
    (tree.walk.filterMap select).Pairwise fun a b => PathLT (path a) (path b) := by
  rw [List.pairwise_filterMap]
  refine h.pairwise_walk.imp ?_
  intro part part' hlt found hfound found' hfound'
  rw [hpath part found hfound, hpath part' found' hfound']
  exact hlt

end HasDistinctNames

/-! ### Files and directories -/

theorem fileOf?_eq_some_iff {part : NamedPart} {found : NamedFile} :
    fileOf? part = some found ↔ ∃ isProgram, part = (found.1, .file found.2 isProgram) := by
  obtain ⟨names, tree⟩ := part
  obtain ⟨names', content⟩ := found
  cases tree <;> simp [fileOf?]

theorem directoryOf?_eq_some_iff {part : NamedPart} {names : List String} :
    directoryOf? part = some names ↔ ∃ entries, part = (names, .directory entries) := by
  obtain ⟨names', tree⟩ := part
  cases tree <;> simp [directoryOf?]

namespace HasDistinctNames

variable {tree : FileTree}

theorem mem_files_iff (h : tree.HasDistinctNames) {found : NamedFile} :
    found ∈ tree.files ↔ ∃ isProgram, tree.get? found.1 = some (.file found.2 isProgram) := by
  rw [files_eq, List.mem_filterMap]
  constructor
  · rintro ⟨part, hpart, hfound⟩
    obtain ⟨isProgram, rfl⟩ := fileOf?_eq_some_iff.1 hfound
    exact ⟨isProgram, h.mem_walk_iff.1 hpart⟩
  · rintro ⟨isProgram, hget⟩
    exact ⟨_, h.mem_walk_iff.2 hget, rfl⟩

theorem mem_directories_iff (h : tree.HasDistinctNames) {names : List String} :
    names ∈ tree.directories ↔ ∃ entries, tree.get? names = some (.directory entries) := by
  rw [directories_eq, List.mem_filterMap]
  constructor
  · rintro ⟨part, hpart, hfound⟩
    obtain ⟨entries, rfl⟩ := directoryOf?_eq_some_iff.1 hfound
    exact ⟨entries, h.mem_walk_iff.1 hpart⟩
  · rintro ⟨entries, hget⟩
    exact ⟨_, h.mem_walk_iff.2 hget, rfl⟩

/-- The files of a tree are met in the order of their paths. -/
theorem pairwise_files (h : tree.HasDistinctNames) :
    tree.files.Pairwise fun a b => PathLT a.1 b.1 := by
  rw [files_eq]
  refine h.pairwise_filterMap_walk fun part found hfound => ?_
  obtain ⟨isProgram, rfl⟩ := fileOf?_eq_some_iff.1 hfound
  rfl

/-- The directories of a tree are met in the order of their paths. -/
theorem pairwise_directories (h : tree.HasDistinctNames) : tree.directories.Pairwise PathLT := by
  rw [directories_eq]
  have hnames : ∀ part found, directoryOf? part = some found → found = part.1 := by
    intro part found hfound
    obtain ⟨entries, rfl⟩ := directoryOf?_eq_some_iff.1 hfound
    rfl
  exact h.pairwise_filterMap_walk hnames

end HasDistinctNames

/-- In a list in order, the first element of a kind is the least one of it. -/
theorem least_of_find?_eq_some {α : Type} {lt : α → α → Prop} {l : List α} (h : l.Pairwise lt)
    {p : α → Bool} {found : α} (hfind : l.find? p = some found) :
    p found = true ∧ found ∈ l ∧ ∀ other ∈ l, p other = true → other = found ∨ lt found other := by
  obtain ⟨hfound, before, after, rfl, hbefore⟩ := List.find?_eq_some_iff_append.1 hfind
  refine ⟨hfound, List.mem_append_right before List.mem_cons_self, fun other hother hp => ?_⟩
  rcases List.mem_append.1 hother with hmem | hmem
  · have hnot := hbefore other hmem
    rw [hp] at hnot
    cases hnot
  · rcases List.mem_cons.1 hmem with rfl | hafter
    · exact Or.inl rfl
    · have hrest := (List.pairwise_append.1 h).2.1
      exact Or.inr ((List.pairwise_cons.1 hrest).1 other hafter)

end ApiShorthand.FileTree
