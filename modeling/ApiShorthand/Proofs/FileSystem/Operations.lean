import ApiShorthand.Proofs.FileSystem.Paths
import ApiShorthand.Proofs.Outcome

/-!
# Reading, writing and removing files

What an operation does to a file system, told by where its path leads: `hasEntryAt_eq_true_iff`,
`writeAt_eq_ok_iff` and `removeAt_of_locate`.
-/

namespace ApiShorthand.FileSystem

open FileTree (directory file link look IsFilePlace)

variable {system : FileSystem} {ending : Ending} {path : String} {location : Location}

/-! ### Where a path leads -/

/-- A text that can be followed as a path. -/
structure IsPath (path : String) : Prop where
  noNul : '\x00' ∉ path.toList
  notEmpty : path.isEmpty = false
  notTooLong : isTooLong path = false

/-- The directory from which a path is followed, from the inside out. -/
def startOf (system : FileSystem) (path : String) : List String :=
  if isAbsolute path then [] else system.here.reverse

theorem locate_eq_ok_iff :
    system.locate ending path = .ok location ↔
      IsPath path ∧
        Leads system.root ending maxLinks (system.startOf path) (components path) location := by
  rw [← resolve_eq_ok_iff, locate]
  constructor
  · intro h
    split at h
    · cases h
    rename_i hnul
    split at h
    · cases h
    rename_i hempty
    split at h
    · cases h
    rename_i hlong
    exact ⟨⟨hnul, by simpa using hempty, by simpa using hlong⟩, h⟩
  · rintro ⟨⟨hnul, hempty, hlong⟩, h⟩
    rw [if_neg hnul, hempty, if_neg Bool.false_ne_true, hlong, if_neg Bool.false_ne_true]
    exact h

theorem locate_isIn (h : system.locate ending path = .ok location) :
    location.IsIn system.root :=
  (locate_eq_ok_iff.1 h).2.isIn

/-- A file that is put somewhere changes nothing of where other paths lead. -/
theorem locate_put {place : List String} (hplace : IsFilePlace place system.root)
    (content : List UInt8) (isProgram : Bool) (h : system.locate ending path = .ok location) :
    ∃ location', location.Filled place (file content isProgram) location' ∧
      (system.put place (file content isProgram)).locate ending path = .ok location' := by
  obtain ⟨hpath, hleads⟩ := locate_eq_ok_iff.1 h
  obtain ⟨location', hfilled, hleads'⟩ := hleads.put hplace content isProgram
  exact ⟨location', hfilled, locate_eq_ok_iff.2 ⟨hpath, hleads'⟩⟩

theorem locate_follow_of_create (h : system.locate .create path = .ok location) :
    system.locate .follow path = .ok location := by
  obtain ⟨hpath, hleads⟩ := locate_eq_ok_iff.1 h
  exact locate_eq_ok_iff.2 ⟨hpath, hleads.follow_of_create⟩

theorem locate_keep_of_follow (h : system.locate .follow path = .ok location) :
    system.locate .keep path = .ok location ∨
      ∃ place target, system.locate .keep path = .ok (.entry place (link target)) := by
  obtain ⟨hpath, hleads⟩ := locate_eq_ok_iff.1 h
  rcases hleads.keep_of_follow with hkeep | ⟨place, target, hlink⟩
  · exact Or.inl (locate_eq_ok_iff.2 ⟨hpath, hkeep⟩)
  · exact Or.inr ⟨place, target, locate_eq_ok_iff.2 ⟨hpath, hlink⟩⟩

theorem locate_of_keep (h : system.locate .keep path = .ok location)
    (hlocation : ∀ place target, location ≠ .entry place (link target))
    (hends : EndsNamed (components path)) (ending : Ending) :
    system.locate ending path = .ok location := by
  obtain ⟨hpath, hleads⟩ := locate_eq_ok_iff.1 h
  exact locate_eq_ok_iff.2 ⟨hpath, hleads.of_keep hlocation hends ending⟩

/-! ### The names of a path -/

theorem exists_splitOn_concat (text : List Char) {c : Char} (hc : c ≠ '/') :
    ∃ front last, (text ++ [c]).splitOn '/' = front ++ [last] ∧ last ≠ [] := by
  induction text with
  | nil =>
    refine ⟨[], [c], ?_, List.cons_ne_nil _ _⟩
    exact List.splitOn_eq_singleton (by simpa using hc.symm)
  | cons d text ih =>
    obtain ⟨front, last, hsplit, hlast⟩ := ih
    rw [List.cons_append, List.splitOn_cons_eq_if_modifyHead, hsplit]
    split
    · exact ⟨[] :: front, last, rfl, hlast⟩
    · cases front with
      | nil => exact ⟨[], d :: last, rfl, List.cons_ne_nil _ _⟩
      | cons first front => exact ⟨(d :: first) :: front, last, rfl, hlast⟩

theorem exists_toList_joinPath (base path : String) :
    ∃ before, (joinPath base path).toList = before ++ path.toList := by
  rw [joinPath]
  split_ifs
  · exact ⟨[], rfl⟩
  · exact ⟨base.toList, String.toList_append⟩
  · exact ⟨base.toList ++ ['/'], by simp⟩

/-- A path that is taken from a directory ends as it does itself. -/
theorem endsNamed_components_joinPath (base path : String) {c : Char}
    (hlast : path.toList.getLast? = some c) (hc : c ≠ '/') :
    EndsNamed (components (joinPath base path)) := by
  obtain ⟨before, hjoin⟩ := exists_toList_joinPath base path
  obtain ⟨text, hpath⟩ := List.getLast?_eq_some_iff.1 hlast
  obtain ⟨front, last, hsplit, hne⟩ := exists_splitOn_concat (before ++ text) hc
  have hnames : components (joinPath base path) =
      front.map String.ofList ++ [String.ofList last] := by
    rw [components, hjoin, hpath, ← List.append_assoc, hsplit, List.map_append]
    rfl
  refine ⟨String.ofList last, ?_, ?_⟩
  · rw [hnames, List.getLast?_concat]
    rfl
  · rw [Ne, ← String.toList_inj, String.toList_ofList]
    exact hne

/-! ### Operations -/

theorem hasEntryAt_eq_true_iff :
    system.hasEntryAt path = true ↔
      ∃ names tree, system.locate .follow path = .ok (.entry names tree) := by
  rw [hasEntryAt, entryAt]
  cases system.locate .follow path with
  | error cause => exact iff_of_false nofun nofun
  | ok location =>
    cases location with
    | entry names tree => exact iff_of_true rfl ⟨names, tree, rfl⟩
    | free above name => exact iff_of_false nofun nofun

/-- What is written at a path. -/
theorem writeAt_eq_ok_iff {content : List UInt8} {written : FileSystem} :
    system.writeAt path content = .ok written ↔
      (∃ names old isProgram,
        system.locate .create path = .ok (.entry names (file old isProgram)) ∧
        written = system.put names (file content isProgram)) ∨
      ∃ above name, system.locate .create path = .ok (.free above name) ∧
        written = system.put (above ++ [name]) (file content false) := by
  rw [writeAt]
  cases system.locate .create path with
  | error cause => exact iff_of_false nofun (by simp)
  | ok location =>
    cases location with
    | entry names tree =>
      cases tree with
      | file old isProgram =>
        constructor
        · intro h
          cases h
          exact Or.inl ⟨names, old, isProgram, rfl, rfl⟩
        · rintro (⟨names', old', isProgram', hentry, rfl⟩ | ⟨above, name, hfree, -⟩)
          · cases hentry
            rfl
          · cases hfree
      | link target => exact iff_of_false nofun (by simp)
      | directory entries => exact iff_of_false nofun (by simp)
    | free above name =>
      constructor
      · intro h
        cases h
        exact Or.inr ⟨above, name, rfl, rfl⟩
      · rintro (⟨names, old, isProgram, hentry, -⟩ | ⟨above', name', hfree, rfl⟩)
        · cases hentry
        · cases hfree
          rfl

theorem removeAt_of_locate {names : List String} {tree : FileTree}
    (h : system.locate .keep path = .ok (.entry names tree))
    (htree : ∀ entries, tree ≠ directory entries) :
    system.removeAt path = .ok { system with root := system.root.erase names } := by
  rw [removeAt, h]
  cases tree with
  | file content isProgram => rfl
  | link target => rfl
  | directory entries => exact absurd rfl (htree entries)

end ApiShorthand.FileSystem
