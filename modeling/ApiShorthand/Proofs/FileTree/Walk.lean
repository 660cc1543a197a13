import ApiShorthand.Proofs.FileTree
import Mathlib.Data.List.Basic

/-!
# Walks and files put into a tree

A file that is put into a tree is met on a walk at its place, and the walk is otherwise what it was
(`IsFilePlace.seenElsewhere_walk_put`): the same directories are opened (`directories_put`), and the
other files are met in the same order (`files_put`).
-/

namespace ApiShorthand.FileTree

/-! ### Sorting and selecting -/

section Sorting

variable {α : Type} {le : α → α → Bool}

theorem append_inj_of_forall {p : α → Bool} {front front' rest rest' : List α}
    (h : front ++ rest = front' ++ rest') (hfront : ∀ x ∈ front, p x = true)
    (hfront' : ∀ x ∈ front', p x = true) (hrest : ∀ x ∈ rest, p x = false)
    (hrest' : ∀ x ∈ rest', p x = false) : front = front' ∧ rest = rest' := by
  have htake : ∀ {front rest : List α}, (∀ x ∈ front, p x = true) → (∀ x ∈ rest, p x = false) →
      (front ++ rest).takeWhile p = front := by
    intro front rest hfront hrest
    rw [List.takeWhile_append_of_pos hfront]
    cases rest with
    | nil => exact List.append_nil front
    | cons x rest =>
      rw [List.takeWhile_cons_of_neg (by simp [hrest x List.mem_cons_self]), List.append_nil]
  have heq : front = front' := by rw [← htake hfront hrest, h, htake hfront' hrest']
  subst heq
  exact ⟨rfl, List.append_cancel_left h⟩

/-- A stable sort may come before a selection or behind it. -/
theorem filter_mergeSort (htrans : ∀ a b c, le a b = true → le b c = true → le a c = true)
    (htotal : ∀ a b, (le a b || le b a) = true) (p : α → Bool) (l : List α) :
    (l.mergeSort le).filter p = (l.filter p).mergeSort le := by
  induction l with
  | nil => rw [List.filter_nil, List.mergeSort_nil, List.filter_nil]
  | cons a l ih =>
    obtain ⟨front, rest, hsort, hsort', hfront⟩ := List.mergeSort_cons htrans htotal a l
    have hrest : ∀ b ∈ rest, le a b = true := by
      have hsorted := List.pairwise_mergeSort htrans htotal (a :: l)
      rw [hsort] at hsorted
      exact (List.pairwise_cons.1 (List.pairwise_append.1 hsorted).2.1).1
    rw [hsort', List.filter_append] at ih
    rw [hsort, List.filter_append]
    by_cases ha : p a = true
    · rw [List.filter_cons_of_pos ha, List.filter_cons_of_pos ha]
      obtain ⟨front', rest', hkept, hkept', hfront'⟩ :=
        List.mergeSort_cons htrans htotal a (l.filter p)
      have hrest' : ∀ b ∈ rest', le a b = true := by
        have hsorted := List.pairwise_mergeSort htrans htotal (a :: l.filter p)
        rw [hkept] at hsorted
        exact (List.pairwise_cons.1 (List.pairwise_append.1 hsorted).2.1).1
      -- the element goes between what is less and what is not, in both lists
      obtain ⟨heq, heq'⟩ := append_inj_of_forall (p := fun b => !le a b) (ih.trans hkept')
        (fun b hb => hfront b (List.mem_of_mem_filter hb)) hfront'
        (fun b hb => by simp [hrest b (List.mem_of_mem_filter hb)])
        (fun b hb => by simp [hrest' b hb])
      rw [hkept, heq, heq']
    · rw [List.filter_cons_of_neg ha, List.filter_cons_of_neg ha]
      exact ih

end Sorting

theorem nameLE_iff {a b : String} : nameLE a b = true ↔ a ≤ b := by
  rw [nameLE, Bool.not_eq_true', decide_eq_false_iff_not, String.not_lt]

theorem nameLE_trans (a b c : String) (hab : nameLE a b = true) (hbc : nameLE b c = true) :
    nameLE a c = true := by
  rw [nameLE_iff] at *
  exact String.le_trans hab hbc

theorem nameLE_total (a b : String) : (nameLE a b || nameLE b a) = true := by
  rw [Bool.or_eq_true, nameLE_iff, nameLE_iff]
  exact String.le_total a b

/-! ### Directories on a walk -/

theorem entryWalks_eq_map (entries : List (String × FileTree)) :
    entryWalks entries = entries.map fun entry => (entry.1, entry.2.walk) := by
  induction entries with
  | nil => rfl
  | cons entry entries ih => rw [entryWalks, ih, List.map_cons]

theorem walk_directory_eq (entries : List (String × FileTree)) :
    (directory entries).walk =
      ([], directory entries) :: joinParts (entries.map fun entry => (entry.1, entry.2.walk)) := by
  rw [walk, entryWalks_eq_map]

/-- A directory whose entries stand in order is walked as it stands. -/
theorem walk_directory_of_pairwise {entries : List (String × FileTree)}
    (h : (entries.map Prod.fst).Pairwise (· ≤ ·)) :
    (directory entries).walk = ([], directory entries) :: entries.flatMap fun entry =>
      entry.2.walk.map fun part => (entry.1 :: part.1, part.2) := by
  have hsorted : (entries.map fun entry => (entry.1, entry.2.walk)).Pairwise
      fun a b => nameLE a.1 b.1 = true := by
    rw [List.pairwise_map] at h ⊢
    exact h.imp nameLE_iff.2
  rw [walk_directory_eq, joinParts, List.mergeSort_of_pairwise hsorted, List.flatMap_map]

/-! ### What is seen on a walk -/

/-- A part as it is seen on a walk: what is in a directory is met by itself. -/
def seen (part : NamedPart) : NamedPart :=
  (part.1, part.2.top)

/-- Whether a part is a file at a place. -/
def isFileAt (place : List String) : NamedPart → Bool
  | (names, file _ _) => names == place
  | _ => false

/-- What is seen on a walk, but for a file at a place. -/
def seenElsewhere (place : List String) (parts : List NamedPart) : List NamedPart :=
  (parts.filter (!isFileAt place ·)).map seen

/-- What is seen of the parts of an entry, but for a file at a place. -/
def seenInEntry (name : String) (names : List String) (entry : String × List NamedPart) :
    String × List NamedPart :=
  (entry.1, if entry.1 = name then seenElsewhere names entry.2 else entry.2.map seen)

theorem seenElsewhere_under (name : String) (names : List String)
    (entry : String × List NamedPart) :
    seenElsewhere (name :: names) (entry.2.map fun part => (entry.1 :: part.1, part.2)) =
      (seenInEntry name names entry).2.map fun part => (entry.1 :: part.1, part.2) := by
  have hseen : seen ∘ (fun part : NamedPart => (entry.1 :: part.1, part.2)) =
      (fun part : NamedPart => (entry.1 :: part.1, part.2)) ∘ seen := rfl
  rw [seenElsewhere, List.filter_map, List.map_map, hseen, ← List.map_map]
  refine congrArg _ ?_
  rw [seenInEntry]
  by_cases hname : entry.1 = name
  · rw [if_pos hname, seenElsewhere]
    refine congrArg _ (List.filter_congr fun part _ => ?_)
    obtain ⟨names', tree⟩ := part
    cases tree <;> simp [isFileAt, hname]
  · rw [if_neg hname]
    refine congrArg _ (List.filter_eq_self.2 fun part _ => ?_)
    obtain ⟨names', tree⟩ := part
    cases tree <;> simp [isFileAt, hname]

/-- What is seen in a directory is what is seen in its entries. -/
theorem seenElsewhere_joinParts (name : String) (names : List String)
    (entries : List (String × List NamedPart)) :
    seenElsewhere (name :: names) (joinParts entries) =
      joinParts (entries.map (seenInEntry name names)) := by
  have hsort : (entries.map (seenInEntry name names)).mergeSort (fun a b => nameLE a.1 b.1) =
      (entries.mergeSort fun a b => nameLE a.1 b.1).map (seenInEntry name names) :=
    (List.map_mergeSort (f := seenInEntry name names) fun _ _ _ _ => rfl).symm
  rw [joinParts, joinParts, hsort, List.flatMap_map, seenElsewhere, List.filter_flatMap,
    List.map_flatMap]
  exact List.flatMap_congr fun entry _ => seenElsewhere_under name names entry

/-- Entries in which nothing is met may be left out. -/
theorem joinParts_filter (entries : List (String × List NamedPart)) :
    joinParts (entries.filter fun entry => !entry.2.isEmpty) = joinParts entries := by
  have hsort := filter_mergeSort (fun a b c : String × List NamedPart => nameLE_trans a.1 b.1 c.1)
    (fun a b => nameLE_total a.1 b.1) (fun entry => !entry.2.isEmpty) entries
  rw [joinParts, joinParts, ← hsort]
  generalize entries.mergeSort _ = sorted
  induction sorted with
  | nil => rfl
  | cons entry sorted ih =>
    obtain ⟨name, parts⟩ := entry
    cases parts with
    | nil => exact ih
    | cons part parts =>
      rw [List.filter_cons_of_pos rfl, List.flatMap_cons, List.flatMap_cons, ih]

/-- An entry in which nothing is met adds nothing. -/
theorem joinParts_concat_nil (entries : List (String × List NamedPart)) (name : String) :
    joinParts (entries ++ [(name, [])]) = joinParts entries := by
  rw [← joinParts_filter, List.filter_append, ← joinParts_filter entries]
  exact congrArg joinParts (List.append_nil _)

theorem seenInEntry_insert {name : String} {names : List String}
    {entries : List (String × FileTree)} {sub sub' : FileTree}
    (hsub : Table.find? name entries = some sub)
    (h : seenElsewhere names sub'.walk = seenElsewhere names sub.walk) :
    (entryWalks (Table.insert name sub' entries)).map (seenInEntry name names) =
      (entryWalks entries).map (seenInEntry name names) := by
  induction entries with
  | nil => cases hsub
  | cons entry entries ih =>
    obtain ⟨other, tree⟩ := entry
    rw [Table.find?] at hsub
    rw [Table.insert]
    split_ifs at hsub ⊢ with hother
    · subst hother
      cases hsub
      rw [entryWalks, entryWalks, List.map_cons, List.map_cons, seenInEntry, seenInEntry,
        if_pos rfl, if_pos rfl, h]
    · rw [entryWalks, entryWalks, List.map_cons, List.map_cons, ih hsub]

theorem walk_file (content : List UInt8) (isProgram : Bool) :
    (file content isProgram).walk = [([], file content isProgram)] := by
  rw [walk]

theorem seenElsewhere_walk_directory (name : String) (names : List String)
    (entries : List (String × FileTree)) :
    seenElsewhere (name :: names) (directory entries).walk =
      ([], empty) :: joinParts ((entryWalks entries).map (seenInEntry name names)) := by
  rw [walk, ← seenElsewhere_joinParts]
  rfl

/-- **A file that is put** into a tree changes nothing else that is seen on a walk. -/
theorem IsFilePlace.seenElsewhere_walk_put {place : List String} {tree : FileTree}
    (h : IsFilePlace place tree) (content : List UInt8) (isProgram : Bool) :
    seenElsewhere place (tree.put place (file content isProgram)).walk =
      seenElsewhere place tree.walk := by
  induction h with
  | existing =>
    rw [put, walk_file, walk_file]
    rfl
  | @new name entries hfree =>
    have hkeys : name ∉ Table.keys entries := Table.not_mem_keys_of_find?_eq_none hfree
    rw [put, hfree, Option.getD_none, put, Table.insert_of_not_mem hkeys,
      seenElsewhere_walk_directory, seenElsewhere_walk_directory, entryWalks_eq_map,
      entryWalks_eq_map, List.map_append, List.map_append, List.map_singleton, List.map_singleton,
      walk_file]
    have hmade : seenInEntry name [] (name, [([], file content isProgram)]) = (name, []) := by
      rw [seenInEntry, if_pos rfl]
      rfl
    rw [hmade, joinParts_concat_nil]
  | @inside name names entries sub hsub h ih =>
    rw [put, hsub, Option.getD_some, seenElsewhere_walk_directory, seenElsewhere_walk_directory,
      seenInEntry_insert hsub ih]

/-! ### Files and directories -/

/-- The names of a part, if it is a directory. -/
def directoryOf? : NamedPart → Option (List String)
  | (names, directory _) => some names
  | _ => none

/-- The file that a part is. -/
def fileOf? : NamedPart → Option NamedFile
  | (names, file content _) => some (names, content)
  | _ => none

theorem directories_eq (tree : FileTree) : tree.directories = tree.walk.filterMap directoryOf? := by
  rw [directories]
  refine congrArg (List.filterMap · tree.walk) (funext fun part => ?_)
  obtain ⟨names, part⟩ := part
  cases part <;> rfl

theorem files_eq (tree : FileTree) : tree.files = tree.walk.filterMap fileOf? := by
  rw [files]
  refine congrArg (List.filterMap · tree.walk) (funext fun part => ?_)
  obtain ⟨names, part⟩ := part
  cases part <;> rfl

theorem seenElsewhere_cons (place : List String) (part : NamedPart) (parts : List NamedPart) :
    seenElsewhere place (part :: parts) =
      if isFileAt place part then seenElsewhere place parts
      else seen part :: seenElsewhere place parts := by
  rw [seenElsewhere, List.filter_cons]
  cases isFileAt place part <;> rfl

theorem filterMap_directoryOf?_seenElsewhere (place : List String) (parts : List NamedPart) :
    (seenElsewhere place parts).filterMap directoryOf? = parts.filterMap directoryOf? := by
  induction parts with
  | nil => rfl
  | cons part parts ih =>
    obtain ⟨names, tree⟩ := part
    rw [seenElsewhere_cons]
    cases tree with
    | directory entries => exact congrArg (names :: ·) ih
    | link target => exact ih
    | file content isProgram =>
      split
      · exact ih
      · exact ih

theorem filterMap_fileOf?_seenElsewhere (place : List String) (parts : List NamedPart) :
    (seenElsewhere place parts).filterMap fileOf? =
      (parts.filterMap fileOf?).filter (·.1 ≠ place) := by
  induction parts with
  | nil => rfl
  | cons part parts ih =>
    obtain ⟨names, tree⟩ := part
    rw [seenElsewhere_cons]
    cases tree with
    | directory entries => exact ih
    | link target => exact ih
    | file content isProgram =>
      have hfile : fileOf? (names, file content isProgram) = some (names, content) := rfl
      rw [List.filterMap_cons_some hfile]
      by_cases hplace : names = place
      · rw [if_pos (by simpa [isFileAt] using hplace), List.filter_cons_of_neg (by simpa using hplace),
          ih]
      · rw [if_neg (by simpa [isFileAt] using hplace), List.filter_cons_of_pos (by simpa using hplace),
          ← ih]
        rfl

namespace IsFilePlace

variable {place : List String} {tree : FileTree}

/-- A file that is put makes no directory. -/
theorem directories_put (h : IsFilePlace place tree) (content : List UInt8) (isProgram : Bool) :
    (tree.put place (file content isProgram)).directories = tree.directories := by
  rw [directories_eq, directories_eq, ← filterMap_directoryOf?_seenElsewhere place,
    h.seenElsewhere_walk_put, filterMap_directoryOf?_seenElsewhere]

/-- The other files are met in the same order. -/
theorem files_put (h : IsFilePlace place tree) (content : List UInt8) (isProgram : Bool) :
    (tree.put place (file content isProgram)).files.filter (·.1 ≠ place) =
      tree.files.filter (·.1 ≠ place) := by
  rw [files_eq, files_eq, ← filterMap_fileOf?_seenElsewhere, h.seenElsewhere_walk_put,
    filterMap_fileOf?_seenElsewhere]

end IsFilePlace

end ApiShorthand.FileTree
