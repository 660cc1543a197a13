import ApiShorthand.FileTree
import ApiShorthand.Proofs.Table

/-!
# Files put into a tree

A file is put at a place where there is a file or nothing yet, in a directory that is there
(`IsFilePlace`). It changes nothing else that is seen in the tree (`IsFilePlace.look_put`), and
taking it away again leaves the tree as it was if nothing was there before
(`IsFilePlace.erase_put`).
-/

namespace ApiShorthand.FileTree

/-! ### What is seen in a tree -/

/-- A tree without what is in it, if it is a directory. -/
def top : FileTree → FileTree
  | directory _ => empty
  | tree => tree

/-- What is seen under names from the top of a tree down. -/
def look (names : List String) (tree : FileTree) : Option FileTree :=
  (tree.get? names).map top

theorem get?_append (names more : List String) (tree : FileTree) :
    get? (names ++ more) tree = (get? names tree).bind (get? more) := by
  induction names generalizing tree with
  | nil => simp
  | cons name names ih =>
    cases tree with
    | file content isProgram => rfl
    | link target => rfl
    | directory entries =>
      rw [List.cons_append, get?, get?, Option.bind_assoc]
      congr 1
      funext sub
      exact ih sub

theorem get?_concat {names : List String} {tree : FileTree} {entries : List (String × FileTree)}
    (h : tree.get? names = some (directory entries)) (name : String) :
    get? (names ++ [name]) tree = Table.find? name entries := by
  rw [get?_append, h, Option.bind_some, get?]
  cases Table.find? name entries <;> simp

/-! ### Places of files -/

/-- There is a file under these names, or there is none yet and one can be made. -/
inductive IsFilePlace : List String → FileTree → Prop where
  | existing {content : List UInt8} {isProgram : Bool} : IsFilePlace [] (file content isProgram)
  | new {name : String} {entries : List (String × FileTree)}
      (hfree : Table.find? name entries = none) : IsFilePlace [name] (directory entries)
  | inside {name : String} {names : List String} {entries : List (String × FileTree)}
      {sub : FileTree} (hsub : Table.find? name entries = some sub) (h : IsFilePlace names sub) :
      IsFilePlace (name :: names) (directory entries)

theorem isFilePlace_of_file {names : List String} {tree : FileTree} {content : List UInt8}
    {isProgram : Bool} (h : tree.get? names = some (file content isProgram)) :
    IsFilePlace names tree := by
  induction names generalizing tree with
  | nil =>
    rw [get?_nil, Option.some_inj] at h
    subst h
    exact .existing
  | cons name names ih =>
    cases tree with
    | file content isProgram => cases h
    | link target => cases h
    | directory entries =>
      rw [get?, Option.bind_eq_some_iff] at h
      obtain ⟨sub, hsub, hnames⟩ := h
      exact .inside hsub (ih hnames)

theorem isFilePlace_of_free {above : List String} {name : String} {tree : FileTree}
    {entries : List (String × FileTree)} (h : tree.get? above = some (directory entries))
    (hfree : Table.find? name entries = none) : IsFilePlace (above ++ [name]) tree := by
  induction above generalizing tree with
  | nil =>
    rw [get?_nil, Option.some_inj] at h
    subst h
    exact .new hfree
  | cons first above ih =>
    cases tree with
    | file content isProgram => cases h
    | link target => cases h
    | directory others =>
      rw [get?, Option.bind_eq_some_iff] at h
      obtain ⟨sub, hsub, habove⟩ := h
      exact .inside hsub (ih habove)

namespace IsFilePlace

variable {names : List String} {tree : FileTree}

theorem get?_put (h : IsFilePlace names tree) (part : FileTree) :
    (tree.put names part).get? names = some part := by
  induction h with
  | existing => simp [put]
  | new hfree => exact get?_put_singleton _ _ _
  | inside hsub _ ih => simp [put, get?, hsub, ih]

/-- There is nothing at the place, or a file. -/
theorem get?_eq (h : IsFilePlace names tree) :
    tree.get? names = none ∨
      ∃ content isProgram, tree.get? names = some (.file content isProgram) := by
  induction h with
  | existing => exact Or.inr ⟨_, _, get?_nil _⟩
  | new hfree => simp [get?, hfree]
  | inside hsub _ ih => simpa [get?, hsub] using ih

theorem look_file_of_ne_nil {others : List String} (h : others ≠ []) (content : List UInt8)
    (isProgram : Bool) : look others (FileTree.file content isProgram) = none := by
  cases others with
  | nil => exact absurd rfl h
  | cons name names => rfl

/-- **A file that is put** changes nothing else that is seen. -/
theorem look_put (h : IsFilePlace names tree) (content : List UInt8) (isProgram : Bool)
    {others : List String} (hne : others ≠ names) :
    look others (tree.put names (.file content isProgram)) = look others tree := by
  induction h generalizing others with
  | existing => rw [put, look_file_of_ne_nil hne, look_file_of_ne_nil hne]
  | @new name entries hfree =>
    cases others with
    | nil => rfl
    | cons other more =>
      by_cases hother : other = name
      · subst hother
        have hmore : more ≠ [] := by
          rintro rfl
          exact hne rfl
        have hnone := look_file_of_ne_nil hmore content isProgram
        simpa [look, put, get?, hfree] using hnone
      · simp [look, put, get?, Table.find?_insert_of_ne _ _ hother]
  | @inside name names entries sub hsub h ih =>
    cases others with
    | nil => rfl
    | cons other more =>
      by_cases hother : other = name
      · subst hother
        have hmore : more ≠ names := by
          rintro rfl
          exact hne rfl
        simpa [look, put, get?, hsub] using ih hmore
      · simp [look, put, get?, Table.find?_insert_of_ne _ _ hother]

/-- **A file that is put where nothing was and taken away again** leaves the tree as it was. -/
theorem erase_put (h : IsFilePlace names tree) (hnone : tree.get? names = none)
    (part : FileTree) : (tree.put names part).erase names = tree := by
  induction h with
  | existing =>
    rw [get?_nil] at hnone
    cases hnone
  | @new name entries hfree =>
    rw [put, hfree, Option.getD_none, put, erase, Table.erase_insert _ hfree]
  | @inside name names entries sub hsub h ih =>
    have hsubNone : sub.get? names = none := by
      rwa [get?, hsub] at hnone
    cases names with
    | nil =>
      rw [get?_nil] at hsubNone
      cases hsubNone
    | cons next names =>
      rw [put, hsub, Option.getD_some, erase, Table.modify_insert hsub (ih hsubNone)]
      simp

/-- What is put in one place once more replaces what was put there before. -/
theorem put_put (h : IsFilePlace names tree) (part : FileTree) :
    (tree.put names part).put names part = tree.put names part := by
  induction h with
  | existing => simp [put]
  | new hfree => simp [put, Table.insert_insert_self]
  | inside hsub _ ih => simp [put, hsub, ih, Table.insert_insert_self]

/-- A part of a tree after a file was put: the file is put into it, or it is what it was. -/
theorem get?_put_of_get? {place : List String} (h : IsFilePlace place tree) {sub : FileTree}
    (hsub : tree.get? names = some sub) (part : FileTree) :
    (∃ inner, place = names ++ inner ∧ IsFilePlace inner sub ∧
      (tree.put place part).get? names = some (sub.put inner part)) ∨
    (tree.put place part).get? names = some sub := by
  induction names generalizing tree place with
  | nil =>
    rw [get?_nil, Option.some_inj] at hsub
    subst hsub
    exact Or.inl ⟨place, rfl, h, get?_nil _⟩
  | cons name names ih =>
    cases h with
    | existing => cases hsub
    | @new other entries hfree =>
      rw [get?, Option.bind_eq_some_iff] at hsub
      obtain ⟨tree, htree, hnames⟩ := hsub
      have hne : name ≠ other := by
        rintro rfl
        rw [hfree] at htree
        cases htree
      refine Or.inr ?_
      rw [put, get?, Table.find?_insert_of_ne _ _ hne, htree]
      exact hnames
    | @inside other rest entries next hnext hrest =>
      rw [get?, Option.bind_eq_some_iff] at hsub
      obtain ⟨tree, htree, hnames⟩ := hsub
      rw [put, get?, hnext, Option.getD_some]
      by_cases hname : name = other
      · subst hname
        rw [hnext, Option.some_inj] at htree
        subst htree
        rw [Table.find?_insert_self, Option.bind_some]
        refine (ih hrest hnames).imp_left ?_
        rintro ⟨inner, rfl, hinner, hput⟩
        exact ⟨inner, rfl, hinner, hput⟩
      · rw [Table.find?_insert_of_ne _ _ hname, htree]
        exact Or.inr hnames

end IsFilePlace

end ApiShorthand.FileTree
