import ApiShorthand.FileSystem
import ApiShorthand.Proofs.FileTree

/-!
# Paths in a file system

Where a path leads depends on what is seen on its way only (`stretch_cons`). So a file that is put
somewhere changes nothing of where paths lead, but for those that lead to its place
(`locate_put`). The endings differ in the last name of a path: what can be written is found by
following links (`locate_follow_of_create`), and what is found by following links is found without
doing so unless the path is that of a link (`locate_keep_of_follow`).
-/

namespace ApiShorthand.FileSystem

open FileTree (directory file link look top IsFilePlace)

variable {root : FileTree} {ending : Ending} {place : List String}

/-! ### Steps on the way of a path -/

/-- One name of a path: what it leads to is known from what is seen in the tree. -/
theorem stretch_cons (root : FileTree) (ending : Ending) (above : List String) (name : String)
    (rest : List String) :
    stretch root ending above (name :: rest) =
      match root.look above.reverse with
      | some (directory _) =>
        if name.isEmpty || name == "." then stretch root ending above rest
        else if name == ".." then stretch root ending (above.drop 1) rest
        else if ending == .create && isSlashes rest then .refused .isDirectory
        else if name.utf8ByteSize > maxNameSize then .refused .nameTooLong
        else
          match root.look (name :: above).reverse with
          | none =>
            if rest.isEmpty then .arrived (.free above.reverse name) else .refused .notFound
          | some (link target) =>
            if rest.isEmpty && ending == .keep then
              .arrived (.entry (name :: above).reverse (link target))
            else .link above target rest
          | some _ => stretch root ending (name :: above) rest
      | some _ => .refused .notDirectory
      | none => .refused .notFound := by
  rw [stretch, look]
  cases habove : root.get? above.reverse with
  | none => rfl
  | some tree =>
    cases tree with
    | file content isProgram => rfl
    | link target => rfl
    | directory entries =>
      have hentry := FileTree.get?_concat habove name
      rw [← List.reverse_cons] at hentry
      rw [look, hentry]
      simp only [Option.map_some, top]
      cases Table.find? name entries with
      | none => rfl
      | some tree => cases tree <;> rfl

/-- What a path leads to is in the tree, or there is a place for it in a directory. -/
def Location.IsIn (root : FileTree) : Location → Prop
  | .entry names tree => root.get? names = some tree
  | .free above name =>
    ∃ entries, root.get? above = some (directory entries) ∧ Table.find? name entries = none

theorem stretch_isIn {above names : List String} {location : Location}
    (h : stretch root ending above names = .arrived location) : location.IsIn root := by
  induction names generalizing above with
  | nil =>
    rw [stretch] at h
    split at h
    · rename_i tree htree
      cases h
      exact htree
    · cases h
  | cons name rest ih =>
    rw [stretch] at h
    split at h
    · rename_i entries hentries
      have hentry := FileTree.get?_concat hentries name
      rw [← List.reverse_cons] at hentry
      split at h
      · exact ih h
      split at h
      · exact ih h
      split at h
      · cases h
      split at h
      · cases h
      split at h
      · rename_i hnone
        split at h
        · cases h
          exact ⟨entries, hentries, hnone⟩
        · cases h
      · rename_i target hlink
        split at h
        · cases h
          exact hentry.trans hlink
        · cases h
      · exact ih h
    · cases h
    · cases h

/-- Names lead to a location: up to a link, and then on from its target, at most so many times. -/
inductive Leads (root : FileTree) (ending : Ending) :
    (links : Nat) → (above names : List String) → Location → Prop
  | arrived {links : Nat} {above names : List String} {location : Location}
      (h : stretch root ending above names = .arrived location) :
      Leads root ending links above names location
  | link {links : Nat} {above names above' rest : List String} {target : String}
      {location : Location} (h : stretch root ending above names = .link above' target rest)
      (htarget : target.isEmpty = false)
      (hrest : Leads root ending links (if isAbsolute target then [] else above')
        (components target ++ rest) location) :
      Leads root ending (links + 1) above names location

theorem resolve_eq_ok_iff {links : Nat} {above names : List String} {location : Location} :
    resolve root ending links above names = .ok location ↔
      Leads root ending links above names location := by
  constructor
  · intro h
    induction links generalizing above names with
    | zero =>
      unfold resolve at h
      cases hstretch : stretch root ending above names with
      | arrived location' =>
        rw [hstretch] at h
        cases h
        exact .arrived hstretch
      | refused cause =>
        rw [hstretch] at h
        cases h
      | link above' target rest =>
        rw [hstretch] at h
        cases h
    | succ links ih =>
      unfold resolve at h
      cases hstretch : stretch root ending above names with
      | arrived location' =>
        rw [hstretch] at h
        cases h
        exact .arrived hstretch
      | refused cause =>
        rw [hstretch] at h
        cases h
      | link above' target rest =>
        rw [hstretch] at h
        dsimp only at h
        split at h
        · cases h
        · rename_i htarget
          exact .link hstretch (Bool.not_eq_true _ ▸ htarget) (ih h)
  · intro h
    induction h with
    | arrived hstretch =>
      unfold resolve
      rw [hstretch]
    | link hstretch htarget _ ih =>
      unfold resolve
      rw [hstretch]
      dsimp only
      rw [htarget]
      exact ih

theorem Leads.isIn {links : Nat} {above names : List String} {location : Location}
    (h : Leads root ending links above names location) : location.IsIn root := by
  induction h with
  | arrived hstretch => exact stretch_isIn hstretch
  | link _ _ _ ih => exact ih

/-! ### Paths after a file was put -/

/-- Where a path leads after a file was put at a place: to the file if it led to the place, and
else to the same as before, as far as it is seen. -/
inductive Location.Filled (place : List String) (made : FileTree) : Location → Location → Prop
  | entry {names : List String} {tree tree' : FileTree} (hne : names ≠ place)
      (htop : tree.top = tree'.top) : Filled place made (.entry names tree) (.entry names tree')
  | replaced {tree : FileTree} : Filled place made (.entry place tree) (.entry place made)
  | filled {above : List String} {name : String} (h : above ++ [name] = place) :
      Filled place made (.free above name) (.entry place made)
  | free {above : List String} {name : String} (hne : above ++ [name] ≠ place) :
      Filled place made (.free above name) (.free above name)

/-- The same up to the next link. -/
inductive Stretch.Filled (place : List String) (made : FileTree) : Stretch → Stretch → Prop
  | arrived {location location' : Location} (h : location.Filled place made location') :
      Filled place made (.arrived location) (.arrived location')
  | refused {cause : OsError} {other : Stretch} : Filled place made (.refused cause) other
  | link {above rest : List String} {target : String} :
      Filled place made (.link above target rest) (.link above target rest)

theorem stretch_put (hplace : IsFilePlace place root) (content : List UInt8) (isProgram : Bool)
    (ending : Ending) (above names : List String) :
    (stretch root ending above names).Filled place (file content isProgram)
      (stretch (root.put place (file content isProgram)) ending above names) := by
  have hmade := hplace.get?_put (file content isProgram)
  induction names generalizing above with
  | nil =>
    rw [stretch, stretch]
    by_cases habove : above.reverse = place
    · rw [habove, hmade]
      cases root.get? place with
      | none => exact .refused
      | some tree => exact .arrived .replaced
    · have hlook := hplace.look_put content isProgram habove
      rw [look, look] at hlook
      cases htree : root.get? above.reverse with
      | none => exact .refused
      | some tree =>
        rw [htree, Option.map_some, Option.map_eq_some_iff] at hlook
        obtain ⟨tree', htree', htop⟩ := hlook
        rw [htree']
        exact .arrived (.entry habove htop.symm)
  | cons name rest ih =>
    rw [stretch_cons, stretch_cons]
    by_cases habove : above.reverse = place
    · -- there is no directory at the place of a file
      rw [habove, look]
      rcases hplace.get?_eq with hnone | ⟨old, wasProgram, hfile⟩
      · rw [hnone]
        exact .refused
      · rw [hfile]
        exact .refused
    · rw [hplace.look_put content isProgram habove]
      cases root.look above.reverse with
      | none => exact .refused
      | some tree =>
        cases tree with
        | file content isProgram => exact .refused
        | link target => exact .refused
        | directory entries =>
          dsimp only
          split
          · exact ih above
          split
          · exact ih (above.drop 1)
          split
          · exact .refused
          split
          · exact .refused
          by_cases hhere : (name :: above).reverse = place
          · have hplaced : (root.put place (file content isProgram)).look place =
                some (file content isProgram) := by
              rw [look, hmade]
              rfl
            rw [hhere, hplaced, look]
            rcases hplace.get?_eq with hnone | ⟨old, wasProgram, hfile⟩
            · rw [hnone]
              dsimp only [Option.map_none]
              split
              · rename_i hrest
                rw [List.isEmpty_iff.1 hrest, stretch, hhere, hmade]
                rw [List.reverse_cons] at hhere
                exact .arrived (.filled hhere)
              · exact .refused
            · rw [hfile]
              exact ih (name :: above)
          · rw [hplace.look_put content isProgram hhere]
            have hne : above.reverse ++ [name] ≠ place := by rwa [← List.reverse_cons]
            cases root.look (name :: above).reverse with
            | none =>
              dsimp only
              split
              · exact .arrived (.free hne)
              · exact .refused
            | some tree =>
              cases tree with
              | file content isProgram => exact ih (name :: above)
              | directory entries => exact ih (name :: above)
              | link target =>
                dsimp only
                split
                · exact .arrived (.entry hhere rfl)
                · exact .link

theorem Leads.put (hplace : IsFilePlace place root) (content : List UInt8) (isProgram : Bool)
    {links : Nat} {above names : List String} {location : Location}
    (h : Leads root ending links above names location) :
    ∃ location', location.Filled place (file content isProgram) location' ∧
      Leads (root.put place (file content isProgram)) ending links above names location' := by
  induction h with
  | @arrived links above names location hstretch =>
    have hput := stretch_put hplace content isProgram ending above names
    rw [hstretch] at hput
    generalize hstretch' : stretch (root.put place _) ending above names = stretched at hput
    cases hput with
    | arrived hfilled => exact ⟨_, hfilled, .arrived hstretch'⟩
  | @link links above names above' rest target location hstretch htarget hrest ih =>
    have hput := stretch_put hplace content isProgram ending above names
    rw [hstretch] at hput
    generalize hstretch' : stretch (root.put place _) ending above names = stretched at hput
    cases hput with
    | link =>
      obtain ⟨location', hfilled, hleads⟩ := ih
      exact ⟨location', hfilled, .link hstretch' htarget hleads⟩

/-! ### Endings of a path -/

/-- The last of some names is not empty: no slash stands behind it. -/
def EndsNamed (names : List String) : Prop :=
  ∃ name ∈ names.getLast?, name ≠ ""

theorem EndsNamed.append {names : List String} (h : EndsNamed names) (before : List String) :
    EndsNamed (before ++ names) := by
  obtain ⟨name, hname, hne⟩ := h
  refine ⟨name, ?_, hne⟩
  rw [List.getLast?_append, Option.mem_def.1 hname]
  rfl

theorem EndsNamed.of_isSuffix {names rest : List String} (h : EndsNamed names)
    (hrest : rest <:+ names) (hne : rest ≠ []) : EndsNamed rest := by
  obtain ⟨before, rfl⟩ := hrest
  obtain ⟨name, hname, hempty⟩ := h
  refine ⟨name, ?_, hempty⟩
  obtain ⟨last, hlast⟩ := Option.isSome_iff_exists.1 (List.getLast?_isSome.2 hne)
  rw [List.getLast?_append, hlast] at hname
  rw [hlast]
  exact hname

theorem EndsNamed.isSlashes_eq_false {names : List String} (h : EndsNamed names) :
    isSlashes names = false := by
  obtain ⟨name, hname, hne⟩ := h
  have hall : names.all String.isEmpty = false := by
    rw [List.all_eq_false]
    exact ⟨name, List.mem_of_getLast? hname, by rwa [String.isEmpty_iff]⟩
  rw [isSlashes, hall, Bool.and_false]

/-- **The endings** differ where a path ends with slashes or with the name of a link. -/
theorem stretch_ending (root : FileTree) (ending : Ending) (above names : List String) :
    stretch root ending above names = stretch root .follow above names ∨
      (ending = .create ∧ names ≠ [] ∧ ¬ EndsNamed names ∧
        stretch root ending above names = .refused .isDirectory) ∨
      (ending = .keep ∧ ∃ place target,
        stretch root ending above names = .arrived (.entry place (link target))) := by
  induction names generalizing above with
  | nil => exact Or.inl rfl
  | cons name rest ih =>
    have hnext (above : List String) :
        stretch root ending above rest = stretch root .follow above rest ∨
          (ending = .create ∧ name :: rest ≠ [] ∧ ¬ EndsNamed (name :: rest) ∧
            stretch root ending above rest = .refused .isDirectory) ∨
          (ending = .keep ∧ ∃ place target,
            stretch root ending above rest = .arrived (.entry place (link target))) := by
      refine (ih above).imp_right (Or.imp_left ?_)
      rintro ⟨hcreate, hne, hends, hrefused⟩
      have hsuffix : rest <:+ name :: rest := List.suffix_cons name rest
      exact ⟨hcreate, List.cons_ne_nil _ _, fun h => hends (h.of_isSuffix hsuffix hne), hrefused⟩
    rw [stretch_cons, stretch_cons]
    cases root.look above.reverse with
    | none => exact Or.inl rfl
    | some tree =>
      cases tree with
      | file content isProgram => exact Or.inl rfl
      | link target => exact Or.inl rfl
      | directory entries =>
        dsimp only
        split
        · exact hnext above
        split
        · exact hnext (above.drop 1)
        have hfollow : (Ending.follow == Ending.create && isSlashes rest) = false := rfl
        rw [hfollow, if_neg Bool.false_ne_true]
        split
        · rename_i hcreate
          rw [Bool.and_eq_true, beq_iff_eq] at hcreate
          refine Or.inr (Or.inl ⟨hcreate.1, List.cons_ne_nil _ _, fun h => ?_, rfl⟩)
          have hne : rest ≠ [] := by
            rintro rfl
            cases hcreate.2
          have hslashes := (h.of_isSuffix (List.suffix_cons name rest) hne).isSlashes_eq_false
          rw [hslashes] at hcreate
          cases hcreate.2
        split
        · exact Or.inl rfl
        cases root.look (name :: above).reverse with
        | none => exact Or.inl rfl
        | some tree =>
          cases tree with
          | file content isProgram => exact hnext (name :: above)
          | directory entries => exact hnext (name :: above)
          | link target =>
            have hkeep : (Ending.follow == Ending.keep) = false := rfl
            dsimp only
            rw [hkeep, Bool.and_false, if_neg Bool.false_ne_true]
            split
            · rename_i hlast
              rw [Bool.and_eq_true, beq_iff_eq] at hlast
              exact Or.inr (Or.inr ⟨hlast.2, _, _, rfl⟩)
            · exact Or.inl rfl

/-- The names behind a link are the last ones of a path, and there are some if the link itself could
have been meant. -/
theorem isSuffix_of_stretch_eq_link {above names above' rest : List String} {target : String}
    (h : stretch root ending above names = .link above' target rest) :
    rest <:+ names ∧ (ending = .keep → rest ≠ []) := by
  induction names generalizing above with
  | nil =>
    rw [stretch] at h
    split at h <;> cases h
  | cons name names ih =>
    have hnext (above : List String)
        (h : stretch root ending above names = .link above' target rest) :
        rest <:+ name :: names ∧ (ending = .keep → rest ≠ []) :=
      ⟨(ih h).1.trans (List.suffix_cons name names), (ih h).2⟩
    rw [stretch_cons] at h
    split at h
    · split at h
      · exact hnext above h
      split at h
      · exact hnext (above.drop 1) h
      split at h
      · cases h
      split at h
      · cases h
      split at h
      · split at h <;> cases h
      · rename_i target' hlink
        split at h
        · cases h
        · rename_i hlast
          cases h
          refine ⟨List.suffix_cons name _, fun hkeep hrest => hlast ?_⟩
          rw [hkeep, hrest]
          rfl
      · exact hnext (name :: above) h
    · cases h
    · cases h

theorem stretch_follow_of_create {above names : List String} {stretched : Stretch}
    (h : stretch root .create above names = stretched)
    (hstretched : ∀ cause, stretched ≠ .refused cause) :
    stretch root .follow above names = stretched := by
  rcases stretch_ending root .create above names with hsame | ⟨-, -, -, hrefused⟩ | ⟨hkeep, -⟩
  · exact hsame.symm.trans h
  · exact absurd (h.symm.trans hrefused) (hstretched .isDirectory)
  · cases hkeep

theorem stretch_keep (root : FileTree) (above names : List String) :
    stretch root .keep above names = stretch root .follow above names ∨
      ∃ place target,
        stretch root .keep above names = .arrived (.entry place (link target)) := by
  rcases stretch_ending root .keep above names with hsame | ⟨hcreate, -⟩ | ⟨-, hlink⟩
  · exact Or.inl hsame
  · cases hcreate
  · exact Or.inr hlink

theorem stretch_follow_of_keep {above names : List String} {stretched : Stretch}
    (h : stretch root .keep above names = stretched)
    (hstretched : ∀ place target, stretched ≠ .arrived (.entry place (link target))) :
    stretch root .follow above names = stretched := by
  rcases stretch_keep root above names with hsame | ⟨place, target, hlink⟩
  · exact hsame.symm.trans h
  · exact absurd (h.symm.trans hlink) (hstretched place target)

theorem stretch_of_endsNamed {above names : List String} (hends : EndsNamed names)
    (hending : ending ≠ .keep) :
    stretch root ending above names = stretch root .follow above names := by
  rcases stretch_ending root ending above names with hsame | ⟨-, -, hslashes, -⟩ | ⟨hkeep, -⟩
  · exact hsame
  · exact absurd hends hslashes
  · exact absurd hkeep hending

namespace Leads

variable {links : Nat} {above names : List String} {location : Location}

/-- Where something can be written, links lead to the same location. -/
theorem follow_of_create (h : Leads root .create links above names location) :
    Leads root .follow links above names location := by
  induction h with
  | arrived hstretch => exact .arrived (stretch_follow_of_create hstretch nofun)
  | link hstretch htarget _ ih =>
    exact .link (stretch_follow_of_create hstretch nofun) htarget ih

/-- What is found by following links is found without following the last one, unless that is what
is found. -/
theorem keep_of_follow (h : Leads root .follow links above names location) :
    Leads root .keep links above names location ∨
      ∃ place target,
        Leads root .keep links above names (.entry place (FileTree.link target)) := by
  induction h with
  | @arrived links above names location hstretch =>
    rcases stretch_keep root above names with hsame | ⟨place, target, hlink⟩
    · exact Or.inl (.arrived (hsame.trans hstretch))
    · exact Or.inr ⟨place, target, .arrived hlink⟩
  | @link links above names above' rest target location hstretch htarget hrest ih =>
    rcases stretch_keep root above names with hsame | ⟨place, target', hlink⟩
    · have hkeep := hsame.trans hstretch
      rcases ih with hleads | ⟨place, target', hleads⟩
      · exact Or.inl (.link hkeep htarget hleads)
      · exact Or.inr ⟨place, target', .link hkeep htarget hleads⟩
    · exact Or.inr ⟨place, target', .arrived hlink⟩

/-- What is found without following the last link is found in any way, if it is no link itself and
no slash stands behind its name. -/
theorem of_keep (h : Leads root .keep links above names location)
    (hlocation : ∀ place target, location ≠ .entry place (FileTree.link target))
    (hends : EndsNamed names) (ending : Ending) : Leads root ending links above names location := by
  by_cases hending : ending = .keep
  · rwa [hending]
  induction h with
  | arrived hstretch =>
    have hfollow := stretch_follow_of_keep hstretch fun place target hlink =>
      hlocation place target (Stretch.arrived.inj hlink)
    exact .arrived ((stretch_of_endsNamed hends hending).trans hfollow)
  | link hstretch htarget _ ih =>
    have hfollow := stretch_follow_of_keep hstretch nofun
    obtain ⟨hsuffix, hne⟩ := isSuffix_of_stretch_eq_link hstretch
    have hleads := ih hlocation ((hends.of_isSuffix hsuffix (hne rfl)).append _)
    exact .link ((stretch_of_endsNamed hends hending).trans hfollow) htarget hleads

end Leads

end ApiShorthand.FileSystem
