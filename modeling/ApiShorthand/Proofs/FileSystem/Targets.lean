import ApiShorthand.Proofs.FileSystem.Operations

/-!
# Places that paths lead to

A path that leads nowhere leads nowhere after a file was put somewhere (`locate_put_error`), so that
exactly the same paths can be followed as before. What a path leads to has the last name of the
path, if that is no name of a directory that is there anyway and is not followed as a link
(`hasName_of_locate`).
-/

namespace ApiShorthand.FileSystem

open FileTree (directory file link look IsFilePlace)

variable {root : FileTree} {ending : Ending} {place : List String}

/-! ### Paths that lead nowhere -/

/-- The directory above one that is there is there. -/
theorem exists_get?_drop {above : List String} {entries : List (String × FileTree)}
    (h : root.get? above.reverse = some (directory entries)) :
    ∃ tree, root.get? (above.drop 1).reverse = some tree := by
  cases above with
  | nil => exact ⟨_, h⟩
  | cons name above =>
    rw [List.reverse_cons, FileTree.get?_append, Option.bind_eq_some_iff] at h
    obtain ⟨tree, htree, -⟩ := h
    exact ⟨tree, htree⟩

theorem look_eq_some_directory {names : List String} {entries : List (String × FileTree)}
    (h : root.look names = some (directory entries)) :
    ∃ entries', root.get? names = some (directory entries') := by
  rw [look, Option.map_eq_some_iff] at h
  obtain ⟨tree, htree, htop⟩ := h
  cases tree with
  | directory entries' => exact ⟨entries', htree⟩
  | file content isProgram => cases htop
  | link target => cases htop

theorem exists_get?_of_look {names : List String} {tree : FileTree}
    (h : root.look names = some tree) : ∃ tree', root.get? names = some tree' := by
  rw [look, Option.map_eq_some_iff] at h
  obtain ⟨tree', htree', -⟩ := h
  exact ⟨tree', htree'⟩

/-- Names behind a file lead nowhere. -/
theorem stretch_of_file {above rest : List String} {content : List UInt8} {isProgram : Bool}
    (h : root.look above.reverse = some (file content isProgram)) (hrest : rest ≠ []) :
    stretch root ending above rest = .refused .notDirectory := by
  obtain ⟨name, rest, rfl⟩ := List.exists_cons_of_ne_nil hrest
  rw [stretch_cons, h]

/-- Names that lead nowhere still do so after a file was put. -/
theorem stretch_put_refused (hplace : IsFilePlace place root) (content : List UInt8)
    (isProgram : Bool) {above names : List String} {cause : OsError}
    (hthere : names = [] → ∃ tree, root.get? above.reverse = some tree)
    (h : stretch root ending above names = .refused cause) :
    ∃ cause', stretch (root.put place (file content isProgram)) ending above names =
      .refused cause' := by
  have hplaced (names : List String) (heq : names = place) :
      (root.put place (file content isProgram)).look names = some (file content isProgram) := by
    rw [look, heq, hplace.get?_put]
    rfl
  induction names generalizing above with
  | nil =>
    obtain ⟨tree, htree⟩ := hthere rfl
    rw [stretch, htree] at h
    cases h
  | cons name rest ih =>
    by_cases habove : above.reverse = place
    · exact ⟨_, stretch_of_file (hplaced _ habove) (List.cons_ne_nil name rest)⟩
    rw [stretch_cons] at h ⊢
    rw [hplace.look_put content isProgram habove]
    cases hlook : root.look above.reverse with
    | none => exact ⟨_, rfl⟩
    | some tree =>
      rw [hlook] at h
      cases tree with
      | file content isProgram => exact ⟨_, rfl⟩
      | link target => exact ⟨_, rfl⟩
      | directory entries =>
        obtain ⟨entries', hentries⟩ := look_eq_some_directory hlook
        dsimp only at h ⊢
        split
        · rename_i hempty
          rw [if_pos hempty] at h
          exact ih (fun _ => ⟨_, hentries⟩) h
        rename_i hempty
        rw [if_neg hempty] at h
        split
        · rename_i hup
          rw [if_pos hup] at h
          exact ih (fun _ => exists_get?_drop hentries) h
        rename_i hup
        rw [if_neg hup] at h
        split
        · exact ⟨_, rfl⟩
        rename_i hslashes
        rw [if_neg hslashes] at h
        split
        · exact ⟨_, rfl⟩
        rename_i hlong
        rw [if_neg hlong] at h
        cases hentry : root.look (name :: above).reverse with
        | none =>
          rw [hentry] at h
          dsimp only at h
          split at h
          · cases h
          rename_i hrest
          by_cases hhere : (name :: above).reverse = place
          · -- the file is now there, but more names follow
            rw [hplaced _ hhere]
            exact ⟨_, stretch_of_file (hplaced _ hhere) (by rwa [List.isEmpty_iff] at hrest)⟩
          · rw [hplace.look_put content isProgram hhere, hentry]
            exact ⟨_, if_neg hrest⟩
        | some tree =>
          rw [hentry] at h
          have hthere' := exists_get?_of_look hentry
          by_cases hhere : (name :: above).reverse = place
          · rcases hplace.get?_eq with hnone | ⟨old, wasProgram, hfile⟩
            · rw [hhere, look, hnone] at hentry
              cases hentry
            · rw [hhere, look, hfile] at hentry
              cases hentry
              rw [hplaced _ hhere]
              exact ih (fun _ => hthere') h
          · rw [hplace.look_put content isProgram hhere, hentry]
            cases tree with
            | file content isProgram => exact ih (fun _ => hthere') h
            | directory entries => exact ih (fun _ => hthere') h
            | link target =>
              dsimp only at h
              split at h
              · cases h
              · cases h

theorem components_ne_nil (path : String) : components path ≠ [] := by
  rw [components, Ne, List.map_eq_nil_iff]
  exact List.splitOn_ne_nil _ _

theorem resolve_of_refused {links : Nat} {above names : List String} {cause : OsError}
    (h : stretch root ending above names = .refused cause) :
    resolve root ending links above names = .error cause := by
  unfold resolve
  rw [h]

theorem resolve_put_error (hplace : IsFilePlace place root) (content : List UInt8)
    (isProgram : Bool) {links : Nat} {above names : List String} {cause : OsError}
    (hnames : names ≠ []) (h : resolve root ending links above names = .error cause) :
    ∃ cause', resolve (root.put place (file content isProgram)) ending links above names =
      .error cause' := by
  induction links generalizing above names with
  | zero =>
    have hput := stretch_put hplace content isProgram ending above names
    cases hstretch : stretch root ending above names with
    | arrived location =>
      unfold resolve at h
      rw [hstretch] at h
      cases h
    | refused cause' =>
      obtain ⟨cause'', hrefused⟩ :=
        stretch_put_refused hplace content isProgram (fun hnil => absurd hnil hnames) hstretch
      exact ⟨cause'', resolve_of_refused hrefused⟩
    | link above' target rest =>
      rw [hstretch] at hput
      unfold resolve
      generalize stretch (root.put place _) ending above names = stretched at hput
      cases hput
      exact ⟨_, rfl⟩
  | succ links ih =>
    have hput := stretch_put hplace content isProgram ending above names
    cases hstretch : stretch root ending above names with
    | arrived location =>
      unfold resolve at h
      rw [hstretch] at h
      cases h
    | refused cause' =>
      obtain ⟨cause'', hrefused⟩ :=
        stretch_put_refused hplace content isProgram (fun hnil => absurd hnil hnames) hstretch
      exact ⟨cause'', resolve_of_refused hrefused⟩
    | link above' target rest =>
      unfold resolve at h ⊢
      rw [hstretch] at h hput
      generalize stretch (root.put place _) ending above names = stretched at hput
      cases hput
      dsimp only at h ⊢
      split
      · exact ⟨_, rfl⟩
      · rename_i htarget
        rw [if_neg htarget] at h
        refine ih ?_ h
        rw [Ne, List.append_eq_nil_iff, not_and]
        exact fun hnil => absurd hnil (components_ne_nil target)

/-- A path that leads nowhere still does so after a file was put. -/
theorem locate_put_error {system : FileSystem} {path : String} {cause : OsError}
    (hplace : IsFilePlace place system.root) (content : List UInt8) (isProgram : Bool)
    (h : system.locate ending path = .error cause) :
    ∃ cause', (system.put place (file content isProgram)).locate ending path = .error cause' := by
  rw [locate] at h ⊢
  split
  · exact ⟨_, rfl⟩
  rename_i hnul
  rw [if_neg hnul] at h
  split
  · exact ⟨_, rfl⟩
  rename_i hempty
  rw [if_neg hempty] at h
  split
  · exact ⟨_, rfl⟩
  rename_i hlong
  rw [if_neg hlong] at h
  exact resolve_put_error hplace content isProgram (components_ne_nil path) h

/-! ### Entries at a path -/

theorem entryAt_eq_ok_iff {system : FileSystem} {path : String} {tree : FileTree} :
    system.entryAt ending path = .ok tree ↔
      ∃ names, system.locate ending path = .ok (.entry names tree) := by
  rw [entryAt, Except.bind_eq_ok_iff]
  constructor
  · rintro ⟨location, hlocate, hlocation⟩
    cases location with
    | entry names tree' =>
      cases hlocation
      exact ⟨names, hlocate⟩
    | free above name => cases hlocation
  · rintro ⟨names, hlocate⟩
    exact ⟨_, hlocate, rfl⟩

/-- What is found without following the last link is found by following it, if it is no link. -/
theorem Leads.follow_of_keep {links : Nat} {above names : List String} {location : Location}
    (h : Leads root .keep links above names location)
    (hlocation : ∀ place target, location ≠ .entry place (FileTree.link target)) :
    Leads root .follow links above names location := by
  induction h with
  | arrived hstretch =>
    exact .arrived (stretch_follow_of_keep hstretch fun place target hlink =>
      hlocation place target (Stretch.arrived.inj hlink))
  | link hstretch htarget _ ih =>
    exact .link (stretch_follow_of_keep hstretch nofun) htarget (ih hlocation)

theorem locate_follow_of_keep {system : FileSystem} {path : String} {location : Location}
    (h : system.locate .keep path = .ok location)
    (hlocation : ∀ place target, location ≠ .entry place (link target)) :
    system.locate .follow path = .ok location := by
  obtain ⟨hpath, hleads⟩ := locate_eq_ok_iff.1 h
  exact locate_eq_ok_iff.2 ⟨hpath, hleads.follow_of_keep hlocation⟩

/-! ### The last name of a path -/

/-- A name of an entry: a directory is never meant by it. -/
structure IsEntryName (name : String) : Prop where
  ne_empty : name ≠ ""
  ne_here : name ≠ "."
  ne_above : name ≠ ".."

/-- A location has a name in its directory. -/
def Location.HasName (name : String) : Location → Prop
  | .entry names _ => names.getLast? = some name
  | .free _ last => last = name

theorem stretch_hasName {above names : List String} {name : String} {location : Location}
    (hname : IsEntryName name) (hlast : names.getLast? = some name)
    (h : stretch root ending above names = .arrived location) : location.HasName name := by
  induction names generalizing above with
  | nil => cases hlast
  | cons first rest ih =>
    rw [stretch] at h
    split at h
    · cases rest with
      | cons next rest =>
        -- the last name is still to come
        have hnext : (next :: rest).getLast? = some name := hlast
        split at h
        · exact ih hnext h
        split at h
        · exact ih hnext h
        split at h
        · cases h
        split at h
        · cases h
        split at h
        · cases h
        · cases h
        · exact ih hnext h
      | nil =>
        obtain rfl : first = name := Option.some.inj hlast
        have hdot : ¬ (first.isEmpty || first == ".") = true := by
          rw [Bool.or_eq_true, String.isEmpty_iff, beq_iff_eq, not_or]
          exact ⟨hname.ne_empty, hname.ne_here⟩
        have hup : ¬ (first == "..") = true := by
          rw [beq_iff_eq]
          exact hname.ne_above
        have hreverse : (first :: above).reverse.getLast? = some first := by
          rw [List.reverse_cons, List.getLast?_concat]
        rw [if_neg hdot, if_neg hup] at h
        split at h
        · cases h
        split at h
        · cases h
        split at h
        · cases h
          rfl
        · split at h
          · cases h
            exact hreverse
          · cases h
        · rw [stretch] at h
          split at h
          · cases h
            exact hreverse
          · cases h
    · cases h
    · cases h

/-- What is found without following the last link has the last name. -/
theorem Leads.hasName {links : Nat} {above names : List String} {name : String}
    {location : Location} (hname : IsEntryName name) (hlast : names.getLast? = some name)
    (h : Leads root .keep links above names location) : location.HasName name := by
  induction h with
  | arrived hstretch => exact stretch_hasName hname hlast hstretch
  | @link links above names above' rest target location hstretch htarget hrest ih =>
    obtain ⟨hsuffix, hne⟩ := isSuffix_of_stretch_eq_link hstretch
    obtain ⟨before, rfl⟩ := hsuffix
    refine ih ?_
    rw [List.getLast?_append_of_ne_nil _ (hne rfl)] at hlast ⊢
    exact hlast

theorem hasName_of_locate {system : FileSystem} {path name : String} {location : Location}
    (hname : IsEntryName name) (hlast : (components path).getLast? = some name)
    (h : system.locate .keep path = .ok location) : location.HasName name :=
  (locate_eq_ok_iff.1 h).2.hasName hname hlast

/-- The last name of a path that is taken from a directory ends as it does. -/
theorem exists_getLast?_components_joinPath (base : String) {path : String}
    (h : '/' ∉ path.toList) :
    ∃ last, (components (joinPath base path)).getLast? = some last ∧
      path.toList <:+ last.toList := by
  obtain ⟨before, hjoin⟩ := exists_toList_joinPath base path
  rw [components, hjoin]
  clear hjoin
  induction before with
  | nil =>
    refine ⟨path, ?_, List.suffix_rfl⟩
    rw [List.nil_append, List.splitOn_eq_singleton h, List.map_singleton, String.ofList_toList]
    rfl
  | cons c before ih =>
    obtain ⟨last, hlast, hsuffix⟩ := ih
    rw [List.cons_append, List.splitOn_cons_eq_if_modifyHead]
    generalize (before ++ path.toList).splitOn '/' = names at hlast
    split
    · cases names with
      | nil => cases hlast
      | cons first names => exact ⟨last, hlast, hsuffix⟩
    · cases names with
      | nil => cases hlast
      | cons first names =>
        cases names with
        | nil =>
          -- the character belongs to the last name
          obtain rfl : String.ofList first = last := Option.some.inj hlast
          refine ⟨String.ofList (c :: first), rfl, ?_⟩
          rw [String.toList_ofList] at hsuffix ⊢
          exact hsuffix.trans (List.suffix_cons c first)
        | cons second names => exact ⟨last, hlast, hsuffix⟩

end ApiShorthand.FileSystem
