import ApiShorthand.Proofs.FileSystem.Targets

/-!
# Files that are written one after the other

Writing at a path fills the place of a file (`writeAt_eq_ok_iff_fill`). Where the places are, which
of the files are programs and where links are does not change by that (`leadsToFile_fill`,
`isProgramAt_fill`, `hasLinkAt_fill`), so that what can be written afterwards, and where, is what
could be written before.
-/

namespace ApiShorthand.FileSystem

open FileTree (directory file link look top IsFilePlace)

variable {system : FileSystem} {path : String} {place : List String}

/-! ### Filling a place -/

/-- A path leads to a file, or to a free name where one can be made. -/
def LeadsToFile (system : FileSystem) (path : String) (place : List String) : Prop :=
  (∃ content isProgram, system.locate .create path = .ok (.entry place (file content isProgram))) ∨
    ∃ above name, system.locate .create path = .ok (.free above name) ∧ place = above ++ [name]

/-- Whether there is a program at a place. -/
def isProgramAt (system : FileSystem) (place : List String) : Bool :=
  match system.root.look place with
  | some (file _ isProgram) => isProgram
  | _ => false

/-- The file system with a content in the file at a place. A file stays a program, and a new one is
none. -/
def fill (system : FileSystem) (place : List String) (content : List UInt8) : FileSystem :=
  system.put place (file content (system.isProgramAt place))

theorem LeadsToFile.isFilePlace (h : system.LeadsToFile path place) :
    IsFilePlace place system.root := by
  rcases h with ⟨content, isProgram, hentry⟩ | ⟨above, name, hfree, rfl⟩
  · exact FileTree.isFilePlace_of_file (locate_isIn hentry)
  · obtain ⟨entries, hentries, hnone⟩ := locate_isIn hfree
    exact FileTree.isFilePlace_of_free hentries hnone

theorem isProgramAt_of_get? {content : List UInt8} {isProgram : Bool}
    (h : system.root.get? place = some (file content isProgram)) :
    system.isProgramAt place = isProgram := by
  rw [isProgramAt, look, h]
  rfl

theorem isProgramAt_of_none (h : system.root.get? place = none) :
    system.isProgramAt place = false := by
  rw [isProgramAt, look, h]
  rfl

/-- **What is written at a path** fills the place that the path leads to. -/
theorem writeAt_eq_ok_iff_fill {content : List UInt8} {written : FileSystem} :
    system.writeAt path content = .ok written ↔
      ∃ place, system.LeadsToFile path place ∧ written = system.fill place content := by
  rw [writeAt_eq_ok_iff]
  constructor
  · rintro (⟨names, old, isProgram, hentry, rfl⟩ | ⟨above, name, hfree, rfl⟩)
    · have hget : system.root.get? names = some (file old isProgram) := locate_isIn hentry
      refine ⟨names, Or.inl ⟨old, isProgram, hentry⟩, ?_⟩
      rw [fill, isProgramAt_of_get? hget]
    · obtain ⟨entries, hentries, hnone⟩ := locate_isIn hfree
      refine ⟨above ++ [name], Or.inr ⟨above, name, hfree, rfl⟩, ?_⟩
      rw [fill, isProgramAt_of_none ((FileTree.get?_concat hentries name).trans hnone)]
  · rintro ⟨place, ⟨old, isProgram, hentry⟩ | ⟨above, name, hfree, rfl⟩, rfl⟩
    · have hget : system.root.get? place = some (file old isProgram) := locate_isIn hentry
      refine Or.inl ⟨place, old, isProgram, hentry, ?_⟩
      rw [fill, isProgramAt_of_get? hget]
    · obtain ⟨entries, hentries, hnone⟩ := locate_isIn hfree
      refine Or.inr ⟨above, name, hfree, ?_⟩
      rw [fill, isProgramAt_of_none ((FileTree.get?_concat hentries name).trans hnone)]

/-! ### What filling a place leaves as it was -/

theorem isProgramAt_fill (h : IsFilePlace place system.root) (content : List UInt8)
    (other : List String) :
    (system.fill place content).isProgramAt other = system.isProgramAt other := by
  by_cases hother : other = place
  · subst hother
    exact isProgramAt_of_get? (h.get?_put _)
  · have hlook : (system.fill place content).root.look other = system.root.look other :=
      h.look_put content _ hother
    rw [isProgramAt, isProgramAt, hlook]

/-- What is put at a place once more replaces what was put there before. -/
theorem fill_fill (h : IsFilePlace place system.root) (content : List UInt8) :
    (system.fill place content).fill place content = system.fill place content := by
  rw [fill, isProgramAt_fill h]
  exact congrArg (FileSystem.mk · system.here) (h.put_put _)

/-- Two locations are of one kind: files at one place or a free name there, links, or directories. -/
theorem Location.Filled.leadsToFile_iff {location location' : Location} {content : List UInt8}
    {isProgram : Bool} (hplace : IsFilePlace place system.root) (hin : location.IsIn system.root)
    (h : location.Filled place (file content isProgram) location') (other : List String) :
    ((∃ old wasProgram, location' = .entry other (file old wasProgram)) ∨
        ∃ above name, location' = .free above name ∧ other = above ++ [name]) ↔
      (∃ old wasProgram, location = .entry other (file old wasProgram)) ∨
        ∃ above name, location = .free above name ∧ other = above ++ [name] := by
  cases h with
  | @entry names tree tree' hne htop =>
    refine or_congr ?_ (iff_of_false (by simp) (by simp))
    constructor
    · rintro ⟨old, wasProgram, heq⟩
      cases heq
      cases tree with
      | file old' wasProgram' => exact ⟨old', wasProgram', rfl⟩
      | link target => cases htop
      | directory entries => cases htop
    · rintro ⟨old, wasProgram, heq⟩
      cases heq
      cases tree' with
      | file old' wasProgram' => exact ⟨old', wasProgram', rfl⟩
      | link target => cases htop
      | directory entries => cases htop
  | @replaced tree =>
    have hget : system.root.get? place = some tree := hin
    rcases hplace.get?_eq with hnone | ⟨old, wasProgram, hfile⟩
    · rw [hnone] at hget
      cases hget
    · rw [hfile] at hget
      cases hget
      refine or_congr ?_ (iff_of_false (by simp) (by simp))
      constructor
      · rintro ⟨old', wasProgram', heq⟩
        cases heq
        exact ⟨old, wasProgram, rfl⟩
      · rintro ⟨old', wasProgram', heq⟩
        cases heq
        exact ⟨content, isProgram, rfl⟩
  | @filled above name heq =>
    subst heq
    constructor
    · rintro (⟨old, wasProgram, heq⟩ | ⟨above', name', heq, -⟩)
      · cases heq
        exact Or.inr ⟨above, name, rfl, rfl⟩
      · cases heq
    · rintro (⟨old, wasProgram, heq⟩ | ⟨above', name', heq, rfl⟩)
      · cases heq
      · cases heq
        exact Or.inl ⟨content, isProgram, rfl⟩
  | free hne => exact Iff.rfl

/-- **Where files can be written** is the same after one was written. -/
theorem leadsToFile_fill (h : IsFilePlace place system.root) (content : List UInt8)
    {other : List String} :
    (system.fill place content).LeadsToFile path other ↔ system.LeadsToFile path other := by
  rw [LeadsToFile, LeadsToFile]
  cases hlocate : system.locate .create path with
  | error cause =>
    obtain ⟨cause', hlocate'⟩ := locate_put_error h content (system.isProgramAt place) hlocate
    rw [fill, hlocate']
    exact iff_of_false (by simp) (by simp)
  | ok location =>
    obtain ⟨location', hfilled, hlocate'⟩ :=
      locate_put h content (system.isProgramAt place) hlocate
    rw [fill, hlocate']
    simp only [Except.ok.injEq]
    exact hfilled.leadsToFile_iff h (locate_isIn hlocate) other

/-- A link stands at a path. -/
def HasLinkAt (system : FileSystem) (path : String) : Prop :=
  ∃ names target, system.locate .keep path = .ok (.entry names (link target))

/-- No link is made or lost. -/
theorem hasLinkAt_fill (h : IsFilePlace place system.root) (content : List UInt8) :
    (system.fill place content).HasLinkAt path ↔ system.HasLinkAt path := by
  rw [HasLinkAt, HasLinkAt]
  cases hlocate : system.locate .keep path with
  | error cause =>
    obtain ⟨cause', hlocate'⟩ := locate_put_error h content (system.isProgramAt place) hlocate
    rw [fill, hlocate']
    exact iff_of_false (by simp) (by simp)
  | ok location =>
    obtain ⟨location', hfilled, hlocate'⟩ :=
      locate_put h content (system.isProgramAt place) hlocate
    rw [fill, hlocate']
    cases hfilled with
    | @entry names tree tree' hne htop =>
      constructor
      · rintro ⟨names', target, heq⟩
        cases heq
        cases tree with
        | link target' => exact ⟨names, target', rfl⟩
        | file old wasProgram => cases htop
        | directory entries => cases htop
      · rintro ⟨names', target, heq⟩
        cases heq
        cases tree' with
        | link target' => exact ⟨names, target', rfl⟩
        | file old wasProgram => cases htop
        | directory entries => cases htop
    | @replaced tree =>
      refine iff_of_false (by simp) ?_
      rintro ⟨names, target, heq⟩
      cases heq
      -- there is a file at the place, or nothing
      have hget : system.root.get? place = some (link target) := locate_isIn hlocate
      rcases h.get?_eq with hnone | ⟨old, wasProgram, hfile⟩
      · rw [hnone] at hget
        cases hget
      · rw [hfile] at hget
        cases hget
    | filled => exact iff_of_false (by simp) (by simp)
    | free => exact Iff.rfl

/-! ### Paths without a link at their end -/

/-- Where no link stands, the file that is written is found at the path. -/
theorem locate_keep_of_leadsToFile (hlink : ¬ system.HasLinkAt path)
    (h : system.LeadsToFile path place) :
    (∃ content isProgram, system.locate .keep path = .ok (.entry place (file content isProgram))) ∨
      ∃ above name, system.locate .keep path = .ok (.free above name) ∧ place = above ++ [name] := by
  have hkeep : ∀ {location : Location}, system.locate .create path = .ok location →
      system.locate .keep path = .ok location := fun hcreate =>
    (locate_keep_of_follow (locate_follow_of_create hcreate)).resolve_right hlink
  exact h.imp (fun ⟨content, isProgram, hentry⟩ => ⟨content, isProgram, hkeep hentry⟩)
    fun ⟨above, name, hfree, heq⟩ => ⟨above, name, hkeep hfree, heq⟩

theorem locate_keep_fill (hlink : ¬ system.HasLinkAt path) (h : system.LeadsToFile path place)
    (content : List UInt8) :
    (system.fill place content).locate .keep path =
      .ok (.entry place (file content (system.isProgramAt place))) := by
  have hplace := h.isFilePlace
  rcases locate_keep_of_leadsToFile hlink h with ⟨old, wasProgram, hentry⟩ | ⟨above, name, hfree, heq⟩
  · obtain ⟨location, hfilled, hlocate⟩ :=
      locate_put hplace content (system.isProgramAt place) hentry
    cases hfilled with
    | entry hne => exact absurd rfl hne
    | replaced => exact hlocate
  · obtain ⟨location, hfilled, hlocate⟩ :=
      locate_put hplace content (system.isProgramAt place) hfree
    cases hfilled with
    | filled => exact hlocate
    | free hne => exact absurd heq.symm hne

/-- The file has the last name of the path. -/
theorem getLast?_of_leadsToFile (hlink : ¬ system.HasLinkAt path)
    (h : system.LeadsToFile path place) {name : String} (hname : IsEntryName name)
    (hlast : (components path).getLast? = some name) : place.getLast? = some name := by
  rcases locate_keep_of_leadsToFile hlink h with ⟨old, wasProgram, hentry⟩ | ⟨above, last, hfree, rfl⟩
  · exact hasName_of_locate hname hlast hentry
  · have heq : last = name := hasName_of_locate hname hlast hfree
    rw [heq, List.getLast?_concat]

end ApiShorthand.FileSystem
