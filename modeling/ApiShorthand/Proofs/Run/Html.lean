import ApiShorthand.Proofs.FileSystem.Operations
import ApiShorthand.Proofs.Sources
import ApiShorthand.Run

/-!
# The files that a run for HTML leaves

A run for HTML writes the JSON form of the document beside the sources and lets a renderer read it.
What it leaves is what was there before it, if nothing was at the path of the JSON form
(`run_html_leaves`); a file that was there holds the document afterwards. A link that leads nowhere
is the one thing that the run does not leave as it was: writing follows the link, and removing does
not.
-/

namespace ApiShorthand

open CommandLine (Settings Environment)
open FileTree (directory file link)
open FileSystem (Location)

/-- A renderer that does not change any file. -/
def Renderer.ChangesNoFile (renderer : Renderer) : Prop :=
  ∀ name arguments system after printed badExit,
    renderer name arguments system = .ran after printed badExit → after = system

theorem Renderer.ChangesNoFile.system_render {renderer : Renderer} (h : renderer.ChangesNoFile)
    (name jsonPath outputDirectory : String) (system : FileSystem) :
    (renderer.render name jsonPath outputDirectory system).system = system := by
  rw [render]
  cases hlaunch : renderer name (arguments jsonPath outputDirectory) system with
  | refused cause => rfl
  | ran after printed badExit =>
    have hafter := h _ _ _ _ _ _ hlaunch
    cases badExit with
    | none => exact hafter
    | some exit => exact hafter

namespace FileSystem

variable {system : FileSystem} {path : String} {names above : List String} {name target : String}

/-- A link stands at a path, and it leads to a free place in a directory. -/
def IsDanglingLink (system : FileSystem) (path : String) : Prop :=
  (∃ names target, system.locate .keep path = .ok (.entry names (link target))) ∧
    ∃ above name, system.locate .create path = .ok (.free above name)

theorem exists_free_of_writeAt {content : List UInt8} {written : FileSystem}
    (hnone : system.hasEntryAt path = false) (h : system.writeAt path content = .ok written) :
    ∃ above name, system.locate .create path = .ok (.free above name) ∧
      written = system.put (above ++ [name]) (file content false) := by
  rcases writeAt_eq_ok_iff.1 h with ⟨names, old, isProgram, hentry, -⟩ | hfree
  · have hsome : system.hasEntryAt path = true :=
      hasEntryAt_eq_true_iff.2 ⟨names, _, locate_follow_of_create hentry⟩
    rw [hnone] at hsome
    cases hsome
  · exact hfree

end FileSystem

namespace Run

open FileSystem

variable {system : FileSystem} {path : String} {names above : List String} {name target : String}

theorem isFilePlace_of_locate {ending : Ending}
    (h : system.locate ending path = .ok (.free above name)) :
    FileTree.IsFilePlace (above ++ [name]) system.root ∧
      system.root.get? (above ++ [name]) = none := by
  obtain ⟨entries, hentries, hfree⟩ := locate_isIn h
  exact ⟨FileTree.isFilePlace_of_free hentries hfree,
    (FileTree.get?_concat hentries name).trans hfree⟩

/-- A file that was made at a path where nothing was is removed again. -/
theorem tidy_put_of_free (h : system.locate .keep path = .ok (.free above name))
    (content : List UInt8) :
    tidy path (system.put (above ++ [name]) (file content false)) = system := by
  obtain ⟨hplace, hnone⟩ := isFilePlace_of_locate h
  obtain ⟨location, hfilled, hlocate⟩ := locate_put hplace content false h
  cases hfilled with
  | filled =>
    rw [tidy, removeAt_of_locate hlocate nofun]
    show FileSystem.mk ((system.root.put _ _).erase _) system.here = system
    rw [hplace.erase_put hnone]
  | free hne => exact absurd rfl hne

/-- Behind a link to a place where nothing was, it is the link that is removed. -/
theorem tidy_put_of_link (h : system.locate .keep path = .ok (.entry names (link target)))
    (hcreate : system.locate .create path = .ok (.free above name)) (content : List UInt8) :
    tidy path (system.put (above ++ [name]) (file content false)) =
      { system with
        root := (system.root.put (above ++ [name]) (file content false)).erase names } := by
  obtain ⟨hplace, hnone⟩ := isFilePlace_of_locate hcreate
  obtain ⟨location, hfilled, hlocate⟩ := locate_put hplace content false h
  have hlink : system.root.get? names = some (link target) := locate_isIn h
  cases hfilled with
  | @entry _ _ tree' hne htop =>
    rw [tidy, removeAt_of_locate hlocate]
    · rfl
    · rintro entries rfl
      cases htop
  | replaced =>
    rw [hnone] at hlink
    cases hlink

/-- What a run for HTML leaves, if the renderer changes no file. -/
theorem system_rendering {renderer : Renderer} (h : renderer.ChangesNoFile) (settings : Settings)
    (document : Json) (system : FileSystem) :
    (rendering renderer settings document system).system =
      match system.writeAt (joinPath settings.source jsonFile)
        (Text.octetsOf document.indented.toList) with
      | .error _ => system
      | .ok written =>
        if system.hasEntryAt (joinPath settings.source jsonFile) then written
        else tidy (joinPath settings.source jsonFile) written := by
  rw [rendering, writeText]
  cases system.writeAt (joinPath settings.source jsonFile)
    (Text.octetsOf document.indented.toList) with
  | error cause => rfl
  | ok written =>
    dsimp only [Except.mapError]
    split
    · exact h.system_render _ _ _ _
    · rw [h.system_render]

/-- Nothing was at the path: all that is left is what was there before. -/
theorem system_rendering_of_missing {renderer : Renderer} (h : renderer.ChangesNoFile)
    (settings : Settings) (document : Json)
    (hmissing : system.hasEntryAt (joinPath settings.source jsonFile) = false)
    (hlink : ¬ system.IsDanglingLink (joinPath settings.source jsonFile)) :
    (rendering renderer settings document system).system = system := by
  rw [system_rendering h]
  cases hwrite : system.writeAt (joinPath settings.source jsonFile)
      (Text.octetsOf document.indented.toList) with
  | error cause => rfl
  | ok written =>
    obtain ⟨above, name, hcreate, rfl⟩ := exists_free_of_writeAt hmissing hwrite
    have hkeep : system.locate .keep (joinPath settings.source jsonFile) =
        .ok (.free above name) := by
      rcases locate_keep_of_follow (locate_follow_of_create hcreate) with hfree | hkeep
      · exact hfree
      · exact absurd ⟨hkeep, above, name, hcreate⟩ hlink
    dsimp only
    rw [hmissing, if_neg Bool.false_ne_true, tidy_put_of_free hkeep]

/-- A link that leads to a free place was at the path: the file that was made there is left, and the
link is gone. -/
theorem system_rendering_of_danglingLink {renderer : Renderer} (h : renderer.ChangesNoFile)
    (settings : Settings) (document : Json)
    (hkeep : system.locate .keep (joinPath settings.source jsonFile) =
      .ok (.entry names (link target)))
    (hcreate : system.locate .create (joinPath settings.source jsonFile) =
      .ok (.free above name)) :
    (rendering renderer settings document system).system =
      { system with
        root := (system.root.put (above ++ [name])
          (file (Text.octetsOf document.indented.toList) false)).erase names } := by
  have hmissing : system.hasEntryAt (joinPath settings.source jsonFile) = false := by
    rw [← Bool.not_eq_true, hasEntryAt_eq_true_iff, locate_follow_of_create hcreate]
    rintro ⟨names', tree, hentry⟩
    cases hentry
  rw [system_rendering h, writeAt_eq_ok_iff.2 (Or.inr ⟨above, name, hcreate, rfl⟩)]
  dsimp only
  rw [hmissing, if_neg Bool.false_ne_true, tidy_put_of_link hkeep hcreate]

theorem endsNamed_jsonPath (settings : Settings) :
    EndsNamed (components (joinPath settings.source jsonFile)) :=
  endsNamed_components_joinPath settings.source jsonFile (c := 'n') (by decide) (by decide)

/-- A file was at the path: it holds the document now. -/
theorem system_rendering_of_file {renderer : Renderer} (h : renderer.ChangesNoFile)
    (settings : Settings) (document : Json) {content : List UInt8} {isProgram : Bool}
    (hfile : system.locate .keep (joinPath settings.source jsonFile) =
      .ok (.entry names (file content isProgram))) :
    (rendering renderer settings document system).system =
      system.put names (file (Text.octetsOf document.indented.toList) isProgram) := by
  have hfound (ending : Ending) := locate_of_keep hfile nofun (endsNamed_jsonPath settings) ending
  have hexists : system.hasEntryAt (joinPath settings.source jsonFile) = true :=
    hasEntryAt_eq_true_iff.2 ⟨names, _, hfound .follow⟩
  rw [system_rendering h,
    writeAt_eq_ok_iff.2 (Or.inl ⟨names, content, isProgram, hfound .create, rfl⟩)]
  dsimp only
  rw [hexists, if_pos rfl]

theorem system_run_html (renderer : Renderer) (environment : Environment) {settings : Settings}
    (hmode : settings.mode = some .html) (system : FileSystem) :
    (run renderer environment settings system).system =
      match document settings system with
      | .error _ => system
      | .ok document => (rendering renderer settings document system).system := by
  rw [run, hmode]
  dsimp only
  cases document settings system <;> rfl

end Run

open FileSystem Run

/-- **What a run for HTML leaves.** Let the renderer change no file. If nothing was at the path of
the JSON form, then the files are left as they were, whatever became of the run; but where a link
leads from there to a free place, the file that was made is left and the link is gone. If a file was
there, then it is there afterwards, with the document if there is one and as it was otherwise, and
everything else is left as it was. -/
theorem run_html_leaves (renderer : Renderer) (environment : Environment) {settings : Settings}
    {system after : FileSystem} {path : String} (hmode : settings.mode = some .html)
    (hrenderer : renderer.ChangesNoFile) (hpath : path = joinPath settings.source jsonFile)
    (hafter : after = (run renderer environment settings system).system) :
    (system.hasEntryAt path = false → ¬ system.IsDanglingLink path → after = system) ∧
    (∀ names target above name document,
      system.locate .keep path = .ok (.entry names (link target)) →
      system.locate .create path = .ok (.free above name) →
      Run.document settings system = .ok document →
      after = { system with
        root := (system.root.put (above ++ [name])
          (file (Text.octetsOf document.indented.toList) false)).erase names }) ∧
    ∀ names content isProgram,
      system.locate .keep path = .ok (.entry names (file content isProgram)) →
      after.here = system.here ∧
      (∀ others, others ≠ names → after.root.look others = system.root.look others) ∧
      ((∃ fault, Run.document settings system = .error fault) → after = system) ∧
      ∀ document, Run.document settings system = .ok document →
        after.locate .keep path =
          .ok (.entry names (file (Text.octetsOf document.indented.toList) isProgram)) := by
  subst hpath hafter
  rw [system_run_html renderer environment hmode system]
  refine ⟨fun hmissing hlink => ?_, ?_, ?_⟩
  · cases Run.document settings system with
    | error fault => rfl
    | ok document => exact system_rendering_of_missing hrenderer settings document hmissing hlink
  · intro names target above name document hkeep hcreate hdocument
    rw [hdocument]
    exact system_rendering_of_danglingLink hrenderer settings document hkeep hcreate
  · intro names content isProgram hfile
    have hplace : FileTree.IsFilePlace names system.root :=
      FileTree.isFilePlace_of_file (locate_isIn hfile)
    cases Run.document settings system with
    | error fault => exact ⟨rfl, fun _ _ => rfl, fun _ => rfl, nofun⟩
    | ok document =>
      dsimp only
      rw [system_rendering_of_file hrenderer settings document hfile]
      refine ⟨rfl, fun others hne => hplace.look_put _ _ hne, nofun, ?_⟩
      intro document' hdocument
      cases hdocument
      obtain ⟨location, hfilled, hlocate⟩ :=
        locate_put hplace (Text.octetsOf document.indented.toList) isProgram hfile
      cases hfilled with
      | entry hne => exact absurd rfl hne
      | replaced => exact hlocate

/-! ### A project -/

/-- A directory with the three sources, a directory, and others behind them. -/
def sampleProject (others : List (String × FileTree)) : FileSystem where
  root := directory ([
    ("endpoints.tinyspec", file (Text.octetsOf "GET /users\n  => [User]\n".toList) false),
    ("header.yaml", file (Text.octetsOf "swagger: \"2.0\"\n".toList) false),
    ("models.tinyspec", file (Text.octetsOf "User:\n  name*: string\n".toList) false),
    ("out", directory [])] ++ others)
  here := []

/-- An empty file in the place of the JSON form. -/
def sampleFile : List (String × FileTree) :=
  [("swagger.json", file [] false)]

/-- A link in the place of the JSON form, to a file that is not there. -/
def sampleLink : List (String × FileTree) :=
  [("swagger.json", link "out/spec.json")]

def sampleSettings : Settings where
  mode := some .html
  output := "."
  source := "."
  options := ⟨true, false⟩
  renderer := "renderer"

/-- A renderer that only ends. -/
def idleRenderer : Renderer := fun _ _ system => .ran system [] none

theorem changesNoFile_idleRenderer : idleRenderer.ChangesNoFile := by
  intro name arguments system after printed badExit h
  cases h
  rfl

section Project

variable {others : List (String × FileTree)}

theorem startOf_sampleProject (path : String) : (sampleProject others).startOf path = [] := by
  rw [startOf]
  split <;> rfl

theorem treeUnder_sampleProject :
    Sources.treeUnder (sampleProject others) "." = .ok (sampleProject others).root := by
  have hlocate : (sampleProject others).locate .keep "." =
      .ok (.entry [] (sampleProject others).root) := by
    have hnames : components "." = ["."] := by decide +kernel
    refine locate_eq_ok_iff.2
      ⟨⟨by decide +kernel, by decide +kernel, by decide +kernel⟩, .arrived ?_⟩
    rw [startOf_sampleProject, hnames]
    rfl
  rw [Sources.treeUnder, entryAt, hlocate]
  rfl

theorem walk_sampleProject (h : others = [] ∨ others = sampleFile ∨ others = sampleLink) :
    (sampleProject others).root.walk =
      [([], (sampleProject others).root),
        (["endpoints.tinyspec"], file (Text.octetsOf "GET /users\n  => [User]\n".toList) false),
        (["header.yaml"], file (Text.octetsOf "swagger: \"2.0\"\n".toList) false),
        (["models.tinyspec"], file (Text.octetsOf "User:\n  name*: string\n".toList) false),
        (["out"], directory [])] ++ others.map fun entry => ([entry.1], entry.2) := by
  rcases h with rfl | rfl | rfl <;>
  · simp (disch := decide) only [sampleProject, sampleFile, sampleLink, List.cons_append,
      List.nil_append, FileTree.walk_directory_of_pairwise, List.flatMap_cons, List.flatMap_nil]
    rfl

theorem discover_sampleProject (h : others = [] ∨ others = sampleFile ∨ others = sampleLink) :
    Sources.discover (sampleProject others) "." =
      .ok ⟨"swagger: \"2.0\"\n", "User:\n  name*: string\n", "GET /users\n  => [User]\n"⟩ := by
  have hwalk := walk_sampleProject h
  have hopened : Sources.unopened? "." (sampleProject others).root = none := by
    rw [Sources.unopened?, FileTree.directories, hwalk]
    rcases h with rfl | rfl | rfl <;> decide +kernel
  have hfiles : Sources.filesUnder (sampleProject others) "." =
      .ok (sampleProject others).root.files :=
    Sources.filesUnder_eq_ok_iff.2 ⟨_, treeUnder_sampleProject, hopened, rfl⟩
  rw [Sources.discover, hfiles, FileTree.files, hwalk]
  rcases h with rfl | rfl | rfl <;> decide +kernel

theorem document_sampleProject (h : others = [] ∨ others = sampleFile ∨ others = sampleLink) :
    ∃ document, Run.document sampleSettings (sampleProject others) = .ok document := by
  have hdocument : Run.document sampleSettings (sampleProject others) =
      buildDocument "swagger: \"2.0\"\n" "User:\n  name*: string\n" "GET /users\n  => [User]\n"
        ⟨true, false⟩ := by
    rw [Run.document, sampleSettings, discover_sampleProject h]
    simp only [bind, Except.bind]
  rw [hdocument]
  exact Except.exists_of_isOk (by decide +kernel)

/-- A location of the JSON form, from where its names lead. -/
theorem locate_sampleProject {ending : Ending} {location : Location}
    (h : Leads (sampleProject others).root ending maxLinks [] [".", "swagger.json"] location) :
    (sampleProject others).locate ending "./swagger.json" = .ok location := by
  have hnames : components "./swagger.json" = [".", "swagger.json"] := by decide +kernel
  refine locate_eq_ok_iff.2 ⟨⟨by decide +kernel, by decide +kernel, by decide +kernel⟩, ?_⟩
  rwa [startOf_sampleProject, hnames]

theorem locate_sampleFile :
    (sampleProject sampleFile).locate .keep "./swagger.json" =
      .ok (.entry ["swagger.json"] (file [] false)) :=
  locate_sampleProject (.arrived rfl)

theorem locate_sampleLink :
    (sampleProject sampleLink).locate .keep "./swagger.json" =
        .ok (.entry ["swagger.json"] (link "out/spec.json")) ∧
      (sampleProject sampleLink).locate .create "./swagger.json" =
        .ok (.free ["out"] "spec.json") := by
  refine ⟨locate_sampleProject (.arrived rfl), locate_sampleProject ?_⟩
  have hlink : stretch (sampleProject sampleLink).root .create [] [".", "swagger.json"] =
      .link [] "out/spec.json" [] := rfl
  have htarget : components "out/spec.json" = ["out", "spec.json"] := by decide +kernel
  refine .link hlink (by decide +kernel) (.arrived ?_)
  rw [htarget]
  split <;> rfl

end Project

/-- The files of a project without a JSON form are left as they were, and a JSON form that was there
holds the document. -/
theorem run_html_leaves_sampleProject :
    (run idleRenderer ⟨none, none⟩ sampleSettings (sampleProject [])).system = sampleProject [] ∧
    ∃ document, Run.document sampleSettings (sampleProject sampleFile) = .ok document ∧
      (run idleRenderer ⟨none, none⟩ sampleSettings (sampleProject sampleFile)).system.locate .keep
          "./swagger.json" =
        .ok (.entry ["swagger.json"] (file (Text.octetsOf document.indented.toList) false)) := by
  have hpath : "./swagger.json" = joinPath sampleSettings.source jsonFile := by decide +kernel
  constructor
  · have hleaves := @run_html_leaves idleRenderer ⟨none, none⟩ sampleSettings (sampleProject []) _
      "./swagger.json" rfl changesNoFile_idleRenderer hpath rfl
    refine hleaves.1 (by decide +kernel) ?_
    rintro ⟨⟨names, target, hkeep⟩, -⟩
    have hfree : (sampleProject []).locate .keep "./swagger.json" =
        .ok (.free [] "swagger.json") := locate_sampleProject (.arrived rfl)
    rw [hfree] at hkeep
    cases hkeep
  · obtain ⟨document, hdocument⟩ := document_sampleProject (Or.inr (Or.inl rfl))
    have hleaves := @run_html_leaves idleRenderer ⟨none, none⟩ sampleSettings
      (sampleProject sampleFile) _ "./swagger.json" rfl changesNoFile_idleRenderer hpath rfl
    obtain ⟨-, -, -, hthere⟩ := hleaves.2.2 _ _ _ locate_sampleFile
    exact ⟨document, hdocument, hthere document hdocument⟩

/-- A link to a file that is not there is gone after a run, and the file is there. -/
theorem run_html_danglingLink :
    sampleSettings.mode = some .html ∧ idleRenderer.ChangesNoFile ∧
    (sampleProject sampleLink).hasEntryAt "./swagger.json" = false ∧
    (sampleProject sampleLink).root.look ["swagger.json"] = some (link "out/spec.json") ∧
    (sampleProject sampleLink).root.look ["out", "spec.json"] = none ∧
    ∃ content,
      (run idleRenderer ⟨none, none⟩ sampleSettings (sampleProject sampleLink)).system.root.look
        ["swagger.json"] = none ∧
      (run idleRenderer ⟨none, none⟩ sampleSettings (sampleProject sampleLink)).system.root.look
        ["out", "spec.json"] = some (file content false) := by
  refine ⟨rfl, changesNoFile_idleRenderer, by decide +kernel, rfl, rfl, ?_⟩
  obtain ⟨document, hdocument⟩ := document_sampleProject (Or.inr (Or.inr rfl))
  obtain ⟨hkeep, hcreate⟩ := locate_sampleLink
  have hpath : "./swagger.json" = joinPath sampleSettings.source jsonFile := by decide +kernel
  rw [hpath] at hkeep hcreate
  rw [system_run_html idleRenderer ⟨none, none⟩ rfl, hdocument]
  dsimp only
  rw [system_rendering_of_danglingLink changesNoFile_idleRenderer sampleSettings document hkeep
    hcreate]
  exact ⟨Text.octetsOf document.indented.toList, rfl, rfl⟩

end ApiShorthand
