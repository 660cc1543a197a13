import ApiShorthand.Proofs.FileSystem.Writing
import ApiShorthand.Proofs.Run.Html
import ApiShorthand.Proofs.Sources

/-!
# Runs for YAML and JSON

A run for YAML or JSON fails and leaves all files as they were, or it writes one file and nothing
else. The file lies in the very directory in which the sources are searched, or anywhere, but it has
none of their names. So after any number of such runs the same texts are found, and every further
run writes at the same place the same content as it would have at first (`runs_write_alone`).
-/

namespace ApiShorthand

open CommandLine (Settings Environment)
open FileTree (directory file link IsFilePlace)
open FileSystem

namespace Run

variable {renderer : Renderer} {environment : Environment} {settings : Settings}
variable {system later : FileSystem} {source target : String}

/-! ### One run -/

/-- The path at which a run for YAML or JSON writes. -/
def target? (settings : Settings) : Option String :=
  match settings.mode with
  | some .yaml => some (joinPath (outputDirectory settings) yamlFile)
  | some .json => some (joinPath (outputDirectory settings) jsonFile)
  | _ => none

/-- The octets that a run for YAML or JSON writes for a document. -/
def octetsFor (settings : Settings) (document : Json) : List UInt8 :=
  match settings.mode with
  | some .json => Text.octetsOf document.indented.toList
  | _ => Text.octetsOf (Yaml.print document).toList

theorem run_eq (renderer : Renderer) (environment : Environment) (system : FileSystem)
    (htarget : target? settings = some target) :
    run renderer environment settings system =
      match document settings system with
      | .error fault => { system, printed := [], result := .error fault }
      | .ok document =>
        match system.writeAt target (octetsFor settings document) with
        | .ok written => { system := written, printed := [], result := .ok () }
        | .error cause => { system, printed := [], result := .error (.file (.refused cause)) } := by
  rw [target?] at htarget
  rw [run]
  cases hmode : settings.mode with
  | none =>
    rw [hmode] at htarget
    cases htarget
  | some mode =>
    rw [hmode] at htarget
    dsimp only
    cases hdocument : document settings system with
    | error fault => rfl
    | ok document =>
      cases mode with
      | html => cases htarget
      | yaml =>
        cases htarget
        have hoctets : octetsFor settings document =
            Text.octetsOf (Yaml.print document).toList := by
          rw [octetsFor, hmode]
        dsimp only
        rw [hoctets, writing, writeText]
        cases system.writeAt (joinPath (outputDirectory settings) yamlFile)
          (Text.octetsOf (Yaml.print document).toList) <;> rfl
      | json =>
        cases htarget
        have hoctets : octetsFor settings document =
            Text.octetsOf document.indented.toList := by
          rw [octetsFor, hmode]
        dsimp only
        rw [hoctets, writing, writeText]
        cases system.writeAt (joinPath (outputDirectory settings) jsonFile)
          (Text.octetsOf document.indented.toList) <;> rfl

/-- A run for YAML or JSON fails and changes nothing, or it fills the place of its file. -/
inductive RunsTo (settings : Settings) (target : String) (system : FileSystem) : Outcome → Prop
  | failed (fault : Fault)
      (h : (∀ document, Run.document settings system ≠ .ok document) ∨
        ∀ place, ¬ system.LeadsToFile target place) :
      RunsTo settings target system { system, printed := [], result := .error fault }
  | written {document : Json} {place : List String}
      (hdocument : Run.document settings system = .ok document)
      (hplace : system.LeadsToFile target place) :
      RunsTo settings target system
        { system := system.fill place (octetsFor settings document), printed := [],
          result := .ok () }

theorem runsTo (renderer : Renderer) (environment : Environment) (system : FileSystem)
    (htarget : target? settings = some target) :
    RunsTo settings target system (run renderer environment settings system) := by
  rw [run_eq renderer environment system htarget]
  cases hdocument : document settings system with
  | error fault =>
    refine .failed fault (Or.inl fun document hok => ?_)
    rw [hdocument] at hok
    cases hok
  | ok document =>
    dsimp only
    cases hwrite : system.writeAt target (octetsFor settings document) with
    | error cause =>
      refine .failed _ (Or.inr fun place hplace => ?_)
      rw [writeAt_eq_ok_iff_fill.2 ⟨place, hplace, rfl⟩] at hwrite
      cases hwrite
    | ok written =>
      obtain ⟨place, hplace, rfl⟩ := writeAt_eq_ok_iff_fill.1 hwrite
      exact .written hdocument hplace

/-- The outcome of a run that can be done. -/
theorem run_eq_written (renderer : Renderer) (environment : Environment) {document : Json}
    {place : List String} (htarget : target? settings = some target)
    (hdocument : Run.document settings system = .ok document)
    (hplace : system.LeadsToFile target place) :
    run renderer environment settings system =
      { system := system.fill place (octetsFor settings document), printed := [],
        result := .ok () } := by
  rw [run_eq renderer environment system htarget, hdocument]
  dsimp only
  rw [writeAt_eq_ok_iff_fill.2 ⟨place, hplace, rfl⟩]

/-! ### The name of the file -/

theorem exists_last_of_target (htarget : target? settings = some target) :
    ∃ last, (components target).getLast? = some last ∧ IsEntryName last ∧
      last ∉ Sources.fileNames := by
  have hfile : ∃ directory name, target = joinPath directory name ∧
      (name = yamlFile ∨ name = jsonFile) := by
    rw [target?] at htarget
    split at htarget
    · exact ⟨_, yamlFile, (Option.some.inj htarget).symm, Or.inl rfl⟩
    · exact ⟨_, jsonFile, (Option.some.inj htarget).symm, Or.inr rfl⟩
    · cases htarget
  obtain ⟨directory, name, rfl, hname⟩ := hfile
  have hslash : '/' ∉ name.toList := by
    rcases hname with rfl | rfl <;> decide
  obtain ⟨last, hlast, hsuffix⟩ := exists_getLast?_components_joinPath directory hslash
  have hne : ∀ other ∈ ["", ".", ".."] ++ Sources.fileNames, last ≠ other := by
    rintro other hother rfl
    have hnone : (["", ".", ".."] ++ Sources.fileNames).all fun other =>
        !name.toList.isSuffixOf other.toList := by
      rcases hname with rfl | rfl <;> decide
    have hnot := List.all_eq_true.1 hnone last hother
    rw [List.isSuffixOf_iff_suffix.2 hsuffix] at hnot
    cases hnot
  exact ⟨last, hlast, ⟨hne _ (by decide), hne _ (by decide), hne _ (by decide)⟩,
    fun hmem => hne last (List.mem_append_right _ hmem) rfl⟩

/-- The texts that are found before a file is written are found afterwards. -/
theorem discover_fill {place : List String} {sources : Sources}
    (htarget : target? settings = some target) (hlink : ¬ system.HasLinkAt target)
    (hplace : system.LeadsToFile target place) (content : List UInt8)
    (h : Sources.discover system source = .ok sources) :
    Sources.discover (system.fill place content) source = .ok sources := by
  obtain ⟨last, hlast, hentry, hother⟩ := exists_last_of_target htarget
  exact Sources.discover_put hplace.isFilePlace content _
    (getLast?_of_leadsToFile hlink hplace hentry hlast) hother h

theorem exists_sources_of_document {document : Json}
    (h : Run.document settings system = .ok document) :
    ∃ sources, Sources.discover system settings.source = .ok sources ∧
      buildDocument sources.header sources.models sources.endpoints settings.options =
        .ok document := by
  rw [Run.document] at h
  exact Except.bind_eq_ok_iff.1 h

/-! ### Many runs -/

/-- Files after a number of runs for YAML and JSON on one source directory. -/
inductive RunsFrom (renderer : Renderer) (environment : Environment) (source : String)
    (system : FileSystem) : FileSystem → Prop
  | none : RunsFrom renderer environment source system system
  | run {settings : Settings} {later : FileSystem} {target : String}
      (h : RunsFrom renderer environment source system later)
      (hsource : settings.source = source) (htarget : target? settings = some target)
      (hlink : ¬ later.HasLinkAt target) :
      RunsFrom renderer environment source system (run renderer environment settings later).system

/-- Runs on two file systems find the same texts, and can write at the same places. -/
structure LookAlike (source : String) (system later : FileSystem) : Prop where
  discover_eq : Sources.discover later source = Sources.discover system source
  leadsToFile_iff (path : String) (place : List String) :
    later.LeadsToFile path place ↔ system.LeadsToFile path place
  isProgramAt_eq (place : List String) : later.isProgramAt place = system.isProgramAt place
  hasLinkAt_iff (path : String) : later.HasLinkAt path ↔ system.HasLinkAt path

theorem LookAlike.document_eq (h : LookAlike source system later)
    (hsource : settings.source = source) :
    Run.document settings later = Run.document settings system := by
  subst hsource
  rw [Run.document, Run.document, h.discover_eq]

/-- A file that is written changes nothing of that. -/
theorem LookAlike.fill {place : List String} {sources : Sources}
    (h : LookAlike source system later) (htarget : target? settings = some target)
    (hlink : ¬ later.HasLinkAt target) (hplace : later.LeadsToFile target place)
    (hsources : Sources.discover later source = .ok sources) (content : List UInt8) :
    LookAlike source system (later.fill place content) where
  discover_eq := by
    rw [discover_fill htarget hlink hplace content hsources, ← hsources, h.discover_eq]
  leadsToFile_iff path other :=
    (leadsToFile_fill hplace.isFilePlace content).trans (h.leadsToFile_iff path other)
  isProgramAt_eq other := (isProgramAt_fill hplace.isFilePlace content other).trans
    (h.isProgramAt_eq other)
  hasLinkAt_iff path := (hasLinkAt_fill hplace.isFilePlace content).trans (h.hasLinkAt_iff path)

/-- One run keeps what the next ones depend on. -/
theorem LookAlike.run (renderer : Renderer) (environment : Environment)
    (h : LookAlike source system later) (hsource : settings.source = source)
    (htarget : target? settings = some target) (hlink : ¬ later.HasLinkAt target) :
    LookAlike source system (ApiShorthand.run renderer environment settings later).system := by
  have hruns := runsTo renderer environment later htarget
  generalize ApiShorthand.run renderer environment settings later = outcome at hruns ⊢
  cases hruns with
  | failed fault => exact h
  | written hdocument hplace =>
    obtain ⟨sources, hsources, -⟩ := exists_sources_of_document hdocument
    exact h.fill htarget hlink hplace (hsource ▸ hsources) _

/-- So do any number of runs. -/
theorem RunsFrom.lookAlike (h : RunsFrom renderer environment source system later) :
    LookAlike source system later := by
  induction h with
  | none => exact ⟨rfl, fun _ _ => Iff.rfl, fun _ => rfl, fun _ => Iff.rfl⟩
  | run _ hsource htarget hlink ih => exact ih.run renderer environment hsource htarget hlink

/-- Two runs both fail, or they put the same file at the same place. -/
inductive WriteAlike (system later : FileSystem) : Outcome → Outcome → Prop
  | failed (fault fault' : Fault) :
      WriteAlike system later { system, printed := [], result := .error fault }
        { system := later, printed := [], result := .error fault' }
  | written (place : List String) (content : List UInt8) (isProgram : Bool) :
      WriteAlike system later
        { system := system.put place (file content isProgram), printed := [], result := .ok () }
        { system := later.put place (file content isProgram), printed := [], result := .ok () }

theorem LookAlike.writeAlike (renderer : Renderer) (environment : Environment)
    (h : LookAlike source system later) (hsource : settings.source = source)
    (htarget : target? settings = some target) :
    WriteAlike system later (ApiShorthand.run renderer environment settings system)
      (ApiShorthand.run renderer environment settings later) := by
  have hdocument := h.document_eq hsource
  have hruns := runsTo renderer environment system htarget
  generalize ApiShorthand.run renderer environment settings system = outcome at hruns ⊢
  cases hruns with
  | failed fault hfailed =>
    have hruns := runsTo renderer environment later htarget
    generalize ApiShorthand.run renderer environment settings later = outcome at hruns ⊢
    cases hruns with
    | failed fault' => exact .failed fault fault'
    | written hok hplace =>
      rcases hfailed with hnone | hnone
      · exact absurd (hdocument ▸ hok) (hnone _)
      · exact absurd ((h.leadsToFile_iff _ _).1 hplace) (hnone _)
  | written hok hplace =>
    rw [run_eq_written renderer environment htarget (hdocument.trans hok)
      ((h.leadsToFile_iff _ _).2 hplace), FileSystem.fill, FileSystem.fill, h.isProgramAt_eq]
    exact .written _ _ _

end Run

open Run

/-- **Runs for YAML and JSON** on files with no link at the path that is written to. One run fails
and leaves the files as they were, or it succeeds and changes the file at that path only, which then
holds the form of the document of the sources that were found before. To do the same run again
changes nothing. After any number of runs on one source directory the same texts are found there,
and each further run fails if it would have failed at first, and otherwise writes the same file at
the same place. -/
theorem runs_write_alone (renderer : Renderer) (environment : Environment) (system : FileSystem) :
    (∀ settings target outcome, target? settings = some target → ¬ system.HasLinkAt target →
      outcome = run renderer environment settings system →
      (((∃ fault, outcome.result = .error fault) ∧ outcome.system = system) ∨
        (outcome.result = .ok () ∧ ∃ sources document place isProgram,
          Sources.discover system settings.source = .ok sources ∧
          buildDocument sources.header sources.models sources.endpoints settings.options =
            .ok document ∧
          outcome.system = system.put place (file (octetsFor settings document) isProgram) ∧
          (∀ others, others ≠ place →
            outcome.system.root.look others = system.root.look others) ∧
          outcome.system.locate .keep target =
            .ok (.entry place (file (octetsFor settings document) isProgram)) ∧
          Sources.discover outcome.system settings.source = .ok sources)) ∧
      run renderer environment settings outcome.system = outcome) ∧
    ∀ source later, RunsFrom renderer environment source system later →
      Sources.discover later source = Sources.discover system source ∧
      ∀ settings target, settings.source = source → target? settings = some target →
        ¬ later.HasLinkAt target → ¬ system.HasLinkAt target ∧
          WriteAlike system later (run renderer environment settings system)
            (run renderer environment settings later) := by
  refine ⟨?_, ?_⟩
  · rintro settings target outcome htarget hlink rfl
    have hruns := runsTo renderer environment system htarget
    generalize houtcome : run renderer environment settings system = outcome at hruns
    cases hruns with
    | failed fault => exact ⟨Or.inl ⟨⟨fault, rfl⟩, rfl⟩, houtcome⟩
    | @written document place hdocument hplace =>
      obtain ⟨sources, hsources, hbuild⟩ := exists_sources_of_document hdocument
      have hfound := discover_fill htarget hlink hplace (octetsFor settings document) hsources
      refine ⟨Or.inr ⟨rfl, sources, document, place, _, hsources, hbuild, rfl,
        fun others hne => hplace.isFilePlace.look_put _ _ hne,
        locate_keep_fill hlink hplace _, hfound⟩, ?_⟩
      -- the second run finds the same texts and fills the same place
      have hsame : Run.document settings (system.fill place (octetsFor settings document)) =
          .ok document := by
        rw [Run.document, hfound]
        exact hbuild
      rw [run_eq_written renderer environment htarget hsame
        ((leadsToFile_fill hplace.isFilePlace _).2 hplace), fill_fill hplace.isFilePlace]
  · intro source later hlater
    have halike := hlater.lookAlike
    exact ⟨halike.discover_eq, fun settings target hsource htarget hlink =>
      ⟨(halike.hasLinkAt_iff target).not.1 hlink,
        halike.writeAlike renderer environment hsource htarget⟩⟩

/-! ### Two runs on a project -/

/-- A run for YAML into a directory that is searched for the sources. -/
def yamlSettings : Settings :=
  { sampleSettings with mode := some .yaml, output := "out" }

/-- A run for JSON into the directory of the sources. -/
def jsonSettings : Settings :=
  { sampleSettings with mode := some .json }

theorem locate_free_sampleProject {ending : Ending} {path name : String} {above names : List String}
    (hpath : IsPath path) (hnames : components path = names)
    (h : stretch (sampleProject []).root ending [] names = .arrived (.free above name)) :
    (sampleProject []).locate ending path = .ok (.free above name) := by
  refine locate_eq_ok_iff.2 ⟨hpath, ?_⟩
  rw [startOf_sampleProject, hnames]
  exact .arrived h

/-- A YAML document is written between the sources, and a JSON document beside it as if it were not
there. -/
theorem runs_write_alone_sampleProject :
    ∃ document after place isProgram,
      after = (run idleRenderer ⟨none, none⟩ yamlSettings (sampleProject [])).system ∧
      Run.document yamlSettings (sampleProject []) = .ok document ∧
      after.locate .keep "./out/swagger.yaml" =
        .ok (.entry place (file (Text.octetsOf (Yaml.print document).toList) isProgram)) ∧
      (run idleRenderer ⟨none, none⟩ yamlSettings after).system = after ∧
      WriteAlike (sampleProject []) after
        (run idleRenderer ⟨none, none⟩ jsonSettings (sampleProject []))
        (run idleRenderer ⟨none, none⟩ jsonSettings after) := by
  obtain ⟨hone, hmany⟩ := runs_write_alone idleRenderer ⟨none, none⟩ (sampleProject [])
  have hyaml : target? yamlSettings = some "./out/swagger.yaml" := by decide +kernel
  have hjson : target? jsonSettings = some "././swagger.json" := by decide +kernel
  have hfree (ending : Ending) : (sampleProject []).locate ending "./out/swagger.yaml" =
      .ok (.free ["out"] "swagger.yaml") := by
    have hnames : components "./out/swagger.yaml" = [".", "out", "swagger.yaml"] := by
      decide +kernel
    refine locate_free_sampleProject ⟨by decide +kernel, by decide +kernel, by decide +kernel⟩
      hnames ?_
    cases ending <;> rfl
  have hfreeJson : (sampleProject []).locate .keep "././swagger.json" =
      .ok (.free [] "swagger.json") := by
    have hnames : components "././swagger.json" = [".", ".", "swagger.json"] := by decide +kernel
    exact locate_free_sampleProject ⟨by decide +kernel, by decide +kernel, by decide +kernel⟩
      hnames rfl
  have hlink : ¬ (sampleProject []).HasLinkAt "./out/swagger.yaml" := by
    rintro ⟨names, target, hkeep⟩
    cases (hfree .keep).symm.trans hkeep
  have hlinkJson : ¬ (sampleProject []).HasLinkAt "././swagger.json" := by
    rintro ⟨names, target, hkeep⟩
    cases hfreeJson.symm.trans hkeep
  obtain ⟨document, hdocument⟩ : ∃ document,
      Run.document yamlSettings (sampleProject []) = .ok document :=
    document_sampleProject (Or.inl rfl)
  have hrun := run_eq_written idleRenderer ⟨none, none⟩ hyaml hdocument
    (Or.inr ⟨["out"], "swagger.yaml", hfree .create, rfl⟩)
  obtain ⟨hwritten, hagain⟩ := hone yamlSettings _ _ hyaml hlink rfl
  have hfrom : RunsFrom idleRenderer ⟨none, none⟩ "." (sampleProject [])
      (run idleRenderer ⟨none, none⟩ yamlSettings (sampleProject [])).system :=
    RunsFrom.none.run rfl hyaml hlink
  have hlater := (hfrom.lookAlike.hasLinkAt_iff "././swagger.json").not.2 hlinkJson
  obtain ⟨-, hwriteAlike⟩ := hmany "." _ hfrom
  obtain ⟨-, halike⟩ := hwriteAlike jsonSettings _ rfl hjson hlater
  rcases hwritten with ⟨⟨fault, hfault⟩, -⟩ | ⟨-, sources, document', place, isProgram, hsources,
    hbuild, -, -, hthere, -⟩
  · rw [hrun] at hfault
    cases hfault
  · have hdocument' : Run.document yamlSettings (sampleProject []) = .ok document' := by
      rw [Run.document, hsources]
      exact hbuild
    exact ⟨document', _, place, isProgram, rfl, hdocument', hthere, congrArg Outcome.system hagain,
      halike⟩

end ApiShorthand
