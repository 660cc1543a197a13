import ApiShorthand.Proofs.Document.Grouping
import ApiShorthand.Proofs.Document.Parameters
import ApiShorthand.Proofs.Header
import ApiShorthand.Proofs.Schema.Regular

/-!
# Documents are read back

A document without a header is a regular value: its keys are distinct, none of its texts has white
space, and it nests ten values deep at most (`Document.regular_ofDeclarations`). So what is printed
for it as YAML is read as the same value again (`read_print_buildDocument`).
-/

namespace ApiShorthand

open Grammar Yaml

/-! ### Operations -/

namespace Parameter

theorem regular_path {name : String} (h : Unbroken name.toList) : Regular 1 (path name).toJson := by
  rw [toJson]
  refine .record ["name", "in", "required", "type"] rfl (by decide) ?_
  rw [List.forall_mem_cons, List.forall_mem_cons, List.forall_mem_cons, List.forall_mem_singleton]
  exact ⟨.string h, .text (by decide), .bool true, .text (by decide)⟩

theorem regular_body {schema : Schema} {depth : Nat} (h : Regular depth schema.toJson) :
    Regular (depth + 1) (body schema).toJson := by
  rw [toJson]
  refine .record ["name", "in", "required", "schema"] rfl (by decide) ?_
  rw [List.forall_mem_cons, List.forall_mem_cons, List.forall_mem_cons, List.forall_mem_singleton]
  exact ⟨.text (by decide), .text (by decide), .bool true, h⟩

end Parameter

namespace Operation

variable {operation : Operation} {depth : Nat}

theorem regular_responseJson (h : ∀ schema ∈ operation.response, Regular depth schema.toJson) :
    Regular (depth + 1) operation.responseJson := by
  have hdescription : Regular depth (.string "OK") := .text (by decide)
  rw [responseJson]
  cases hresponse : operation.response with
  | none => exact .record ["description"] rfl (by decide) (List.forall_mem_singleton.2 hdescription)
  | some schema =>
    have hschema := h schema (Option.mem_def.2 hresponse)
    exact .record ["description", "schema"] rfl (by decide)
      (List.forall_mem_cons.2 ⟨hdescription, List.forall_mem_singleton.2 hschema⟩)

theorem regular_toJson
    (hparameters : ∀ parameter ∈ operation.parameters, Regular (depth + 1) parameter.toJson)
    (hresponse : ∀ schema ∈ operation.response, Regular depth schema.toJson) :
    Regular (depth + 3) operation.toJson := by
  have hresponses : Regular (depth + 2) (.object [("200", operation.responseJson)]) :=
    .record ["200"] rfl (by decide) (List.forall_mem_singleton.2 (regular_responseJson hresponse))
  rw [toJson]
  cases operation.parameters.isEmpty with
  | true => exact .record ["responses"] rfl (by decide) (List.forall_mem_singleton.2 hresponses)
  | false =>
    have hlist : Regular (depth + 2) (.array (operation.parameters.map Parameter.toJson)) :=
      .array (List.forall_mem_map.2 hparameters)
    exact .record ["parameters", "responses"] rfl (by decide)
      (List.forall_mem_cons.2 ⟨hlist, List.forall_mem_singleton.2 hresponses⟩)

end Operation

/-! ### Paths -/

/-- The names between the braces of a path have no white space, as the path has none. -/
theorem Path.unbroken_of_mem_parameters {path name : String} (h : IsPathText path.toList)
    (hname : name ∈ parameters path) : Unbroken name.toList := by
  have hpart := (mem_parameters_iff.1 hname).2
  intro c hc
  refine h.isWord.visible c (hpart.subset ?_)
  rw [braced]
  exact List.mem_cons_of_mem _ (List.mem_append_left _ hc)

theorem Endpoint.IsWritten.regular_ofEndpoint {endpoint : Endpoint} (h : endpoint.IsWritten) :
    Regular 7 (Operation.ofEndpoint endpoint).toJson := by
  refine Operation.regular_toJson ?_ ?_
  · rw [Operation.ofEndpoint, List.forall_mem_append]
    constructor
    · refine List.forall_mem_map.2 fun name hname => ?_
      exact (Parameter.regular_path (Path.unbroken_of_mem_parameters h.path hname)).mono (by decide)
    · refine List.forall_mem_map.2 fun type htype => ?_
      obtain ⟨token, htoken⟩ := h.request type (Option.mem_toList.1 htype)
      exact (Parameter.regular_body (Schema.regular_ofTypeToken htoken).1).mono (by decide)
  · intro schema hschema
    rw [Operation.ofEndpoint, Operation.responseSchema?] at hschema
    obtain ⟨type, htype, rfl⟩ := Option.map_eq_some_iff.1 hschema
    obtain ⟨token, htoken⟩ := h.response type htype
    have hplain := (Schema.regular_ofElement htoken).1
    -- the response is of the type that was written, or an array of it
    split
    · exact (Schema.regular_array hplain false).mono (by decide)
    · exact hplain.mono (by decide)

namespace Document

theorem regular_itemOf {endpoints : List Endpoint} (h : ∀ endpoint ∈ endpoints, endpoint.IsWritten)
    (hdistinct : (endpoints.map Endpoint.operation).Nodup) (path : String) :
    Regular 8 (.object ((itemOf endpoints path).mapValues Operation.toJson)) := by
  rw [itemOf, Table.mapValues, List.map_map]
  refine .object ?_ ?_ ?_
  · have hmethods := Endpoint.nodup_methods_atPath hdistinct path
    rwa [List.map_map]
  · refine List.forall_mem_map.2 fun endpoint _ => unbroken_of_all ?_
    show (endpoint.method.key.toList.all fun c => !Text.isBlank c) = true
    cases endpoint.method <;> decide
  · refine List.forall_mem_map.2 fun endpoint hendpoint => ?_
    exact (h endpoint (List.mem_of_mem_filter hendpoint)).regular_ofEndpoint

theorem regular_pathsJson {endpoints : List Endpoint}
    (h : ∀ endpoint ∈ endpoints, endpoint.IsWritten)
    (hdistinct : (endpoints.map Endpoint.operation).Nodup) :
    Regular 9 (pathsJson (groupedPaths endpoints)) := by
  rw [pathsJson, groupedPaths, Table.tabulate, Table.mapValues, List.map_map]
  refine .object ?_ ?_ ?_
  · have hpaths := Endpoint.nodup_pathOrder endpoints
    rw [List.map_map]
    rwa [← List.map_id (Endpoint.pathOrder endpoints)] at hpaths
  · refine List.forall_mem_map.2 fun path hpath => ?_
    obtain ⟨endpoint, hendpoint, rfl⟩ := Endpoint.mem_pathOrder.1 hpath
    exact (h endpoint hendpoint).path.isWord.visible
  · exact List.forall_mem_map.2 fun path _ => regular_itemOf h hdistinct path

theorem regular_definitionsJson (options : Options) {models : List Model}
    (h : ∀ model ∈ models, model.IsWritten) (hdistinct : (models.map (·.name)).Nodup) :
    Regular 6 (definitionsJson
      (models.map fun model => (model.name, Schema.ofModel (model.complete options)))) := by
  rw [definitionsJson, Table.mapValues, List.map_map]
  refine .object ?_ ?_ ?_
  · rw [List.map_map]
    exact hdistinct
  · exact List.forall_mem_map.2 fun model hmodel => (h model hmodel).name.isWord.visible
  · exact List.forall_mem_map.2 fun model hmodel =>
      Schema.regular_ofModel ((h model hmodel).complete options)

/-- **A document of declarations** that can be written is a regular value. -/
theorem regular_ofDeclarations (options : Options) {models : List Model}
    {endpoints : List Endpoint} (hmodels : ∀ model ∈ models, model.IsWritten)
    (hnames : (models.map (·.name)).Nodup) (hendpoints : ∀ endpoint ∈ endpoints, endpoint.IsWritten)
    (hoperations : (endpoints.map Endpoint.operation).Nodup) :
    Regular 10 (ofDeclarations options models endpoints).toJson := by
  have hpaths := regular_pathsJson hendpoints hoperations
  have hdefinitions := regular_definitionsJson options hmodels hnames
  rw [toJson, sections, ofDeclarations]
  exact .record ["paths", "definitions"] rfl (by decide)
    (List.forall_mem_cons.2 ⟨hpaths, List.forall_mem_singleton.2 (hdefinitions.mono (by decide))⟩)

theorem regular_of_compile {modelsText endpointsText : String} {options : Options}
    {document : Document} (h : compile modelsText endpointsText options = .ok document) :
    Regular 10 document.toJson := by
  obtain ⟨models, endpoints, hmodels, hendpoints, -, rfl⟩ := compile_eq_ok_iff.1 h
  exact regular_ofDeclarations options (Model.isWritten_of_readAll hmodels)
    (Model.haveDistinctNames_of_readAll hmodels).modelNames
    (Endpoint.isWritten_of_readAll hendpoints) (Endpoint.nodup_operation_of_readAll hendpoints)

end Document

/-! ### Reading what was printed -/

/-- A blank header adds nothing to a document. -/
theorem Document.under_of_isBlankText (document : Document) {header : String}
    (h : Text.IsBlankText header.toList) : document.under header = .ok document.toJson := by
  rw [under, Header.read_of_isBlankText h]
  rfl

/-- **The YAML form means the document.** Whatever two texts compile to, with any options and a
blank header: the YAML that is printed for it is read as the value itself, with the same keys in the
same order at every level. -/
theorem read_print_buildDocument {header modelsText endpointsText : String} {options : Options}
    {value : Json} (hblank : Text.IsBlankText header.toList)
    (h : buildDocument header modelsText endpointsText options = .ok value) :
    Yaml.read (Yaml.print value) = .ok value := by
  obtain ⟨document, hcompile, hunder⟩ := Except.bind_eq_ok_iff.1 h
  rw [document.under_of_isBlankText hblank] at hunder
  cases hunder
  exact read_print ((Document.regular_of_compile hcompile).mono (by decide))

/-- Models whose names, and whose fields, are no plain words in YAML. -/
def obscureModels : String :=
  "null:\n  true*: string\n  y*: [E1]\nE1:\n  null*: datetime\n  e1: E1"

/-- An endpoint under a path of many octets, with marks, a control character and letters outside the
first plane in the names of its placeholders. -/
def obscureEndpoints : String :=
  "PUT /\x7bnull\x7d\x7b~\x7d/\x7b-\x7d:\x7b*\x7d/\x7b#\x7d/\x7b'\"\x7d/\x7b1e3\x7d" ++
  "/\x7b\x01\\\x7d/\x7b?:\x7d/\x7b%00\x7d\x7b𐌸𐌹𐌿𐌳𐌰𐌽𐌲𐌰𐍂𐌳𐌹𐌸𐌹𐌿𐌳𐌰𐌽𐌲𐌰𐍂𐌳𐌹\x7d\n  [E1]"

/-- Names that a YAML text cannot show without quotes, under a key that it cannot show in front of a
colon. -/
theorem read_print_buildDocument_obscure :
    ∃ value, buildDocument " \n" obscureModels obscureEndpoints ⟨true, true⟩ = .ok value ∧
      Yaml.read (Yaml.print value) = .ok value := by
  have hok : (buildDocument " \n" obscureModels obscureEndpoints ⟨true, true⟩).isOk = true := by
    decide +kernel
  cases hvalue : buildDocument " \n" obscureModels obscureEndpoints ⟨true, true⟩ with
  | error fault =>
    rw [hvalue] at hok
    cases hok
  | ok value =>
    exact ⟨value, rfl, read_print_buildDocument (List.all_eq_true.1 (by decide)) hvalue⟩

end ApiShorthand
